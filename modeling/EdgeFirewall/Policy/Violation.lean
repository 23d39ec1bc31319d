import EdgeFirewall.Attribute.Value
import EdgeFirewall.Policy.Basic
import EdgeFirewall.Text.Quoted
import EdgeFirewall.Vocabulary.Basic

/-! # Violations

A violation says where in an attribute map a constraint on policies fails, and which one. -/

namespace EdgeFirewall

/-- One step into a value: to an entry of a map, or to an item of a list. -/
inductive Step where
  | key (name : String)
  | index (i : Nat)
  deriving DecidableEq, Repr

/-- The way from an attribute map to a value in it. -/
abbrev Path := List Step

/-- The text of the steps of a path after its first. -/
def Path.tailText : Path → String
  | [] => ""
  | .key name :: rest => "." ++ name ++ tailText rest
  | .index i :: rest => s!"[{i}]" ++ tailText rest

/-- The text of a path, as in `rule[2].name`. -/
def Path.text : Path → String
  | .key name :: rest => name ++ tailText rest
  | path => path.tailText

/-- The constraints that a value of a policy may fail. -/
inductive Reason where
  | missing
  | blank
  | wrongKind (expected got : Kind)
  | outOfRange (least most got : Int)
  | badStatusCode (got : Int)
  | notBase64
  | unknownVariant (e : UnknownVariant)
  | tooFew (least count : Nat)
  | tooMany (most count : Nat)
  | noTarget
  | twoTargets
  | unknownAttribute
  | duplicateRule (name : String)
  /-- The value may not change while the policy stays in place. -/
  | replaced (old new : String)
  /-- Nothing was read, and nothing else tells why. -/
  | undecodable
  deriving DecidableEq, Repr

/-- The wording of a reason. -/
def Reason.message : Reason → String
  | .missing => "required attribute is missing"
  | .blank => "must not be empty"
  | .wrongKind expected got => s!"expected {expected.name}, got {got.name}"
  | .outOfRange least most got => s!"must be between {least} and {most}, got {got}"
  | .badStatusCode got =>
    "must be one of [" ++ ", ".intercalate (Policy.blockStatusCodes.map toString) ++
      s!"], got {got}"
  | .notBase64 => "must be base64 encoded"
  | .unknownVariant e => e.message
  | .tooFew least count => s!"must have at least {least} item(s), got {count}"
  | .tooMany most count => s!"must have at most {most} item(s), got {count}"
  | .noTarget => "one of match_variable or selector must be set"
  | .twoTargets => "only one of match_variable or selector may be set"
  | .unknownAttribute => "unknown attribute"
  | .duplicateRule name => s!"duplicate custom rule name '{name}'"
  | .replaced old new =>
    "cannot change from " ++ Text.quoted old ++ " to " ++ Text.quoted new ++
      " in place, the policy must be replaced"
  | .undecodable => "configuration could not be decoded"

/-- A constraint that fails at a path. -/
structure Violation where
  path : Path
  reason : Reason
  deriving DecidableEq, Repr

/-- The wording of a violation. -/
def Violation.message (v : Violation) : String :=
  v.path.text ++ ": " ++ v.reason.message

end EdgeFirewall
