import EdgeFirewall.Attribute.Value
import EdgeFirewall.Text.Blank
import EdgeFirewall.Text.Split

/-! # Attribute schemas

A resource type declares the attributes it takes, each with a type, bounds on its number of
items, and what the host should know about it. `AttributeType.check` decides whether a value has
a type and names the first problem otherwise; `ResourceSchema.problems` lists every problem of an
attribute map. A nested block refuses keys it does not declare, a resource tolerates them. -/

namespace EdgeFirewall

/-- Why a value does not have a type. The last three say where inside the value to look. -/
inductive TypeError where
  | mismatch (expected : String) (got : Kind)
  | notVariant (value : String) (expected : List String)
  | refused (reason : String)
  | missing (name : String)
  | unknown (name : String)
  | tooFew (name : String) (count least : Nat)
  | tooMany (name : String) (count most : Nat)
  | inAttribute (name : String) (inner : TypeError)
  | inItem (index : Nat) (inner : TypeError)
  | inEntry (key : String) (inner : TypeError)
  deriving DecidableEq, Repr

/-- The wording of a type error. -/
def TypeError.message : TypeError → String
  | .mismatch expected got => s!"Type mismatch: expected {expected}, got {got.name}"
  | .notVariant value expected =>
    s!"Invalid enum variant '{value}', expected one of: " ++ ", ".intercalate expected
  | .refused reason => s!"Validation failed: {reason}"
  | .missing name => s!"Required attribute '{name}' is missing"
  | .unknown name => s!"Unknown attribute '{name}'"
  | .tooFew name count least => s!"Attribute '{name}' has {count} items, expected at least {least}"
  | .tooMany name count most => s!"Attribute '{name}' has {count} items, expected at most {most}"
  | .inAttribute name inner => s!"Attribute '{name}': {inner.message}"
  | .inItem index inner => s!"List item at index {index}: {inner.message}"
  | .inEntry key inner => s!"Map value for key '{key}': {inner.message}"

/-- A declared attribute whose values have a type of sort `τ`. -/
structure Field (τ : Type) where
  name : String
  type : τ
  required : Bool := false
  default : Option Value := none
  description : Option String := none
  /-- Least number of items of a list. -/
  minItems : Option Nat := none
  /-- Greatest number of items of a list. -/
  maxItems : Option Nat := none
  /-- A change of the attribute replaces the resource. -/
  forceNew : Bool := false
  /-- The remote side sets the attribute. -/
  computed : Bool := false
  deriving Inhabited

/-- The types of attributes. -/
inductive AttributeType where
  | string
  | int
  | bool
  | oneOf (variants : List String)
  /-- The values of a base type that a test accepts. -/
  | custom (name : String) (base : AttributeType) (test : Value → Except String Unit)
  | list (inner : AttributeType)
  | map (inner : AttributeType)
  | block (fields : List (Field AttributeType))

instance : Inhabited AttributeType := ⟨.string⟩

/-- The name of a type in messages. -/
def AttributeType.name : AttributeType → String
  | .string => "String"
  | .int => "Int"
  | .bool => "Bool"
  | .oneOf variants => "Enum(" ++ " | ".intercalate variants ++ ")"
  | .custom name _ _ => name
  | .list inner => "List<" ++ inner.name ++ ">"
  | .map inner => "Map<" ++ inner.name ++ ">"
  | .block _ => "Block"

/-! ### Checking a map against its fields -/

/-- What a field asks of a map: to be there, or only to have a fitting value where it is. -/
structure Requirement where
  name : String
  mandatory : Bool
  check : Value → Except TypeError Unit

namespace Field

variable {τ : Type}

/-- How the length of a list leaves the bounds of a field. -/
def boundsError (f : Field τ) : Value → Option TypeError
  | .list items =>
    match f.minItems.filter (items.length < ·), f.maxItems.filter (· < items.length) with
    | some least, _ => some (.tooFew f.name items.length least)
    | none, some most => some (.tooMany f.name items.length most)
    | none, none => none
  | _ => none

/-- Checks the bounds of a field, then the type of the value. -/
def checkWith (f : Field τ) (check : Value → Except TypeError Unit) (v : Value) :
    Except TypeError Unit :=
  match f.boundsError v with
  | some e => .error e
  | none => (check v).mapError (.inAttribute f.name)

/-- The requirement of a field, given how to check its type. -/
def requirement (f : Field τ) (check : Value → Except TypeError Unit) : Requirement where
  name := f.name
  mandatory := f.required && f.default.isNone
  check := f.checkWith check

end Field

/-- The mandatory fields a map does not have. -/
def missingFields (rs : List Requirement) (a : Attributes) : List TypeError :=
  (rs.filter fun r => r.mandatory && (a.lookup r.name).isNone).map (.missing ·.name)

/-- The problem of one entry of a map, checked against the first field of its name. -/
def entryProblem (rs : List Requirement) (closed : Bool) (entry : String × Value) :
    Option TypeError :=
  match rs.find? (·.name == entry.1) with
  | some r =>
    match r.check entry.2 with
    | .ok _ => none
    | .error e => some e
  | none => if closed then some (.unknown entry.1) else none

/-- The problems of the entries of a map, by increasing key. -/
def entryProblems (rs : List Requirement) (closed : Bool) (a : Attributes) : List TypeError :=
  a.filterMap (entryProblem rs closed)

/-- Fails with the first of some problems. -/
def firstProblem : List TypeError → Except TypeError Unit
  | [] => .ok ()
  | e :: _ => .error e

/-- Checks the items of a list from an index on, up to the first problem. -/
def checkItems (check : Value → Except TypeError Unit) (index : Nat) :
    List Value → Except TypeError Unit
  | [] => .ok ()
  | v :: rest =>
    match check v with
    | .ok _ => checkItems check (index + 1) rest
    | .error e => .error (.inItem index e)

/-- Checks the values of a map by increasing key, up to the first problem. -/
def checkEntries (check : Value → Except TypeError Unit) : Attributes → Except TypeError Unit
  | [] => .ok ()
  | (k, v) :: rest =>
    match check v with
    | .ok _ => checkEntries check rest
    | .error e => .error (.inEntry k e)

/-- Whether a text is one of the variants, as it stands or after its last dot. -/
def namesVariant (variants : List String) (s : String) : Bool :=
  variants.any fun v => v == Text.afterLast '.' s || s == v

mutual

/-- Checks that a value has a type; a failure is the first problem met. -/
def AttributeType.check : AttributeType → Value → Except TypeError Unit
  | .string, .string _ => .ok ()
  | .int, .int _ => .ok ()
  | .bool, .bool _ => .ok ()
  | .oneOf variants, .string s =>
    if namesVariant variants s then .ok () else .error (.notVariant s variants)
  | .custom _ base test, v =>
    match base.check v with
    | .ok _ => (test v).mapError .refused
    | .error e => .error e
  | .list inner, .list items => checkItems inner.check 0 items
  | .map inner, .map entries => checkEntries inner.check entries
  | .block fields, .map entries =>
    let rs := AttributeType.requirements fields
    firstProblem (missingFields rs entries ++ entryProblems rs true entries)
  | t, v => .error (.mismatch t.name v.kind)
termination_by structural t => t

/-- The requirements of the fields of a block. -/
def AttributeType.requirements : List (Field AttributeType) → List Requirement
  | [] => []
  | ⟨name, type, required, default, description, least, most, forceNew, computed⟩ :: rest =>
    Field.requirement ⟨name, type, required, default, description, least, most, forceNew, computed⟩
      type.check :: AttributeType.requirements rest
termination_by structural fields => fields

end

/-- The type `f.type` decides what a field asks for. -/
theorem AttributeType.requirements_eq_map (fields : List (Field AttributeType)) :
    AttributeType.requirements fields = fields.map fun f => f.requirement f.type.check := by
  induction fields with
  | nil => rfl
  | cons f rest ih => cases f; simp [AttributeType.requirements, ih]

/-! ### Resource schemas -/

/-- A field whose type is an attribute type. -/
abbrev AttributeField := Field AttributeType

/-- The schema of a resource type. Its fields stand by increasing name, each name once. -/
structure ResourceSchema where
  resourceType : String
  fields : List AttributeField := []
  description : Option String := none

namespace ResourceSchema

/-- Puts a field in its place, instead of an earlier one of the same name. -/
def insertField (f : AttributeField) : List AttributeField → List AttributeField
  | [] => [f]
  | g :: rest =>
    if f.name < g.name then f :: g :: rest
    else if g.name < f.name then g :: insertField f rest
    else f :: rest

/-- A schema with the given fields; of two with one name the later counts. -/
def ofFields (resourceType : String) (fields : List AttributeField) : ResourceSchema where
  resourceType
  fields := fields.foldl (fun fs f => insertField f fs) []

/-- The names of the attributes whose change replaces the resource, in increasing order. -/
def forceNewNames (s : ResourceSchema) : List String :=
  (s.fields.filter (·.forceNew)).map (·.name)

/-- What the fields of a schema ask of an attribute map. -/
def requirements (s : ResourceSchema) : List Requirement :=
  AttributeType.requirements s.fields

/-- Every problem of an attribute map: first the missing attributes, ordered by their messages,
then the ill-typed ones by name. Attributes that the schema does not declare are tolerated. -/
def problems (s : ResourceSchema) (a : Attributes) : List TypeError :=
  (missingFields s.requirements a).mergeSort (fun e f => e.message ≤ f.message) ++
    entryProblems s.requirements false a

/-- Checks an attribute map; a failure lists every problem. -/
def check (s : ResourceSchema) (a : Attributes) : Except (List TypeError) Unit :=
  match s.problems a with
  | [] => .ok ()
  | e :: rest => .error (e :: rest)

end ResourceSchema

/-! ### Common types -/

namespace AttributeType

/-- Integers that are not negative. -/
def nonNegativeInt : AttributeType :=
  .custom "NonNegativeInt" .int fun
    | .int n => if 0 ≤ n then .ok () else .error "Value must not be negative"
    | _ => .error "Expected integer"

/-- Texts that are not blank. -/
def nonEmptyString : AttributeType :=
  .custom "NonEmptyString" .string fun
    | .string s => if Text.isBlankText s then .error "Value must not be empty" else .ok ()
    | _ => .error "Expected string"

end AttributeType

end EdgeFirewall
