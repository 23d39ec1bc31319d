import EdgeFirewall.Policy.Violation
import EdgeFirewall.Text.Base64
import EdgeFirewall.Text.Blank

/-! # The constraints on policies

What is asked of an attribute map that declares a policy, as data: the entries of each block, with
the shape of what may stand there (`Shape`), and what it means that one is absent. `Violated` says
which constraints a value violates, and where, whatever order a reading takes them in. A policy asks
for one more thing that is not a matter of shape, namely that its rules have distinct names
(`Policy.RepeatsName`). -/

namespace EdgeFirewall

/-- What a single value has to be. -/
inductive Scalar where
  | text
  | truth
  | number (least most : Int)
  | statusCode
  | base64
  | word (typeName : String) (spellings : List String)

namespace Scalar

def kind : Scalar → Kind
  | .truth => .bool
  | .number _ _ | .statusCode => .int
  | .text | .base64 | .word _ _ => .string

/-- Why a value is not what it has to be. -/
inductive Fails : Scalar → Value → Reason → Prop where
  | wrongKind {s v} (h : v.kind ≠ s.kind) : Fails s v (.wrongKind s.kind v.kind)
  | blankText {t} (h : Text.isBlankText t = true) : Fails .text (.string t) .blank
  | blankBase64 {t} (h : Text.isBlankText t = true) : Fails .base64 (.string t) .blank
  | notBase64 {t} (hfilled : Text.isBlankText t = false) (h : Text.isBase64 t = false) :
    Fails .base64 (.string t) .notBase64
  | outOfRange {least most n} (h : ¬ (least ≤ n ∧ n ≤ most)) :
    Fails (.number least most) (.int n) (.outOfRange least most n)
  | codeOutOfRange {n} (h : ¬ (0 ≤ n ∧ n ≤ 2147483647)) :
    Fails .statusCode (.int n) (.outOfRange 0 2147483647 n)
  | badStatusCode {n} (hrange : 0 ≤ n ∧ n ≤ 2147483647) (h : n ∉ [200, 403, 405, 406, 429]) :
    Fails .statusCode (.int n) (.badStatusCode n)
  | unknownVariant {typeName spellings t} (h : unqualified t ∉ spellings) :
    Fails (.word typeName spellings) (.string t)
      (.unknownVariant ⟨typeName, unqualified t, spellings⟩)

end Scalar

/-- What it means that an entry of a block is absent. A list that is absent counts as empty. -/
inductive Absence where
  | fine
  | missing
  | tooFew (least : Nat)

/-- The constraint that an absent entry violates. -/
def Absence.reason? : Absence → Option Reason
  | .fine => none
  | .missing => some .missing
  | .tooFew least => some (.tooFew least 0)

/-- An entry of a block, where `σ` are the shapes of what may stand in it. -/
structure Entry (σ : Type) where
  key : String
  shape : σ
  absence : Absence := .fine

/-- The shapes of values: single values, tables of texts, lists with a bounded number of items, and
blocks with their entries. Of two entries of a block there may be a choice: one must be there, and
only one. -/
inductive Shape where
  | single (s : Scalar)
  | texts
  | list (least most : Nat) (item : Shape)
  | block (entries : List (Entry Shape)) (choice : Option (String × String))

/-- The violations of a value that stands at a path and should have a shape. -/
inductive Shape.Violated : Shape → Path → Value → Violation → Prop where
  | single {s p v r} (h : s.Fails v r) : Violated (.single s) p v ⟨p, r⟩
  | notTexts {p v} (h : v.kind ≠ .map) : Violated .texts p v ⟨p, .wrongKind .map v.kind⟩
  | notText {p a k v} (he : (k, v) ∈ a) (h : v.kind ≠ .string) :
    Violated .texts p (.map a) ⟨p ++ [.key k], .wrongKind .string v.kind⟩
  | notList {least most item p v} (h : v.kind ≠ .list) :
    Violated (.list least most item) p v ⟨p, .wrongKind .list v.kind⟩
  | tooFew {least most item p items} (h : items.length < least) :
    Violated (.list least most item) p (.list items) ⟨p, .tooFew least items.length⟩
  | tooMany {least most item p items} (h : most < items.length) :
    Violated (.list least most item) p (.list items) ⟨p, .tooMany most items.length⟩
  | item {least most item p items i v x} (hi : items[i]? = some v)
    (h : Violated item (p ++ [.index i]) v x) : Violated (.list least most item) p (.list items) x
  | notBlock {entries choice p v} (h : v.kind ≠ .map) :
    Violated (.block entries choice) p v ⟨p, .wrongKind .map v.kind⟩
  | unknown {entries choice p a k v} (he : (k, v) ∈ a) (h : ∀ e ∈ entries, e.key ≠ k) :
    Violated (.block entries choice) p (.map a) ⟨p ++ [.key k], .unknownAttribute⟩
  | absent {entries choice p a e r} (he : e ∈ entries) (hv : a.lookup e.key = none)
    (h : e.absence.reason? = some r) :
    Violated (.block entries choice) p (.map a) ⟨p ++ [.key e.key], r⟩
  | entry {entries choice p a e v x} (he : e ∈ entries) (hv : a.lookup e.key = some v)
    (h : Violated e.shape (p ++ [.key e.key]) v x) : Violated (.block entries choice) p (.map a) x
  | both {entries k l p a} (hk : (a.lookup k).isSome = true) (hl : (a.lookup l).isSome = true) :
    Violated (.block entries (some (k, l))) p (.map a) ⟨p, .twoTargets⟩
  | neither {entries k l p a} (hk : a.lookup k = none) (hl : a.lookup l = none) :
    Violated (.block entries (some (k, l))) p (.map a) ⟨p, .noTarget⟩

/-- The violations that an entry of a block at a path has. -/
def Entry.Violated (e : Entry Shape) (p : Path) (a : Attributes) (x : Violation) : Prop :=
  match a.lookup e.key with
  | some v => e.shape.Violated (p ++ [.key e.key]) v x
  | none => ∃ r, e.absence.reason? = some r ∧ x = ⟨p ++ [.key e.key], r⟩

namespace Policy

/-- The members of a vocabulary. -/
def wordShape (α : Type) [Vocabulary α] : Shape :=
  .single (.word (Vocabulary.typeName α) (Vocabulary.spellings α))

def Condition.shape : Shape := .block [
  ⟨"match_variable", wordShape MatchVariable, .fine⟩,
  ⟨"selector", wordShape SelectorVariable, .fine⟩,
  ⟨"operator", wordShape Operator, .missing⟩,
  ⟨"condition", wordShape ConditionModifier, .fine⟩,
  ⟨"match_value", .list 1 100 (.single .text), .tooFew 1⟩,
  ⟨"transforms", .list 0 5 (wordShape Transform), .fine⟩] (some ("match_variable", "selector"))

def Rule.entries : List (Entry Shape) := [
  ⟨"name", .single .text, .missing⟩,
  ⟨"priority", .single (.number 0 2147483647), .fine⟩,
  ⟨"enabled", .single .truth, .fine⟩,
  ⟨"rule_type", wordShape RuleType, .missing⟩,
  ⟨"rate_limit_duration_in_minutes", .single (.number 0 5), .fine⟩,
  ⟨"rate_limit_threshold", .single (.number 0 2147483647), .fine⟩,
  ⟨"action", wordShape ActionType, .missing⟩,
  ⟨"custom_block_response_body", .single .base64, .fine⟩,
  ⟨"match_condition", .list 0 100 Condition.shape, .fine⟩]

def Rule.shape : Shape := .block entries none

def RuleOverride.shape : Shape := .block [
  ⟨"rule_id", .single .text, .missing⟩,
  ⟨"enabled", .single .truth, .fine⟩,
  ⟨"action", wordShape ActionType, .missing⟩] none

def GroupOverride.shape : Shape := .block [
  ⟨"rule_group_name", .single .text, .missing⟩,
  ⟨"rule", .list 0 1000 RuleOverride.shape, .fine⟩] none

def RuleSet.shape : Shape := .block [
  ⟨"type", .single .text, .missing⟩,
  ⟨"version", .single .text, .missing⟩,
  ⟨"override", .list 0 100 GroupOverride.shape, .fine⟩] none

/-- The entries of a policy. It may hold others, too. -/
def entries : List (Entry Shape) := [
  ⟨"name", .single .text, .missing⟩,
  ⟨"resource_group_name", .single .text, .missing⟩,
  ⟨"enabled", .single .truth, .fine⟩,
  ⟨"mode", wordShape PolicyMode, .missing⟩,
  ⟨"redirect_url", .single .text, .fine⟩,
  ⟨"custom_block_response_status_code", .single .statusCode, .fine⟩,
  ⟨"custom_block_response_body", .single .base64, .fine⟩,
  ⟨"custom_rule", .list 0 100 Rule.shape, .fine⟩,
  ⟨"managed_rule", .list 0 100 RuleSet.shape, .fine⟩,
  ⟨"frontend_endpoint_ids", .list 0 1000 (.single .text), .fine⟩,
  ⟨"tags", .texts, .fine⟩]

/-- What a rule is known by: its name, its type and numbers, and its action. -/
def Rule.headKeys : List String :=
  ["name", "priority", "rule_type", "rate_limit_duration_in_minutes", "rate_limit_threshold",
    "action"]

/-- A rule has a name, and nothing that it is known by is violated. -/
def Rule.HasHead (p : Path) (r : Attributes) (name : String) : Prop :=
  r.lookup "name" = some (.string name) ∧
    ∀ e ∈ entries, e.key ∈ headKeys → ∀ x, ¬ e.Violated p r x

/-- A rule of a policy, at an index, that has a head with a name. -/
def HasRule (a : Attributes) (i : Nat) (name : String) : Prop :=
  ∃ items r, a.lookup "custom_rule" = some (.list items) ∧ items[i]? = some (.map r) ∧
    Rule.HasHead [.key "custom_rule", .index i] r name

/-- The violations of rules that have the name of an earlier one. -/
def RepeatsName (a : Attributes) (x : Violation) : Prop :=
  ∃ i j name, i < j ∧ HasRule a i name ∧ HasRule a j name ∧
    x = ⟨[.key "custom_rule", .index j, .key "name"], .duplicateRule name⟩

/-- The violations of an attribute map that should declare a policy. -/
def Violates (a : Attributes) (x : Violation) : Prop :=
  (∃ e ∈ entries, e.Violated [] a x) ∨ RepeatsName a x

end Policy

end EdgeFirewall
