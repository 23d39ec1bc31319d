import EdgeFirewall.Proofs.Policy.Import

/-! # Services that do not keep modifiers

The modifier of a condition is an extension that a service need not echo. In a document that came
back without modifiers (`Document.withoutModifiers`), the negation of a condition still tells
whether it is inverted, but no longer whether it was written with `Contains`: what is described is
the plain policy (`Policy.plain`). Nothing else gets lost, and no condition is turned into its
opposite (`ofAttributes_withoutModifiers`). -/

namespace EdgeFirewall

/-! ### Losing modifiers -/

namespace Document

def Condition.withoutModifier (c : Condition) : Condition :=
  { c with modifier := none }

def Rule.withoutModifiers (r : Rule) : Rule :=
  { r with conditions := r.conditions.map Condition.withoutModifier }

def RuleList.withoutModifiers (list : RuleList) : RuleList :=
  { list with rules := list.rules.map (·.map Rule.withoutModifiers) }

def Properties.withoutModifiers (p : Properties) : Properties :=
  { p with customRules := p.customRules.map RuleList.withoutModifiers }

/-- A document as a service returns it that does not know modifiers. -/
def withoutModifiers (d : Document) : Document :=
  { d with properties := d.properties.map Properties.withoutModifiers }

end Document

namespace Attributes

/-- Changes what stands under a key. -/
def modify (key : String) (f : Value → Value) (a : Attributes) : Attributes :=
  a.map fun e => if e.1 = key then (e.1, f e.2) else e

end Attributes

namespace Value

/-- Changes each map in a list. -/
def modifyBlocks (f : Attributes → Attributes) : Value → Value
  | .list items => .list (items.map fun
    | .map a => .map (f a)
    | v => v)
  | v => v

end Value

namespace Policy

/-- What is left of a modifier: whether it inverts. -/
def plainModifier : Value → Value
  | .string "Contains" => .string "Is"
  | .string "Not Contains" => .string "Is Not"
  | v => v

/-- The attributes of a policy, with no more than `Is` and `Is Not` in its conditions. -/
def plainAttributes (a : Attributes) : Attributes :=
  a.modify "custom_rule" <| Value.modifyBlocks fun rule =>
    rule.modify "match_condition" <| Value.modifyBlocks fun condition =>
      condition.modify "condition" plainModifier

/-! ### Plain policies -/

def Condition.plain (c : Condition) : Condition :=
  { c with modifier := .ofNegated c.modifier.isNegated }

def Rule.plain (r : Rule) : Rule :=
  { r with conditions := r.conditions.map Condition.plain }

/-- The policy whose conditions have the plain modifiers that invert as those of the given one. -/
def plain (p : Policy) : Policy :=
  { p with rules := p.rules.map Rule.plain }

open Reading Block Document

/-! ### The attributes of plain policies -/

theorem Condition.toAttributes_withoutModifier (c : Condition) :
    c.toDocument.withoutModifier.toAttributes = c.plain.toDocument.toAttributes := rfl

theorem Rule.toAttributes_withoutModifiers (r : Rule) :
    r.toDocument.withoutModifiers.toAttributes = r.plain.toDocument.toAttributes := by
  unfold Document.Rule.toAttributes Document.Rule.withoutModifiers toDocument plain
  simp only [List.map_map, Function.comp_def, Condition.toAttributes_withoutModifier]

theorem Condition.toAttributes_plain (c : Condition) : c.plain.toDocument.toAttributes =
    c.toDocument.toAttributes.modify "condition" plainModifier := by
  cases ht : c.target with
  | whole v =>
      have hplain : c.plain.target = .whole v := ht
      rw [toAttributes_toDocument_whole ht, toAttributes_toDocument_whole hplain, plain]
      cases c.modifier <;> rfl
  | keyed s =>
      have hplain : c.plain.target = .keyed s := ht
      rw [toAttributes_toDocument_keyed ht, toAttributes_toDocument_keyed hplain, plain]
      cases c.modifier <;> rfl

theorem Rule.toAttributes_plain (r : Rule) : r.plain.toDocument.toAttributes =
    r.toDocument.toAttributes.modify "match_condition" (Value.modifyBlocks fun condition =>
      condition.modify "condition" plainModifier) := by
  rw [toAttributes_toDocument, toAttributes_toDocument, plain]
  cases r.blockBody <;>
    simp [Attributes.modify, Value.modifyBlocks, Attributes.entry?, Condition.toAttributes_plain]

/-- The attributes of the plain policy are those of the policy, made plain. -/
theorem attributesIn_plain (p : Policy) (mode : PolicyMode) (name group : String) :
    p.plain.toDocument.attributesIn mode name group =
      plainAttributes (p.toDocument.attributesIn mode name group) := by
  rw [attributesIn_toDocument, attributesIn_toDocument, plain]
  cases p.blockBody <;> cases p.blockStatusCode <;> cases p.redirectUrl <;>
    simp [plainAttributes, Attributes.modify, Value.modifyBlocks, Attributes.entry?,
      Rule.toAttributes_plain]

theorem ruleList_toDocument {p : Policy} {properties : Properties}
    (h : p.toDocument.properties = some properties) :
    properties.ruleList = p.rules.map Rule.toDocument := by
  obtain rfl := Option.some.inj h
  unfold Properties.ruleList
  cases p.rules <;> rfl

/-- Without modifiers, the document of a policy describes the plain policy. -/
theorem attributesIn_withoutModifiers (p : Policy) (mode : PolicyMode) (name group : String) :
    p.toDocument.withoutModifiers.attributesIn mode name group =
      p.plain.toDocument.attributesIn mode name group := by
  obtain ⟨_, _, _, _, _, _, _, rules, _, _, _⟩ := p
  cases rules with
  | nil => rfl
  | cons r rest =>
      simp [Document.attributesIn, withoutModifiers, Properties.withoutModifiers,
        RuleList.withoutModifiers, toDocument, plain, nonEmpty?, settings,
        Rule.toAttributes_withoutModifiers]

/-! ### What plain policies share with those that they come from -/

/-- Whether a rule can be imported does not depend on the modifiers of its conditions. -/
theorem Rule.importable_plain {r : Rule} (h : r.toDocument.Importable) :
    r.plain.toDocument.Importable := by
  obtain ⟨hname, hpriority, hminutes, hthreshold, hbody, hcount, hconditions⟩ := h
  refine ⟨hname, hpriority, hminutes, hthreshold, hbody, ?_, ?_⟩
  · simpa [toDocument, plain] using hcount
  · intro d hd
    obtain ⟨c, hc, rfl⟩ : ∃ c ∈ r.conditions, c.plain.toDocument = d := by
      simpa [toDocument, plain] using hd
    obtain ⟨hvalueCount, hvalues, htransforms⟩ := hconditions _ (List.mem_map_of_mem hc)
    exact ⟨hvalueCount, hvalues, htransforms⟩

theorem importable_plain {p : Policy} (h : p.toDocument.Importable) :
    p.plain.toDocument.Importable := by
  intro properties hproperties
  obtain ⟨hsettings, hcount, hnames, hrules, hsetCount, hsets, hlinkCount, hlinks⟩ := h _ rfl
  have hlist : properties.ruleList = (p.rules.map Rule.plain).map Rule.toDocument :=
    ruleList_toDocument hproperties
  have hplainNames : properties.ruleList.map (·.name) =
      (p.rules.map Rule.toDocument).map (·.name) := by
    rw [hlist, List.map_map, List.map_map, List.map_map]
    rfl
  rw [ruleList_toDocument rfl] at hcount hnames hrules
  obtain rfl := Option.some.inj hproperties
  refine ⟨hsettings, ?_, ?_, ?_, hsetCount, hsets, hlinkCount, hlinks⟩
  · simpa [hlist] using hcount
  · rw [hplainNames]
    exact hnames
  · intro d hd
    obtain ⟨r, hr, rfl⟩ : ∃ r ∈ p.rules, r.plain.toDocument = d := by simpa [hlist] using hd
    exact Rule.importable_plain (hrules _ (List.mem_map_of_mem hr))

theorem Condition.withoutModifier_normalForm_plain (c : Condition) :
    (c.plain.toDocument.normalForm MatchVariable.isKeyed).withoutModifier =
      (c.toDocument.normalForm MatchVariable.isKeyed).withoutModifier := by
  simp [toDocument, plain, Document.Condition.normalForm, Document.Condition.withoutModifier]

theorem Rule.withoutModifiers_normalForm_plain (r : Rule) :
    (r.plain.toDocument.normalForm MatchVariable.isKeyed).withoutModifiers =
      (r.toDocument.normalForm MatchVariable.isKeyed).withoutModifiers := by
  simp [toDocument, plain, Document.Rule.normalForm, Document.Rule.withoutModifiers,
    Condition.withoutModifier_normalForm_plain]

/-- Of the normal form, only the custom rules had modifiers. -/
theorem customRules_withoutModifiers_normalForm (properties : Properties) :
    (properties.normalForm MatchVariable.isKeyed).withoutModifiers.customRules =
      (nonEmpty? (properties.ruleList.map fun r =>
        (r.normalForm MatchVariable.isKeyed).withoutModifiers)).map fun rs => ⟨some rs⟩ := by
  unfold Properties.withoutModifiers Properties.normalForm
  cases properties.ruleList with
  | nil => rfl
  | cons r rest => simp [nonEmpty?, RuleList.withoutModifiers]

/-- The normal forms of both documents differ in modifiers only. -/
theorem withoutModifiers_normalForm_plain (p : Policy) :
    (p.plain.toDocument.normalForm MatchVariable.isKeyed).withoutModifiers =
      (p.toDocument.normalForm MatchVariable.isKeyed).withoutModifiers := by
  -- The two documents have the same members but for the custom rules, which may be left out.
  have hproperties : ∀ P P' : Properties, p.toDocument.properties = some P →
      p.plain.toDocument.properties = some P' →
      (P'.normalForm MatchVariable.isKeyed).withoutModifiers =
        (P.normalForm MatchVariable.isKeyed).withoutModifiers := by
    intro P P' hP hP'
    have hrules : (P'.normalForm MatchVariable.isKeyed).withoutModifiers.customRules =
        (P.normalForm MatchVariable.isKeyed).withoutModifiers.customRules := by
      rw [customRules_withoutModifiers_normalForm, customRules_withoutModifiers_normalForm,
        ruleList_toDocument hP, ruleList_toDocument hP', plain]
      simp only [List.map_map, Function.comp_def, Rule.withoutModifiers_normalForm_plain]
    obtain rfl := Option.some.inj hP
    obtain rfl := Option.some.inj hP'
    exact (Properties.mk.injEq ..).mpr ⟨rfl, hrules, rfl, rfl, rfl, rfl⟩
  have hsame := congrArg some (hproperties _ _ rfl rfl)
  exact (Document.mk.injEq ..).mpr ⟨rfl, rfl, rfl, rfl, rfl, rfl, hsame⟩

/-! ### Reading what came back without modifiers -/

section

variable {a : Attributes} {p : Policy} {mode : PolicyMode} {name group : String}

/-- What was read from attributes is read from those of its document. -/
theorem ofBlock_toDocument (h : ofAttributes a = .ok p) :
    ofBlock ⟨[], p.toDocument.attributesIn p.mode p.name p.resourceGroup⟩ = .ok p := by
  have hread := ofAttributes_eq_ok_iff.mp h
  rw [← canonical_eq_of_ofBlock hread]
  exact ofBlock_canonical hread []

/-- A document that asks for a policy can be imported exactly if its attributes can be read. -/
theorem importable_toDocument_iff (hname : IsFilled name) (hgroup : IsFilled group) :
    p.toDocument.Importable ↔
      ∃ q, ofAttributes (p.toDocument.attributesIn mode name group) = .ok q := by
  rw [exists_ofAttributes_iff, violations_ofBlock_eq_nil_iff rfl rfl hname hgroup]
  constructor
  · intro himportable
    exact himportable _ rfl
  · rintro himportable properties hproperties
    obtain rfl := Option.some.inj hproperties
    exact himportable

theorem toDocument_of_attributesIn {q : Policy}
    (h : ofBlock ⟨[], p.toDocument.attributesIn p.mode name group⟩ = .ok q) :
    q.toDocument = p.toDocument.normalForm MatchVariable.isKeyed :=
  toDocument_of_ofBlock rfl rfl rfl h

/-- A service that does not keep modifiers keeps everything else. If the document that asks for a
policy comes back without them, its attributes are those of the policy, with `Is` or `Is Not` in
each condition. A policy is read from them, and asks for the same, negations included, but for the
modifiers. -/
theorem ofAttributes_withoutModifiers (h : ofAttributes a = .ok p) :
    ∃ m q, p.toDocument.toAttributes p.name p.resourceGroup = .ok m ∧
      p.toDocument.withoutModifiers.toAttributes p.name p.resourceGroup =
        .ok (plainAttributes m) ∧
      ofAttributes (plainAttributes m) = .ok q ∧
      q.toDocument.withoutModifiers = p.toDocument.withoutModifiers := by
  obtain ⟨hname, hgroup, -⟩ := ofBlock_eq_ok_iff.mp (ofAttributes_eq_ok_iff.mp h)
  have hfilled : IsFilled p.name := required_ensures text_ensures hname
  have hfilledGroup : IsFilled p.resourceGroup := required_ensures text_ensures hgroup
  have hread := ofBlock_toDocument h
  have himportable : p.plain.toDocument.Importable :=
    importable_plain ((importable_toDocument_iff hfilled hfilledGroup).mpr
      ⟨p, ofAttributes_eq_ok_iff.mpr hread⟩)
  have hplain : ∃ q, ofAttributes
      (p.plain.toDocument.attributesIn p.mode p.name p.resourceGroup) = .ok q :=
    (importable_toDocument_iff hfilled hfilledGroup).mp himportable
  obtain ⟨q, hq⟩ := hplain
  have hdocuments : q.toDocument.withoutModifiers = p.toDocument.withoutModifiers :=
    calc q.toDocument.withoutModifiers
        = (p.plain.toDocument.normalForm MatchVariable.isKeyed).withoutModifiers := by
          rw [toDocument_of_attributesIn (ofAttributes_eq_ok_iff.mp hq)]
      _ = (p.toDocument.normalForm MatchVariable.isKeyed).withoutModifiers :=
          withoutModifiers_normalForm_plain p
      _ = p.toDocument.withoutModifiers := by rw [← toDocument_of_attributesIn hread]
  have hwritten : p.toDocument.withoutModifiers.toAttributes p.name p.resourceGroup =
      .ok (plainAttributes (p.toDocument.attributesIn p.mode p.name p.resourceGroup)) := by
    rw [← attributesIn_plain, ← attributesIn_withoutModifiers]
    rfl
  rw [attributesIn_plain] at hq
  exact ⟨_, q, rfl, hwritten, hq, hdocuments⟩

end

/-- The attributes of a policy with one rule, whose conditions have modifiers that get lost. -/
def modifiedAttributes : Attributes := [
  ("custom_rule", .list [.map [
    ("action", .string "Block"),
    ("match_condition", .list [
      .map [
        ("condition", .string "Not Contains"),
        ("match_value", .list [.string "/admin"]),
        ("match_variable", .string "RequestUri"),
        ("operator", .string "Any")],
      .map [
        ("condition", .string "Contains"),
        ("match_value", .list [.string "curl"]),
        ("operator", .string "Any"),
        ("selector", .string "RequestHeader")]]),
    ("name", .string "agents"),
    ("rule_type", .string "MatchRule")]]),
  ("mode", .string "Prevention"),
  ("name", .string "edge"),
  ("resource_group_name", .string "web")]

theorem ofAttributes_withoutModifiers_modified :
    ∃ p m q, ofAttributes modifiedAttributes = .ok p ∧
      p.toDocument.withoutModifiers ≠ p.toDocument ∧
      p.toDocument.toAttributes p.name p.resourceGroup = .ok m ∧
      p.toDocument.withoutModifiers.toAttributes p.name p.resourceGroup =
        .ok (plainAttributes m) ∧
      ofAttributes (plainAttributes m) = .ok q ∧
      q.toDocument.withoutModifiers = p.toDocument.withoutModifiers := by
  have hvalid : (ofAttributes modifiedAttributes).isOk = true := by decide +kernel
  have hlost : ∀ p, (ofAttributes modifiedAttributes).toOption = some p →
      p.toDocument.withoutModifiers ≠ p.toDocument := by
    decide +kernel
  obtain ⟨p, hp⟩ := exists_of_isOk hvalid
  obtain ⟨m, q, hm, hplain, hq, hsame⟩ := ofAttributes_withoutModifiers hp
  exact ⟨p, m, q, hp, hlost p (by rw [hp]; rfl), hm, hplain, hq, hsame⟩

end Policy

end EdgeFirewall
