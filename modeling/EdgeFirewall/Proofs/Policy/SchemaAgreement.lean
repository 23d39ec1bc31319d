import EdgeFirewall.Policy.Schema
import EdgeFirewall.Proofs.Attribute.Typing
import EdgeFirewall.Proofs.Policy.RoundTrip
import EdgeFirewall.Proofs.Policy.Violations
import EdgeFirewall.Proofs.Text.Base64
import EdgeFirewall.Proofs.Vocabulary.Words

/-! # The schema and the reading of policies

The schema is what a host checks before a policy is read, and it knows less: how many targets a
condition has, whether rules share a name, how large a number may be, and which of the two ways to
find the last part of a word is meant (`BeyondSchema`). That is all: a policy can be read exactly
from the maps that the schema accepts and that pass these (`ofAttributes_ok_iff_schema`). -/

namespace EdgeFirewall

variable {α : Type}

/-! ### What the schema does not say -/

namespace Value

/-- Each item of a list has a property. -/
def EachItem (P : Value → Prop) (v : Value) : Prop :=
  ∀ items, v = .list items → ∀ w ∈ items, P w

/-- Each map in a list has a property. -/
def EachBlock (P : Attributes → Prop) (v : Value) : Prop :=
  EachItem (fun w => ∀ a, w = .map a → P a) v

/-- No text with both a dot and a space. Where a text has a space, its dots separate nothing. -/
def IsPlainWord (v : Value) : Prop :=
  ∀ s, v = .string s → ¬ ('.' ∈ s.toList ∧ ' ' ∈ s.toList)

/-- No number above the signed 32-bit numbers. -/
def IsSmall (v : Value) : Prop :=
  ∀ n, v = .int n → n ≤ 2147483647

end Value

theorem Attributes.ifGiven_true (a : Attributes) (key : String) :
    (a.IfGiven key fun _ => True) ↔ True :=
  iff_true_intro fun _ _ => trivial

theorem Value.eachItem_true : EachItem (fun _ => True) = fun _ => True :=
  funext fun _ => eq_true fun _ _ _ _ => trivial

namespace Policy

open Value

structure Condition.BeyondSchema (c : Attributes) : Prop where
  /-- There is a variable or a selector, and not both. -/
  oneTarget : (c.lookup "match_variable").isSome ≠ (c.lookup "selector").isSome
  words : ∀ key ∈ ["match_variable", "selector", "operator", "condition"], c.IfGiven key IsPlainWord
  transforms : c.IfGiven "transforms" (EachItem IsPlainWord)

structure Rule.BeyondSchema (r : Attributes) : Prop where
  numbers : ∀ key ∈ ["priority", "rate_limit_threshold"], r.IfGiven key IsSmall
  words : ∀ key ∈ ["rule_type", "action"], r.IfGiven key IsPlainWord
  conditions : r.IfGiven "match_condition" (EachBlock Condition.BeyondSchema)

def RuleOverride.BeyondSchema (r : Attributes) : Prop :=
  r.IfGiven "action" IsPlainWord

def GroupOverride.BeyondSchema (g : Attributes) : Prop :=
  g.IfGiven "rule" (EachBlock RuleOverride.BeyondSchema)

def RuleSet.BeyondSchema (s : Attributes) : Prop :=
  s.IfGiven "override" (EachBlock GroupOverride.BeyondSchema)

/-- The names that stand in the custom rules of a policy, in order. -/
def ruleNames (a : Attributes) : List String :=
  (Block.nested ⟨[], a⟩ "custom_rule").filterMap fun r =>
    (r.entries.lookup "name").bind Value.asString?

structure BeyondSchema (a : Attributes) : Prop where
  mode : a.IfGiven "mode" IsPlainWord
  names : (ruleNames a).Nodup
  rules : a.IfGiven "custom_rule" (EachBlock Rule.BeyondSchema)
  ruleSets : a.IfGiven "managed_rule" (EachBlock RuleSet.BeyondSchema)

end Policy

/-! ### Texts that both sides look at -/

namespace Vocabulary

variable [Vocabulary α]

theorem namesVariant_spellings_iff {s : String} :
    namesVariant (spellings α) s = true ↔
      ∃ a : α, spelling a = Text.afterLast '.' s ∨ spelling a = s := by
  simp only [namesVariant, spellings, List.any_map, List.any_eq_true, Function.comp_apply,
    Bool.or_eq_true, beq_iff_eq, eq_comm (a := s)]
  constructor
  · rintro ⟨a, -, h⟩
    exact ⟨a, h⟩
  · rintro ⟨a, h⟩
    exact ⟨a, mem_all a, h⟩

/-- The two ways to find the last part of a word differ only if it has both a dot and a space. -/
theorem exists_spelling_eq_unqualified_iff [Dotless α] {s : String} :
    (∃ a : α, spelling a = unqualified s) ↔
      namesVariant (spellings α) s = true ∧ ¬ ('.' ∈ s.toList ∧ ' ' ∈ s.toList) := by
  rw [namesVariant_spellings_iff]
  unfold unqualified
  by_cases hspace : ' ' ∈ s.toList
  · have hdot : (∃ a : α, spelling a = s) → '.' ∉ s.toList := by
      rintro ⟨a, rfl⟩
      exact Dotless.dot_notMem a
    rw [if_pos (by simpa using hspace)]
    constructor
    · intro h
      exact ⟨h.imp fun a ha => .inr ha, fun hboth => hdot h hboth.1⟩
    · rintro ⟨⟨a, ha⟩, hplain⟩
      have hlast := Text.afterLast_eq_self_iff.mpr fun hmem => hplain ⟨hmem, hspace⟩
      rw [hlast, or_self] at ha
      exact ⟨a, ha⟩
  · rw [if_neg (by simpa using hspace)]
    constructor
    · intro h
      exact ⟨h.imp fun a ha => .inl ha, fun hboth => hspace hboth.2⟩
    · rintro ⟨⟨a, ha | rfl⟩, -⟩
      · exact ⟨a, ha⟩
      · exact ⟨a, (Text.afterLast_eq_self_iff.mpr (Dotless.dot_notMem a)).symm⟩

end Vocabulary

/-! ### Agreement of single values -/

/-- A reading takes exactly the values that have a type and pass what the type does not say. -/
def Reading.Agrees (read : Reading α) (type : AttributeType) (beyond : Value → Prop) : Prop :=
  ∀ ⦃path v⦄, v.Distinct → ((read path v).violations = [] ↔ type.Accepts v ∧ beyond v)

namespace Reading

open AttributeType Policy.Schema

theorem text_agrees : text.Agrees nonEmptyString fun _ => True := by
  intro path v _
  rw [Checked.violations_eq_nil_iff, accepts_nonEmptyString_iff, and_true]
  simp only [text_eq_ok_iff]

theorem truth_agrees : truth.Agrees bool fun _ => True := by
  intro path v _
  rw [Checked.violations_eq_nil_iff, accepts_bool_iff, and_true]
  simp only [truth_eq_ok_iff]

theorem violations_number_eq_nil_iff {least most : Int} {path : Path} {v : Value} :
    (number least most path v).violations = [] ↔ ∃ n, v = .int n ∧ least ≤ n ∧ n ≤ most := by
  cases v with
  | int n =>
      rw [number]
      split
      · next h => simpa using h
      · next h => simpa using h
  | _ => simp [number]

theorem number_agrees : (number 0 Policy.maxNumber).Agrees nonNegativeInt Value.IsSmall := by
  intro path v _
  rw [violations_number_eq_nil_iff, accepts_nonNegativeInt_iff]
  constructor
  · rintro ⟨n, rfl, hleast, hmost⟩
    refine ⟨⟨n, rfl, hleast⟩, fun m hm => ?_⟩
    rw [← Value.int.inj hm]
    exact hmost
  · rintro ⟨⟨n, rfl, hleast⟩, hsmall⟩
    exact ⟨n, rfl, hleast, hsmall n rfl⟩

theorem rateLimitMinutes_agrees :
    (number 0 Policy.maxRateLimitMinutes).Agrees rateLimitMinutesType fun _ => True := by
  intro path v _
  rw [violations_number_eq_nil_iff, and_true]
  cases v with
  | int n =>
      by_cases h : 0 ≤ n ∧ n ≤ Policy.maxRateLimitMinutes <;>
        simp [Accepts, rateLimitMinutesType, check, h, Except.mapError]
  | _ => simp [Accepts, rateLimitMinutesType, check]

theorem suchThat_violations_eq_nil_iff {read : Reading α} [∀ path v, (read path v).IsExplained]
    {test : α → Bool} {reason : α → Reason} {path : Path} {v : Value} :
    (read.suchThat test reason path v).violations = [] ↔
      ∃ x, read path v = .ok x ∧ test x = true := by
  simp only [Checked.violations_eq_nil_iff, suchThat_eq_ok_iff]

theorem statusCode_agrees : Policy.statusCode.Agrees statusCodeType fun _ => True := by
  intro path v _
  have hcodes : ∀ n ∈ Policy.blockStatusCodes, 0 ≤ n ∧ n ≤ Policy.maxNumber := by decide
  have hread : (Policy.statusCode path v).violations = [] ↔
      ∃ n, v = .int n ∧ n ∈ Policy.blockStatusCodes := by
    rw [Policy.statusCode, suchThat_violations_eq_nil_iff]
    simp only [number_eq_ok_iff, List.contains_iff_mem]
    constructor
    · rintro ⟨x, ⟨hv, -⟩, hmem⟩
      exact ⟨x.toInt, hv, hmem⟩
    · rintro ⟨n, rfl, hmem⟩
      obtain ⟨hleast, hmost⟩ := hcodes n hmem
      unfold Policy.maxNumber at hmost
      have hn : (Int32.ofInt n).toInt = n := Int32.toInt_ofInt_of_le (by omega) (by omega)
      refine ⟨Int32.ofInt n, ?_, by rwa [hn]⟩
      rw [Document.numberValue, hn]
      exact ⟨rfl, hleast, hmost⟩
  rw [hread, and_true]
  cases v with
  | int n =>
      by_cases h : n ∈ Policy.blockStatusCodes <;>
        simp [Accepts, statusCodeType, check, h, Except.mapError]
  | _ => simp [Accepts, statusCodeType, check]

theorem base64_agrees : base64.Agrees base64Type fun _ => True := by
  intro path v _
  rw [base64, suchThat_violations_eq_nil_iff, and_true]
  simp only [text_eq_ok_iff]
  cases v with
  | string s =>
      cases h : Text.isBase64 s with
      | false => simp [Accepts, base64Type, check, h, Except.mapError]
      | true =>
          have hblank := Text.isBlankText_of_isBase64 h
          by_cases hempty : s = ""
          · simp [Accepts, base64Type, check, hempty, Text.isBlankText, Except.mapError]
          · rw [Bool.eq_false_iff.mpr (mt String.isEmpty_iff.mp hempty)] at hblank
            simp [Accepts, base64Type, check, h, hblank, hempty, Except.mapError]
  | _ => simp [Accepts, base64Type, check]

theorem word_agrees [Vocabulary α] [Vocabulary.Dotless α] :
    (word (α := α)).Agrees (wordType α) Value.IsPlainWord := by
  intro path v _
  rw [Checked.violations_eq_nil_iff, wordType, accepts_oneOf_iff]
  simp only [word_eq_ok_iff, Vocabulary.parseQualified_eq_ok_iff]
  constructor
  · rintro ⟨a, s, rfl, ha⟩
    obtain ⟨hvariant, hplain⟩ := Vocabulary.exists_spelling_eq_unqualified_iff.mp ⟨a, ha⟩
    refine ⟨⟨s, rfl, hvariant⟩, fun t ht => ?_⟩
    rw [← Value.string.inj ht]
    exact hplain
  · rintro ⟨⟨s, rfl, hvariant⟩, hplain⟩
    obtain ⟨a, ha⟩ :=
      Vocabulary.exists_spelling_eq_unqualified_iff.mpr ⟨hvariant, hplain s rfl⟩
    exact ⟨a, s, rfl, ha⟩

theorem tagsOf_agrees : Reading.Agrees Policy.tagsOf (.map .string) fun _ => True := by
  intro path v _
  rw [accepts_map_iff, and_true]
  cases v with
  | map entries =>
      simp only [Policy.tagsOf, Checked.violations_map, Checked.violations_collect,
        List.flatMap_eq_nil_iff, Value.map.injEq, exists_eq_left', accepts_string_iff]
      refine forall₂_congr fun e _ => ?_
      obtain ⟨k, v⟩ := e
      cases v <;> simp [Policy.tagOf]
  | _ => simp [Policy.tagsOf]

end Reading

/-! ### Agreement of lists -/

/-- Reading from a block finds fault exactly where a property of its entries fails. -/
def Block.Decides (get : Block → Checked α) (P : Attributes → Prop) : Prop :=
  ∀ ⦃path a⦄, (Value.map a).Distinct → ((get ⟨path, a⟩).violations = [] ↔ P a)

theorem forall_mem_zipIdx_iff {as : List α} {P : α → Prop} :
    (∀ e ∈ as.zipIdx, P e.1) ↔ ∀ a ∈ as, P a := by
  have hfst : as.zipIdx.map Prod.fst = as := List.zipIdx_map_fst 0 as
  conv_rhs => rw [← hfst]
  rw [List.forall_mem_map]

theorem Checked.exists_collect_eq_ok_iff {β : Type} {f : α → Checked β} {as : List α} :
    (∃ bs, collect f as = ok bs) ↔ ∀ a ∈ as, (f a).violations = [] := by
  rw [← violations_eq_nil_iff, violations_collect, List.flatMap_eq_nil_iff]

section lists

open AttributeType

variable {least most : Nat} {path : Path} {v : Value}

/-- Both sides judge a list alike if they judge its items alike. -/
theorem Reading.violations_listOf_eq_nil_iff {read : Reading α}
    [∀ path v, (read path v).IsExplained] {type : AttributeType} {beyond : Value → Prop}
    (h : read.Agrees type beyond) (hv : v.Distinct) :
    (Reading.listOf least most read path v).violations = [] ↔
      type.AcceptsItems least most v ∧ v.EachItem beyond := by
  rw [Checked.violations_eq_nil_iff]
  simp only [Reading.listOf_eq_ok_iff]
  constructor
  · rintro ⟨xs, items, rfl, hcount, hread⟩
    have hboth : ∀ w ∈ items, type.Accepts w ∧ beyond w := by
      rw [← forall_mem_zipIdx_iff]
      intro e he
      have hdistinct := Value.distinct_list.mp hv _ (List.fst_mem_of_mem_zipIdx he)
      exact (h hdistinct).mp (Checked.exists_collect_eq_ok_iff.mp ⟨xs, hread⟩ e he)
    refine ⟨⟨items, rfl, hcount, fun w hw => (hboth w hw).1⟩, fun items' hitems w hw => ?_⟩
    rw [← Value.list.inj hitems] at hw
    exact (hboth w hw).2
  · rintro ⟨⟨items, rfl, hcount, haccepts⟩, hbeyond⟩
    have hread : ∀ e ∈ items.zipIdx, (read (path ++ [.index e.2]) e.1).violations = [] := by
      intro e he
      have hmem := List.fst_mem_of_mem_zipIdx he
      have hdistinct := Value.distinct_list.mp hv _ hmem
      exact (h hdistinct).mpr ⟨haccepts _ hmem, hbeyond items rfl _ hmem⟩
    obtain ⟨xs, hxs⟩ := Checked.exists_collect_eq_ok_iff.mpr hread
    exact ⟨xs, items, rfl, hcount, hxs⟩

/-- Both sides judge blocks alike as values. -/
theorem Block.reading_agrees {read : Block → Checked α} {fields : List AttributeField}
    {beyond : Attributes → Prop}
    (h : Block.Decides read fun a => (block fields).Accepts (.map a) ∧ beyond a) :
    (Block.reading read).Agrees (block fields) fun w => ∀ a, w = .map a → beyond a := by
  intro path v hv
  cases v with
  | map a => simpa [Block.reading] using h hv
  | _ => simp [Block.reading, Accepts, check]

/-- Both sides judge a list of blocks alike if they judge the blocks alike. -/
theorem Block.violations_listOf_eq_nil_iff {read : Block → Checked α} [∀ b, (read b).IsExplained]
    {fields : List AttributeField} {beyond : Attributes → Prop}
    (h : Block.Decides read fun a => (block fields).Accepts (.map a) ∧ beyond a)
    (hv : v.Distinct) :
    (Block.listOf most read path v).violations = [] ↔
      (block fields).AcceptsItems 0 most v ∧ v.EachBlock beyond := by
  have hperm := Block.violations_listOf_perm most read path v
  rw [← List.perm_nil, ← hperm.congr_left, List.perm_nil]
  exact Reading.violations_listOf_eq_nil_iff (Block.reading_agrees h) hv

end lists

/-! ### Agreement of entries -/

namespace Block

open AttributeType Reading

variable {read : Reading α} {type : AttributeType} {beyond : Value → Prop} {key : String}
  {least most : Nat}

theorem required_decides (h : read.Agrees type beyond) :
    Decides (·.required key read) fun a => a.Has key type.Accepts ∧ a.IfGiven key beyond := by
  intro path a ha
  simp only [required, Attributes.Has, Attributes.IfGiven]
  cases hv : a.lookup key with
  | none => simp
  | some v => simpa using h (ha.of_lookup hv)

theorem optional_decides (h : read.Agrees type beyond) :
    Decides (·.optional key read) fun a => a.IfGiven key type.Accepts ∧ a.IfGiven key beyond := by
  intro path a ha
  simp only [optional, Attributes.IfGiven]
  cases hv : a.lookup key with
  | none => simp
  | some v => simpa using h (ha.of_lookup hv)

theorem withDefault_decides {default : α} (h : read.Agrees type beyond) :
    Decides (·.withDefault key default read) fun a =>
      a.IfGiven key type.Accepts ∧ a.IfGiven key beyond := by
  intro path a ha
  simp only [withDefault, Attributes.IfGiven]
  cases hv : a.lookup key with
  | none => simp
  | some v => simpa using h (ha.of_lookup hv)

theorem list_decides [∀ path v, (read path v).IsExplained] (h : read.Agrees type beyond) :
    Decides (·.list key 0 most read) fun a =>
      a.IfGiven key (type.AcceptsItems 0 most) ∧ a.IfGiven key (Value.EachItem beyond) := by
  intro path a ha
  simp only [list, Attributes.IfGiven]
  cases hv : a.lookup key with
  | none => simp [Reading.listOf, boundsViolations]
  | some v => simpa using Reading.violations_listOf_eq_nil_iff h (ha.of_lookup hv)

/-- A list with at least one item may not be absent. -/
theorem nonEmptyList_decides [∀ path v, (read path v).IsExplained] (h : read.Agrees type beyond)
    (hleast : 0 < least) :
    Decides (·.list key least most read) fun a =>
      a.Has key (type.AcceptsItems least most) ∧ a.IfGiven key (Value.EachItem beyond) := by
  intro path a ha
  simp only [list, Attributes.Has, Attributes.IfGiven]
  cases hv : a.lookup key with
  | none => simp [Reading.listOf, boundsViolations, hleast]
  | some v => simpa using Reading.violations_listOf_eq_nil_iff h (ha.of_lookup hv)

theorem blocks_decides {read : Block → Checked α} [∀ b, (read b).IsExplained]
    {fields : List AttributeField} {beyond : Attributes → Prop}
    (h : Decides read fun a => (block fields).Accepts (.map a) ∧ beyond a) :
    Decides (·.blocks key most read) fun a =>
      a.IfGiven key ((block fields).AcceptsItems 0 most) ∧
        a.IfGiven key (Value.EachBlock beyond) := by
  intro path a ha
  simp only [blocks, Attributes.IfGiven]
  cases hv : a.lookup key with
  | none => simp [Block.listOf, boundsViolations, shapeViolations, ofItems]
  | some v => simpa using Block.violations_listOf_eq_nil_iff h (ha.of_lookup hv)

theorem unknownEntries_eq_nil_iff {b : Block} {known : List String} :
    b.unknownEntries known = [] ↔ ∀ e ∈ b.entries, e.1 ∈ known := by
  simp [unknownEntries, List.filter_eq_nil_iff]

end Block

/-! ### Agreement of the blocks of a policy -/

namespace Policy

open AttributeType Reading Block Schema

theorem Condition.ofBlock_decides : Block.Decides Condition.ofBlock fun a =>
    conditionBlock.Accepts (.map a) ∧ Condition.BeyondSchema a := by
  intro path a ha
  have hnodup := (Value.distinct_map.mp ha).1
  change _ ↔ conditionBlock.Accepts (.map a) ∧ Condition.BeyondSchema a
  rw [violations_ofBlock, conditionBlock, accepts_block_iff (by decide) hnodup]
  simp only [List.append_eq_nil_iff, Target.violations_ofBlock, List.forall_mem_cons,
    Field.fits_required_iff, Field.fits_optional_iff, Field.fits_list_iff,
    Field.fits_nonEmptyList_iff, and_assoc]
  rw [unknownEntries_eq_nil_iff, Target.countViolations_eq_nil_iff,
    optional_decides word_agrees ha, optional_decides word_agrees ha,
    required_decides word_agrees ha, withDefault_decides word_agrees ha,
    nonEmptyList_decides text_agrees (by decide) ha, list_decides word_agrees ha]
  simp only [Value.eachItem_true, Attributes.ifGiven_true, and_true]
  constructor
  · rintro ⟨hknown, ⟨hv, hvword⟩, ⟨hs, hsword⟩, hone, ⟨ho, howord⟩, ⟨hm, hmword⟩, hvalues, ht,
      htwords⟩
    exact ⟨hknown, hv, hs, ho, hm, hvalues, ht, by simp, hone,
      by simp [hvword, hsword, howord, hmword], htwords⟩
  · rintro ⟨hknown, hv, hs, ho, hm, hvalues, ht, -, hone, hwords, htwords⟩
    simp only [List.forall_mem_cons] at hwords
    obtain ⟨hvword, hsword, howord, hmword, -⟩ := hwords
    exact ⟨hknown, ⟨hv, hvword⟩, ⟨hs, hsword⟩, hone, ⟨ho, howord⟩, ⟨hm, hmword⟩, hvalues, ht,
      htwords⟩

theorem Rule.ofBlock_decides : Block.Decides Rule.ofBlock fun a =>
    ruleBlock.Accepts (.map a) ∧ Rule.BeyondSchema a := by
  intro path a ha
  have hnodup := (Value.distinct_map.mp ha).1
  change _ ↔ ruleBlock.Accepts (.map a) ∧ Rule.BeyondSchema a
  rw [violations_ofBlock, ruleBlock, accepts_block_iff (by decide) hnodup]
  simp only [List.append_eq_nil_iff, List.forall_mem_cons,
    Field.fits_required_iff, Field.fits_optional_iff, Field.fits_list_iff, and_assoc, nameOf,
    priorityOf, ruleTypeOf, rateLimitMinutesOf, rateLimitThresholdOf, actionOf]
  rw [unknownEntries_eq_nil_iff, required_decides text_agrees ha,
    withDefault_decides number_agrees ha, withDefault_decides truth_agrees ha,
    required_decides word_agrees ha, withDefault_decides rateLimitMinutes_agrees ha,
    withDefault_decides number_agrees ha, required_decides word_agrees ha,
    optional_decides base64_agrees ha, blocks_decides Condition.ofBlock_decides ha]
  simp only [Attributes.ifGiven_true, and_true]
  constructor
  · rintro ⟨hknown, hname, ⟨hp, hpsmall⟩, he, ⟨ht, htword⟩, hm, ⟨hth, hthsmall⟩, ⟨hac, hacword⟩,
      hb, hc, hcbeyond⟩
    exact ⟨hknown, hname, hp, he, ht, hm, hth, hac, hb, hc, by simp, by simp [hpsmall, hthsmall],
      by simp [htword, hacword], hcbeyond⟩
  · rintro ⟨hknown, hname, hp, he, ht, hm, hth, hac, hb, hc, -, hnumbers, hwords, hcbeyond⟩
    simp only [List.forall_mem_cons] at hnumbers hwords
    obtain ⟨hpsmall, hthsmall, -⟩ := hnumbers
    obtain ⟨htword, hacword, -⟩ := hwords
    exact ⟨hknown, hname, ⟨hp, hpsmall⟩, he, ⟨ht, htword⟩, hm, ⟨hth, hthsmall⟩, ⟨hac, hacword⟩,
      hb, hc, hcbeyond⟩

theorem RuleOverride.ofBlock_decides : Block.Decides RuleOverride.ofBlock fun a =>
    ruleOverrideBlock.Accepts (.map a) ∧ RuleOverride.BeyondSchema a := by
  intro path a ha
  have hnodup := (Value.distinct_map.mp ha).1
  change _ ↔ ruleOverrideBlock.Accepts (.map a) ∧ RuleOverride.BeyondSchema a
  rw [violations_ofBlock, ruleOverrideBlock, accepts_block_iff (by decide) hnodup]
  simp only [List.append_eq_nil_iff, List.forall_mem_cons, Field.fits_required_iff,
    Field.fits_optional_iff, and_assoc]
  rw [unknownEntries_eq_nil_iff, required_decides text_agrees ha,
    withDefault_decides truth_agrees ha, required_decides word_agrees ha]
  simp only [Attributes.ifGiven_true, and_true]
  constructor
  · rintro ⟨hknown, hid, he, hac, hacword⟩
    exact ⟨hknown, hid, he, hac, by simp, hacword⟩
  · rintro ⟨hknown, hid, he, hac, -, hacword⟩
    exact ⟨hknown, hid, he, hac, hacword⟩

theorem GroupOverride.ofBlock_decides : Block.Decides GroupOverride.ofBlock fun a =>
    groupOverrideBlock.Accepts (.map a) ∧ GroupOverride.BeyondSchema a := by
  intro path a ha
  have hnodup := (Value.distinct_map.mp ha).1
  change _ ↔ groupOverrideBlock.Accepts (.map a) ∧ GroupOverride.BeyondSchema a
  rw [violations_ofBlock, groupOverrideBlock, accepts_block_iff (by decide) hnodup]
  simp only [List.append_eq_nil_iff, List.forall_mem_cons, Field.fits_required_iff,
    Field.fits_list_iff, and_assoc]
  rw [unknownEntries_eq_nil_iff, required_decides text_agrees ha,
    blocks_decides RuleOverride.ofBlock_decides ha]
  simp only [Attributes.ifGiven_true, and_true]
  constructor
  · rintro ⟨hknown, hg, hr, hrbeyond⟩
    exact ⟨hknown, hg, hr, by simp, hrbeyond⟩
  · rintro ⟨hknown, hg, hr, -, hrbeyond⟩
    exact ⟨hknown, hg, hr, hrbeyond⟩

theorem RuleSet.ofBlock_decides : Block.Decides RuleSet.ofBlock fun a =>
    ruleSetBlock.Accepts (.map a) ∧ RuleSet.BeyondSchema a := by
  intro path a ha
  have hnodup := (Value.distinct_map.mp ha).1
  change _ ↔ ruleSetBlock.Accepts (.map a) ∧ RuleSet.BeyondSchema a
  rw [violations_ofBlock, ruleSetBlock, accepts_block_iff (by decide) hnodup]
  simp only [List.append_eq_nil_iff, List.forall_mem_cons, Field.fits_required_iff,
    Field.fits_list_iff, and_assoc]
  rw [unknownEntries_eq_nil_iff, required_decides text_agrees ha,
    required_decides text_agrees ha, blocks_decides GroupOverride.ofBlock_decides ha]
  simp only [Attributes.ifGiven_true, and_true]
  constructor
  · rintro ⟨hknown, ht, hv, ho, hobeyond⟩
    exact ⟨hknown, ht, hv, ho, by simp, hobeyond⟩
  · rintro ⟨hknown, ht, hv, ho, -, hobeyond⟩
    exact ⟨hknown, ht, hv, ho, hobeyond⟩

/-! ### The whole policy -/

/-- The names that stand in rules that can be read are those that are read. -/
theorem ruleNames_eq_map {a : Attributes} {rs : List Rule}
    (h : Block.blocks ⟨[], a⟩ "custom_rule" maxRules Rule.ofBlock = .ok rs) :
    ruleNames a = rs.map (·.name) := by
  refine Checked.filterMap_eq_map_of_collect (fun b r hr => ?_) (collect_nested h)
  rw [Rule.lookup_name_of_nameOf (Rule.ofBlock_eq_ok_iff.mp hr).2.1]
  rfl

theorem rulesOf_decides {a : Attributes} (ha : (Value.map a).Distinct) :
    (rulesOf ⟨[], a⟩).violations = [] ↔
      (a.IfGiven "custom_rule" (ruleBlock.AcceptsItems 0 maxRules) ∧
        a.IfGiven "custom_rule" (Value.EachBlock Rule.BeyondSchema)) ∧ (ruleNames a).Nodup := by
  have hblocks : (Block.blocks ⟨[], a⟩ "custom_rule" maxRules Rule.ofBlock).violations = [] ↔ _ :=
    blocks_decides Rule.ofBlock_decides ha
  rw [Checked.violations_eq_nil_iff]
  constructor
  · rintro ⟨rs, hrs⟩
    obtain ⟨hread, hnames⟩ := rulesOf_eq_ok_iff.mp hrs
    rw [ruleNames_eq_map hread]
    exact ⟨hblocks.mp (Checked.violations_eq_nil_iff.mpr ⟨rs, hread⟩), hnames⟩
  · rintro ⟨hgiven, hnames⟩
    obtain ⟨rs, hread⟩ := Checked.violations_eq_nil_iff.mp (hblocks.mpr hgiven)
    rw [ruleNames_eq_map hread] at hnames
    exact ⟨rs, rulesOf_eq_ok_iff.mpr ⟨hread, hnames⟩⟩

theorem schema_check_eq_ok_iff {a : Attributes} (ha : (Value.map a).Distinct) :
    schema.check a = .ok () ↔
      a.Has "name" nonEmptyString.Accepts ∧ a.Has "resource_group_name" nonEmptyString.Accepts ∧
      a.IfGiven "id" string.Accepts ∧ a.IfGiven "enabled" bool.Accepts ∧
      a.Has "mode" (wordType PolicyMode).Accepts ∧
      a.IfGiven "redirect_url" nonEmptyString.Accepts ∧
      a.IfGiven "custom_block_response_status_code" statusCodeType.Accepts ∧
      a.IfGiven "custom_block_response_body" base64Type.Accepts ∧
      a.IfGiven "custom_rule" (ruleBlock.AcceptsItems 0 maxRules) ∧
      a.IfGiven "managed_rule" (ruleSetBlock.AcceptsItems 0 maxRuleSets) ∧
      a.IfGiven "frontend_endpoint_ids" (nonEmptyString.AcceptsItems 0 maxEndpoints) ∧
      a.IfGiven "tags" (AttributeType.map .string).Accepts := by
  have hperm : schema.fields.Perm _ := ResourceSchema.fields_ofFields_perm resourceType (by decide)
  have hnames : (schema.fields.map (·.name)).Nodup := (hperm.map _).nodup_iff.mpr (by decide)
  rw [ResourceSchema.check_eq_ok_iff hnames (Value.distinct_map.mp ha).1]
  simp only [hperm.mem_iff, List.forall_mem_cons, Field.fits_required_iff, Field.fits_optional_iff,
    Field.fits_list_iff]
  simp

/-- A policy can be read from a map exactly if the schema accepts the map and nothing is wrong that
the schema does not know. The schema wants the identifier, which the reading ignores, to be a text. -/
theorem ofAttributes_ok_iff_schema {a : Attributes} (ha : (Value.map a).Distinct)
    (hid : a.IfGiven "id" fun v => ∃ s, v = .string s) :
    (∃ p, ofAttributes a = .ok p) ↔ schema.check a = .ok () ∧ BeyondSchema a := by
  have hidentifier : a.IfGiven "id" string.Accepts := fun v hv => accepts_string_iff.mpr (hid v hv)
  rw [exists_ofAttributes_iff, violations_ofBlock, schema_check_eq_ok_iff ha]
  simp only [List.append_eq_nil_iff, and_assoc]
  rw [required_decides text_agrees ha, required_decides text_agrees ha,
    withDefault_decides truth_agrees ha, required_decides word_agrees ha,
    optional_decides text_agrees ha, optional_decides statusCode_agrees ha,
    optional_decides base64_agrees ha, rulesOf_decides ha, blocks_decides RuleSet.ofBlock_decides ha,
    list_decides text_agrees ha, withDefault_decides tagsOf_agrees ha]
  simp only [Value.eachItem_true, Attributes.ifGiven_true, and_true]
  constructor
  · rintro ⟨hn, hg, he, ⟨hm, hmword⟩, hu, hc, hb, ⟨⟨hr, hrbeyond⟩, hnames⟩, ⟨hs, hsbeyond⟩, hl, ht⟩
    exact ⟨hn, hg, hidentifier, he, hm, hu, hc, hb, hr, hs, hl, ht, hmword, hnames, hrbeyond,
      hsbeyond⟩
  · rintro ⟨hn, hg, -, he, hm, hu, hc, hb, hr, hs, hl, ht, hmword, hnames, hrbeyond, hsbeyond⟩
    exact ⟨hn, hg, he, ⟨hm, hmword⟩, hu, hc, hb, ⟨⟨hr, hrbeyond⟩, hnames⟩, ⟨hs, hsbeyond⟩, hl, ht⟩

theorem ofAttributes_ok_iff_schema_qualified :
    (Value.map qualifiedAttributes).Distinct ∧
      (qualifiedAttributes.IfGiven "id" fun v => ∃ s, v = .string s) ∧
      (∃ p, ofAttributes qualifiedAttributes = .ok p) ∧
      schema.check qualifiedAttributes = .ok () ∧ BeyondSchema qualifiedAttributes := by
  have hdistinct : (Value.map qualifiedAttributes).Distinct := by simp [qualifiedAttributes]
  have hid : qualifiedAttributes.IfGiven "id" fun v => ∃ s, v = .string s := by
    simp [Attributes.IfGiven, qualifiedAttributes, List.lookup_cons]
  have hvalid : (ofAttributes qualifiedAttributes).isOk = true := by decide +kernel
  have hread := exists_of_isOk hvalid
  exact ⟨hdistinct, hid, hread, (ofAttributes_ok_iff_schema hdistinct hid).mp hread⟩

end Policy

end EdgeFirewall
