import EdgeFirewall.Proofs.Policy.Canonical

/-! # The violations that readings report

What every block of a policy reports, entry by entry (`violations_ofBlock`). Nothing is dropped on
the way: each part adds its violations to those of the parts before it, whatever these are. -/

namespace EdgeFirewall

variable {α β : Type}

namespace Checked

@[simp] theorem violations_seqRight (x : Checked α) (y : Checked β) :
    (x *> y).violations = x.violations ++ y.violations := by
  rw [seqRight_eq, violations_seq, violations_map]

@[simp] theorem violations_seqLeft (x : Checked α) (y : Checked β) :
    (x <* y).violations = x.violations ++ y.violations := by
  rw [seqLeft_eq, violations_seq, violations_map]

theorem violations_of_ok {x : Checked α} {a : α} (h : x = ok a) : x.violations = [] :=
  (eq_ok_iff.mp h).2

theorem exists_value?_seq_iff {f : Checked (α → β)} {x : Checked α} {Q : β → Prop} :
    (∃ b, (f <*> x).value? = some b ∧ Q b) ↔
      ∃ g, f.value? = some g ∧ ∃ a, x.value? = some a ∧ Q (g a) := by
  simp only [value?_seq, Option.bind_eq_some_iff, Option.map_eq_some_iff]
  grind

theorem exists_value?_map_iff {f : α → β} {x : Checked α} {Q : β → Prop} :
    (∃ b, (f <$> x).value? = some b ∧ Q b) ↔ ∃ a, x.value? = some a ∧ Q (f a) := by
  simp only [value?_map, Option.map_eq_some_iff]
  grind

theorem value?_ofViolations_seqRight (vs : List Violation) (x : Checked α) :
    (ofViolations vs *> x).value? = x.value? := by
  simp [seqRight_eq]

end Checked

/-! ### Readings that give no value beside violations -/

/-- Gives a value only where nothing is wrong. -/
def Reading.Strict (read : Reading α) : Prop :=
  ∀ ⦃path v a⦄, (read path v).value? = some a → read path v = .ok a

namespace Reading

theorem strict_text : text.Strict := by
  intro path v a h
  cases v with
  | string s =>
      rw [text] at h ⊢
      split at h
      · simp [Checked.fail] at h
      · next hs => rw [if_neg hs, Option.some.inj h]
  | _ => simp [text, Checked.fail] at h

theorem strict_number (least most : Int) : (number least most).Strict := by
  intro path v a h
  cases v with
  | int n =>
      rw [number] at h ⊢
      split at h
      · next hn =>
          rw [if_pos hn]
          exact Checked.eq_ok_iff.mpr ⟨h, rfl⟩
      · simp [Checked.fail] at h
  | _ => simp [number, Checked.fail] at h

theorem strict_word [Vocabulary α] : (word (α := α)).Strict := by
  intro path v a h
  cases v with
  | string s =>
      rw [word] at h ⊢
      cases hs : Vocabulary.parseQualified (α := α) s with
      | ok b =>
          rw [hs] at h
          exact congrArg Checked.ok (Option.some.inj h)
      | error e =>
          rw [hs] at h
          simp [Checked.fail] at h
  | _ => simp [word, Checked.fail] at h

end Reading

namespace Block

theorem value?_required_iff {b : Block} {key : String} {read : Reading α} (hread : read.Strict)
    {a : α} : (b.required key read).value? = some a ↔ b.required key read = .ok a := by
  refine ⟨fun h => ?_, fun h => (Checked.eq_ok_iff.mp h).1⟩
  unfold required at h ⊢
  split at h
  · exact hread h
  · simp [Checked.fail] at h

theorem value?_withDefault_iff {b : Block} {key : String} {default : α} {read : Reading α}
    (hread : read.Strict) {a : α} :
    (b.withDefault key default read).value? = some a ↔ b.withDefault key default read = .ok a := by
  refine ⟨fun h => ?_, fun h => (Checked.eq_ok_iff.mp h).1⟩
  unfold withDefault at h ⊢
  split at h
  · exact hread h
  · exact congrArg Checked.ok (Option.some.inj h)

theorem exists_value?_readOr (b : Block) (key : String) (default : α) (read : Reading α) :
    ∃ a, (b.readOr key default read).value? = some a :=
  ⟨_, rfl⟩

theorem exists_value?_optional (b : Block) (key : String) (read : Reading α) :
    ∃ a, (b.optional key read).value? = some a := by
  unfold optional
  split <;> exact ⟨_, rfl⟩

theorem exists_value?_blocks (b : Block) (key : String) (most : Nat) (read : Block → Checked α) :
    ∃ as, (b.blocks key most read).value? = some as := by
  rw [blocks]
  cases (b.entries.lookup key).getD (.list []) <;> exact ⟨_, rfl⟩

@[simp] theorem violations_readOr (b : Block) (key : String) (default : α) (read : Reading α) :
    (b.readOr key default read).violations = (b.withDefault key default read).violations := rfl

end Block

/-! ### Lists of blocks -/

namespace Block

/-- A block as a value: a map that is read as one. -/
def reading (read : Block → Checked α) : Reading α
  | p, .map a => read ⟨p, a⟩
  | p, v => .fail p (.wrongKind .map v.kind)

instance (read : Block → Checked α) [∀ b, (read b).IsExplained] (p : Path) (v : Value) :
    (Block.reading read p v).IsExplained := by
  cases v with
  | map a => exact inferInstanceAs (read ⟨p, a⟩).IsExplained
  | _ => exact inferInstanceAs (Checked.fail _ _).IsExplained

/-- Items that are no blocks are reported before the blocks, in a list of values among them. -/
theorem violations_listOf_perm (most : Nat) (read : Block → Checked α) (p : Path)
    (v : Value) :
    (Reading.listOf 0 most (reading read) p v).violations.Perm
      (Block.listOf most read p v).violations := by
  cases v with
  | list items =>
      simp only [Reading.listOf, Block.listOf, Checked.violations_seqRight,
        Checked.violations_ofViolations, Checked.violations_collect]
      refine List.Perm.append_left _ ?_
      unfold shapeViolations ofItems
      induction items.zipIdx with
      | nil => exact .refl _
      | cons e rest ih =>
          obtain ⟨v, i⟩ := e
          cases v with
          | map a =>
              simp only [List.flatMap_cons, List.filterMap_cons]
              exact (ih.append_left _).trans (List.perm_append_comm_assoc _ _ _)
          | _ =>
              simp only [List.flatMap_cons, List.filterMap_cons]
              exact ih.cons _
  | _ => exact .refl _

end Block

namespace Policy

open Reading Checked

namespace Target

/-- What is wrong with the number of targets of a condition. -/
def countViolations (b : Block) : List Violation :=
  match b.entries.lookup "match_variable", b.entries.lookup "selector" with
  | none, none => [⟨b.path, .noTarget⟩]
  | some _, some _ => [⟨b.path, .twoTargets⟩]
  | _, _ => []

theorem violations_ofBlock (b : Block) : (ofBlock b).violations =
    (b.optional "match_variable" (word (α := MatchVariable))).violations ++
      (b.optional "selector" (word (α := SelectorVariable))).violations ++ countViolations b := by
  unfold ofBlock Block.optional countViolations
  cases b.entries.lookup "match_variable" <;> cases b.entries.lookup "selector" <;> simp

theorem countViolations_eq_nil_iff {b : Block} : countViolations b = [] ↔
    (b.entries.lookup "match_variable").isSome ≠ (b.entries.lookup "selector").isSome := by
  unfold countViolations
  cases b.entries.lookup "match_variable" <;> cases b.entries.lookup "selector" <;> simp

end Target

theorem Condition.violations_ofBlock (b : Block) : (ofBlock b).violations =
    b.unknownEntries keys ++ (Target.ofBlock b).violations ++
      (b.required "operator" (word (α := Operator))).violations ++
      (b.withDefault "condition" .is (word (α := ConditionModifier))).violations ++
      (b.list "match_value" 1 maxValues text).violations ++
      (b.list "transforms" 0 maxTransforms (word (α := Transform))).violations := by
  simp [ofBlock]

theorem Rule.violations_ofBlock (b : Block) : (ofBlock b).violations =
    b.unknownEntries keys ++ (nameOf b).violations ++ (priorityOf b).violations ++
      (b.withDefault "enabled" true truth).violations ++ (ruleTypeOf b).violations ++
      (rateLimitMinutesOf b).violations ++ (rateLimitThresholdOf b).violations ++
      (actionOf b).violations ++
      (b.optional "custom_block_response_body" base64).violations ++
      (b.blocks "match_condition" maxConditions Condition.ofBlock).violations := by
  simp [ofBlock]

theorem Rule.lookup_name_of_nameOf {b : Block} {name : String} (h : nameOf b = .ok name) :
    b.entries.lookup "name" = some (.string name) := by
  unfold nameOf Block.required at h
  split at h
  · next v hv => rw [hv, (text_eq_ok_iff.mp h).1]
  · simp at h

/-- A rule has a name, if nothing is wrong with it and with the rule's type, numbers and action. -/
theorem Rule.headName?_eq_some_iff {b : Block} {name : String} : headName? b = some name ↔
    b.entries.lookup "name" = some (.string name) ∧ (nameOf b).violations = [] ∧
      (priorityOf b).violations = [] ∧ (ruleTypeOf b).violations = [] ∧
      (rateLimitMinutesOf b).violations = [] ∧ (rateLimitThresholdOf b).violations = [] ∧
      (actionOf b).violations = [] := by
  have hname {n} : (nameOf b).value? = some n ↔ nameOf b = .ok n :=
    Block.value?_required_iff strict_text
  have hpriority {n} : (priorityOf b).value? = some n ↔ priorityOf b = .ok n :=
    Block.value?_withDefault_iff (strict_number _ _)
  have htype {t} : (ruleTypeOf b).value? = some t ↔ ruleTypeOf b = .ok t :=
    Block.value?_required_iff strict_word
  have hminutes {n} : (rateLimitMinutesOf b).value? = some n ↔ rateLimitMinutesOf b = .ok n :=
    Block.value?_withDefault_iff (strict_number _ _)
  have hthreshold {n} :
      (rateLimitThresholdOf b).value? = some n ↔ rateLimitThresholdOf b = .ok n :=
    Block.value?_withDefault_iff (strict_number _ _)
  have haction {c} : (actionOf b).value? = some c ↔ actionOf b = .ok c :=
    Block.value?_required_iff strict_word
  rw [headName?, Option.map_eq_some_iff, ofBlock, value?_ofViolations_seqRight]
  simp only [exists_value?_seq_iff, exists_value?_map_iff, hname, hpriority, htype, hminutes,
    hthreshold, haction]
  constructor
  · rintro ⟨_, h1, _, h2, _, -, _, h4, _, h5, _, h6, _, h7, _, -, _, -, rfl⟩
    exact ⟨lookup_name_of_nameOf h1, violations_of_ok h1, violations_of_ok h2, violations_of_ok h4,
      violations_of_ok h5, violations_of_ok h6, violations_of_ok h7⟩
  · rintro ⟨hlookup, h1, h2, h4, h5, h6, h7⟩
    simp only [nameOf, priorityOf, ruleTypeOf, rateLimitMinutesOf, rateLimitThresholdOf, actionOf,
      violations_eq_nil_iff] at h1 h2 h4 h5 h6 h7
    obtain ⟨n, h1⟩ := h1
    obtain ⟨_, h2⟩ := h2
    obtain ⟨_, h3⟩ := b.exists_value?_readOr "enabled" true truth
    obtain ⟨_, h4⟩ := h4
    obtain ⟨_, h5⟩ := h5
    obtain ⟨_, h6⟩ := h6
    obtain ⟨_, h7⟩ := h7
    obtain ⟨_, h8⟩ := b.exists_value?_optional "custom_block_response_body" base64
    obtain ⟨_, h9⟩ := b.exists_value?_blocks "match_condition" maxConditions Condition.ofBlock
    have heq : n = name := by simpa [lookup_name_of_nameOf h1] using hlookup
    exact ⟨n, h1, _, h2, _, h3, _, h4, _, h5, _, h6, _, h7, _, h8, _, h9, heq⟩

theorem RuleOverride.violations_ofBlock (b : Block) : (ofBlock b).violations =
    b.unknownEntries ["rule_id", "enabled", "action"] ++ (b.required "rule_id" text).violations ++
      (b.withDefault "enabled" false truth).violations ++
      (b.required "action" (word (α := ActionType))).violations := by
  simp [ofBlock]

theorem GroupOverride.violations_ofBlock (b : Block) : (ofBlock b).violations =
    b.unknownEntries ["rule_group_name", "rule"] ++
      (b.required "rule_group_name" text).violations ++
      (b.blocks "rule" maxRuleOverrides RuleOverride.ofBlock).violations := by
  simp [ofBlock]

theorem RuleSet.violations_ofBlock (b : Block) : (ofBlock b).violations =
    b.unknownEntries ["type", "version", "override"] ++ (b.required "type" text).violations ++
      (b.required "version" text).violations ++
      (b.blocks "override" maxGroupOverrides GroupOverride.ofBlock).violations := by
  simp [ofBlock]

theorem violations_ofBlock (b : Block) : (ofBlock b).violations =
    (b.required "name" text).violations ++ (b.required "resource_group_name" text).violations ++
      (b.withDefault "enabled" true truth).violations ++
      (b.required "mode" (word (α := PolicyMode))).violations ++
      (b.optional "redirect_url" text).violations ++
      (b.optional "custom_block_response_status_code" statusCode).violations ++
      (b.optional "custom_block_response_body" base64).violations ++
      (rulesOf b).violations ++
      (b.blocks "managed_rule" maxRuleSets RuleSet.ofBlock).violations ++
      (b.list "frontend_endpoint_ids" 0 maxEndpoints text).violations ++
      (b.withDefault "tags" .empty tagsOf).violations := by
  simp [ofBlock, rulesOf]

end Policy

end EdgeFirewall
