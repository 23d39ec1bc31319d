import EdgeFirewall.Proofs.Policy.Slots

/-! # Policies there and back

A policy that is read from an attribute map, written as a document and then as attributes again
comes out canonical (`toAttributes_toDocument`) and is the same policy when it is read once more
(`ofAttributes_canonical`). Taken as one step on attribute maps, this is the identity exactly on the
canonical maps of policies, and doing it twice is doing it once
(`rewritten?_canonical_identity_idempotent`). -/

namespace EdgeFirewall.Policy

open Form

variable {a m : Attributes} {p : Policy}

/-! ### Canonical maps are those that `canonical` leaves alone -/

theorem Condition.faithful_slots : Faithful (.block slots) :=
  faithful_block (by simp [slots, faithful_plain, faithful_word, faithful_items]) (by decide)

theorem Rule.faithful_slots : Faithful (.block slots) := by
  have hconditions := faithful_items Condition.faithful_slots
  exact faithful_block (by simp [slots, faithful_plain, faithful_word, hconditions]) (by decide)

theorem RuleOverride.faithful_slots : Faithful (.block slots) :=
  faithful_block (by simp [slots, faithful_plain, faithful_word]) (by decide)

theorem GroupOverride.faithful_slots : Faithful (.block slots) := by
  have hrules := faithful_items RuleOverride.faithful_slots
  exact faithful_block (by simp [slots, faithful_plain, hrules]) (by decide)

theorem RuleSet.faithful_slots : Faithful (.block slots) := by
  have hoverrides := faithful_items GroupOverride.faithful_slots
  exact faithful_block (by simp [slots, faithful_plain, hoverrides]) (by decide)

theorem faithful_slots : Faithful (.block slots) := by
  have hrules := faithful_items Rule.faithful_slots
  have hsets := faithful_items RuleSet.faithful_slots
  have hendpoints := faithful_items faithful_plain
  exact faithful_block (by simp [slots, faithful_plain, faithful_word, faithful_table, hrules,
    hsets, hendpoints]) (by decide)

theorem canonical_eq_self_iff : canonical a = a ↔ IsCanonical a := by
  rw [IsCanonical, ← faithful_slots, canon_block, Value.map.injEq, canonical]

/-! ### Writing and reading again -/

theorem toAttributes_toDocument (h : ofAttributes a = .ok p) :
    p.toDocument.toAttributes p.name p.resourceGroup = .ok (canonical a) := by
  rw [Document.toAttributes, mode?_toDocument,
    canonical_eq_of_ofBlock (ofAttributes_eq_ok_iff.mp h)]

theorem ofAttributes_canonical (h : ofAttributes a = .ok p) :
    ofAttributes (canonical a) = .ok p :=
  ofAttributes_eq_ok_iff.mpr (ofBlock_canonical (ofAttributes_eq_ok_iff.mp h) [])

theorem canonical_canonical (h : ofAttributes a = .ok p) :
    canonical (canonical a) = canonical a := by
  have honce := toAttributes_toDocument h
  have htwice := toAttributes_toDocument (ofAttributes_canonical h)
  exact Except.ok.inj (htwice.symm.trans honce)

/-- A policy survives being written as a document and as attributes. -/
theorem ofAttributes_toAttributes_toDocument (h : ofAttributes a = .ok p) :
    ∃ m, p.toDocument.toAttributes p.name p.resourceGroup = .ok m ∧ ofAttributes m = .ok p :=
  ⟨canonical a, toAttributes_toDocument h, ofAttributes_canonical h⟩

/-- The attributes of a policy with a custom rule and a managed one. Some words stand after dotted
paths, most defaults are left open, and one key is the host's own. -/
def qualifiedAttributes : Attributes := [
  ("custom_rule", .list [.map [
    ("action", .string "ActionType.Block"),
    ("match_condition", .list [.map [
      ("match_value", .list [.string "curl"]),
      ("operator", .string "Operator.Contains"),
      ("selector", .string "RequestHeader")]]),
    ("name", .string "agents"),
    ("rule_type", .string "MatchRule")]]),
  ("managed_rule", .list [.map [
    ("override", .list [.map [
      ("rule", .list [.map [("action", .string "Log"), ("rule_id", .string "933111")]]),
      ("rule_group_name", .string "PHP")]]),
    ("type", .string "DefaultRuleSet"),
    ("version", .string "1.0")]]),
  ("mode", .string "PolicyMode.Prevention"),
  ("name", .string "edge"),
  ("owner", .string "web team"),
  ("resource_group_name", .string "web")]

theorem ofAttributes_toAttributes_toDocument_qualified :
    ∃ p m, ofAttributes qualifiedAttributes = .ok p ∧
      p.toDocument.toAttributes p.name p.resourceGroup = .ok m ∧ ofAttributes m = .ok p := by
  have hvalid : (ofAttributes qualifiedAttributes).isOk = true := by decide +kernel
  obtain ⟨p, hp⟩ := exists_of_isOk hvalid
  obtain ⟨m, hm, hagain⟩ := ofAttributes_toAttributes_toDocument hp
  exact ⟨p, m, hp, hm, hagain⟩

/-! ### One step on attribute maps -/

/-- Reads a policy from an attribute map and writes it as attributes by way of its document. -/
def rewritten? (a : Attributes) : Option Attributes :=
  (ofAttributes a).toOption.bind fun p =>
    (p.toDocument.toAttributes p.name p.resourceGroup).toOption

theorem rewritten?_eq_some_iff :
    rewritten? a = some m ↔ (∃ p, ofAttributes a = .ok p) ∧ canonical a = m := by
  unfold rewritten?
  cases h : ofAttributes a with
  | ok p => simp [toAttributes_toDocument h, Except.toOption]
  | error vs => simp [Except.toOption]

theorem rewritten?_eq_self_iff :
    rewritten? a = some a ↔ (∃ p, ofAttributes a = .ok p) ∧ IsCanonical a := by
  rw [rewritten?_eq_some_iff, canonical_eq_self_iff]

theorem rewritten?_rewritten? (h : rewritten? a = some m) : rewritten? m = some m := by
  obtain ⟨⟨p, hp⟩, rfl⟩ := rewritten?_eq_some_iff.mp h
  exact rewritten?_eq_some_iff.mpr ⟨⟨p, ofAttributes_canonical hp⟩, canonical_canonical hp⟩

/-- Rewriting a policy gives the canonical form of its attributes. It changes nothing exactly if
they are canonical, and after it nothing is left to change. -/
theorem rewritten?_canonical_identity_idempotent :
    (∀ a p, ofAttributes a = .ok p →
      p.toDocument.toAttributes p.name p.resourceGroup = .ok (canonical a)) ∧
    (∀ a, rewritten? a = some a ↔ (∃ p, ofAttributes a = .ok p) ∧ IsCanonical a) ∧
    (∀ a m, rewritten? a = some m → rewritten? m = some m) :=
  ⟨fun _ _ => toAttributes_toDocument, fun _ => rewritten?_eq_self_iff,
    fun _ _ => rewritten?_rewritten?⟩

theorem rewritten?_noncanonical :
    ∃ m, rewritten? qualifiedAttributes = some m ∧ m ≠ qualifiedAttributes ∧ rewritten? m = some m ∧
      (∃ p, ofAttributes m = .ok p) ∧ IsCanonical m := by
  have hvalid : (ofAttributes qualifiedAttributes).isOk = true := by decide +kernel
  obtain ⟨p, hp⟩ := exists_of_isOk hvalid
  obtain ⟨hcanonical, hidentity, hidempotent⟩ := rewritten?_canonical_identity_idempotent
  have hm := rewritten?_eq_some_iff.mpr ⟨⟨p, hp⟩, rfl⟩
  have hagain := hidempotent _ _ hm
  refine ⟨canonical qualifiedAttributes, hm, ?_, hagain, (hidentity _).mp hagain⟩
  decide +kernel

end EdgeFirewall.Policy
