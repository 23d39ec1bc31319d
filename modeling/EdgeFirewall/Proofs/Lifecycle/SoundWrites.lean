import EdgeFirewall.Proofs.Lifecycle.GuardedWrites
import EdgeFirewall.Proofs.Policy.Sound

/-! # Sound writes

Nothing unchecked reaches the service: whatever it answers, every document that a step in the life
of a policy puts is sound (`writes_sound`). What is put is what the attributes declare, and that has
only sound documents. -/

namespace EdgeFirewall.Lifecycle

variable {σ η : Type} {a : Attributes} {log : List CallRecord} {group name : String} {d : Document}

/-- Every document that is put is sound. -/
def PutsSound (log : List CallRecord) : Prop :=
  ∀ group name d result, ⟨.put group name d, result⟩ ∈ log → d.Sound

theorem IsDeclared.sound (h : IsDeclared a group name d) : d.Sound := by
  obtain ⟨p, hp, -, -, rfl⟩ := h
  exact Policy.sound_toDocument hp

theorem PutsDeclared.putsSound (h : PutsDeclared a log) : PutsSound log := by
  intro group name d result hmem
  exact (h group name d result hmem).sound

/-- A put that was allowed put a sound document if only such are allowed. -/
theorem putsSound_of_putsAllowed {allows : CallRecord → (group name : String) → Document → Prop}
    (h : PutsAllowed allows log)
    (hallows : ∀ last group name d, allows last group name d → d.Sound) : PutsSound log := by
  intro group name d result hmem
  obtain ⟨before, after, heq⟩ := List.append_of_mem hmem
  obtain ⟨_, last, -, hlast⟩ := h before group name d result after heq
  exact hallows last group name d hlast

/-- Whatever the service answers, and whatever attributes and identifier are given: creating,
updating and putting without a look put nothing but sound documents. -/
theorem writes_sound (c : Client σ η) (s : σ) (subscription identifier : String)
    (a : Attributes) :
    PutsSound (c.calls s (create · subscription a)) ∧
    PutsSound (c.calls s (update · identifier a)) ∧
    PutsSound (c.calls s (createOrUpdate · a)) := by
  have hcreate : GuardedPut (CreateAllows a) (c.calls s (create · subscription a)) :=
    (logs_create subscription).calls s
  have hupdate : GuardedPut (UpdateAllows identifier a) (c.calls s (update · identifier a)) :=
    logs_update.calls s
  have hput : PutsDeclared a (c.calls s (createOrUpdate · a)) :=
    (Logs.calls (P := fun log => PutsDeclared a log ∧ WritesOnce log) logs_createOrUpdate s).1
  refine ⟨?_, ?_, hput.putsSound⟩
  · exact putsSound_of_putsAllowed hcreate.putsAllowed fun _ _ _ _ hallowed => hallowed.1.sound
  · exact putsSound_of_putsAllowed hupdate.putsAllowed fun _ _ _ _ hallowed => hallowed.1.sound

end EdgeFirewall.Lifecycle
