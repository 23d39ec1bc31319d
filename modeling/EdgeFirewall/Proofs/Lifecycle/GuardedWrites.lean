import EdgeFirewall.Proofs.Lifecycle.Requests
import EdgeFirewall.Proofs.Policy.RoundTrip
import EdgeFirewall.Proofs.Service.Calls
import EdgeFirewall.Service.Rehearsal

/-! # Guarded writes

No step in the life of a policy writes blindly, whatever the service answers: what is put is the
policy that was asked for, once, and directly after the call that showed that it may be put
(`writes_guarded`). For each step there is one lemma about the calls it makes, from `logs_apply` to
`logs_delete`. -/

namespace EdgeFirewall.Lifecycle

variable {σ η : Type}

/-! ### What may be put -/

/-- What is put is the policy that attributes declare, under its own group and name. -/
def IsDeclared (a : Attributes) (group name : String) (d : Document) : Prop :=
  ∃ p, Policy.ofAttributes a = .ok p ∧ group = p.resourceGroup ∧ name = p.name ∧
    d = p.toDocument

/-- A creation may put what has just been looked for and not been found. -/
def CreateAllows (a : Attributes) (last : CallRecord) (group name : String) (d : Document) :
    Prop :=
  IsDeclared a group name d ∧
    ∃ e, last = ⟨.get group name, .error e⟩ ∧ e.isNotFound = true

/-- An update may put what has just been found where its identifier says. -/
def UpdateAllows (identifier : String) (a : Attributes) (last : CallRecord)
    (group name : String) (d : Document) : Prop :=
  IsDeclared a group name d ∧
    ∃ address found, Policy.Address.parse identifier = .ok address ∧
      last = ⟨.get address.group address.name, .ok (some found)⟩ ∧
      Text.eqIgnoringCase group address.group = true ∧
      Text.eqIgnoringCase name address.name = true

/-- Nothing is put but the policy that attributes declare. -/
def PutsDeclared (a : Attributes) (log : List CallRecord) : Prop :=
  ∀ group name d result, ⟨.put group name d, result⟩ ∈ log → IsDeclared a group name d

/-- Nothing is called but one get of the policy with an identifier. -/
def GetsOnce (identifier : String) (log : List CallRecord) : Prop :=
  log = [] ∨ ∃ address result, Policy.Address.parse identifier = .ok address ∧
    log = [⟨.get address.group address.name, result⟩]

/-- Nothing is called but one deletion of the policy with an identifier and a wait for its end. -/
def DeletesOnce (identifier : String) (log : List CallRecord) : Prop :=
  log = [] ∨ ∃ address result waits, Policy.Address.parse identifier = .ok address ∧
    log = ⟨.delete address.group address.name, result⟩ :: waits ∧ waits.length ≤ 1 ∧
    ∀ r ∈ waits, r.call = .wait

/-! ### Logs of a put that is guarded -/

/-- A put, and then calls that write nothing. -/
def PutThenQuiet (p : Policy) (log : List CallRecord) : Prop :=
  ∃ result rest, log = ⟨.put p.resourceGroup p.name p.toDocument, result⟩ :: rest ∧ Quiet rest

variable {a : Attributes} {p : Policy} {log : List CallRecord}
  {allows : CallRecord → (group name : String) → Document → Prop}

theorem PutThenQuiet.putsDeclared (h : PutThenQuiet p log) (hp : Policy.ofAttributes a = .ok p) :
    PutsDeclared a log := by
  intro group name d result hmem
  obtain ⟨result', rest, rfl, hrest⟩ := h
  rcases List.mem_cons.mp hmem with heq | hmem
  · rw [CallRecord.mk.injEq, Call.put.injEq] at heq
    exact ⟨p, hp, heq.1⟩
  · exact absurd hmem hrest.not_mem_put

theorem PutThenQuiet.writesOnce (h : PutThenQuiet p log) : WritesOnce log := by
  obtain ⟨result, rest, rfl, hrest⟩ := h
  exact writesOnce_put hrest

/-- Nothing is written, or a policy is put after a get that allows it. -/
def GuardedPut (allows : CallRecord → (group name : String) → Document → Prop)
    (log : List CallRecord) : Prop :=
  Quiet log ∨ ∃ p group name result rest,
    log = ⟨.get group name, result⟩ :: rest ∧ PutThenQuiet p rest ∧
      allows ⟨.get group name, result⟩ p.resourceGroup p.name p.toDocument

theorem GuardedPut.putsAllowed (h : GuardedPut allows log) : PutsAllowed allows log := by
  rcases h with hquiet | ⟨p, group, name, result, _, rfl, ⟨_, _, rfl, hrest⟩, hallows⟩
  · exact hquiet.putsAllowed
  · exact putsAllowed_cons_put rfl hallows hrest

theorem GuardedPut.writesOnce (h : GuardedPut allows log) : WritesOnce log := by
  rcases h with hquiet | ⟨p, group, name, result, _, rfl, hput, -⟩
  · exact hquiet.writesOnce
  · exact hput.writesOnce.cons rfl rfl

theorem guardedPut_get {group name : String} {result : Except ServiceError (Option Document)} :
    GuardedPut allows [⟨.get group name, result⟩] :=
  .inl (by simp [Call.isPut, Call.isDelete])

/-! ### The calls of each step -/

variable {c : Client σ η} {identifier : String}

theorem logs_apply (p : Policy) : Logs (apply c.logged p) (apply c p) (PutThenQuiet p) := by
  refine Logs.noting_bind fun put => ?_
  cases put with
  | error e => exact .pure ⟨_, _, rfl, quiet_nil⟩
  | ok operation =>
      refine Logs.noting_bind fun wait => ?_
      cases wait with
      | error e => exact .pure ⟨_, _, rfl, by simp [Call.isPut, Call.isDelete]⟩
      | ok _ =>
          refine Logs.noting_bind fun get => ?_
          have hquiet : ∀ result,
              Quiet [⟨.wait, .ok none⟩, ⟨.get p.resourceGroup p.name, result⟩] :=
            fun result => by simp [Call.isPut, Call.isDelete]
          cases get with
          | error e =>
              dsimp only
              split <;> exact .pure ⟨_, _, rfl, hquiet _⟩
          | ok d =>
              dsimp only
              split <;> exact .pure ⟨_, _, rfl, hquiet _⟩

theorem logs_create (subscription : String) :
    Logs (create c.logged subscription a) (create c subscription a)
      (GuardedPut (CreateAllows a)) := by
  unfold create
  cases hdeclared : declared a with
  | error e => exact .pure (.inl quiet_nil)
  | ok p =>
      have hp := declared_eq_ok_iff.mp hdeclared
      refine Logs.noting_bind fun get => ?_
      cases get with
      | ok d => exact .pure guardedPut_get
      | error e =>
          dsimp only
          split
          · next he =>
              refine (logs_apply p).mono fun rest hrest => .inr ⟨p, _, _, _, rest, rfl, hrest, ?_⟩
              exact ⟨⟨p, hp, rfl, rfl, rfl⟩, e, rfl, he⟩
          · exact .pure guardedPut_get

theorem logs_update : Logs (update c.logged identifier a) (update c identifier a)
    (GuardedPut (UpdateAllows identifier a)) := by
  unfold update
  cases haddress : Policy.Address.parse identifier with
  | error e => exact .pure (.inl quiet_nil)
  | ok address =>
      dsimp only
      cases hdeclared : declared a with
      | error e => exact .pure (.inl quiet_nil)
      | ok p =>
          have hp := declared_eq_ok_iff.mp hdeclared
          dsimp only
          cases hreplacements : replacements address p with
          | cons v vs => exact .pure (.inl quiet_nil)
          | nil =>
              obtain ⟨hname, hgroup⟩ := replacements_eq_nil_iff.mp hreplacements
              refine Logs.noting_bind fun get => ?_
              cases get with
              | error e =>
                  dsimp only
                  split <;> exact .pure guardedPut_get
              | ok d =>
                  refine (logs_apply p).mono fun rest hrest =>
                    .inr ⟨p, _, _, _, rest, rfl, hrest, ?_⟩
                  exact ⟨⟨p, hp, rfl, rfl, rfl⟩, address, d, haddress, rfl, hgroup, hname⟩

theorem logs_createOrUpdate : Logs (createOrUpdate c.logged a) (createOrUpdate c a) fun log =>
    PutsDeclared a log ∧ WritesOnce log := by
  unfold createOrUpdate
  cases hdeclared : declared a with
  | error e => exact .pure ⟨fun _ _ _ _ hmem => absurd hmem quiet_nil.not_mem_put,
      quiet_nil.writesOnce⟩
  | ok p =>
      have hp := declared_eq_ok_iff.mp hdeclared
      exact (logs_apply p).mono fun log hlog => ⟨hlog.putsDeclared hp, hlog.writesOnce⟩

theorem logs_read : Logs (read c.logged identifier) (read c identifier)
    (GetsOnce identifier) := by
  unfold read
  cases haddress : Policy.Address.parse identifier with
  | error e => exact .pure (.inl rfl)
  | ok address =>
      refine Logs.noting_bind fun get => ?_
      cases get with
      | error e =>
          dsimp only
          split <;> exact .pure (.inr ⟨address, _, haddress, rfl⟩)
      | ok d => exact .pure (.inr ⟨address, _, haddress, rfl⟩)

theorem logs_delete : Logs (delete c.logged identifier) (delete c identifier)
    (DeletesOnce identifier) := by
  unfold delete
  cases haddress : Policy.Address.parse identifier with
  | error e => exact .pure (.inl rfl)
  | ok address =>
      refine Logs.noting_bind fun removed => ?_
      cases removed with
      | error e =>
          dsimp only
          split <;> exact .pure (.inr ⟨address, _, [], haddress, rfl, by simp, by simp⟩)
      | ok operation =>
          refine Logs.noting_bind fun wait => ?_
          have hone : ∀ result, DeletesOnce identifier
              [⟨.delete address.group address.name, .ok none⟩, ⟨.wait, result⟩] :=
            fun result => .inr ⟨address, _, [⟨.wait, result⟩], haddress, rfl, by simp, by simp⟩
          cases wait with
          | error e =>
              dsimp only
              split <;> exact .pure (hone _)
          | ok _ => exact .pure (hone _)

/-- Whatever the service answers: a creation puts only what it has just looked for and not found,
an update only what it has just found where its identifier says, and each puts what its attributes
declare, once, and deletes nothing. Reading asks once, and deleting deletes once and waits. -/
theorem writes_guarded (c : Client σ η) (s : σ) (subscription identifier : String)
    (a : Attributes) :
    (PutsAllowed (CreateAllows a) (c.calls s (create · subscription a)) ∧
      WritesOnce (c.calls s (create · subscription a))) ∧
    (PutsAllowed (UpdateAllows identifier a) (c.calls s (update · identifier a)) ∧
      WritesOnce (c.calls s (update · identifier a))) ∧
    (PutsDeclared a (c.calls s (createOrUpdate · a)) ∧
      WritesOnce (c.calls s (createOrUpdate · a))) ∧
    GetsOnce identifier (c.calls s (read · identifier)) ∧
    DeletesOnce identifier (c.calls s (delete · identifier)) := by
  have hcreate : GuardedPut (CreateAllows a) (c.calls s (create · subscription a)) :=
    (logs_create subscription).calls s
  have hupdate : GuardedPut (UpdateAllows identifier a) (c.calls s (update · identifier a)) :=
    logs_update.calls s
  refine ⟨⟨hcreate.putsAllowed, hcreate.writesOnce⟩, ⟨hupdate.putsAllowed, hupdate.writesOnce⟩,
    ?_, ?_, ?_⟩
  · exact Logs.calls (P := fun log => PutsDeclared a log ∧ WritesOnce log) logs_createOrUpdate s
  · exact Logs.calls (P := GetsOnce identifier) logs_read s
  · exact Logs.calls (P := DeletesOnce identifier) logs_delete s

example : ((Rehearsal.client .ascii "sub" { token := .own 0 }).calls {}
    (create · "sub" Policy.qualifiedAttributes)).map (·.call.isPut) =
      [false, true, false, false] := by decide +kernel

end EdgeFirewall.Lifecycle
