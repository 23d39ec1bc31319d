import EdgeFirewall.Proofs.Service.Client

/-! # The calls of a piece of work

A logged client notes the calls of the work it does. `LogsAs` says that work with a logged client
ends as it does without the log, and what it adds to the log, by its outcome; it is shown along the
work, call by call (`LogsAs.noting_bind`). `Logs` is the case where the outcome does not matter. Of
a log it may be said that nothing is written (`Quiet`), that a policy is put at most once
(`WritesOnce`), and that each put comes directly after a call that allows it (`PutsAllowed`). -/

namespace EdgeFirewall

variable {σ η : Type}

/-- Whether a call puts a policy. -/
def Call.isPut : Call → Bool
  | .put .. => true
  | _ => false

/-- Whether a call deletes a policy. -/
def Call.isDelete : Call → Bool
  | .delete .. => true
  | _ => false

/-- Every put comes directly after a call that allows it. -/
def PutsAllowed (allows : CallRecord → (group name : String) → Document → Prop)
    (log : List CallRecord) : Prop :=
  ∀ before group name d result after, log = before ++ ⟨.put group name d, result⟩ :: after →
    ∃ earlier last, before = earlier ++ [last] ∧ allows last group name d

/-- There is at most one put, and no deletion. -/
def WritesOnce (log : List CallRecord) : Prop :=
  log.countP (·.call.isPut) ≤ 1 ∧ ∀ r ∈ log, r.call.isDelete = false

/-- Nothing is put or deleted. -/
def Quiet (log : List CallRecord) : Prop :=
  ∀ r ∈ log, r.call.isPut = false ∧ r.call.isDelete = false

/-- The calls that a piece of work makes, one after the other. -/
def Client.calls {α : Type} (c : Client σ η) (s : σ)
    (work : Client (σ × List CallRecord) η → StateM (σ × List CallRecord) α) : List CallRecord :=
  (work c.logged (s, [])).2.2

/-! ### Logs with at most one put -/

section

variable {allows : CallRecord → (group name : String) → Document → Prop}
  {log rest : List CallRecord} {r : CallRecord} {group name : String} {d : Document}
  {result : Except ServiceError (Option Document)}

@[simp] theorem quiet_nil : Quiet [] := by simp [Quiet]

@[simp] theorem quiet_cons : Quiet (r :: log) ↔
    (r.call.isPut = false ∧ r.call.isDelete = false) ∧ Quiet log := by
  simp only [Quiet, List.forall_mem_cons]

theorem Quiet.not_mem_put (h : Quiet log) : ⟨.put group name d, result⟩ ∉ log := by
  intro hmem
  have hput := (h _ hmem).1
  simp [Call.isPut] at hput

theorem Quiet.putsAllowed (h : Quiet log) : PutsAllowed allows log := by
  rintro before group name d result after rfl
  exact absurd (List.mem_append_right _ (List.mem_cons_self ..)) h.not_mem_put

theorem Quiet.countP_isPut (h : Quiet log) : log.countP (·.call.isPut) = 0 := by
  rw [List.countP_eq_zero]
  intro r hr
  simp [(h r hr).1]

theorem Quiet.writesOnce (h : Quiet log) : WritesOnce log := by
  refine ⟨?_, fun r hr => (h r hr).2⟩
  rw [h.countP_isPut]
  omega

theorem putsAllowed_cons_put (hr : r.call.isPut = false) (hallows : allows r group name d)
    (hrest : Quiet rest) : PutsAllowed allows (r :: ⟨.put group name d, result⟩ :: rest) := by
  intro before group' name' d' result' after h
  cases before with
  | nil =>
      -- the put would be the first call
      rw [List.nil_append, List.cons.injEq] at h
      rw [h.1] at hr
      simp [Call.isPut] at hr
  | cons first before =>
      rw [List.cons_append, List.cons.injEq] at h
      obtain ⟨rfl, h⟩ := h
      cases before with
      | nil =>
          rw [List.nil_append, List.cons.injEq, CallRecord.mk.injEq, Call.put.injEq] at h
          obtain ⟨⟨⟨rfl, rfl, rfl⟩, -⟩, -⟩ := h
          exact ⟨[], r, rfl, hallows⟩
      | cons second before =>
          -- the put would be among the calls after it
          rw [List.cons_append, List.cons.injEq] at h
          rw [h.2] at hrest
          exact absurd (List.mem_append_right _ (List.mem_cons_self ..)) hrest.not_mem_put

theorem writesOnce_put (hrest : Quiet rest) :
    WritesOnce (⟨.put group name d, result⟩ :: rest) := by
  refine ⟨?_, fun r hr => ?_⟩
  · rw [List.countP_cons, hrest.countP_isPut]
    split <;> omega
  · rcases List.mem_cons.mp hr with rfl | hr
    · rfl
    · exact (hrest r hr).2

theorem WritesOnce.cons (h : WritesOnce log) (hput : r.call.isPut = false)
    (hdelete : r.call.isDelete = false) : WritesOnce (r :: log) := by
  refine ⟨?_, fun r' hr => ?_⟩
  · rw [List.countP_cons_of_neg (by simp [hput])]
    exact h.1
  · rcases List.mem_cons.mp hr with rfl | hr
    · exact hdelete
    · exact h.2 r' hr

end

/-! ### What work adds to a log -/

/-- Work with a logged client ends as the same work without the log does, and adds calls to the log
as `P` says of its outcome. -/
def LogsAs {α : Type} (logged : StateM (σ × List CallRecord) α) (work : StateM σ α)
    (P : α → List CallRecord → Prop) : Prop :=
  ∀ s log, ∃ added, logged (s, log) = ((work s).1, (work s).2, log ++ added) ∧ P (work s).1 added

namespace LogsAs

variable {α β : Type} {P : α → List CallRecord → Prop} {Q : β → List CallRecord → Prop}

theorem mono {P' : α → List CallRecord → Prop} {logged : StateM (σ × List CallRecord) α}
    {work : StateM σ α} (h : LogsAs logged work P)
    (hPP' : ∀ a added, P a added → P' a added) : LogsAs logged work P' := by
  intro s log
  obtain ⟨added, hadded, hP⟩ := h s log
  exact ⟨added, hadded, hPP' _ added hP⟩

theorem pure {a : α} (h : P a []) : LogsAs (σ := σ) (Pure.pure a) (Pure.pure a) P := by
  intro s log
  refine ⟨[], ?_, h⟩
  rw [List.append_nil]
  rfl

/-- A noted call stands before what comes after it. -/
theorem noting_bind {call : Call} {document? : α → Option Document}
    {run : StateM σ (Except ServiceError α)}
    {f : Except ServiceError α → StateM (σ × List CallRecord) β}
    {g : Except ServiceError α → StateM σ β}
    (h : ∀ r, LogsAs (f r) (g r) fun b added => Q b (⟨call, r.map document?⟩ :: added)) :
    LogsAs (Client.noting call document? run >>= f) (run >>= g) Q := by
  intro s log
  obtain ⟨added, hadded, hQ⟩ := h (run s).1 (run s).2 (log ++ [⟨call, (run s).1.map document?⟩])
  refine ⟨_, ?_, hQ⟩
  rw [bind_apply, bind_apply, ← List.singleton_append, ← List.append_assoc]
  exact hadded

/-- Work whose outcome is only looked at adds the same calls. -/
theorem map {logged : StateM (σ × List CallRecord) α} {work : StateM σ α}
    {f : α → StateM (σ × List CallRecord) β} {g : α → StateM σ β} (k : α → β)
    (h : LogsAs logged work P) (hf : ∀ a, f a = Pure.pure (k a)) (hg : ∀ a, g a = Pure.pure (k a))
    (hPQ : ∀ a added, P a added → Q (k a) added) : LogsAs (logged >>= f) (work >>= g) Q := by
  intro s log
  obtain ⟨added, hadded, hP⟩ := h s log
  refine ⟨added, ?_, ?_⟩
  · rw [bind_apply, bind_apply, hadded, hf, hg]
    rfl
  · rw [bind_apply, hg]
    exact hPQ _ _ hP

theorem calls {c : Client σ η} {work : StateM σ α}
    {logged : Client (σ × List CallRecord) η → StateM (σ × List CallRecord) α}
    (h : LogsAs (logged c.logged) work P) (s : σ) : P (work s).1 (c.calls s logged) := by
  obtain ⟨added, hadded, hP⟩ := h s []
  unfold Client.calls
  rw [hadded]
  exact hP

end LogsAs

/-- The case of work that adds calls to the log as `P` says, whatever the outcome. -/
def Logs {α : Type} (logged : StateM (σ × List CallRecord) α) (work : StateM σ α)
    (P : List CallRecord → Prop) : Prop :=
  ∀ s log, ∃ added, logged (s, log) = ((work s).1, (work s).2, log ++ added) ∧ P added

namespace Logs

variable {α β : Type} {P Q : List CallRecord → Prop}

theorem iff_logsAs {logged : StateM (σ × List CallRecord) α} {work : StateM σ α} :
    Logs logged work P ↔ LogsAs logged work fun _ => P := Iff.rfl

theorem mono {logged : StateM (σ × List CallRecord) α} {work : StateM σ α}
    (h : Logs logged work P) (hPQ : ∀ added, P added → Q added) : Logs logged work Q :=
  iff_logsAs.mpr ((iff_logsAs.mp h).mono fun _ => hPQ)

theorem pure {a : α} (h : P []) : Logs (σ := σ) (Pure.pure a) (Pure.pure a) P :=
  iff_logsAs.mpr (.pure h)

theorem noting_bind {call : Call} {document? : α → Option Document}
    {run : StateM σ (Except ServiceError α)}
    {f : Except ServiceError α → StateM (σ × List CallRecord) β}
    {g : Except ServiceError α → StateM σ β}
    (h : ∀ r, Logs (f r) (g r) fun added => P (⟨call, r.map document?⟩ :: added)) :
    Logs (Client.noting call document? run >>= f) (run >>= g) P :=
  iff_logsAs.mpr (.noting_bind fun r => iff_logsAs.mp (h r))

theorem calls {c : Client σ η} {work : StateM σ α}
    {logged : Client (σ × List CallRecord) η → StateM (σ × List CallRecord) α}
    (h : Logs (logged c.logged) work P) (s : σ) : P (c.calls s logged) :=
  (iff_logsAs.mp h).calls s

end Logs

end EdgeFirewall
