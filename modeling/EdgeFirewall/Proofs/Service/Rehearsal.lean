import EdgeFirewall.Proofs.Service.Client
import EdgeFirewall.Service.Rehearsal

/-! # Rehearsals keep policies

A rehearsal without a plan, in a context that lets work start, is a service that keeps policies
(`Rehearsal.client_keeps`). -/

namespace EdgeFirewall.Rehearsal

/-- What a rehearsal holds that has no plan and stays at a time. -/
def Holds (clock : Clock) (r : Rehearsal) (m : StoreKey → Option Document) : Prop :=
  r.clock = clock ∧ r.plan = {} ∧ ∀ key, r.store.get? key = m key

variable {ctx : Context} {clock : Clock} {r : Rehearsal} {m : StoreKey → Option Document}

/-- Without a plan a call that may start does its work. -/
theorem perform_of_holds {α : Type} (hr : Holds clock r m) (hctx : ctx.refusal? clock = none)
    (call : Call) (work : Outcome → StateM Rehearsal (Except ServiceError α)) :
    ∃ r', perform ctx call work r = work {} r' ∧ Holds clock r' m := by
  obtain ⟨rfl, hplan, hstore⟩ := hr
  have hbegin : begin call r = ({}, { r with calls := r.calls ++ [call] }) := by
    cases call <;> simp [begin, hplan]
  refine ⟨{ r with calls := r.calls ++ [call] }, ?_, rfl, hplan, hstore⟩
  simp only [perform, bind_apply, hbegin, pause, pure_apply, Context.run, hctx]

theorem client_keeps (f : Folding) (subscription : String) (hctx : ctx.refusal? clock = none) :
    (client f subscription ctx).Keeps f subscription (Holds clock) where
  get_some {r m d} group name hr hd := by
    obtain ⟨r', hwork, hr'⟩ := perform_of_holds hr hctx (.get group name) (fetch f group name)
    refine ⟨r', ?_, hr'⟩
    simp only [client, hwork, fetch, hr'.2.2, hd, Option.none_or]
  get_none {r m} group name hr hd := by
    obtain ⟨r', hwork, hr'⟩ := perform_of_holds hr hctx (.get group name) (fetch f group name)
    refine ⟨absent group name, r', ?_, rfl, hr'⟩
    simp only [client, hwork, fetch, hr'.2.2, hd, Option.none_or]
  put {r m} group name d hr := by
    obtain ⟨r', hwork, hclock, hplan, hstore⟩ :=
      perform_of_holds hr hctx (.put group name d) (keep f subscription group name d)
    refine ⟨(), _, d.stored subscription group name, hwork, rfl, rfl, hclock, hplan,
      fun key => ?_⟩
    rw [Function.update_apply, ← hstore]
    exact Store.get?_insert r'.store _ _ _
  delete_some {r m d} group name hr hd := by
    obtain ⟨r', hwork, hclock, hplan, hstore⟩ :=
      perform_of_holds hr hctx (.delete group name) (remove f group name)
    refine ⟨(), { r' with store := r'.store.erase (.of f group name) }, ?_, hclock, hplan,
      fun key => ?_⟩
    · simp only [client, hwork, remove, hstore, hd]
    · rw [Function.update_apply, ← hstore]
      exact Store.get?_erase r'.store _ _
  delete_none {r m} group name hr hd := by
    obtain ⟨r', hwork, hr'⟩ := perform_of_holds hr hctx (.delete group name) (remove f group name)
    refine ⟨absent group name, r', ?_, rfl, hr'⟩
    simp only [client, hwork, remove, hr'.2.2, hd]
  wait {r m} _ hr := by
    obtain ⟨r', hwork, hr'⟩ := perform_of_holds hr hctx .wait fun _ => pure (.ok ())
    exact ⟨r', hwork, hr'⟩

end EdgeFirewall.Rehearsal
