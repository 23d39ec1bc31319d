import EdgeFirewall.Proofs.Service.Answers
import EdgeFirewall.Proofs.Service.Exchanges

/-! # Polling

What the answers to polls mean, said of the answers alone: an operation is done
(`PollTarget.IsDone`), it goes on (`PollTarget.IsPending`), or it is nowhere to be found, which only
the status 404 says. To wait for an operation is to poll until an answer is final, and all the polls
before it find the operation pending (`Endpoint.PollsUntil`, `Endpoint.waitFor_settles`). -/

namespace EdgeFirewall

open Http

/-! ### Answers to polls -/

/-- An answer tells the status of an operation. -/
def OperationStatus.Told (a : Response) (status : String) : Prop :=
  200 ≤ a.status ∧ a.status < 300 ∧
    ∃ o, OperationStatus.IsGivenBy o a.body ∧ o.status = status

namespace PollTarget

/-- The operation has succeeded. -/
def IsDone : PollTarget → Response → Prop
  | .statusDocument _, a => OperationStatus.Told a "Succeeded"
  | .location _, a => a.status = 200 ∨ a.status = 201 ∨ a.status = 204

/-- The operation goes on. -/
def IsPending : PollTarget → Response → Prop
  | .statusDocument _, a => ∃ status, OperationStatus.Told a status ∧
      status ∉ ["Succeeded", "Failed", "Canceled", "Cancelled"]
  | .location _, a => a.status = 202

end PollTarget

namespace Poll

variable {wording : Wording}

theorem classifyStatus_of_not_success {a : Response} (h : ¬ (200 ≤ a.status ∧ a.status < 300)) :
    classifyStatus wording a = .error (.ofStatus a.status a.body) := by
  unfold classifyStatus
  have hrange : (a.status < 200 || 300 ≤ a.status) = true := by
    rw [Bool.or_eq_true, decide_eq_true_iff, decide_eq_true_iff]
    omega
  rw [if_pos hrange]

theorem classifyStatus_of_success {a : Response} (h : 200 ≤ a.status ∧ a.status < 300) :
    classifyStatus wording a = match OperationStatus.ofBody? a.body with
      | none => .error (.unreadable (wording .operationStatus a.body))
      | some o =>
        if o.status = "Succeeded" then .ok .done
        else if o.status = "Failed" || o.status = "Canceled" || o.status = "Cancelled" then
          .error (.operationFailed o.status
            ((o.error.bind ErrorDetail.message).getD "no error details returned"))
        else .ok (.pending (retryAfter? a)) := by
  unfold classifyStatus
  have hrange : ¬ (a.status < 200 || 300 ≤ a.status) = true := by
    rw [Bool.or_eq_true, decide_eq_true_iff, decide_eq_true_iff]
    omega
  exact if_neg hrange

theorem classifyStatus_eq_done_iff {a : Response} :
    classifyStatus wording a = .ok .done ↔ OperationStatus.Told a "Succeeded" := by
  simp only [OperationStatus.Told, ← OperationStatus.ofBody?_eq_some_iff]
  by_cases hrange : 200 ≤ a.status ∧ a.status < 300
  · rw [classifyStatus_of_success hrange]
    cases OperationStatus.ofBody? a.body with
    | none => simp
    | some o =>
        by_cases hdone : o.status = "Succeeded"
        · simp [hdone, hrange]
        · simp only [if_neg hdone]
          split <;> simp [hdone]
  · rw [classifyStatus_of_not_success hrange]
    simp only [reduceCtorEq, false_iff]
    exact fun h => hrange ⟨h.1, h.2.1⟩

theorem classifyStatus_eq_pending_iff {a : Response} :
    (∃ delay, classifyStatus wording a = .ok (.pending delay)) ↔
      ∃ status, OperationStatus.Told a status ∧
        status ∉ ["Succeeded", "Failed", "Canceled", "Cancelled"] := by
  simp only [OperationStatus.Told, ← OperationStatus.ofBody?_eq_some_iff]
  by_cases hrange : 200 ≤ a.status ∧ a.status < 300
  · rw [classifyStatus_of_success hrange]
    cases OperationStatus.ofBody? a.body with
    | none => simp
    | some o =>
        by_cases hdone : o.status = "Succeeded"
        · simp [hdone]
        · simp only [if_neg hdone, Bool.or_eq_true, decide_eq_true_iff]
          split <;> simp [hdone, hrange] <;> grind
  · rw [classifyStatus_of_not_success hrange]
    simp only [reduceCtorEq, exists_false, false_iff]
    rintro ⟨_, h, -⟩
    exact hrange ⟨h.1, h.2.1⟩

theorem classify_eq_done_iff {target : PollTarget} {a : Response} :
    classify wording target a = .ok .done ↔ target.IsDone a := by
  cases target with
  | statusDocument url => exact classifyStatus_eq_done_iff
  | location url =>
      simp only [classify, classifyLocation, PollTarget.IsDone]
      split
      · next h => simp [h]
      · split
        · next h => simpa [or_assoc] using h
        · next h => simpa [or_assoc] using h

theorem classify_eq_pending_iff {target : PollTarget} {a : Response} :
    (∃ delay, classify wording target a = .ok (.pending delay)) ↔ target.IsPending a := by
  cases target with
  | statusDocument url => exact classifyStatus_eq_pending_iff
  | location url =>
      simp only [classify, classifyLocation, PollTarget.IsPending]
      split
      · next h => simp [h]
      · next h =>
          split <;> simp [h]

/-- Only what the status says can be that there is nothing; what a document says cannot. -/
theorem classifyStatus_of_notFound {a : Response} {e : ServiceError}
    (h : classifyStatus wording a = .error e) (he : e.isNotFound = true) :
    a.status = 404 ∧ e = .ofStatus 404 a.body := by
  by_cases hrange : 200 ≤ a.status ∧ a.status < 300
  · rw [classifyStatus_of_success hrange] at h
    have hdocument : e.isNotFound = false := by
      split at h
      · obtain rfl := Except.error.inj h
        rfl
      · split at h
        · simp at h
        · split at h
          · obtain rfl := Except.error.inj h
            rfl
          · simp at h
    exact absurd he (by simp [hdocument])
  · rw [classifyStatus_of_not_success hrange] at h
    obtain rfl := Except.error.inj h
    have hstatus := (ServiceError.isNotFound_ofStatus _ _).mp he
    exact ⟨hstatus, by rw [hstatus]⟩

theorem classify_eq_notFound_iff {target : PollTarget} {a : Response} {e : ServiceError} :
    (classify wording target a = .error e ∧ e.isNotFound = true) ↔
      a.status = 404 ∧ e = .ofStatus 404 a.body := by
  constructor
  · rintro ⟨h, he⟩
    cases target with
    | statusDocument url => exact classifyStatus_of_notFound h he
    | location url =>
        simp only [classify, classifyLocation] at h
        split at h
        · simp at h
        · split at h
          · simp at h
          · obtain rfl := Except.error.inj h
            have hstatus := (ServiceError.isNotFound_ofStatus _ _).mp he
            exact ⟨hstatus, by rw [hstatus]⟩
  · rintro ⟨hstatus, rfl⟩
    refine ⟨?_, (ServiceError.isNotFound_ofStatus _ _).mpr rfl⟩
    cases target with
    | statusDocument url =>
        have hrange : ¬ (200 ≤ a.status ∧ a.status < 300) := by omega
        rw [← hstatus]
        exact classifyStatus_of_not_success hrange
    | location url => simp [classify, classifyLocation, hstatus]

end Poll

namespace Endpoint

/-! ### Waiting -/

/-- A request in the name of the holder of the token. -/
def request (e : Endpoint) (method : Method) (url : String) (body : Option Json) : Request where
  method
  url
  headers := [("user-agent", "azwaf/0.1.0"), ("authorization", "Bearer " ++ e.token)] ++
    if body.isSome then [("content-type", "application/json")] else []
  body

theorem request_eq (e : Endpoint) (method : Method) (url : String) (body : Option Json) :
    e.request method url body = .authorized e.token method url body := by
  cases body <;> rfl

/-- A question after an operation. -/
def pollRequest (e : Endpoint) (target : PollTarget) : Request :=
  e.request .get target.url none

/-- A question settles on what its answer means. -/
theorem ask_settles (e : Endpoint) (ctx : Context) (target : PollTarget) :
    Settles ctx (e.ask ctx target) Conclusive fun x talk =>
      ∃ a, talk = [⟨e.pollRequest target, a⟩] ∧ Poll.classify e.wording target a = x ∧
        Conclusive x := by
  have hok : ∀ a : Response, Settles ctx (pure (Poll.classify e.wording target a)) Conclusive
      fun x talk => Conclusive x ∧ x = Poll.classify e.wording target a ∧ talk = [] :=
    fun a => Settles.pure _
  refine Settles.of_iff (Settles.passing (send_settles ctx _) (fun _ => rfl) hok)
    fun x talk => ⟨?_, ?_⟩
  · rintro (⟨_, before, after, rfl, ⟨a, heq, rfl⟩, hx, rfl, rfl⟩ | ⟨_, -, _, heq, -⟩)
    · obtain rfl := Except.ok.inj heq
      exact ⟨_, rfl, rfl, hx⟩
    · exact absurd heq (by simp)
  · rintro ⟨a, rfl, rfl, hx⟩
    exact .inl ⟨a, _, [], rfl, ⟨a, rfl, rfl⟩, hx, rfl, rfl⟩

/-- Polls of a target, at most a number of them, that find the operation pending but for the last
one, and how that ends. -/
def PollsUntil (e : Endpoint) (target : PollTarget) (limit : Nat) (ends : Response → Prop)
    (polls : List Exchange) : Prop :=
  ∃ pending last, polls = pending ++ [last] ∧ polls.length ≤ limit ∧
    (∀ x ∈ polls, x.request = e.pollRequest target) ∧
    (∀ x ∈ pending, target.IsPending x.answer) ∧ ends last.answer

variable {ctx : Context} {e : Endpoint} {target : PollTarget} {limit : Nat} {ends : Response → Prop}
  {polls : List Exchange}

theorem not_pollsUntil_zero : ¬ e.PollsUntil target 0 ends polls := by
  rintro ⟨pending, last, rfl, hlength, -⟩
  rw [List.length_append, List.length_singleton] at hlength
  omega

theorem PollsUntil.ne_nil (h : e.PollsUntil target limit ends polls) : polls ≠ [] := by
  obtain ⟨pending, last, rfl, -⟩ := h
  exact List.append_ne_nil_of_right_ne_nil pending (List.cons_ne_nil last [])

theorem pollsUntil_succ_iff : e.PollsUntil target (limit + 1) ends polls ↔
    ∃ x rest, polls = x :: rest ∧ x.request = e.pollRequest target ∧
      (rest = [] ∧ ends x.answer ∨
        target.IsPending x.answer ∧ e.PollsUntil target limit ends rest) := by
  constructor
  · rintro ⟨pending, last, rfl, hlength, hrequests, hpending, hends⟩
    cases pending with
    | nil => exact ⟨last, [], rfl, hrequests last (by simp), .inl ⟨rfl, hends⟩⟩
    | cons x pending =>
        rw [List.forall_mem_cons] at hpending
        rw [List.cons_append, List.forall_mem_cons] at hrequests
        rw [List.cons_append, List.length_cons] at hlength
        refine ⟨x, pending ++ [last], rfl, hrequests.1, .inr ⟨hpending.1, pending, last, rfl, ?_,
          hrequests.2, hpending.2, hends⟩⟩
        omega
  · rintro ⟨x, rest, rfl, hrequest, ⟨rfl, hends⟩ | ⟨hfirst, hrest⟩⟩
    · refine ⟨[], x, rfl, by simp, ?_, by simp, hends⟩
      simpa using hrequest
    · obtain ⟨pending, last, rfl, hlength, hrequests, hpending, hends⟩ := hrest
      refine ⟨x :: pending, last, rfl, ?_, ?_, ?_, hends⟩
      · rw [List.length_cons]
        omega
      · rw [List.forall_mem_cons]
        exact ⟨hrequest, hrequests⟩
      · rw [List.forall_mem_cons]
        exact ⟨hfirst, hpending⟩

end Endpoint

/-- What the last poll of an operation earns. -/
def PollTarget.Ends (target : PollTarget) (a : Response) : Except ServiceError Unit → Prop
  | .ok _ => target.IsDone a
  | .error e => a.status = 404 ∧ e = .ofStatus 404 a.body

namespace Endpoint

/-- What is done with the answer to a question, while so many polls are left. -/
def afterAsking (e : Endpoint) (ctx : Context) (attempts : Nat) (target : PollTarget) :
    Except ServiceError Progress → StateM Session (Except ServiceError Unit)
  | .error err => return .error err
  | .ok .done => return .ok ()
  | .ok (.pending delay) => do
    return (← e.waitFor ctx attempts ⟨target, delay.getD e.poll.interval⟩).1

theorem waitFor_succ (e : Endpoint) (ctx : Context) (attempts : Nat) (p : Poller) :
    (do return (← e.waitFor ctx (attempts + 1) p).1) =
      Session.sleep ctx p.nextDelay >>= fun
        | .error err => pure (.error err)
        | .ok _ => e.ask ctx p.target >>= afterAsking e ctx attempts p.target := by
  funext s
  rw [bind_apply, bind_apply]
  unfold waitFor
  rw [bind_apply]
  cases (Session.sleep ctx p.nextDelay s).1 with
  | error err => rfl
  | ok _ =>
      dsimp only
      rw [bind_apply, bind_apply]
      cases (e.ask ctx p.target (Session.sleep ctx p.nextDelay s).2).1 with
      | error err => rfl
      | ok progress => cases progress <;> rfl

/-- Asking once settles if the operation has ended, and else on what the other polls settle on. -/
theorem ask_afterAsking_settles (attempts : Nat)
    (ih : ∀ p : Poller, Settles ctx (do return (← e.waitFor ctx attempts p).1) Conclusive
      fun x polls => e.PollsUntil p.target attempts (fun a => p.target.Ends a x) polls)
    (target : PollTarget) :
    Settles ctx (e.ask ctx target >>= afterAsking e ctx attempts target) Conclusive fun x polls =>
      e.PollsUntil target (attempts + 1) (fun a => target.Ends a x) polls := by
  have hafter : ∀ progress, Settles ctx (afterAsking e ctx attempts target (.ok progress))
      Conclusive fun x polls => progress = .done ∧ x = .ok () ∧ polls = [] ∨
        (∃ delay, progress = .pending delay) ∧
          e.PollsUntil target attempts (fun a => target.Ends a x) polls := by
    intro progress
    cases progress with
    | done =>
        refine Settles.of_iff (Settles.pure _) fun x polls => ?_
        simp only [reduceCtorEq, exists_false, false_and, or_false, true_and]
        constructor
        · exact And.right
        · rintro ⟨rfl, rfl⟩
          exact ⟨conclusive_ok (), rfl, rfl⟩
    | pending delay => exact (ih _).of_iff fun x polls => by simp
  refine Settles.of_iff (Settles.passing (ask_settles e ctx target) (fun _ => rfl) hafter)
    fun x polls => ?_
  rw [pollsUntil_succ_iff]
  constructor
  · rintro (⟨progress, before, after, rfl, ⟨a, rfl, hclass, -⟩, hcase⟩ |
      ⟨err, rfl, a, rfl, hclass, hx⟩)
    · refine ⟨_, after, rfl, rfl, ?_⟩
      rcases hcase with ⟨rfl, rfl, rfl⟩ | ⟨hpending, hrest⟩
      · exact .inl ⟨rfl, Poll.classify_eq_done_iff.mp hclass⟩
      · obtain ⟨delay, rfl⟩ := hpending
        exact .inr ⟨Poll.classify_eq_pending_iff.mp ⟨delay, hclass⟩, hrest⟩
    · exact ⟨_, [], rfl, rfl, .inl ⟨rfl,
        Poll.classify_eq_notFound_iff.mp ⟨hclass, conclusive_error.mp hx⟩⟩⟩
  · rintro ⟨⟨request, a⟩, rest, rfl, rfl, ⟨rfl, hends⟩ | ⟨hpending, hrest⟩⟩
    · cases x with
      | ok _ =>
          have hclass : Poll.classify e.wording target a = .ok .done :=
            Poll.classify_eq_done_iff.mpr hends
          exact .inl ⟨.done, [_], [], rfl, ⟨a, rfl, hclass, conclusive_ok _⟩, .inl ⟨rfl, rfl, rfl⟩⟩
      | error err =>
          obtain ⟨hclass, herr⟩ : Poll.classify e.wording target a = .error err ∧
              err.isNotFound = true := Poll.classify_eq_notFound_iff.mpr hends
          exact .inr ⟨err, rfl, a, rfl, hclass, conclusive_error.mpr herr⟩
    · obtain ⟨delay, hclass⟩ : ∃ delay, Poll.classify e.wording target a = .ok (.pending delay) :=
        Poll.classify_eq_pending_iff.mpr hpending
      exact .inl ⟨.pending delay, [_], rest, rfl, ⟨a, rfl, hclass, conclusive_ok _⟩,
        .inr ⟨⟨delay, rfl⟩, hrest⟩⟩

/-- Waiting settles on how the last poll ends. The induction is on the number of polls that are
left, as each may ask for another delay. -/
theorem waitFor_settles (e : Endpoint) (ctx : Context) (attempts : Nat) (p : Poller) :
    Settles ctx (do return (← e.waitFor ctx attempts p).1) Conclusive fun x polls =>
      e.PollsUntil p.target attempts (fun a => p.target.Ends a x) polls := by
  induction attempts generalizing p with
  | zero =>
      have hnot :
          ¬ Conclusive (.error (.timedOut e.poll.maxAttempts) : Except ServiceError Unit) := by
        simp [ServiceError.isNotFound]
      refine Settles.of_iff (Settles.pure_of_not hnot) fun x polls => ?_
      simp [not_pollsUntil_zero]
  | succ attempts ih =>
      rw [waitFor_succ]
      refine Settles.of_iff (Settles.passing (sleep_settles ctx p.nextDelay) (fun _ => rfl)
        fun _ => ask_afterAsking_settles attempts ih p.target) fun x polls => ?_
      constructor
      · rintro (⟨_, before, after, rfl, ⟨-, rfl⟩, hafter⟩ | ⟨_, -, heq, -⟩)
        · exact hafter
        · exact absurd heq (by simp)
      · intro h
        exact .inl ⟨(), [], polls, rfl, ⟨rfl, rfl⟩, h⟩

end Endpoint

end EdgeFirewall
