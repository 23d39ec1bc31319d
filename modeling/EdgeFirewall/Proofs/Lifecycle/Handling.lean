import EdgeFirewall.Proofs.Lifecycle.Registry
import EdgeFirewall.Proofs.Service.Client

/-! # How a call of a host is handled

A call gets a client in a context of its own, something is asked of that client
(`Provider.attempt`), and the host is told how it went (`Provider.reply`); `handle_of_context` says
that this is all. A call that gets no client breaks off with the reason (`handle_of_failed_run`). -/

namespace EdgeFirewall

variable {σ η : Type}

namespace Provider

variable {p : Provider} {b : Backend σ η} {call : HostCall} {key : ResourceKey} {ctx : Context}
  {f : CallFailure} {s : σ}

/-! ### Work with a client -/

/-- No work is done for a resource, and the host is told why. -/
def FailsToRun (p : Provider) (b : Backend σ η) (key : ResourceKey) (s : σ) (f : CallFailure) :
    Prop :=
  ∀ (α : Type) (work : Client σ η → StateM σ (Except PolicyError α)),
    p.run b key work s = (.error f, s)

theorem run_of_context {α : Type} (hkey : key.type = Policy.resourceType)
    (hctx : p.context? (b.clock s) = some ctx)
    (work : Client σ η → StateM σ (Except PolicyError α)) :
    p.run b key work s = (.ok (work (b.connect ctx) s).1, (work (b.connect ctx) s).2) := by
  unfold run
  rw [if_pos hkey, hctx]
  rfl

theorem failsToRun_of_no_context (hkey : key.type = Policy.resourceType)
    (hctx : p.context? (b.clock s) = none) : p.FailsToRun b key s .noDeadline := by
  intro α work
  unfold run
  rw [if_pos hkey, hctx]

theorem failsToRun_of_unknown (hkey : key.type ≠ Policy.resourceType) :
    p.FailsToRun b key s (unknownType key) := by
  intro α work
  unfold run
  rw [if_neg hkey]

/-! ### Reading and deleting -/

/-- What a host is told about a policy that was read. -/
def readAnswer (key : ResourceKey) :
    Except PolicyError PolicyState → Except CallFailure ResourceState
  | .error e => if e.isNotFound then .ok (.absent key) else .error (policyFailure key e)
  | .ok s => .ok (stateOf key s)

theorem read_of_context (hkey : key.type = Policy.resourceType)
    (hctx : p.context? (b.clock s) = some ctx) (identifier : String) :
    p.read b key (some identifier) s =
      (readAnswer key (Lifecycle.read (b.connect ctx) identifier s).1,
        (Lifecycle.read (b.connect ctx) identifier s).2) := by
  unfold read
  dsimp only
  rw [bind_apply, run_of_context hkey hctx]
  cases (Lifecycle.read (b.connect ctx) identifier s).1 with
  | ok state => rfl
  | error e =>
      unfold readAnswer
      dsimp only
      split <;> rfl

theorem read_none (hkey : key.type = Policy.resourceType) :
    p.read b key none s = (.ok (.absent key), s) := by
  unfold read
  dsimp only
  rw [if_pos hkey]
  rfl

theorem read_of_failed_run (h : p.FailsToRun b key s f) (identifier : String) :
    p.read b key (some identifier) s = (.error f, s) := by
  unfold read
  dsimp only
  rw [bind_apply, h]
  rfl

theorem read_of_unknown (hkey : key.type ≠ Policy.resourceType) (identifier : Option String) :
    p.read b key identifier s = (.error (unknownType key), s) := by
  cases identifier with
  | none =>
      unfold read
      dsimp only
      rw [if_neg hkey]
      rfl
  | some identifier => exact read_of_failed_run (failsToRun_of_unknown hkey) identifier

theorem delete_of_context (hkey : key.type = Policy.resourceType)
    (hctx : p.context? (b.clock s) = some ctx) (identifier : String) :
    p.delete b key identifier s =
      ((Lifecycle.delete (b.connect ctx) identifier s).1.mapError (policyFailure key),
        (Lifecycle.delete (b.connect ctx) identifier s).2) := by
  unfold delete
  rw [bind_apply, run_of_context hkey hctx]
  cases (Lifecycle.delete (b.connect ctx) identifier s).1 <;> rfl

theorem delete_of_failed_run (h : p.FailsToRun b key s f) (identifier : String) :
    p.delete b key identifier s = (.error f, s) := by
  unfold delete
  rw [bind_apply, h]
  rfl

/-! ### Any call -/

/-- What a call asks of a client, and the state that comes of it. A read without an identifier asks
for nothing. -/
def attempt (p : Provider) (c : Client σ η) :
    HostCall → StateM σ (Except PolicyError (Option PolicyState))
  | .create r => do return (← Lifecycle.create c p.subscription r.attributes).map some
  | .read _ none => return .ok none
  | .read _ (some identifier) => do return (← Lifecycle.read c identifier).map some
  | .update _ identifier target => do
    return (← Lifecycle.update c identifier target.attributes).map some
  | .delete _ identifier => do return (← Lifecycle.delete c identifier).map fun _ => none

/-- What a host is told about it. -/
def reply : HostCall → Except PolicyError (Option PolicyState) → HostAnswer
  | .read key _, .error e =>
    if e.isNotFound then .ok (some (.absent key)) else .error (policyFailure key e)
  | .read key _, .ok none => .ok (some (.absent key))
  | call, .error e => .error (policyFailure call.key e)
  | _, .ok none => .ok none
  | call, .ok (some s) => .ok (some (stateOf call.key s))

theorem handle_of_context (hkey : call.key.type = Policy.resourceType)
    (hctx : p.context? (b.clock s) = some ctx) :
    p.handle b call s =
      (reply call (p.attempt (b.connect ctx) call s).1, (p.attempt (b.connect ctx) call s).2) := by
  cases call with
  | create r =>
      rw [HostCall.key] at hkey
      simp only [handle, create, attempt, bind_apply, pure_apply, run_of_context hkey hctx]
      cases (Lifecycle.create (b.connect ctx) p.subscription r.attributes s).1 <;> rfl
  | read key identifier =>
      rw [HostCall.key] at hkey
      cases identifier with
      | none =>
          simp only [handle, attempt, bind_apply, pure_apply, read_none hkey]
          rfl
      | some identifier =>
          simp only [handle, attempt, bind_apply, pure_apply, read_of_context hkey hctx]
          cases (Lifecycle.read (b.connect ctx) identifier s).1 with
          | ok state => rfl
          | error e => cases he : e.isNotFound <;> simp [readAnswer, reply, he, Except.map]
  | update key identifier target =>
      rw [HostCall.key] at hkey
      simp only [handle, update, attempt, bind_apply, pure_apply, run_of_context hkey hctx]
      cases (Lifecycle.update (b.connect ctx) identifier target.attributes s).1 <;> rfl
  | delete key identifier =>
      rw [HostCall.key] at hkey
      simp only [handle, attempt, bind_apply, pure_apply, delete_of_context hkey hctx]
      cases (Lifecycle.delete (b.connect ctx) identifier s).1 <;> rfl

theorem handle_read_none (hkey : key.type = Policy.resourceType) :
    p.handle b (.read key none) s = (.ok (some (.absent key)), s) := by
  simp only [handle, bind_apply, pure_apply, read_none hkey]
  rfl

/-- A call that gets no client breaks off. A read without an identifier asks for none. -/
theorem handle_of_failed_run (h : p.FailsToRun b call.key s f)
    (hcall : call ≠ .read call.key none) : p.handle b call s = (.error f, s) := by
  cases call with
  | create r =>
      rw [HostCall.key] at h
      simp only [handle, create, bind_apply, pure_apply, h _ _]
      rfl
  | read key identifier =>
      rw [HostCall.key] at h
      cases identifier with
      | none => exact absurd rfl hcall
      | some identifier =>
          simp only [handle, bind_apply, pure_apply, read_of_failed_run h]
          rfl
  | update key identifier target =>
      rw [HostCall.key] at h
      simp only [handle, update, bind_apply, pure_apply, h _ _]
      rfl
  | delete key identifier =>
      rw [HostCall.key] at h
      simp only [handle, bind_apply, pure_apply, delete_of_failed_run h]
      rfl

theorem handle_of_unknown (hkey : call.key.type ≠ Policy.resourceType) (s : σ) :
    p.handle b call s = (.error (unknownType call.key), s) := by
  by_cases hcall : call = .read call.key none
  · obtain ⟨key, rfl⟩ : ∃ key, call = .read key none := ⟨_, hcall⟩
    rw [HostCall.key] at hkey
    simp only [handle, bind_apply, pure_apply, read_of_unknown hkey]
    rfl
  · exact handle_of_failed_run (failsToRun_of_unknown hkey) hcall

/-- A call leaves the state as it is, or as it is left by what was asked of its client. -/
theorem handle_session (p : Provider) (b : Backend σ η) (call : HostCall) (s : σ) :
    (p.handle b call s).2 = s ∨ ∃ ctx, p.context? (b.clock s) = some ctx ∧
      (p.handle b call s).2 = (p.attempt (b.connect ctx) call s).2 := by
  by_cases hkey : call.key.type = Policy.resourceType
  · cases hctx : p.context? (b.clock s) with
    | some ctx => exact .inr ⟨ctx, rfl, by rw [handle_of_context hkey hctx]⟩
    | none =>
        refine .inl ?_
        by_cases hcall : call = .read call.key none
        · rw [hcall, handle_read_none hkey]
        · rw [handle_of_failed_run (failsToRun_of_no_context hkey hctx) hcall]
  · exact .inl (by rw [handle_of_unknown hkey])

theorem policyFailure_eq_failure (key : ResourceKey) (e : PolicyError) :
    policyFailure key e = HostCall.failure key e := rfl

theorem reply_error {e : PolicyError} (he : e.isNotFound = false) :
    reply call (.error e) = .error (policyFailure call.key e) := by
  cases call <;> simp [reply, he, HostCall.key]

theorem eq_of_reply {x : Except PolicyError (Option PolicyState)} {e : PolicyError}
    (h : reply call x = .error (policyFailure key e)) : x = .error e := by
  have hcause : ∀ {key' e'}, policyFailure key' e' = policyFailure key e → e' = e := by
    intro key' e' heq
    simp only [policyFailure, CallFailure.error.injEq, ProviderError.mk.injEq, Option.some.injEq,
      ProviderCause.policy.injEq] at heq
    exact heq.2.2
  cases x with
  | ok state => cases call <;> cases state <;> simp [reply] at h
  | error e' =>
      cases call with
      | read key' identifier =>
          simp only [reply] at h
          split at h
          · simp at h
          · rw [hcause (Except.error.inj h)]
      | create r => rw [hcause (Except.error.inj h)]
      | update key' identifier target => rw [hcause (Except.error.inj h)]
      | delete key' identifier => rw [hcause (Except.error.inj h)]

end Provider

end EdgeFirewall
