import EdgeFirewall.Proofs.Lifecycle.Deadlines
import EdgeFirewall.Proofs.Settings.Resolution

/-! # Deadlines beyond the latest time

Every number of seconds from one on that fits into 64 bits is accepted as a timeout, but a time is a
signed number of seconds. With the larger half of the timeouts, and with the others from some time
on, the deadline of a call would lie beyond the latest time (`BeyondLatest`), and the call breaks
off. No other timeout breaks a call (`breaks_off_iff_beyond_latest`). -/

namespace EdgeFirewall

open Http
open Text (Denotes)

variable {σ η : Type} {a : Attributes} {env : Settings.Environment}

/-- The latest time is the last millisecond of its second. -/
theorem Clock.latest_lt_iff {now seconds : Nat} :
    latest < now + 1000 * seconds ↔ 2 ^ 63 ≤ now / 1000 + seconds := by
  unfold latest
  omega

/-- A call is handled in a context of its own. -/
def HostCall.NeedsContext (call : HostCall) : Prop :=
  call.key.type = Policy.resourceType ∧ call ≠ .read call.key none

/-- The timeout that is given leads beyond the latest time. -/
def Settings.BeyondLatest (a : Attributes) (env : Environment) (c : Clock) : Prop :=
  ∃ t n, Given a env .operationTimeout t ∧ Denotes t n ∧ 2 ^ 63 ≤ c.now / 1000 + n

namespace Provider

variable {p : Provider} {e : Endpoint} {b : Backend σ η} {call : HostCall} {s : σ} {serial : Nat}
  {wording : Wording}

/-! ### Calls without a context -/

theorem reply_ne_noDeadline (call : HostCall) (x : Except PolicyError (Option PolicyState)) :
    reply call x ≠ .error .noDeadline := by
  intro h
  cases call with
  | read key identifier =>
      rcases x with err | state | state
      · dsimp only [reply] at h
        split at h <;> cases h
      all_goals cases h
  | _ => rcases x with err | state | state <;> cases h

theorem handle_of_no_context (hcall : call.NeedsContext) (hctx : p.context? (b.clock s) = none) :
    p.handle b call s = (.error .noDeadline, s) :=
  handle_of_failed_run (failsToRun_of_no_context hcall.1 hctx) hcall.2

/-- A call that needs no context is answered without one, and nothing is done. -/
theorem handle_of_not_needsContext (hcall : ¬ call.NeedsContext) :
    (p.handle b call s).1 ≠ .error .noDeadline ∧ (p.handle b call s).2 = s := by
  by_cases hkey : call.key.type = Policy.resourceType
  · obtain ⟨key, rfl⟩ : ∃ key, call = .read key none :=
      ⟨_, by_contra fun hread => hcall ⟨hkey, hread⟩⟩
    rw [HostCall.key] at hkey
    rw [handle_read_none hkey]
    exact ⟨by simp, rfl⟩
  · rw [handle_of_unknown hkey]
    exact ⟨by simp [unknownType], rfl⟩

theorem handle_noDeadline_iff : (p.handle b call s).1 = .error .noDeadline ↔
    call.NeedsContext ∧ p.context? (b.clock s) = none := by
  constructor
  · intro h
    have hcall : call.NeedsContext :=
      by_contra fun hcall => (handle_of_not_needsContext hcall).1 h
    refine ⟨hcall, ?_⟩
    cases hctx : p.context? (b.clock s) with
    | none => rfl
    | some ctx =>
        rw [handle_of_context hcall.1 hctx] at h
        exact absurd h (reply_ne_noDeadline call _)
  · rintro ⟨hcall, hctx⟩
    rw [handle_of_no_context hcall hctx]

/-- Without a context nothing happens, so there is none for any later call either. -/
theorem handleAll_of_no_context (hctx : p.context? (b.clock s) = none) (calls : List HostCall) :
    (p.handleAll b calls s).2 = s ∧
      List.Forall₂ (fun call answer => answer = .error .noDeadline ↔ call.NeedsContext) calls
        (p.handleAll b calls s).1 := by
  induction calls with
  | nil => exact ⟨rfl, .nil⟩
  | cons call rest ih =>
      have hsame : (p.handle b call s).2 = s := by
        by_cases hcall : call.NeedsContext
        · rw [handle_of_no_context hcall hctx]
        · exact (handle_of_not_needsContext hcall).2
      rw [handleAll]
      simp only [bind_apply, pure_apply, hsame]
      exact ⟨ih.1, .cons (handle_noDeadline_iff.trans (and_iff_left hctx)) ih.2⟩

/-! ### Timeouts that are accepted -/

theorem timeout_of_ofAttributes (h : ofAttributes serial wording a env = .ok (p, e)) :
    Settings.TakenFrom a env .operationTimeout
      (fun t value => ∃ n, Denotes t n ∧ value = some (1000 * n)) none p.timeout := by
  unfold ofAttributes at h
  cases hresolve : Settings.resolve a env with
  | error err => simp [hresolve] at h
  | ok settings =>
      rw [hresolve] at h
      obtain ⟨rfl, -⟩ := Prod.mk.inj (Except.ok.inj h)
      obtain ⟨t, hgiven, n, hnumber, htimeout⟩ | ⟨hunset, htimeout⟩ :=
        (Settings.yields_of_resolve hresolve).timeout
      · exact .inl ⟨t, hgiven, n, hnumber, by rw [htimeout]; rfl⟩
      · exact .inr ⟨hunset, by rw [htimeout]; rfl⟩

theorem context?_eq_none_iff (h : ofAttributes serial wording a env = .ok (p, e)) (c : Clock) :
    p.context? c = none ↔ Settings.BeyondLatest a env c := by
  obtain ⟨t, hgiven, n, hnumber, htimeout⟩ | ⟨hunset, htimeout⟩ := timeout_of_ofAttributes h
  · rw [context?_of_timeout htimeout, ite_eq_right_iff]
    simp only [reduceCtorEq, imp_false, not_le, Clock.latest_lt_iff]
    constructor
    · exact fun hlate => ⟨t, n, hgiven, hnumber, hlate⟩
    · rintro ⟨t', n', hgiven', hnumber', hlate⟩
      obtain rfl := hgiven.unique hgiven'
      obtain rfl := hnumber.unique hnumber'
      exact hlate
  · have hctx : p.context? c = some { token := p.token.child } := by
      unfold context?
      rw [htimeout]
      rfl
    rw [hctx]
    constructor
    · exact fun hnone => absurd hnone (by simp)
    · rintro ⟨t, -, hgiven, -⟩
      exact absurd hgiven (hunset t)

/-! ### Main statement -/

/-- With attributes that are accepted, calls get a context unless the timeout leads beyond the
latest time. A call breaks off in no other case; and once one does, nothing happens any more and
all calls that need a context break off. -/
theorem breaks_off_iff_beyond_latest (h : ofAttributes serial wording a env = .ok (p, e))
    (b : Backend σ η) (s : σ) :
    (p.context? (b.clock s) = none ↔ Settings.BeyondLatest a env (b.clock s)) ∧
      (∀ call, (p.handle b call s).1 = .error .noDeadline ↔
        call.NeedsContext ∧ Settings.BeyondLatest a env (b.clock s)) ∧
      (Settings.BeyondLatest a env (b.clock s) → ∀ calls, (p.handleAll b calls s).2 = s ∧
        List.Forall₂ (fun call answer => answer = .error .noDeadline ↔ call.NeedsContext) calls
          (p.handleAll b calls s).1) := by
  have hlate := context?_eq_none_iff h (b.clock s)
  refine ⟨hlate, fun call => ?_, fun hbeyond => handleAll_of_no_context (hlate.mpr hbeyond)⟩
  rw [handle_noDeadline_iff, hlate]

/-- The largest timeout that a call can have, in the first second and in the next one. -/
theorem breaks_off_iff_beyond_latest_next_second :
    let a : Attributes := [("access_token", .string "tok"), ("subscription_id", .string "sub"),
      ("operation_timeout_seconds", .int 9223372036854775807)]
    let settings : Settings :=
      ⟨"sub", "tok", "https://management.azure.com", ⟨10000, 360⟩, some 9223372036854775807⟩
    let wording : Wording := fun _ _ => "?"
    let p := (ofSettings 0 wording settings).1
    let b := (ofSettings 0 wording settings).2.backend "sub"
    let s (now : Nat) : Session := { clock := { now }, web := .ofList [] }
    let call : HostCall := .delete ⟨Policy.resourceType, "waf"⟩ "id"
    ofAttributes 0 wording a (fun _ => none) = .ok (ofSettings 0 wording settings) ∧
      (p.handle b call (s 999)).1 ≠ .error .noDeadline ∧
      (p.handle b call (s 1000)).1 = .error .noDeadline := by
  intro a settings wording p b s call
  have hresolve : Settings.resolve a (fun _ => none) = .ok settings := by decide +kernel
  have h : ofAttributes 0 wording a (fun _ => none) =
      .ok (p, (ofSettings 0 wording settings).2) := by
    rw [ofAttributes, hresolve]
  obtain ⟨hctx, hcall, -⟩ := breaks_off_iff_beyond_latest h b (s 999)
  obtain ⟨hctx', hcall', -⟩ := breaks_off_iff_beyond_latest h b (s 1000)
  have hneeds : call.NeedsContext := ⟨rfl, by simp [call]⟩
  refine ⟨h, fun hlate => ?_, (hcall' call).mpr ⟨hneeds, hctx'.mp (by decide +kernel)⟩⟩
  have hnone := hctx.mpr ((hcall call).mp hlate).2
  exact absurd hnone (by decide +kernel)

/-- The greatest number of 64 bits is accepted, and no call has a context with it. -/
theorem not_context_of_every_accepted_timeout :
    ¬ ∀ (serial : Nat) (wording : Wording) (a : Attributes) (env : Settings.Environment)
      (p : Provider) (e : Endpoint), ofAttributes serial wording a env = .ok (p, e) →
        ∀ c : Clock, ∃ ctx, p.context? c = some ctx := by
  intro hall
  let a : Attributes := [("access_token", .string "tok"), ("subscription_id", .string "sub"),
    ("operation_timeout_seconds", .string "18446744073709551615")]
  let settings : Settings :=
    ⟨"sub", "tok", "https://management.azure.com", ⟨10000, 360⟩, some 18446744073709551615⟩
  have hresolve : Settings.resolve a (fun _ => none) = .ok settings := by decide +kernel
  let wording : Wording := fun _ _ => "?"
  have h : ofAttributes 0 wording a (fun _ => none) = .ok (ofSettings 0 wording settings) := by
    rw [ofAttributes, hresolve]
  obtain ⟨ctx, hctx⟩ := hall 0 wording a (fun _ => none) (ofSettings 0 wording settings).1
    (ofSettings 0 wording settings).2 h {}
  have hnone : (ofSettings 0 wording settings).1.context? {} = none := by decide +kernel
  exact absurd (hnone.symm.trans hctx) (by simp)

end Provider

end EdgeFirewall
