import EdgeFirewall.Proofs.Service.Polling
import EdgeFirewall.Proofs.Service.Timing
import Mathlib.Algebra.BigOperators.Group.Finset.Basic

/-! # How a wait goes

A wait with no deadline and no signal sleeps and polls in turn until a poll shows that the operation
has ended, or no poll is left. What comes of each poll (`Endpoint.pollReply`) shows how the
operation stands (`PollTarget.Shows`) and sets the delay before the next one (`Endpoint.pollDelay`),
so the replies alone say how many polls there are, when each is sent and how the wait ends
(`Endpoint.wait_outcome`). -/

namespace EdgeFirewall

open Http

/-! ### What a poll shows -/

/-- How an operation stands, as far as a poll shows: what came of it and what that says. -/
inductive PollTarget.Shows (wording : Wording) :
    PollTarget → Reply → Except ServiceError Progress → Prop where
  | dropped (target : PollTarget) (reason : String) :
    Shows wording target (.failure reason) (.error (.connection reason))
  | broken (target : PollTarget) (status : Nat) (headers : List (String × String))
      (reason : String) :
    Shows wording target (.broken status headers reason) (.error (.connection reason))
  | refused {url : String} {a : Response} {e : ServiceError}
      (h : ¬ (200 ≤ a.status ∧ a.status < 300)) (he : e.IsRefusal a) :
    Shows wording (.statusDocument url) (.answer a) (.error e)
  | unreadable {url : String} {a : Response} (h : 200 ≤ a.status ∧ a.status < 300)
      (hbody : ∀ o, ¬ OperationStatus.IsGivenBy o a.body) :
    Shows wording (.statusDocument url) (.answer a)
      (.error (.unreadable (wording .operationStatus a.body)))
  | succeeded {url : String} {a : Response} {o : OperationStatus}
      (h : 200 ≤ a.status ∧ a.status < 300) (hbody : o.IsGivenBy a.body)
      (ho : o.status = "Succeeded") : Shows wording (.statusDocument url) (.answer a) (.ok .done)
  | failed {url : String} {a : Response} {o : OperationStatus}
      (h : 200 ≤ a.status ∧ a.status < 300) (hbody : o.IsGivenBy a.body)
      (ho : o.status ∈ ["Failed", "Canceled", "Cancelled"]) :
    Shows wording (.statusDocument url) (.answer a) (.error (.operationFailed o.status
      ((o.error.bind ErrorDetail.message).getD "no error details returned")))
  | goesOn {url : String} {a : Response} {o : OperationStatus} {delay : Option Nat}
      (h : 200 ≤ a.status ∧ a.status < 300) (hbody : o.IsGivenBy a.body)
      (ho : o.status ∉ ["Succeeded", "Failed", "Canceled", "Cancelled"])
      (hdelay : ∀ d, delay = some d ↔ a.AsksFor d) :
    Shows wording (.statusDocument url) (.answer a) (.ok (.pending delay))
  | accepted {url : String} {a : Response} {delay : Option Nat} (h : a.status = 202)
      (hdelay : ∀ d, delay = some d ↔ a.AsksFor d) :
    Shows wording (.location url) (.answer a) (.ok (.pending delay))
  | reached {url : String} {a : Response} (h : a.status ∈ [200, 201, 204]) :
    Shows wording (.location url) (.answer a) (.ok .done)
  | missed {url : String} {a : Response} {e : ServiceError} (h : a.status ∉ [200, 201, 202, 204])
      (he : e.IsRefusal a) : Shows wording (.location url) (.answer a) (.error e)

namespace PollTarget

/-- A poll shows that the operation goes on. -/
def GoesOn (wording : Wording) (target : PollTarget) (reply : Reply) : Prop :=
  ∃ delay, target.Shows wording reply (.ok (.pending delay))

/-- A poll shows how the operation has ended. -/
def EndsWith (wording : Wording) (target : PollTarget) (reply : Reply)
    (x : Except ServiceError Unit) : Prop :=
  target.Shows wording reply (x.map fun _ => .done)

variable {wording : Wording} {target : PollTarget} {reply : Reply} {a : Response}

theorem eq_some_retryAfter?_iff (a : Response) (d : Nat) :
    Poll.retryAfter? a = some d ↔ a.AsksFor d :=
  Response.retryAfter?_eq_some_iff

theorem eq_retryAfter?_of_asks {delay : Option Nat} (h : ∀ d, delay = some d ↔ a.AsksFor d) :
    delay = Poll.retryAfter? a := by
  refine Option.ext fun d => ?_
  rw [h, ← Response.retryAfter?_eq_some_iff]

theorem shows_statusDocument {url : String} :
    Shows wording (.statusDocument url) (.answer a) (Poll.classifyStatus wording a) := by
  by_cases hrange : 200 ≤ a.status ∧ a.status < 300
  · rw [Poll.classifyStatus_of_success hrange]
    cases hbody : OperationStatus.ofBody? a.body with
    | none => exact .unreadable hrange (OperationStatus.ofBody?_eq_none_iff.mp hbody)
    | some o =>
        have hgiven := OperationStatus.ofBody?_eq_some_iff.mp hbody
        dsimp only
        split
        · next ho => exact .succeeded hrange hgiven ho
        · split
          · next ho => exact .failed hrange hgiven (by simpa [or_assoc] using ho)
          · next hdone hfailed =>
              refine .goesOn hrange hgiven ?_ (eq_some_retryAfter?_iff a)
              simp_all
  · rw [Poll.classifyStatus_of_not_success hrange]
    exact .refused hrange (ServiceError.isRefusal_iff.mpr rfl)

theorem shows_location {url : String} :
    Shows wording (.location url) (.answer a) (Poll.classifyLocation a) := by
  unfold Poll.classifyLocation
  split
  · next h => exact .accepted h (eq_some_retryAfter?_iff a)
  · split
    · next h => exact .reached (by simpa [or_assoc] using h)
    · next h => exact .missed (by simp_all) (ServiceError.isRefusal_iff.mpr rfl)

/-- What is made of a reply is what it shows. -/
theorem shows_result : target.Shows wording reply
    (reply.result.bind (Poll.classify wording target)) := by
  cases reply with
  | answer a =>
      cases target with
      | statusDocument url => exact shows_statusDocument
      | location url => exact shows_location
  | broken status headers reason => exact .broken target status headers reason
  | failure reason => exact .dropped target reason

/-- Whatever an answer shows is what is made of it. -/
theorem Shows.eq_classify {x : Except ServiceError Progress}
    (h : target.Shows wording (.answer a) x) : x = Poll.classify wording target a := by
  cases h with
  | refused hrange he =>
      rw [ServiceError.isRefusal_iff.mp he]
      exact (Poll.classifyStatus_of_not_success hrange).symm
  | unreadable hrange hbody =>
      have hnone := OperationStatus.ofBody?_eq_none_iff.mpr hbody
      rw [Poll.classify, Poll.classifyStatus_of_success hrange, hnone]
  | succeeded hrange hbody ho =>
      have hsome := OperationStatus.ofBody?_eq_some_iff.mpr hbody
      rw [Poll.classify, Poll.classifyStatus_of_success hrange, hsome]
      simp [ho]
  | failed hrange hbody ho =>
      have hsome := OperationStatus.ofBody?_eq_some_iff.mpr hbody
      rw [Poll.classify, Poll.classifyStatus_of_success hrange, hsome]
      grind
  | goesOn hrange hbody ho hasks =>
      have hsome := OperationStatus.ofBody?_eq_some_iff.mpr hbody
      rw [Poll.classify, Poll.classifyStatus_of_success hrange, hsome, eq_retryAfter?_of_asks hasks]
      grind
  | accepted hstatus hasks =>
      rw [Poll.classify, Poll.classifyLocation, if_pos hstatus, eq_retryAfter?_of_asks hasks]
  | reached hstatus =>
      unfold Poll.classify Poll.classifyLocation
      grind
  | missed hstatus he =>
      rw [ServiceError.isRefusal_iff.mp he]
      unfold Poll.classify Poll.classifyLocation
      grind

/-- A poll shows one thing only. -/
theorem Shows.unique {x y : Except ServiceError Progress} (hx : target.Shows wording reply x)
    (hy : target.Shows wording reply y) : x = y := by
  cases reply with
  | answer a => rw [hx.eq_classify, hy.eq_classify]
  | broken status headers reason =>
      cases hx
      cases hy
      rfl
  | failure reason =>
      cases hx
      cases hy
      rfl

end PollTarget

/-! ### Time without a deadline -/

/-- With no deadline and no signal, nothing cuts a sleep short. -/
theorem Context.sleep_of_unbounded {ctx : Context} {c : Clock} (hc : c.IsQuiet ctx.token)
    (hctx : ctx.deadline = none) (duration : Nat) :
    ctx.sleep duration c = (.ok (), c.moved (c.now + duration)) := by
  rw [sleep_of_quiet hc, hctx]
  rfl

theorem Context.isLive_of_unbounded {ctx : Context} {c : Clock} (hc : c.IsQuiet ctx.token)
    (hctx : ctx.deadline = none) : ctx.IsLive c := by
  rw [IsLive, refusal?_of_quiet hc, hctx]
  rfl

/-- The delay after a reply: what an answer asks for, or else the interval. -/
def Http.Reply.delayAfter (interval : Nat) : Reply → Nat
  | .answer a => (Poll.retryAfter? a).getD interval
  | .broken _ _ _ => interval
  | .failure _ => interval

/-- The delay that a poll shows is the one after the reply. -/
theorem PollTarget.Shows.delay_eq {wording : Wording} {target : PollTarget} {reply : Reply}
    {delay : Option Nat} (h : target.Shows wording reply (.ok (.pending delay))) (interval : Nat) :
    delay.getD interval = reply.delayAfter interval := by
  cases h with
  | goesOn _ _ _ hasks => rw [eq_retryAfter?_of_asks hasks, Reply.delayAfter]
  | accepted _ hasks => rw [eq_retryAfter?_of_asks hasks, Reply.delayAfter]

namespace Endpoint

/-! ### The course of a wait -/

section

variable (e : Endpoint) (p : Poller) (s : Session)

/-- What comes of a poll that is sent after `k` others. -/
def pollReply (k : Nat) : Reply :=
  s.web (s.past ++ List.replicate k (e.pollRequest p.target)) (e.pollRequest p.target)

/-- Milliseconds to wait before the poll after `k` others. -/
def pollDelay : Nat → Nat
  | 0 => p.nextDelay
  | k + 1 => (e.pollReply p s k).delayAfter e.poll.interval

/-- The time when the first `k` delays are over. -/
def pollTime (k : Nat) : Nat :=
  s.clock.now + ∑ i ∈ Finset.range k, e.pollDelay p s i

/-- The clock at that time. -/
def pollClock : Nat → Clock
  | 0 => s.clock
  | k + 1 => s.clock.moved (e.pollTime p s (k + 1))

/-- The first `k` polls, each sent when the delay before it is over. -/
def pollsSent (k : Nat) : List Sent :=
  (List.range k).map fun i => ⟨e.pollRequest p.target, e.pollTime p s (i + 1)⟩

/-- The session after `k` polls. -/
def polled (k : Nat) : Session :=
  { s with clock := e.pollClock p s k, sent := s.sent ++ e.pollsSent p s k }

/-- The poller that is left after `k` delays have been slept through. -/
def pollerAfter (k : Nat) : Poller :=
  { p with nextDelay := e.pollDelay p s k }

end

variable {e : Endpoint} {p : Poller} {s : Session} {ctx : Context}

theorem polled_zero : e.polled p s 0 = s := by
  simp [polled, pollClock, pollsSent]

theorem past_polled (k : Nat) :
    (e.polled p s k).past = s.past ++ List.replicate k (e.pollRequest p.target) := by
  unfold Session.past polled pollsSent
  rw [List.map_append, List.map_map]
  simp [Function.comp_def, List.map_const']

theorem pollReply_polled (k : Nat) :
    e.pollReply (e.pollerAfter p s 1) (e.polled p s 1) k = e.pollReply p s (k + 1) := by
  have htarget : (e.pollerAfter p s 1).target = p.target := rfl
  unfold pollReply
  rw [htarget, past_polled, List.append_assoc, List.replicate_append_replicate, Nat.add_comm 1 k]
  rfl

theorem pollDelay_polled (k : Nat) :
    e.pollDelay (e.pollerAfter p s 1) (e.polled p s 1) k = e.pollDelay p s (k + 1) := by
  cases k with
  | zero => rfl
  | succ k => rw [pollDelay, pollDelay, pollReply_polled]

theorem pollTime_polled (k : Nat) :
    e.pollTime (e.pollerAfter p s 1) (e.polled p s 1) k = e.pollTime p s (k + 1) := by
  have hnow : (e.polled p s 1).clock.now = s.clock.now + e.pollDelay p s 0 := by
    simp [polled, pollClock, pollTime]
  unfold pollTime
  rw [Finset.sum_range_succ', Finset.sum_congr rfl fun i _ => pollDelay_polled i, hnow]
  omega

theorem pollTime_one_le (k : Nat) : e.pollTime p s 1 ≤ e.pollTime p s (k + 1) := by
  unfold pollTime
  rw [Finset.sum_range_succ', Finset.sum_range_succ', Finset.sum_range_zero]
  omega

theorem pollClock_polled (k : Nat) :
    e.pollClock (e.pollerAfter p s 1) (e.polled p s 1) k = e.pollClock p s (k + 1) := by
  cases k with
  | zero => rfl
  | succ k =>
      have hclock : (e.polled p s 1).clock = s.clock.moved (e.pollTime p s 1) := rfl
      rw [pollClock, pollClock, pollTime_polled, hclock, Clock.moved_moved (pollTime_one_le _)]

theorem pollsSent_polled (k : Nat) :
    e.pollsSent p s (k + 1) = e.pollsSent p s 1 ++
      e.pollsSent (e.pollerAfter p s 1) (e.polled p s 1) k := by
  unfold pollsSent
  simp only [pollTime_polled]
  rw [List.range_succ_eq_map, List.map_cons, List.map_map]
  rfl

theorem pollerAfter_polled (k : Nat) :
    e.pollerAfter (e.pollerAfter p s 1) (e.polled p s 1) k = e.pollerAfter p s (k + 1) :=
  congrArg (Poller.mk p.target) (pollDelay_polled k)

/-- The session after a poll and `k` others is the session after all of them. -/
theorem polled_polled (k : Nat) :
    e.polled (e.pollerAfter p s 1) (e.polled p s 1) k = e.polled p s (k + 1) := by
  have hclock := pollClock_polled (e := e) (p := p) (s := s) k
  have hsent := pollsSent_polled (e := e) (p := p) (s := s) k
  unfold polled at hclock hsent ⊢
  rw [hclock, hsent, List.append_assoc]

/-! ### The wait -/

section

variable (hclock : s.clock.IsQuiet ctx.token) (hctx : ctx.deadline = none)

include hclock hctx

theorem sleep_nextDelay : Session.sleep ctx p.nextDelay s =
    (.ok (), { s with clock := s.clock.moved (e.pollTime p s 1) }) := by
  have hnow : e.pollTime p s 1 = s.clock.now + p.nextDelay := by simp [pollTime, pollDelay]
  unfold Session.sleep
  rw [Context.sleep_of_unbounded hclock hctx, hnow]

/-- After the first delay, a poll shows how the operation stands. -/
theorem ask_shows : ∃ x, p.target.Shows e.wording (e.pollReply p s 0) x ∧
    e.ask ctx p.target { s with clock := s.clock.moved (e.pollTime p s 1) } =
      (x, e.polled p s 1) := by
  have hlive : ctx.IsLive (s.clock.moved (e.pollTime p s 1)) :=
    Context.isLive_of_unbounded (hclock.moved _) hctx
  have hreply : e.pollReply p s 0 = s.web s.past (e.pollRequest p.target) := by
    rw [pollReply, List.replicate_zero, List.append_nil]
  have hpolled : Session.after { s with clock := s.clock.moved (e.pollTime p s 1) }
      (e.pollRequest p.target) = e.polled p s 1 := by
    simp [Session.after, polled, pollsSent, pollClock]
  have hsend : e.send ctx .get p.target.url none
      { s with clock := s.clock.moved (e.pollTime p s 1) } =
        ((e.pollReply p s 0).result, e.polled p s 1) := by
    rw [send, ← request_eq, send_of_live hlive, exchange_eq, hreply]
    exact congrArg _ hpolled
  refine ⟨_, PollTarget.shows_result, ?_⟩
  rw [ask, bind_apply, hsend]
  cases e.pollReply p s 0 <;> rfl

/-- One poll ends a wait, or leaves one with a poll less. -/
theorem waitFor_step (attempts : Nat) :
    (∃ x : Except ServiceError Unit, p.target.EndsWith e.wording (e.pollReply p s 0) x ∧
      e.waitFor ctx (attempts + 1) p s = ((x, p), e.polled p s 1)) ∨
    p.target.GoesOn e.wording (e.pollReply p s 0) ∧ e.waitFor ctx (attempts + 1) p s =
        e.waitFor ctx attempts (e.pollerAfter p s 1) (e.polled p s 1) := by
  obtain ⟨x, hshows, hask⟩ := ask_shows (e := e) (p := p) hclock hctx
  rw [waitFor, bind_apply, sleep_nextDelay (e := e) hclock hctx]
  dsimp only
  rw [bind_apply, hask]
  cases x with
  | error err => exact .inl ⟨.error err, hshows, rfl⟩
  | ok progress =>
      cases progress with
      | done => exact .inl ⟨.ok (), hshows, rfl⟩
      | pending delay =>
          refine .inr ⟨⟨delay, hshows⟩, ?_⟩
          rw [pollerAfter, pollDelay, ← hshows.delay_eq]

/-- A wait ends with what the first poll shows that does not find the operation going on, and if
there is no such poll, when no poll is left. The induction is on the polls that are left: after a
poll, the wait goes on as one that starts with the poller and the session that this poll leaves. -/
theorem waitFor_outcome (attempts : Nat) :
    (∃ k < attempts, ∃ x : Except ServiceError Unit,
      (∀ i < k, p.target.GoesOn e.wording (e.pollReply p s i)) ∧
      p.target.EndsWith e.wording (e.pollReply p s k) x ∧
      e.waitFor ctx attempts p s = ((x, e.pollerAfter p s k), e.polled p s (k + 1))) ∨
    ((∀ i < attempts, p.target.GoesOn e.wording (e.pollReply p s i)) ∧
      e.waitFor ctx attempts p s = ((.error (.timedOut e.poll.maxAttempts),
        e.pollerAfter p s attempts), e.polled p s attempts)) := by
  induction attempts generalizing p s with
  | zero =>
      refine .inr ⟨nofun, ?_⟩
      rw [polled_zero]
      rfl
  | succ attempts ih =>
      rcases waitFor_step (e := e) (p := p) hclock hctx attempts with
        ⟨x, hends, hwait⟩ | ⟨hgoesOn, hwait⟩
      · exact .inl ⟨0, Nat.succ_pos _, x, nofun, hends, hwait⟩
      · have hquiet : (e.polled p s 1).clock.IsQuiet ctx.token := hclock.moved _
        have hrest := ih (p := e.pollerAfter p s 1) (s := e.polled p s 1) hquiet
        simp only [pollReply_polled, polled_polled, pollerAfter_polled] at hrest
        rcases hrest with ⟨k, hk, x, hpending, hx, hend⟩ | ⟨hpending, hend⟩
        · exact .inl ⟨k + 1, Nat.succ_lt_succ hk, x,
            Nat.forall_lt_succ_left.mpr ⟨hgoesOn, hpending⟩, hx, hwait.trans hend⟩
        · exact .inr ⟨Nat.forall_lt_succ_left.mpr ⟨hgoesOn, hpending⟩, hwait.trans hend⟩

end

/-- With no deadline and no signal, a wait polls until a poll shows that the operation has ended, as
often as it may, and each poll is sent when the delay before it is over. It ends with what the last
poll shows, or times out, and leaves a poller with the delay that is due. The first delay is the one
that the answer to the change asks for, and each of the others the one that the answer to the poll
before it asks for, or else the interval. -/
theorem wait_outcome (hclock : s.clock.IsQuiet ctx.token) (hctx : ctx.deadline = none) :
    ((∃ k < e.poll.maxAttempts, ∃ x : Except ServiceError Unit,
      (∀ i < k, p.target.GoesOn e.wording (e.pollReply p s i)) ∧
      p.target.EndsWith e.wording (e.pollReply p s k) x ∧
      e.wait ctx p s = ((x, e.pollerAfter p s k), e.polled p s (k + 1))) ∨
    ((∀ i < e.poll.maxAttempts, p.target.GoesOn e.wording (e.pollReply p s i)) ∧
      e.wait ctx p s = ((.error (.timedOut e.poll.maxAttempts),
        e.pollerAfter p s e.poll.maxAttempts), e.polled p s e.poll.maxAttempts))) ∧
    (∀ started, Poller.ofResponse? e.poll started = some p →
      p.target.IsNamedBy started ∧ started.SetsDelay e.poll.interval (e.pollDelay p s 0)) ∧
    ∀ k a, e.pollReply p s k = .answer a →
      a.SetsDelay e.poll.interval (e.pollDelay p s (k + 1)) := by
  refine ⟨waitFor_outcome hclock hctx e.poll.maxAttempts, fun started hstarted => ?_,
    fun k a ha => ?_⟩
  · exact Poller.ofResponse?_eq_some_iff.mp hstarted
  · rw [Response.setsDelay_iff, pollDelay, ha, Reply.delayAfter]

/-- An endpoint that is polled five times, at most. -/
def patient : Endpoint where
  base := "http://service.test"
  token := "token"
  poll := { interval := 10000, maxAttempts := 5 }
  wording _ _ := "?"

/-- The answer that an operation is not done, which asks for a delay. -/
def asksForPatience : Response where
  status := 200
  headers := [("Retry-After", "7")]
  body := "\x7b\"status\":\"InProgress\"\x7d"

/-- The answer that an operation has failed. -/
def tellsOfFailure : Response where
  status := 200
  body := "\x7b\"status\":\"Failed\",\"error\":\x7b\"message\":\"quota\"\x7d\x7d"

/-- An operation that fails, as the third poll shows. -/
def slow : Session where
  web := .ofList [.answer asksForPatience, .answer { asksForPatience with headers := [] },
    .answer tellsOfFailure]

theorem wait_outcome_slow :
    let p : Poller := ⟨.statusDocument "http://service.test/operation", 3000⟩
    (patient.wait { token := .own 0 } p slow).1 =
        (.error (.operationFailed "Failed" "quota"), { p with nextDelay := 10000 }) ∧
      (patient.wait { token := .own 0 } p slow).2.sent.map Sent.time = [3000, 10000, 20000] := by
  intro p
  have hfirst : patient.pollReply p slow 0 = .answer asksForPatience := by decide +kernel
  have hsecond : patient.pollReply p slow 1 =
      .answer { asksForPatience with headers := [] } := by decide +kernel
  have hthird : patient.pollReply p slow 2 = .answer tellsOfFailure := by decide +kernel
  have hgoing : OperationStatus.IsGivenBy ⟨"InProgress", none⟩ asksForPatience.body :=
    OperationStatus.ofBody?_eq_some_iff.mp (by decide +kernel)
  have hgiven : OperationStatus.IsGivenBy ⟨"Failed", some ⟨none, some "quota"⟩⟩
      tellsOfFailure.body := OperationStatus.ofBody?_eq_some_iff.mp (by decide +kernel)
  have hpending : ∀ i < 2, p.target.GoesOn patient.wording (patient.pollReply p slow i) := by
    rw [Nat.forall_lt_succ_left, Nat.forall_lt_succ_left, hfirst, hsecond]
    exact ⟨⟨_, .goesOn (by decide) hgoing (by decide) (PollTarget.eq_some_retryAfter?_iff _)⟩,
      ⟨_, .goesOn (by decide) hgoing (by decide) (PollTarget.eq_some_retryAfter?_iff _)⟩, nofun⟩
  have hfailed : p.target.EndsWith patient.wording (patient.pollReply p slow 2)
      (.error (.operationFailed "Failed" "quota")) := by
    rw [hthird]
    exact .failed (by decide) hgiven (by decide)
  rcases (@wait_outcome patient p slow { token := .own 0 } ⟨rfl, nofun⟩ rfl).1 with
    ⟨k, -, x, hbefore, hx, hwait⟩ | ⟨hall, -⟩
  · rcases Nat.lt_trichotomy k 2 with hk | rfl | hk
    · obtain ⟨delay, hshows⟩ := hpending k hk
      cases x <;> cases hx.unique hshows
    · have hxfailed := hx.unique hfailed
      cases x with
      | ok u => cases hxfailed
      | error err =>
          cases hxfailed
          rw [hwait]
          exact ⟨by decide +kernel, by decide +kernel⟩
    · obtain ⟨delay, hshows⟩ := hbefore 2 hk
      cases hfailed.unique hshows
  · obtain ⟨delay, hshows⟩ := hall 2 (by decide)
    cases hfailed.unique hshows

end Endpoint

end EdgeFirewall
