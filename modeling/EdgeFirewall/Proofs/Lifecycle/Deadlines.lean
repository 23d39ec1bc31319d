import EdgeFirewall.Proofs.Lifecycle.Conduct
import EdgeFirewall.Proofs.Service.Waiting
import Mathlib.Algebra.Ring.Nat

/-! # Calls of a host and their deadlines

A provider with a time limit gives each call a deadline of its own. The call sends nothing at its
deadline or later, and is over when it comes (`Provider.handle_keepsTo`). A call that would have to
wait until then for the next poll of an operation is over just then, and says which wait was cut
short (`HostCall.Overruns`, `Provider.handle_of_overruns`). How long other calls have taken does not
count (`Provider.handle_later`). -/

namespace EdgeFirewall

open Http

/-! ### Calls of a client that take no time -/

namespace Http

/-- Work that lets no time pass. -/
def Instant {ρ : Type} (work : StateM Session ρ) : Prop :=
  ∀ s, (work s).2.clock = s.clock

namespace Instant

theorem pure {ρ : Type} (x : ρ) : Instant (Pure.pure x) := fun _ => rfl

theorem bind {ρ ρ' : Type} {work : StateM Session ρ} {f : ρ → StateM Session ρ'}
    (h : Instant work) (hf : ∀ x, Instant (f x)) : Instant (work >>= f) := by
  intro s
  rw [bind_apply, hf, h]

end Instant

/-- Work that lets no time pass and whose result is earned by the first answers ends with that
result, and the other answers are still to come. -/
theorem Settles.eq_of_instant {ρ : Type} {ctx : Context} {work : StateM Session ρ}
    {settled : ρ → Prop} {earns : ρ → List Exchange → Prop} (h : Settles ctx work settled earns)
    (hinstant : Instant work) {s : Session} (hlive : ctx.IsLive s.clock) {x : ρ}
    {talk rest : List Exchange} (hearns : earns x talk) (hanswers : s.Answers [] (talk ++ rest)) :
    ∃ s', work s = (x, s') ∧ s'.clock = s.clock ∧ s.Sends talk s' ∧ s'.Answers [] rest := by
  rw [Session.answers_append, List.nil_append] at hanswers
  have hlive' : ctx.IsLive (work s).2.clock := by rwa [hinstant s]
  obtain ⟨hresult, hsends⟩ := h.complete s hearns hanswers.1 hlive'
  refine ⟨(work s).2, Prod.ext hresult rfl, hinstant s, hsends, ?_⟩
  rw [Session.answers_of_sends hsends, List.append_nil]
  exact hanswers.2

end Http

namespace Endpoint

variable {e : Endpoint} {ctx : Context} {s : Session} {deadline : Nat}

theorem sendExpecting_instant {method : Method} {url : String} {body : Option Json}
    {expected : List Nat} : Instant (e.sendExpecting ctx method url body expected) := by
  unfold sendExpecting
  refine .bind (clock_send ctx _) ?_
  rintro (err | a)
  · exact .pure _
  · dsimp only
    split <;> exact .pure _

theorem getPolicy_instant {subscription group name : String} :
    Instant (e.getPolicy subscription ctx group name) := by
  refine .bind (sendExpecting_instant) ?_
  rintro (err | a)
  · exact .pure _
  · dsimp only
    split <;> exact .pure _

theorem putPolicy_instant {subscription group name : String} {d : Document} :
    Instant (e.putPolicy subscription ctx group name d) := by
  refine .bind (sendExpecting_instant) ?_
  rintro (err | a) <;> exact .pure _

theorem deletePolicy_instant {subscription group name : String} :
    Instant (e.deletePolicy subscription ctx group name) := by
  refine .bind (sendExpecting_instant) ?_
  rintro (err | a) <;> exact .pure _

/-! ### Waits that are cut short -/

/-- The delay before the question that follows an answer. -/
def delayAfter (e : Endpoint) (a : Response) : Nat :=
  (Reply.answer a).delayAfter e.poll.interval

theorem forall₂_setsDelay_iff {answers : List Response} {delays : List Nat} :
    List.Forall₂ (fun a delay => a.SetsDelay e.poll.interval delay) answers delays ↔
      answers.map e.delayAfter = delays := by
  have hdelay : ∀ a delay, a.SetsDelay e.poll.interval delay ↔ e.delayAfter a = delay :=
    fun a delay => Response.setsDelay_iff.trans eq_comm
  simp only [hdelay]
  rw [← List.forall₂_eq_eq_eq, List.forall₂_map_left_iff]

theorem ask_of_pending {target : PollTarget} {a : Response} (hlive : ctx.IsLive s.clock)
    (hanswer : s.web s.past (e.pollRequest target) = .answer a) (hpending : target.IsPending a) :
    ∃ delay, e.ask ctx target s = (.ok (.pending delay), s.after (e.pollRequest target)) ∧
      delay.getD e.poll.interval = e.delayAfter a := by
  obtain ⟨delay, hclass⟩ := Poll.classify_eq_pending_iff.mpr hpending
  have hshows : target.Shows e.wording (.answer a) (.ok (.pending delay)) := by
    rw [← hclass]
    exact PollTarget.shows_result
  have hsend : e.send ctx .get target.url none s = (.ok a, s.after (e.pollRequest target)) := by
    have hrequest : e.request .get target.url none = e.pollRequest target := rfl
    rw [send, ← request_eq, hrequest, send_of_live hlive, exchange_eq, hanswer]
    rfl
  refine ⟨delay, ?_, hshows.delay_eq e.poll.interval⟩
  rw [ask, bind_apply, hsend, ← hclass]
  rfl

/-- Polls that find the operation pending, each asked in time, and the delay before one more ends
at the deadline or after it: the wait ends at the deadline. The induction is on the polls, each of
which sets the delay before the next one. -/
theorem waitFor_of_late {attempts : Nat} {p : Poller} {polls : List Exchange}
    (hclock : s.clock.IsQuiet ctx.token) (hctx : ctx.deadline = some deadline)
    (hlength : polls.length < attempts)
    (hpolls : ∀ x ∈ polls, x.request = e.pollRequest p.target ∧ p.target.IsPending x.answer)
    (hanswers : s.Answers [] polls)
    (hearly : s.clock.now +
      (p.nextDelay :: polls.map fun x => e.delayAfter x.answer).dropLast.sum < deadline)
    (hlate : deadline ≤
      s.clock.now + (p.nextDelay :: polls.map fun x => e.delayAfter x.answer).sum) :
    ∃ p' s', e.waitFor ctx attempts p s = ((.error .deadlineExceeded, p'), s') ∧
      s'.clock.now = deadline ∧ s.Sends polls s' := by
  induction polls generalizing attempts p s with
  | nil =>
      obtain ⟨attempts, rfl⟩ := Nat.exists_eq_add_one.mpr hlength
      have hnow : ¬ deadline ≤ s.clock.now := by simpa using hearly
      have hlong : deadline ≤ s.clock.now + p.nextDelay := by simpa using hlate
      have hsleep : Session.sleep ctx p.nextDelay s =
          (.error .deadlineExceeded, { s with clock := s.clock.moved deadline }) := by
        unfold Session.sleep
        rw [Context.sleep_of_deadline hclock hctx, if_neg hnow, if_pos hlong]
      rw [waitFor, bind_apply, hsleep]
      exact ⟨p, _, rfl, s.clock.now_moved deadline, .of_sent_eq rfl rfl⟩
  | cons x polls ih =>
      obtain ⟨attempts, rfl⟩ := Nat.exists_eq_add_one.mpr (Nat.zero_lt_of_lt hlength)
      rw [List.map_cons, List.dropLast_cons_cons, List.sum_cons] at hearly
      rw [List.map_cons, List.sum_cons] at hlate
      rw [List.forall_mem_cons] at hpolls
      obtain ⟨⟨hrequest, hpending⟩, hpolls⟩ := hpolls
      -- the delay before this poll ends in time
      let awake : Session := { s with clock := s.clock.moved (s.clock.now + p.nextDelay) }
      have hnow : awake.clock.now = s.clock.now + p.nextDelay := s.clock.now_moved _
      have hquiet : awake.clock.IsQuiet ctx.token := hclock.moved _
      have hsleep : Session.sleep ctx p.nextDelay s = (.ok (), awake) := by
        unfold Session.sleep
        rw [Context.sleep_of_deadline hclock hctx, if_neg (by omega), if_neg (by omega)]
      have hlive : ctx.IsLive awake.clock :=
        (Context.isLive_iff_of_deadline hquiet hctx).mpr (by omega)
      -- and it is answered that the operation goes on
      have hawake : s.Sends [] awake := .of_sent_eq rfl rfl
      obtain ⟨hanswer, hrest⟩ := hanswers
      rw [hrequest, List.append_nil] at hanswer
      obtain ⟨delay, hask, hdelay⟩ := ask_of_pending (s := awake) hlive hanswer hpending
      have hasked : s.Sends [x] (awake.after (e.pollRequest p.target)) := by
        have hx : x = ⟨e.pollRequest p.target, x.answer⟩ := by rw [← hrequest]
        rw [hx]
        exact hawake.trans (awake.sends_after _ _)
      have hafter : (awake.after (e.pollRequest p.target)).clock = awake.clock := rfl
      obtain ⟨p', s', hwait, hend, hsends⟩ : ∃ p' s',
          e.waitFor ctx attempts ⟨p.target, e.delayAfter x.answer⟩
            (awake.after (e.pollRequest p.target)) = ((.error .deadlineExceeded, p'), s') ∧
          s'.clock.now = deadline ∧ (awake.after (e.pollRequest p.target)).Sends polls s' := by
        refine ih (by rwa [hafter]) (Nat.lt_of_succ_lt_succ hlength) hpolls ?_ ?_ ?_
        · rw [Session.answers_of_sends hasked, List.append_nil]
          exact hrest
        · rw [hafter, hnow]
          dsimp only
          omega
        · rw [hafter, hnow]
          dsimp only
          omega
      refine ⟨p', s', ?_, hend, hasked.trans hsends⟩
      rw [waitFor, bind_apply, hsleep]
      dsimp only
      rw [bind_apply, hask]
      dsimp only
      rw [hdelay, hwait]

/-- An answer has started an operation, polls find it pending, and the delay before one more poll
ends when a time limit is reached or later. The delays before that end in time. -/
def Overruns (e : Endpoint) (limit : Nat) (started : Response) (polls : List Exchange) : Prop :=
  ∃ (target : PollTarget) (delays : List Nat), target.IsNamedBy started ∧
    polls.length < e.poll.maxAttempts ∧
    (∀ x ∈ polls, x.request = e.pollRequest target ∧ target.IsPending x.answer) ∧
    List.Forall₂ (fun a delay => a.SetsDelay e.poll.interval delay)
      (started :: polls.map Exchange.answer) delays ∧
    delays.dropLast.sum < limit ∧ limit ≤ delays.sum

end Endpoint

/-! ### Work that is cut short -/

namespace Http

/-- Work ends with an error at a time; until then it has sent the requests of some exchanges. -/
def EndsAt {ε α : Type} (work : StateM Session (Except ε α)) (s : Session) (time : Nat) (err : ε)
    (talk : List Exchange) : Prop :=
  ∃ s', work s = (.error err, s') ∧ s'.clock.now = time ∧ s.Sends talk s'

namespace EndsAt

variable {ε ε' α β : Type} {s : Session} {time : Nat} {err : ε} {err' : ε'} {talk : List Exchange}

/-- The error of the first part of a sequence is passed on in other words. -/
theorem bind {work : StateM Session (Except ε α)} {f : Except ε α → StateM Session (Except ε' β)}
    (h : EndsAt work s time err talk) (hf : f (.error err) = Pure.pure (.error err')) :
    EndsAt (work >>= f) s time err' talk := by
  obtain ⟨s', hwork, htime, hsends⟩ := h
  exact ⟨s', by rw [bind_apply, hwork, hf]; rfl, htime, hsends⟩

/-- The first part of a sequence is answered at once, and the second part ends with the error. -/
theorem after {ρ : Type} {ctx : Context} {work : StateM Session ρ} {settled : ρ → Prop}
    {earns : ρ → List Exchange → Prop} {f : ρ → StateM Session (Except ε α)} {x : ρ}
    {first rest : List Exchange} (h : Settles ctx work settled earns) (hinstant : Instant work)
    (hlive : ctx.IsLive s.clock) (hearns : earns x first) (hanswers : s.Answers [] (first ++ rest))
    (hf : ∀ s', s'.clock = s.clock → s'.Answers [] rest → EndsAt (f x) s' time err rest) :
    EndsAt (work >>= f) s time err (first ++ rest) := by
  obtain ⟨s', hwork, hclock, hsends, hrest⟩ := h.eq_of_instant hinstant hlive hearns hanswers
  obtain ⟨s'', hresult, htime, hsends'⟩ := hf s' hclock hrest
  exact ⟨s'', by rw [bind_apply, hwork]; exact hresult, htime, hsends.trans hsends'⟩

end EndsAt

end Http

theorem Endpoint.waitForOperation_of_overruns {e : Endpoint} {ctx : Context} {s : Session}
    {limit deadline : Nat} {started : Response} {polls : List Exchange}
    (hclock : s.clock.IsQuiet ctx.token) (hctx : ctx.deadline = some deadline)
    (hdeadline : deadline = s.clock.now + limit) (h : e.Overruns limit started polls)
    (hanswers : s.Answers [] polls) :
    EndsAt (e.waitForOperation ctx (Poller.ofResponse? e.poll started)) s deadline
      .deadlineExceeded polls := by
  obtain ⟨target, delays, hnamed, hlength, hpolls, hdelays, hearly, hlate⟩ := h
  obtain rfl := forall₂_setsDelay_iff.mp hdelays
  rw [List.map_cons, List.map_map] at hearly hlate
  have hstarted : Poller.ofResponse? e.poll started = some ⟨target, e.delayAfter started⟩ :=
    Poller.ofResponse?_eq_some_iff.mpr ⟨hnamed, Response.setsDelay_iff.mpr rfl⟩
  obtain ⟨p', s', hwait, hend⟩ := waitFor_of_late (p := ⟨target, e.delayAfter started⟩) hclock hctx
    hlength hpolls hanswers
    (Nat.lt_of_lt_of_eq (Nat.add_lt_add_left hearly s.clock.now) hdeadline.symm)
    (Nat.le_trans (Nat.le_of_eq hdeadline) (Nat.add_le_add_left hlate s.clock.now))
  refine ⟨s', ?_, hend⟩
  rw [hstarted, waitForOperation, bind_apply, wait, hwait]
  rfl

/-- A call has started to change a policy, and the wait for the end of that would last until a time
limit is reached, or longer: what was asked and answered until then, and the error for the wait. -/
inductive HostCall.Overruns (e : Endpoint) (subscription : String) (limit : Nat) :
    HostCall → List Exchange → PolicyError → Prop
  | create {r : Resource} {p : Policy} {absent put : Response} {polls : List Exchange}
      (hdeclared : Policy.ofAttributes r.attributes = .ok p) (habsent : absent.status = 404)
      (hput : put.status ∈ [200, 201, 202]) (hpolls : e.Overruns limit put polls) :
      Overruns e subscription limit (.create r)
        (⟨e.policyRequest subscription .get p.resourceGroup p.name none, absent⟩ ::
          ⟨e.policyRequest subscription .put p.resourceGroup p.name (some p.toDocument.toJson),
            put⟩ :: polls)
        (.remote .waitForCreateOrUpdate p.name p.resourceGroup .deadlineExceeded)
  | update {key : ResourceKey} {identifier : String} {target : Resource}
      {address : Policy.Address} {p : Policy} {present put : Response} {d : Document}
      {polls : List Exchange} (hparse : Policy.Address.parse identifier = .ok address)
      (hdeclared : Policy.ofAttributes target.attributes = .ok p)
      (hname : Text.eqIgnoringCase p.name address.name = true)
      (hgroup : Text.eqIgnoringCase p.resourceGroup address.group = true)
      (hpresent : present.status = 200) (hdocument : Document.ofText? present.body = some d)
      (hput : put.status ∈ [200, 201, 202]) (hpolls : e.Overruns limit put polls) :
      Overruns e subscription limit (.update key identifier target)
        (⟨e.policyRequest subscription .get address.group address.name none, present⟩ ::
          ⟨e.policyRequest subscription .put p.resourceGroup p.name (some p.toDocument.toJson),
            put⟩ :: polls)
        (.remote .waitForCreateOrUpdate p.name p.resourceGroup .deadlineExceeded)
  | delete {key : ResourceKey} {identifier : String} {address : Policy.Address}
      {deleted : Response} {polls : List Exchange}
      (hparse : Policy.Address.parse identifier = .ok address)
      (hdeleted : deleted.status ∈ [200, 202, 204]) (hpolls : e.Overruns limit deleted polls) :
      Overruns e subscription limit (.delete key identifier)
        (⟨e.policyRequest subscription .delete address.group address.name none, deleted⟩ :: polls)
        (.remote .waitForDelete address.name address.group .deadlineExceeded)

section Steps

variable {e : Endpoint} {ctx : Context} {s : Session} {subscription : String}
  {limit deadline : Nat} (hclock : s.clock.IsQuiet ctx.token) (hctx : ctx.deadline = some deadline)
  (hdeadline : deadline = s.clock.now + limit) (hlive : ctx.IsLive s.clock)

include hclock hctx hdeadline hlive

theorem Lifecycle.apply_of_overruns {p : Policy} {put : Response} {polls : List Exchange}
    (hput : put.status ∈ [200, 201, 202]) (hpolls : e.Overruns limit put polls)
    (hanswers : s.Answers [] (⟨e.policyRequest subscription .put p.resourceGroup p.name
      (some p.toDocument.toJson), put⟩ :: polls)) :
    EndsAt (apply (e.client subscription ctx) p) s deadline
      (.remote .waitForCreateOrUpdate p.name p.resourceGroup .deadlineExceeded)
      (⟨e.policyRequest subscription .put p.resourceGroup p.name (some p.toDocument.toJson),
        put⟩ :: polls) := by
  unfold apply
  refine .after (e.putPolicy_settles subscription ctx p.resourceGroup p.name p.toDocument)
    Endpoint.putPolicy_instant hlive ⟨put, rfl, .inl ⟨hput, rfl⟩⟩ hanswers fun s' hsame hrest => ?_
  exact .bind (Endpoint.waitForOperation_of_overruns (by rwa [hsame]) hctx (by rwa [hsame])
    hpolls hrest) rfl

/-- What a call asks of the client ends at the deadline, with the error for the wait. -/
theorem Provider.attempt_of_overruns (p : Provider) {call : HostCall} {talk : List Exchange}
    {err : PolicyError} (h : call.Overruns e subscription limit talk err)
    (hanswers : s.Answers [] talk) :
    EndsAt (p.attempt (e.client subscription ctx) call) s deadline err talk := by
  cases h with
  | @create r policy absent put polls hdeclared habsent hput hpolls =>
      have h404 := (ServiceError.isNotFound_ofStatus 404 absent.body).mpr rfl
      refine .bind ?_ rfl
      unfold Lifecycle.create
      rw [Lifecycle.declared_eq_ok_iff.mpr hdeclared]
      refine .after (e.getPolicy_settles subscription ctx policy.resourceGroup policy.name)
        Endpoint.getPolicy_instant hlive ⟨absent, rfl, .inr ⟨habsent, rfl⟩⟩ hanswers
        fun s' hsame hrest => ?_
      dsimp only
      rw [if_pos h404]
      rw [← hsame] at hclock hdeadline hlive
      exact Lifecycle.apply_of_overruns hclock hctx hdeadline hlive hput hpolls hrest
  | @update key identifier target address policy present put d polls hparse hdeclared hname hgroup
      hpresent hdocument hput hpolls =>
      refine .bind ?_ rfl
      unfold Lifecycle.update
      rw [hparse]
      dsimp only
      rw [Lifecycle.declared_eq_ok_iff.mpr hdeclared]
      dsimp only
      rw [Lifecycle.replacements_eq_nil_iff.mpr ⟨hname, hgroup⟩]
      refine .after (e.getPolicy_settles subscription ctx address.group address.name)
        Endpoint.getPolicy_instant hlive ⟨present, rfl, .inl ⟨hpresent, d, hdocument, rfl⟩⟩ hanswers
        fun s' hsame hrest => ?_
      rw [← hsame] at hclock hdeadline hlive
      exact Lifecycle.apply_of_overruns hclock hctx hdeadline hlive hput hpolls hrest
  | @delete key identifier address deleted polls hparse hdeleted hpolls =>
      refine .bind ?_ rfl
      unfold Lifecycle.delete
      rw [hparse]
      refine .after (e.deletePolicy_settles subscription ctx address.group address.name)
        Endpoint.deletePolicy_instant hlive ⟨deleted, rfl, .inl ⟨hdeleted, rfl⟩⟩ hanswers
        fun s' hsame hrest => ?_
      rw [← hsame] at hclock hdeadline
      exact .bind (Endpoint.waitForOperation_of_overruns hclock hctx hdeadline hpolls hrest) rfl

end Steps

/-! ### Calls of a host -/

namespace Provider

variable {p : Provider} {e : Endpoint} {subscription : String} {call : HostCall} {s : Session}
  {limit : Nat}

theorem context?_of_timeout (hlimit : p.timeout = some limit) (c : Clock) :
    p.context? c =
      if c.now + limit ≤ Clock.latest then some ⟨p.token.child, some (c.now + limit)⟩
      else none := by
  unfold context?
  rw [hlimit]
  rfl

/-- A call keeps to its deadline. -/
theorem handle_keepsTo (hlimit : p.timeout = some limit) (hclock : s.clock.IsQuiet p.token.child) :
    s.KeepsTo p.token.child (s.clock.now + limit) (p.handle (e.backend subscription) call s).2 := by
  rcases handle_session p (e.backend subscription) call s with hsame | ⟨ctx, hctx, hattempt⟩
  · rw [hsame]
    exact .refl hclock
  · have hctx' : p.context? s.clock = some ctx := hctx
    rw [context?_of_timeout hlimit, Option.ite_none_right_eq_some] at hctx'
    have htoken : ctx.token = p.token.child := by rw [← Option.some.inj hctx'.2]
    have hdeadline : ctx.deadline = some (s.clock.now + limit) := by
      rw [← Option.some.inj hctx'.2]
    rw [← htoken] at hclock ⊢
    rw [hattempt]
    exact (p.attempt_proceeds e subscription call).timely hclock hdeadline

/-- A call that waits too long ends at its deadline, and the host is told which wait it was. -/
theorem handle_of_overruns (hlimit : p.timeout = some limit)
    (hclock : s.clock.IsQuiet p.token.child) (hpositive : 0 < limit)
    (hlatest : s.clock.now + limit ≤ Clock.latest)
    (hkey : call.key.type = Policy.resourceType) {talk : List Exchange} {err : PolicyError}
    (h : call.Overruns e subscription limit talk err) (hanswers : s.Answers [] talk) :
    EndsAt (p.handle (e.backend subscription) call) s (s.clock.now + limit)
      (policyFailure call.key err) talk := by
  let ctx : Context := ⟨p.token.child, some (s.clock.now + limit)⟩
  have hctx : p.context? ((e.backend subscription).clock s) = some ctx := by
    rw [context?_of_timeout hlimit]
    exact if_pos hlatest
  have hquiet : s.clock.IsQuiet ctx.token := hclock
  have hlive : ctx.IsLive s.clock := (Context.isLive_iff_of_deadline hquiet rfl).mpr (by omega)
  have herr : err.isNotFound = false := by cases h <;> rfl
  obtain ⟨s', hattempt, hend⟩ := p.attempt_of_overruns hquiet rfl rfl hlive h hanswers
  refine ⟨s', ?_, hend⟩
  have hattempt' : p.attempt ((e.backend subscription).connect ctx) call s = (.error err, s') :=
    hattempt
  rw [handle_of_context hkey hctx, hattempt', reply_error herr]

/-- A call goes the same way some time later. -/
theorem handle_later (hlimit : p.timeout = some limit) {delay : Nat} {past past' : List Sent}
    {s' : Session} (h : s.Later p.token.child delay past past' s')
    (hlatest : s'.clock.now + limit ≤ Clock.latest) :
    (p.handle (e.backend subscription) call s').1 = (p.handle (e.backend subscription) call s).1 ∧
      (p.handle (e.backend subscription) call s).2.Later p.token.child delay past past'
        (p.handle (e.backend subscription) call s').2 := by
  by_cases hkey : call.key.type = Policy.resourceType
  · have hnow := h.now
    let ctx : Context := ⟨p.token.child, some (s.clock.now + limit)⟩
    let ctx' : Context := ⟨p.token.child, some (s'.clock.now + limit)⟩
    have hctx : p.context? ((e.backend subscription).clock s) = some ctx := by
      rw [context?_of_timeout hlimit]
      exact if_pos (by dsimp only [Endpoint.backend]; omega)
    have hctx' : p.context? ((e.backend subscription).clock s') = some ctx' := by
      rw [context?_of_timeout hlimit]
      exact if_pos hlatest
    have hdeadline : ctx.deadline = some (s.clock.now + limit) := rfl
    have hdeadline' : ctx'.deadline = some (s.clock.now + limit + delay) :=
      congrArg some (by omega)
    obtain ⟨hresult, hlater⟩ := (p.attempt_proceeds e subscription call).later h hdeadline
      hdeadline' rfl rfl
    rw [handle_of_context hkey hctx, handle_of_context hkey hctx']
    exact ⟨congrArg (reply call) hresult, hlater⟩
  · rw [handle_of_unknown hkey, handle_of_unknown hkey]
    exact ⟨rfl, h⟩

/-- Over HTTP, a call of a provider with a time limit that is not cancelled sends its requests
before its deadline, which is as far away as the limit says, and has ended when it comes. If the
delay before a poll would end at the deadline or after it, the poll is not sent, and the call ends
at the deadline with the error for the wait. And the call goes the same way whenever it starts,
however long the calls before it have taken. -/
theorem calls_keep_deadlines (p : Provider) (e : Endpoint) (subscription : String) (limit : Nat)
    (hlimit : p.timeout = some limit) (hpositive : 0 < limit) (call : HostCall) (s : Session)
    (hclock : s.clock.IsQuiet p.token.child) :
    ((p.handle (e.backend subscription) call s).2.clock.IsQuiet p.token.child ∧
      (p.handle (e.backend subscription) call s).2.clock.now ≤ s.clock.now + limit ∧
      ∃ new, (p.handle (e.backend subscription) call s).2.sent = s.sent ++ new ∧
        ∀ x ∈ new, s.clock.now ≤ x.time ∧ x.time < s.clock.now + limit) ∧
    (call.key.type = Policy.resourceType → s.clock.now + limit ≤ Clock.latest →
      ∀ talk err, call.Overruns e subscription limit talk err → s.Answers [] talk →
        EndsAt (p.handle (e.backend subscription) call) s (s.clock.now + limit)
          (policyFailure call.key err) talk) ∧
    ∀ delay past past' s', s.Later p.token.child delay past past' s' →
      s'.clock.now + limit ≤ Clock.latest →
      (p.handle (e.backend subscription) call s').1 = (p.handle (e.backend subscription) call s).1 ∧
        (p.handle (e.backend subscription) call s).2.Later p.token.child delay past past'
          (p.handle (e.backend subscription) call s').2 := by
  have hkeeps : s.KeepsTo p.token.child (s.clock.now + limit)
    (p.handle (e.backend subscription) call s).2 := handle_keepsTo hlimit hclock
  refine ⟨⟨hkeeps.quiet, hkeeps.le_deadline (Nat.le_add_right _ _), hkeeps.sent⟩, ?_, ?_⟩
  · intro hkey hlatest talk err h hanswers
    exact handle_of_overruns hlimit hclock hpositive hlatest hkey h hanswers
  · intro delay past past' s' h hlatest
    exact handle_later hlimit h hlatest

/-- The answer of a service that starts to delete a policy. -/
def deletionStarted : Response where
  status := 202
  headers := [("Azure-AsyncOperation", "https://service/operation")]

/-- The answer to a poll that it is not done yet, which asks for half a minute. -/
def deletionGoesOn : Response where
  status := 200
  headers := [("Retry-After", "30")]
  body := "\x7b\"status\":\"InProgress\"\x7d"

/-- An endpoint with the settings that are usual for polls. -/
def usualEndpoint : Endpoint where
  base := "https://service"
  token := "token"
  poll := {}
  wording _ _ := "?"

theorem calls_keep_deadlines_sluggish :
    let deletion : HostCall :=
      .delete ⟨Policy.resourceType, "edge"⟩ (Policy.resourceId "sub" "web" "edge").text
    let err : PolicyError := .remote .waitForDelete "edge" "web" .deadlineExceeded
    ∃ talk, deletion.Overruns usualEndpoint "sub" 20000 talk err ∧ talk.length = 2 ∧
      EndsAt (handle ⟨"sub", .own 0, some 20000⟩ (usualEndpoint.backend "sub") deletion)
        { web := .ofList [.answer deletionStarted, .answer deletionGoesOn] } 20000
        (policyFailure ⟨Policy.resourceType, "edge"⟩ err) talk := by
  intro deletion err
  let e := usualEndpoint
  let target : PollTarget := .statusDocument "https://service/operation"
  have hpoller : Poller.ofResponse? e.poll deletionStarted = some ⟨target, 10000⟩ := by
    decide +kernel
  have hstarted := Poller.ofResponse?_eq_some_iff.mp hpoller
  have hpending : target.IsPending deletionGoesOn :=
    (@Poll.classify_eq_pending_iff e.wording _ _).mp ⟨some 30000, by decide +kernel⟩
  have hdelay : deletionGoesOn.SetsDelay e.poll.interval 30000 :=
    Response.setsDelay_iff.mpr (by decide +kernel)
  have hpolls : e.Overruns 20000 deletionStarted [⟨e.pollRequest target, deletionGoesOn⟩] := by
    refine ⟨target, [10000, 30000], hstarted.1, by decide, ?_, ?_, by decide, by decide⟩
    · rw [List.forall_mem_singleton]
      exact ⟨rfl, hpending⟩
    · exact .cons hstarted.2 (.cons hdelay .nil)
  have hparse : Policy.Address.parse (Policy.resourceId "sub" "web" "edge").text =
      .ok ⟨"web", "edge"⟩ := by decide +kernel
  have hoverruns := @HostCall.Overruns.delete e "sub" 20000 ⟨Policy.resourceType, "edge"⟩ _
    ⟨"web", "edge"⟩ _ _ hparse (by decide) hpolls
  have hquiet : Clock.IsQuiet {} (.child (.own 0)) := ⟨rfl, nofun⟩
  refine ⟨_, hoverruns, rfl, ?_⟩
  refine (calls_keep_deadlines ⟨"sub", .own 0, some 20000⟩ e "sub" 20000 rfl (by decide) _ _
    hquiet).2.1 rfl (by decide) _ _ hoverruns ⟨?_, ?_, trivial⟩
  · decide +kernel
  · decide +kernel

end Provider

end EdgeFirewall
