import EdgeFirewall.Proofs.Service.Work

/-! # Deadlines of work over HTTP

Time moves by sleeps alone, and a sleep that would end at the deadline or after it ends at the
deadline, with nothing else to start. So work with a deadline sends its requests before the
deadline and is over when it comes (`Proceeds.timely`). And a deadline is all that work knows of
the time: started later, with a deadline that is as much later, it goes the same way
(`Proceeds.later`). -/

namespace EdgeFirewall

open Http

/-! ### Time with a deadline -/

namespace Context

variable {ctx : Context} {c : Clock} {deadline : Nat}

theorem refusal?_of_deadline (hc : c.IsQuiet ctx.token) (hctx : ctx.deadline = some deadline) :
    ctx.refusal? c = if deadline ≤ c.now then some .deadlineExceeded else none := by
  rw [refusal?_of_quiet hc, hctx]
  simp only [Option.any_some, decide_eq_true_iff]

theorem isLive_iff_of_deadline (hc : c.IsQuiet ctx.token) (hctx : ctx.deadline = some deadline) :
    ctx.IsLive c ↔ c.now < deadline := by
  unfold IsLive
  rw [refusal?_of_deadline hc hctx]
  simp

theorem sleep_of_deadline (hc : c.IsQuiet ctx.token) (hctx : ctx.deadline = some deadline)
    (duration : Nat) : ctx.sleep duration c =
      if deadline ≤ c.now then (.error .deadlineExceeded, c)
      else if deadline ≤ c.now + duration then (.error .deadlineExceeded, c.moved deadline)
      else (.ok (), c.moved (c.now + duration)) := by
  rw [sleep_of_quiet hc, hctx]
  simp only [Option.any_some, decide_eq_true_iff]
  by_cases hlong : deadline ≤ c.now + duration
  · have hexpires : (some deadline).filter (· ≤ c.now + duration) = some deadline := by simp [hlong]
    rw [hexpires, if_pos hlong]
  · have hexpires : (some deadline).filter (· ≤ c.now + duration) = none := by
      simpa using Nat.lt_of_not_le hlong
    rw [hexpires, if_neg hlong]

end Context

namespace Http

/-! ### Work is done by its deadline -/

/-- From one state of a session to another, time goes on but not beyond a deadline, and all the
requests in between are sent before it. -/
structure Session.KeepsTo (token : Token) (deadline : Nat) (s s' : Session) : Prop where
  quiet : s'.clock.IsQuiet token
  le : s.clock.now ≤ s'.clock.now
  le_deadline : s.clock.now ≤ deadline → s'.clock.now ≤ deadline
  sent : ∃ new, s'.sent = s.sent ++ new ∧ ∀ x ∈ new, s.clock.now ≤ x.time ∧ x.time < deadline

namespace Session

variable {s s' s'' : Session} {token : Token} {deadline : Nat} {ctx : Context}

theorem KeepsTo.refl (hs : s.clock.IsQuiet token) : s.KeepsTo token deadline s :=
  ⟨hs, Nat.le_refl _, id, [], by simp⟩

theorem KeepsTo.trans (h : s.KeepsTo token deadline s') (h' : s'.KeepsTo token deadline s'') :
    s.KeepsTo token deadline s'' := by
  obtain ⟨new, hnew, htimes⟩ := h.sent
  obtain ⟨new', hnew', htimes'⟩ := h'.sent
  refine ⟨h'.quiet, Nat.le_trans h.le h'.le, h'.le_deadline ∘ h.le_deadline, new ++ new',
    by rw [hnew', hnew, List.append_assoc], ?_⟩
  rw [List.forall_mem_append]
  exact ⟨htimes, fun x hx => ⟨Nat.le_trans h.le (htimes' x hx).1, (htimes' x hx).2⟩⟩

theorem keepsTo_send (hs : s.clock.IsQuiet ctx.token) (hctx : ctx.deadline = some deadline)
    (r : Request) : s.KeepsTo ctx.token deadline (Session.send ctx r s).2 := by
  rcases send_session ctx r s with hsession | ⟨hlive, hsession⟩
  · rw [hsession]
    exact .refl hs
  · rw [hsession]
    have hbefore := (Context.isLive_iff_of_deadline hs hctx).mp hlive
    exact ⟨hs, Nat.le_refl _, id, [⟨r, s.clock.now⟩], rfl, by simpa using hbefore⟩

theorem keepsTo_moved (hs : s.clock.IsQuiet token) {time : Nat} (hnow : s.clock.now ≤ time)
    (htime : time ≤ deadline) :
    s.KeepsTo token deadline { s with clock := s.clock.moved time } := by
  have hmoved : (s.clock.moved time).now = time := s.clock.now_moved time
  refine ⟨hs.moved time, ?_, fun _ => ?_, [], (List.append_nil _).symm, by simp⟩
  · dsimp only
    omega
  · dsimp only
    omega

theorem keepsTo_sleep (hs : s.clock.IsQuiet ctx.token) (hctx : ctx.deadline = some deadline)
    (duration : Nat) : s.KeepsTo ctx.token deadline (Session.sleep ctx duration s).2 := by
  have hsession : (Session.sleep ctx duration s).2 =
      { s with clock := (ctx.sleep duration s.clock).2 } := rfl
  rw [hsession, Context.sleep_of_deadline hs hctx]
  split
  · exact .refl hs
  · next hpast =>
      split
      · exact keepsTo_moved hs (by omega) (Nat.le_refl _)
      · exact keepsTo_moved hs (by omega) (by omega)

end Session

variable {asks : List Response → Request → Prop} {known : List Response} {ρ : Type}
  {post : List Response → ρ → Prop} {work : Context → StateM Session ρ} {ctx : Context}
  {deadline : Nat}

/-- Work sends its requests before its deadline, and ends no later than that. -/
theorem Proceeds.timely (h : Proceeds asks known post work) {s : Session}
    (hclock : s.clock.IsQuiet ctx.token) (hctx : ctx.deadline = some deadline) :
    s.KeepsTo ctx.token deadline (work ctx s).2 := by
  refine h.run (R := fun s s' => s.clock.IsQuiet ctx.token → s.KeepsTo ctx.token deadline s')
    (fun s hs => .refl hs) ?_ (fun r s hs => Session.keepsTo_send hs hctx r)
    (fun duration s hs => Session.keepsTo_sleep hs hctx duration) s hclock
  intro s s' s'' h h' hs
  have hfirst := h hs
  exact hfirst.trans (h' hfirst.quiet)

/-! ### Work goes the same way whenever it starts -/

/-- A request as it is sent some time later. -/
def Sent.later (x : Sent) (delay : Nat) : Sent :=
  { x with time := x.time + delay }

/-- A session is like another one but for a delay: it may have another past, and what was sent
since then is the same. After either past, the same comes of the same requests. Nothing is heard by
the token of either. -/
structure Session.Later (token : Token) (delay : Nat) (past past' : List Sent) (s s' : Session) :
    Prop where
  web : ∀ new r, s'.web (past'.map Sent.request ++ new) r = s.web (past.map Sent.request ++ new) r
  now : s'.clock.now = s.clock.now + delay
  quiet : s.clock.IsQuiet token
  quiet' : s'.clock.IsQuiet token
  sent : ∃ new, s.sent = past ++ new ∧ s'.sent = past' ++ new.map (·.later delay)

section Later

variable {token : Token} {delay : Nat} {past past' : List Sent} {ctx' : Context} {s s' : Session}

namespace Session

/-- The same comes of the next request. -/
theorem Later.reply (h : s.Later token delay past past' s') (r : Request) :
    s'.web s'.past r = s.web s.past r := by
  obtain ⟨new, hnew, hnew'⟩ := h.sent
  have hrequests : (new.map (·.later delay)).map Sent.request = new.map Sent.request := by
    rw [List.map_map]
    rfl
  unfold Session.past
  rw [hnew, hnew', List.map_append, List.map_append, hrequests]
  exact h.web _ r

theorem Later.after (h : s.Later token delay past past' s') (r : Request) :
    (s.after r).Later token delay past past' (s'.after r) := by
  obtain ⟨new, hnew, hnew'⟩ := h.sent
  refine ⟨h.web, h.now, h.quiet, h.quiet', new ++ [⟨r, s.clock.now⟩], ?_, ?_⟩
  · rw [Session.after, hnew, List.append_assoc]
  · rw [Session.after, hnew', List.map_append, List.append_assoc, h.now]
    rfl

theorem Later.moved (h : s.Later token delay past past' s') {time time' : Nat}
    (htime : time' = time + delay) :
    Session.Later token delay past past' { s with clock := s.clock.moved time }
      { s' with clock := s'.clock.moved time' } := by
  refine ⟨h.web, ?_, h.quiet.moved time, h.quiet'.moved time', h.sent⟩
  dsimp only
  rw [Clock.now_moved, Clock.now_moved, htime]

variable (hctx : ctx.deadline = some deadline) (hctx' : ctx'.deadline = some (deadline + delay))
  (htoken : ctx.token = token) (htoken' : ctx'.token = token)

include hctx hctx' htoken htoken'

theorem Later.refusal? (h : s.Later token delay past past' s') :
    ctx'.refusal? s'.clock = ctx.refusal? s.clock := by
  rw [Context.refusal?_of_deadline (htoken ▸ h.quiet) hctx,
    Context.refusal?_of_deadline (htoken' ▸ h.quiet') hctx', h.now]
  simp only [Nat.add_le_add_iff_right]

theorem Later.send (h : s.Later token delay past past' s') (r : Request) :
    (Session.send ctx' r s').1 = (Session.send ctx r s).1 ∧
      (Session.send ctx r s).2.Later token delay past past' (Session.send ctx' r s').2 := by
  unfold Session.send Context.run
  rw [h.refusal? hctx hctx' htoken htoken']
  split
  · exact ⟨rfl, h⟩
  · rw [exchange_eq, exchange_eq, h.reply]
    exact ⟨rfl, h.after r⟩

theorem Later.sleep (h : s.Later token delay past past' s') (duration : Nat) :
    (Session.sleep ctx' duration s').1 = (Session.sleep ctx duration s).1 ∧
      (Session.sleep ctx duration s).2.Later token delay past past'
        (Session.sleep ctx' duration s').2 := by
  have heq : ∀ (ctx : Context) (s : Session), Session.sleep ctx duration s =
      ((ctx.sleep duration s.clock).1, { s with clock := (ctx.sleep duration s.clock).2 }) :=
    fun _ _ => rfl
  rw [heq ctx s, heq ctx' s', Context.sleep_of_deadline (htoken ▸ h.quiet) hctx,
    Context.sleep_of_deadline (htoken' ▸ h.quiet') hctx', h.now]
  by_cases hover : deadline ≤ s.clock.now
  · rw [if_pos hover, if_pos (by omega)]
    exact ⟨rfl, h⟩
  · rw [if_neg hover, if_neg (by omega)]
    by_cases hlong : deadline ≤ s.clock.now + duration
    · rw [if_pos hlong, if_pos (by omega)]
      exact ⟨rfl, h.moved rfl⟩
    · rw [if_neg hlong, if_neg (by omega)]
      exact ⟨rfl, h.moved (by omega)⟩

end Session

/-- Work goes the same way some time later, with a deadline that is as much later. -/
theorem Proceeds.later (h : Proceeds asks known post work)
    (hlater : s.Later token delay past past' s') (hctx : ctx.deadline = some deadline)
    (hctx' : ctx'.deadline = some (deadline + delay)) (htoken : ctx.token = token)
    (htoken' : ctx'.token = token) :
    (work ctx' s').1 = (work ctx s).1 ∧
      (work ctx s).2.Later token delay past past' (work ctx' s').2 := by
  induction h generalizing s s' with
  | pure hx => exact ⟨rfl, hlater⟩
  | send hasks herror hok => exact hlater.send hctx hctx' htoken htoken' _
  | sleep duration hpost => exact hlater.sleep hctx hctx' htoken htoken' duration
  | bind h hf ih ihf =>
      dsimp only
      rw [bind_apply, bind_apply]
      obtain ⟨new, -, hpost⟩ := h.sound ctx s
      obtain ⟨hresult, hlater'⟩ := ih hlater
      rw [hresult]
      exact ihf _ _ hpost hlater'

end Later

end Http

end EdgeFirewall
