import EdgeFirewall.Proofs.Service.Client
import EdgeFirewall.Proofs.Service.Contexts
import EdgeFirewall.Service.Http

/-! # Exchanges

Work in a session is judged by the answers that its requests get. `Session.Answers` tells what is
answered to requests that are sent one after the other, `Session.Sends` which requests a piece of
work has sent. `Settles` ties the two to the result: work whose context stays live ends with a
result on which it can settle exactly when the answers earn that result, and then it has sent
the requests that were answered and no others. The contract is kept by sequencing
(`Settles.bind`), so that of a longer piece of work it is read off its parts. -/

namespace EdgeFirewall

namespace Http

/-- A request and the answer to it. -/
structure Exchange where
  request : Request
  answer : Response

namespace Session

/-- Requests are answered that are sent one after the other, after some that were sent before. -/
def Answers (s : Session) : List Request → List Exchange → Prop
  | _, [] => True
  | before, x :: rest => s.web (s.past ++ before) x.request = .answer x.answer ∧
      s.Answers (before ++ [x.request]) rest

/-- Between two states of a session, the requests of the exchanges are sent and no others. -/
structure Sends (s : Session) (talk : List Exchange) (s' : Session) : Prop where
  web : s'.web = s.web
  sent : ∃ new, s'.sent = s.sent ++ new ∧ new.map Sent.request = talk.map Exchange.request

variable {s s' s'' : Session} {talk rest : List Exchange}

theorem Sends.of_sent_eq (hweb : s'.web = s.web) (hsent : s'.sent = s.sent) : s.Sends [] s' :=
  ⟨hweb, [], by rw [hsent, List.append_nil], rfl⟩

theorem Sends.trans (h : s.Sends talk s') (h' : s'.Sends rest s'') :
    s.Sends (talk ++ rest) s'' := by
  obtain ⟨new, hnew, hmap⟩ := h.sent
  obtain ⟨new', hnew', hmap'⟩ := h'.sent
  refine ⟨h'.web.trans h.web, new ++ new', ?_, ?_⟩
  · rw [hnew', hnew, List.append_assoc]
  · rw [List.map_append, List.map_append, hmap, hmap']

theorem Sends.past (h : s.Sends talk s') : s'.past = s.past ++ talk.map Exchange.request := by
  obtain ⟨new, hnew, hmap⟩ := h.sent
  unfold Session.past
  rw [hnew, List.map_append, ← hmap]

theorem Sends.length_sent (h : s.Sends talk s') :
    s'.sent.length = s.sent.length + talk.length := by
  have hlength := congrArg List.length h.past
  rwa [Session.past, Session.past, List.length_append, List.length_map, List.length_map,
    List.length_map] at hlength

theorem answers_of_sends (h : s.Sends talk s') (before : List Request) (rest : List Exchange) :
    s'.Answers before rest ↔ s.Answers (talk.map Exchange.request ++ before) rest := by
  induction rest generalizing before with
  | nil => exact Iff.rfl
  | cons x rest ih =>
      unfold Answers
      rw [h.web, h.past, ih, List.append_assoc, List.append_assoc]

theorem answers_append (before : List Request) (talk rest : List Exchange) :
    s.Answers before (talk ++ rest) ↔
      s.Answers before talk ∧ s.Answers (before ++ talk.map Exchange.request) rest := by
  induction talk generalizing before with
  | nil => simp [Answers]
  | cons x talk ih =>
      rw [List.cons_append, Answers, Answers, ih, List.map_cons, and_assoc, List.append_assoc,
        List.singleton_append]

@[simp] theorem answers_singleton (before : List Request) (x : Exchange) :
    s.Answers before [x] ↔ s.web (s.past ++ before) x.request = .answer x.answer := by
  simp [Answers]

end Session

/-! ### Work that settles on a result -/

/-- Whether a piece of work has succeeded. -/
def Succeeds {ε α : Type} (x : Except ε α) : Prop :=
  ∃ a, x = .ok a

/-- Whether a call of the service has given what was asked for or has found that it is not there. -/
def Conclusive {α : Type} (x : Except ServiceError α) : Prop :=
  ∀ e, x = .error e → e.isNotFound = true

@[simp] theorem conclusive_ok {α : Type} (a : α) : Conclusive (.ok a) := by simp [Conclusive]

@[simp] theorem conclusive_error {α : Type} {e : ServiceError} :
    Conclusive (.error e : Except ServiceError α) ↔ e.isNotFound = true := by simp [Conclusive]

/-- Work that settles on results of some sort exactly if answers earn them. What earns a result is
all that was answered: if the server answers so and the context is still live at the end, the work
ends with that result and has sent no other requests. -/
structure Settles {ρ : Type} (ctx : Context) (work : StateM Session ρ) (settled : ρ → Prop)
    (earns : ρ → List Exchange → Prop) : Prop where
  settled_of_earns : ∀ {x talk}, earns x talk → settled x
  /-- Time does not go back, and no signal is taken back. -/
  live_of_live : ∀ s, ctx.IsLive (work s).2.clock → ctx.IsLive s.clock
  sound : ∀ s, settled (work s).1 →
    ∃ talk, earns (work s).1 talk ∧ s.Answers [] talk ∧ s.Sends talk (work s).2
  complete : ∀ s {x talk}, earns x talk → s.Answers [] talk → ctx.IsLive (work s).2.clock →
    (work s).1 = x ∧ s.Sends talk (work s).2

namespace Settles

variable {ρ ρ' : Type} {ctx : Context} {work : StateM Session ρ} {settled : ρ → Prop}
  {earns : ρ → List Exchange → Prop}

/-- In a context that stays live, work ends with a result on which it can settle exactly if the
answers earn that result. -/
theorem eq_iff (h : Settles ctx work settled earns) {s : Session}
    (hlive : ctx.IsLive (work s).2.clock) {x : ρ} (hx : settled x) :
    (work s).1 = x ↔ ∃ talk, earns x talk ∧ s.Answers [] talk := by
  constructor
  · rintro rfl
    obtain ⟨talk, hearns, hanswers, -⟩ := h.sound s hx
    exact ⟨talk, hearns, hanswers⟩
  · rintro ⟨talk, hearns, hanswers⟩
    exact (h.complete s hearns hanswers hlive).1

/-- Of work that settles on success, success is earned, -/
theorem exists_of_ok {ε α : Type} {work : StateM Session (Except ε α)}
    {earns : α → List Exchange → Prop}
    (h : Settles ctx work Succeeds fun x talk => ∃ a, x = .ok a ∧ earns a talk) {s : Session}
    {a : α} (hok : (work s).1 = .ok a) :
    ∃ talk, earns a talk ∧ s.Answers [] talk ∧ s.Sends talk (work s).2 := by
  obtain ⟨talk, ⟨a', ha', hearns⟩, hanswers, hsends⟩ := h.sound s ⟨a, hok⟩
  obtain rfl : a = a' := by
    rw [hok] at ha'
    exact Except.ok.inj ha'
  exact ⟨talk, hearns, hanswers, hsends⟩

/-- and what is earned is given, in a context that stays live. -/
theorem ok_of_earns {ε α : Type} {work : StateM Session (Except ε α)}
    {earns : α → List Exchange → Prop}
    (h : Settles ctx work Succeeds fun x talk => ∃ a, x = .ok a ∧ earns a talk) {s : Session}
    {a : α} {talk : List Exchange} (hlive : ctx.IsLive (work s).2.clock) (hearns : earns a talk)
    (hanswers : s.Answers [] talk) : (work s).1 = .ok a :=
  (h.complete s ⟨a, rfl, hearns⟩ hanswers hlive).1

theorem of_iff {earns' : ρ → List Exchange → Prop} (h : Settles ctx work settled earns)
    (hearns : ∀ x talk, earns x talk ↔ earns' x talk) : Settles ctx work settled earns' := by
  have heq : earns = earns' := funext fun x => funext fun talk => propext (hearns x talk)
  rwa [← heq]

theorem pure (x : ρ) :
    Settles ctx (Pure.pure x) settled fun y talk => settled y ∧ y = x ∧ talk = [] where
  settled_of_earns h := h.1
  live_of_live _ h := h
  sound s hx := ⟨[], ⟨hx, rfl, rfl⟩, trivial, .of_sent_eq rfl rfl⟩
  complete s x talk h _ _ := by
    obtain ⟨-, rfl, rfl⟩ := h
    exact ⟨rfl, .of_sent_eq rfl rfl⟩

/-- Nothing earns a result that is not of the sort to settle on. -/
theorem pure_of_not {x : ρ} (hx : ¬ settled x) :
    Settles ctx (Pure.pure x) settled fun _ _ => False :=
  (pure x).of_iff fun _ _ => ⟨fun ⟨hy, heq, _⟩ => hx (heq ▸ hy), False.elim⟩

/-- What earns the result of a sequence is what earns a result of its first part and then, from
there, the result of the second. -/
theorem bind {f : ρ → StateM Session ρ'} {settled' : ρ' → Prop}
    {earns' : ρ → ρ' → List Exchange → Prop} (h : Settles ctx work settled earns)
    (hf : ∀ x, Settles ctx (f x) settled' (earns' x))
    (hsettled : ∀ {x y talk}, earns' x y talk → settled x) :
    Settles ctx (work >>= f) settled' fun y talk =>
      ∃ x before after, talk = before ++ after ∧ earns x before ∧ earns' x y after where
  settled_of_earns := by
    rintro y talk ⟨x, before, after, -, -, hafter⟩
    exact (hf x).settled_of_earns hafter
  live_of_live s hlive := by
    rw [bind_apply] at hlive
    exact h.live_of_live s ((hf _).live_of_live _ hlive)
  sound s hy := by
    rw [bind_apply] at hy ⊢
    obtain ⟨after, hafter, hanswers', hsends'⟩ := (hf _).sound _ hy
    obtain ⟨before, hbefore, hanswers, hsends⟩ := h.sound s (hsettled hafter)
    refine ⟨before ++ after, ⟨_, before, after, rfl, hbefore, hafter⟩, ?_, hsends.trans hsends'⟩
    rw [Session.answers_append, List.nil_append]
    refine ⟨hanswers, ?_⟩
    rwa [Session.answers_of_sends hsends, List.append_nil] at hanswers'
  complete s y talk hy hanswers hlive := by
    obtain ⟨x, before, after, rfl, hbefore, hafter⟩ := hy
    rw [bind_apply] at hlive ⊢
    rw [Session.answers_append, List.nil_append] at hanswers
    obtain ⟨rfl, hsends⟩ := h.complete s hbefore hanswers.1 ((hf _).live_of_live _ hlive)
    have hanswers' : (work s).2.Answers [] after := by
      rw [Session.answers_of_sends hsends, List.append_nil]
      exact hanswers.2
    obtain ⟨hresult, hsends'⟩ := (hf _).complete _ hafter hanswers' hlive
    exact ⟨hresult, hsends.trans hsends'⟩

/-- The case of work whose result is only looked at. -/
theorem map {f : ρ → StateM Session ρ'} {settled' : ρ' → Prop} (g : ρ → ρ')
    (h : Settles ctx work settled earns) (hf : ∀ x, f x = Pure.pure (g x))
    (hsettled : ∀ x, settled' (g x) → settled x) :
    Settles ctx (work >>= f) settled' fun y talk =>
      settled' y ∧ ∃ x, y = g x ∧ earns x talk := by
  have hf' : ∀ x, Settles ctx (f x) settled' fun y talk => settled' y ∧ y = g x ∧ talk = [] := by
    intro x
    rw [hf]
    exact pure (g x)
  refine (h.bind hf' ?_).of_iff fun y talk => ⟨?_, ?_⟩
  · rintro x y talk ⟨hy, rfl, -⟩
    exact hsettled x hy
  · rintro ⟨x, before, after, rfl, hbefore, hy, rfl, rfl⟩
    rw [List.append_nil]
    exact ⟨hy, x, rfl, hbefore⟩
  · rintro ⟨hy, x, rfl, hearns⟩
    exact ⟨x, talk, [], (List.append_nil talk).symm, hearns, hy, rfl, rfl⟩

/-- The case of a sequence that gives up unless its first part finds something out. -/
theorem bind_conclusive {ε α β : Type} {work : StateM Session (Except ServiceError α)}
    {earns : Except ServiceError α → List Exchange → Prop}
    {f : Except ServiceError α → StateM Session (Except ε β)}
    (earns' : Except ServiceError α → Except ε β → List Exchange → Prop)
    (h : Settles ctx work Conclusive earns)
    (hother : ∀ e, e.isNotFound = false → ∃ e', f (.error e) = Pure.pure (.error e'))
    (hf : ∀ x, Conclusive x → Settles ctx (f x) Succeeds (earns' x)) :
    Settles ctx (work >>= f) Succeeds fun y talk =>
      ∃ x before after, talk = before ++ after ∧ earns x before ∧ earns' x y after := by
  have hf' : ∀ x, Settles ctx (f x) Succeeds fun y talk => Conclusive x ∧ earns' x y talk := by
    intro x
    by_cases hx : Conclusive x
    · exact (hf x hx).of_iff fun y talk => by simp [hx]
    · cases x with
      | ok a => exact absurd (conclusive_ok a) hx
      | error e =>
          rw [conclusive_error, Bool.not_eq_true] at hx
          obtain ⟨e', he⟩ := hother e hx
          rw [he]
          have hnot : ¬ Succeeds (.error e' : Except ε β) := by simp [Succeeds]
          exact (pure_of_not hnot).of_iff fun y talk => by simp [hx]
  refine (h.bind hf' And.left).of_iff fun y talk => ⟨?_, ?_⟩
  · rintro ⟨x, before, after, htalk, hbefore, -, hafter⟩
    exact ⟨x, before, after, htalk, hbefore, hafter⟩
  · rintro ⟨x, before, after, htalk, hbefore, hafter⟩
    exact ⟨x, before, after, htalk, hbefore, h.settled_of_earns hbefore, hafter⟩

/-- The case of a sequence that gives up whenever its first part fails. -/
theorem andThen {ε α β : Type} {work : StateM Session (Except ServiceError α)}
    {earns : Except ServiceError α → List Exchange → Prop}
    {f : Except ServiceError α → StateM Session (Except ε β)}
    {earns' : α → Except ε β → List Exchange → Prop} (h : Settles ctx work Conclusive earns)
    (herror : ∀ e, ∃ e', f (.error e) = Pure.pure (.error e'))
    (hok : ∀ a, Settles ctx (f (.ok a)) Succeeds (earns' a)) :
    Settles ctx (work >>= f) Succeeds fun y talk =>
      ∃ a before after, talk = before ++ after ∧ earns (.ok a) before ∧ earns' a y after := by
  have hf : ∀ x, Conclusive x →
      Settles ctx (f x) Succeeds fun y talk => ∃ a, x = .ok a ∧ earns' a y talk := by
    intro x _
    cases x with
    | error e =>
        obtain ⟨e', he⟩ := herror e
        rw [he]
        have hnot : ¬ Succeeds (.error e' : Except ε β) := by simp [Succeeds]
        exact (pure_of_not hnot).of_iff fun y talk => by simp
    | ok a => exact (hok a).of_iff fun y talk => by simp
  refine (bind_conclusive _ h (fun e _ => herror e) hf).of_iff fun y talk => ⟨?_, ?_⟩
  · rintro ⟨_, before, after, htalk, hbefore, a, rfl, hafter⟩
    exact ⟨a, before, after, htalk, hbefore, hafter⟩
  · rintro ⟨a, before, after, htalk, hbefore, hafter⟩
    exact ⟨_, before, after, htalk, hbefore, a, rfl, hafter⟩

/-- The case of a sequence that passes on how its first part fails. -/
theorem passing {α β : Type} {work : StateM Session (Except ServiceError α)}
    {earns : Except ServiceError α → List Exchange → Prop}
    {f : Except ServiceError α → StateM Session (Except ServiceError β)}
    {earns' : α → Except ServiceError β → List Exchange → Prop}
    (h : Settles ctx work Conclusive earns)
    (herror : ∀ e, f (.error e) = Pure.pure (.error e))
    (hok : ∀ a, Settles ctx (f (.ok a)) Conclusive (earns' a)) :
    Settles ctx (work >>= f) Conclusive fun y talk =>
      (∃ a before after, talk = before ++ after ∧ earns (.ok a) before ∧ earns' a y after) ∨
        ∃ e, y = .error e ∧ earns (.error e) talk := by
  have hf : ∀ x, Settles ctx (f x) Conclusive fun y talk =>
      (∃ a, x = .ok a ∧ earns' a y talk) ∨
        ∃ e, x = .error e ∧ e.isNotFound = true ∧ y = .error e ∧ talk = [] := by
    intro x
    cases x with
    | error e =>
        rw [herror]
        refine (pure _).of_iff fun y talk => ?_
        constructor
        · rintro ⟨hy, rfl, rfl⟩
          exact .inr ⟨e, rfl, conclusive_error.mp hy, rfl, rfl⟩
        · rintro (⟨a, heq, -⟩ | ⟨_, heq, he, rfl, rfl⟩)
          · exact absurd heq (by simp)
          · obtain rfl := Except.error.inj heq
            exact ⟨conclusive_error.mpr he, rfl, rfl⟩
    | ok a => exact (hok a).of_iff fun y talk => by simp
  refine (h.bind hf ?_).of_iff fun y talk => ⟨?_, ?_⟩
  · rintro x y talk (⟨a, rfl, -⟩ | ⟨e, rfl, he, -⟩)
    · exact conclusive_ok a
    · exact conclusive_error.mpr he
  · rintro ⟨_, before, after, rfl, hbefore, ⟨a, rfl, hafter⟩ | ⟨e, rfl, -, rfl, rfl⟩⟩
    · exact .inl ⟨a, before, after, rfl, hbefore, hafter⟩
    · rw [List.append_nil]
      exact .inr ⟨e, rfl, hbefore⟩
  · rintro (⟨a, before, after, rfl, hbefore, hafter⟩ | ⟨e, rfl, hearns⟩)
    · exact ⟨_, before, after, rfl, hbefore, .inl ⟨a, rfl, hafter⟩⟩
    · have he := conclusive_error.mp (h.settled_of_earns hearns)
      exact ⟨_, talk, [], (List.append_nil _).symm, hearns, .inr ⟨e, rfl, he, rfl, rfl⟩⟩

end Settles

/-! ### Sending and sleeping -/

variable {ctx : Context} {s : Session} {r : Request} {answer : Response}

/-- What a session takes of a reply: an answer that is whole. -/
def Reply.result : Reply → Except ServiceError Response
  | .answer r => .ok r
  | .broken _ _ reason => .error (.connection reason)
  | .failure reason => .error (.connection reason)

theorem Reply.result_eq_ok_iff {reply : Reply} : reply.result = .ok answer ↔ reply = .answer answer
    := by
  cases reply <;> simp [result]

/-- The session after a request was sent. -/
def Session.after (s : Session) (r : Request) : Session :=
  { s with sent := s.sent ++ [⟨r, s.clock.now⟩] }

theorem Session.sends_after (s : Session) (r : Request) (answer : Response) :
    s.Sends [⟨r, answer⟩] (s.after r) :=
  ⟨rfl, _, rfl, rfl⟩

/-- A request leaves its trace, whatever comes of it. -/
theorem exchange_eq (r : Request) (s : Session) :
    Session.exchange r s = ((s.web s.past r).result, s.after r) := by
  unfold Session.exchange
  dsimp only
  cases s.web s.past r <;> rfl

theorem clock_exchange (r : Request) (s : Session) :
    (Session.exchange r s).2.clock = s.clock := by
  rw [exchange_eq]
  rfl

theorem send_of_live (hlive : ctx.IsLive s.clock) :
    Session.send ctx r s = Session.exchange r s := by
  unfold Session.send Context.run
  rw [hlive]

theorem send_of_not_live (hlive : ¬ ctx.IsLive s.clock) :
    ∃ e, e.isNotFound = false ∧ Session.send ctx r s = (.error e, s) := by
  unfold Session.send Context.run
  cases hrefusal : ctx.refusal? s.clock with
  | none => exact absurd hrefusal hlive
  | some e => exact ⟨e, Context.isNotFound_of_refusal? hrefusal, rfl⟩

theorem clock_send (ctx : Context) (r : Request) (s : Session) :
    (Session.send ctx r s).2.clock = s.clock := by
  by_cases hlive : ctx.IsLive s.clock
  · rw [send_of_live hlive, clock_exchange]
  · obtain ⟨e, -, he⟩ := send_of_not_live (r := r) hlive
    rw [he]

theorem send_eq_ok_iff : (Session.send ctx r s).1 = .ok answer ↔
    ctx.IsLive s.clock ∧ s.web s.past r = .answer answer := by
  by_cases hlive : ctx.IsLive s.clock
  · rw [send_of_live hlive, exchange_eq, Reply.result_eq_ok_iff, and_iff_right hlive]
  · obtain ⟨e, -, he⟩ := send_of_not_live (r := r) hlive
    simp [he, hlive]

/-- Without an answer nothing is found out. -/
theorem exists_answer_of_send (h : Conclusive (Session.send ctx r s).1) :
    ∃ answer, (Session.send ctx r s).1 = .ok answer := by
  by_cases hlive : ctx.IsLive s.clock
  · rw [send_of_live hlive, exchange_eq] at h ⊢
    cases hreply : s.web s.past r with
    | answer answer => exact ⟨answer, rfl⟩
    | broken status headers reason =>
        rw [hreply] at h
        exact absurd h (by simp [Reply.result, ServiceError.isNotFound])
    | failure reason =>
        rw [hreply] at h
        exact absurd h (by simp [Reply.result, ServiceError.isNotFound])
  · obtain ⟨e, he, heq⟩ := send_of_not_live (r := r) hlive
    rw [heq, conclusive_error, he] at h
    exact absurd h (by simp)

theorem sends_of_send (h : (Session.send ctx r s).1 = .ok answer) :
    s.Sends [⟨r, answer⟩] (Session.send ctx r s).2 := by
  rw [send_of_live (send_eq_ok_iff.mp h).1, exchange_eq]
  exact s.sends_after r answer

/-- A request settles on the answer to it. -/
theorem send_settles (ctx : Context) (r : Request) :
    Settles ctx (Session.send ctx r) Conclusive fun x talk =>
      ∃ answer, x = .ok answer ∧ talk = [⟨r, answer⟩] where
  settled_of_earns := by
    rintro x talk ⟨answer, rfl, -⟩
    exact conclusive_ok answer
  live_of_live s hlive := by
    rwa [clock_send] at hlive
  sound s hx := by
    obtain ⟨answer, hx⟩ := exists_answer_of_send hx
    refine ⟨_, ⟨answer, hx, rfl⟩, ?_, sends_of_send hx⟩
    rw [Session.answers_singleton, List.append_nil]
    exact (send_eq_ok_iff.mp hx).2
  complete s x talk h hanswers hlive := by
    obtain ⟨answer, rfl, rfl⟩ := h
    rw [clock_send] at hlive
    rw [Session.answers_singleton, List.append_nil] at hanswers
    have hx := send_eq_ok_iff.mpr ⟨hlive, hanswers⟩
    exact ⟨hx, sends_of_send hx⟩

/-- A sleep that is broken off finds nothing out. -/
theorem sleep_eq_ok_of_conclusive {c : Clock} {duration : Nat}
    (h : Conclusive (ctx.sleep duration c).1) : (ctx.sleep duration c).1 = .ok () := by
  cases hresult : (ctx.sleep duration c).1 with
  | ok _ => rfl
  | error e =>
      rw [hresult, conclusive_error, Context.isNotFound_of_sleep hresult] at h
      exact absurd h (by simp)

/-- A sleep settles on having slept, and asks for nothing. -/
theorem sleep_settles (ctx : Context) (duration : Nat) :
    Settles ctx (Session.sleep ctx duration) Conclusive fun x talk =>
      x = .ok () ∧ talk = [] where
  settled_of_earns := by
    rintro x talk ⟨rfl, -⟩
    exact conclusive_ok ()
  live_of_live s hlive := (Context.sleep_of_live hlive).1
  sound s hx :=
    ⟨[], ⟨sleep_eq_ok_of_conclusive hx, rfl⟩, trivial, .of_sent_eq rfl rfl⟩
  complete s x talk h _ hlive := by
    obtain ⟨rfl, rfl⟩ := h
    exact ⟨(Context.sleep_of_live hlive).2, .of_sent_eq rfl rfl⟩

end Http

end EdgeFirewall
