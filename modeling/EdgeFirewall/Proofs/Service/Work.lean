import EdgeFirewall.Proofs.Service.HttpClient

/-! # Work over HTTP

Whatever is done over HTTP in the context of a call is made of requests and of sleeps
(`Http.Proceeds`). What a request and a sleep bring about is therefore all that the work brings
about: a relation between sessions that they respect is respected by the work (`Proceeds.run`). The
work sends no requests but the ones that it is made of, and each of them knows the answers to those
before it (`Proceeds.sound`); and it sends none at all once its context lets nothing start
(`Proceeds.still`). The calls of the client over HTTP are such work: what they ask is about the
policy that they are called for, or after an operation that an answer has named
(`Endpoint.Concerns`). -/

namespace EdgeFirewall

namespace Http

/-! ### Requests and sleeps -/

/-- Work made of requests and of sleeps, which is begun when some answers are known. What is asked
and what the result satisfies may depend on the answers that are known by then. -/
inductive Proceeds (asks : List Response → Request → Prop) :
    {ρ : Type} → List Response → (List Response → ρ → Prop) → (Context → StateM Session ρ) → Prop
  | pure {ρ : Type} {known : List Response} {post : List Response → ρ → Prop} {x : ρ}
      (hx : post known x) : Proceeds asks known post fun _ => Pure.pure x
  | send {known : List Response} {post : List Response → Except ServiceError Response → Prop}
      {r : Request} (hasks : asks known r) (herror : ∀ e, post known (.error e))
      (hok : ∀ a, post (known ++ [a]) (.ok a)) :
      Proceeds asks known post fun ctx => Session.send ctx r
  | sleep {known : List Response} {post : List Response → Except ServiceError Unit → Prop}
      (duration : Nat) (hpost : ∀ x, post known x) :
      Proceeds asks known post fun ctx => Session.sleep ctx duration
  | bind {ρ ρ' : Type} {known : List Response} {post : List Response → ρ → Prop}
      {post' : List Response → ρ' → Prop} {work : Context → StateM Session ρ}
      {f : ρ → Context → StateM Session ρ'} (h : Proceeds asks known post work)
      (hf : ∀ more x, post (known ++ more) x → Proceeds asks (known ++ more) post' (f x)) :
      Proceeds asks known post' fun ctx => work ctx >>= fun x => f x ctx

/-- The answer that comes of a request, if it is whole. -/
def Reply.answer? : Reply → Option Response
  | .answer a => some a
  | .broken _ _ _ => none
  | .failure _ => none

/-- The answers to requests that are sent one after the other, after some that were sent before. -/
def Session.received (s : Session) (before : List Request) : List Request → List Response
  | [] => []
  | r :: rest => (s.web (s.past ++ before) r).answer?.toList ++ s.received (before ++ [r]) rest

namespace Session

variable {s s' : Session}

theorem received_append (before rs rest : List Request) :
    s.received before (rs ++ rest) = s.received before rs ++ s.received (before ++ rs) rest := by
  induction rs generalizing before with
  | nil => rw [List.nil_append, received, List.nil_append, List.append_nil]
  | cons r rs ih =>
      rw [List.cons_append, received, received, ih, List.append_assoc, List.append_assoc,
        List.singleton_append]

theorem received_of_past {rs : List Request} (hweb : s'.web = s.web)
    (hpast : s'.past = s.past ++ rs) (before rest : List Request) :
    s'.received before rest = s.received (rs ++ before) rest := by
  induction rest generalizing before with
  | nil => rfl
  | cons r rest ih => rw [received, received, ih, hweb, hpast, List.append_assoc, List.append_assoc]

/-- Requests are sent between two states of a session, each of which may be asked with the answers
to those before it. -/
structure Asks (asks : List Response → Request → Prop) (known : List Response) (s : Session)
    (new : List Sent) (s' : Session) : Prop where
  web : s'.web = s.web
  sent : s'.sent = s.sent ++ new
  asks : ∀ earlier x later, new = earlier ++ x :: later →
    asks (known ++ s.received [] (earlier.map Sent.request)) x.request

variable {asks : List Response → Request → Prop} {known : List Response} {new rest : List Sent}
  {s'' : Session}

theorem Asks.past (h : s.Asks asks known new s') : s'.past = s.past ++ new.map Sent.request := by
  unfold Session.past
  rw [h.sent, List.map_append]

theorem Asks.of_sent_eq (hweb : s'.web = s.web) (hsent : s'.sent = s.sent) :
    s.Asks asks known [] s' :=
  ⟨hweb, by rw [hsent, List.append_nil], fun _ _ _ h => absurd h (by simp)⟩

theorem Asks.received (h : s.Asks asks known new s') (before rest : List Request) :
    s'.received before rest = s.received (new.map Sent.request ++ before) rest :=
  received_of_past h.web h.past before rest

theorem Asks.trans (h : s.Asks asks known new s')
    (h' : s'.Asks asks (known ++ s.received [] (new.map Sent.request)) rest s'') :
    s.Asks asks known (new ++ rest) s'' := by
  refine ⟨h'.web.trans h.web, by rw [h'.sent, h.sent, List.append_assoc], ?_⟩
  intro earlier x later heq
  rcases List.append_eq_append_iff.mp heq with ⟨between, rfl, hrest⟩ | ⟨between, hnew, hrest⟩
  · -- a request of the second part
    have hx := h'.asks between x later hrest
    rw [h.received, List.append_nil, List.append_assoc] at hx
    rwa [List.map_append, received_append, List.nil_append]
  · cases between with
    | nil =>
        -- the first request of the second part
        obtain rfl : earlier = new := by rw [hnew, List.append_nil]
        have hx := h'.asks [] x later hrest.symm
        rwa [List.map_nil, Session.received, List.append_nil] at hx
    | cons y between =>
        obtain ⟨rfl, rfl⟩ := List.cons.inj hrest
        exact h.asks earlier x between hnew

end Session

/-- A request leaves a session as it is, or it was let start and is noted there. -/
theorem send_session (ctx : Context) (r : Request) (s : Session) :
    (Session.send ctx r s).2 = s ∨
      ctx.IsLive s.clock ∧ (Session.send ctx r s).2 = s.after r := by
  by_cases hlive : ctx.IsLive s.clock
  · rw [send_of_live hlive, exchange_eq]
    exact .inr ⟨hlive, rfl⟩
  · obtain ⟨e, -, he⟩ := send_of_not_live (r := r) hlive
    exact .inl (by rw [he])

namespace Proceeds

variable {asks : List Response → Request → Prop} {known : List Response} {ρ : Type}
  {post : List Response → ρ → Prop} {work : Context → StateM Session ρ}

theorem send_sound {post : List Response → Except ServiceError Response → Prop} {r : Request}
    (hasks : asks known r) (herror : ∀ e, post known (.error e))
    (hok : ∀ a, post (known ++ [a]) (.ok a)) (ctx : Context) (s : Session) :
    ∃ new, s.Asks asks known new (Session.send ctx r s).2 ∧
      post (known ++ s.received [] (new.map Sent.request)) (Session.send ctx r s).1 := by
  by_cases hlive : ctx.IsLive s.clock
  · rw [send_of_live hlive, exchange_eq]
    refine ⟨[⟨r, s.clock.now⟩], ⟨rfl, rfl, ?_⟩, ?_⟩
    · intro earlier x later heq
      cases earlier with
      | nil =>
          obtain ⟨rfl, -⟩ := List.cons.inj heq
          rw [List.map_nil, Session.received, List.append_nil]
          exact hasks
      | cons y earlier => simp at heq
    · have hreceived : s.received [] [r] = (s.web s.past r).answer?.toList := by
        rw [Session.received, Session.received, List.append_nil, List.append_nil]
      rw [List.map_singleton, hreceived]
      cases s.web s.past r with
      | answer a => exact hok a
      | broken status headers reason =>
          have herror' := herror (.connection reason)
          rwa [← List.append_nil known] at herror'
      | failure reason =>
          have herror' := herror (.connection reason)
          rwa [← List.append_nil known] at herror'
  · obtain ⟨e, -, he⟩ := send_of_not_live (r := r) hlive
    rw [he]
    refine ⟨[], .of_sent_eq rfl rfl, ?_⟩
    rw [List.map_nil, Session.received, List.append_nil]
    exact herror e

/-- The work sends requests that may be asked, each with the answers to those before it, and the
result is as promised. -/
theorem sound (h : Proceeds asks known post work) (ctx : Context) (s : Session) :
    ∃ new, s.Asks asks known new (work ctx s).2 ∧
      post (known ++ s.received [] (new.map Sent.request)) (work ctx s).1 := by
  induction h generalizing s with
  | pure hx =>
      refine ⟨[], .of_sent_eq rfl rfl, ?_⟩
      rw [List.map_nil, Session.received, List.append_nil]
      exact hx
  | send hasks herror hok => exact send_sound hasks herror hok ctx s
  | sleep duration hpost =>
      refine ⟨[], .of_sent_eq rfl rfl, ?_⟩
      rw [List.map_nil, Session.received, List.append_nil]
      exact hpost _
  | bind h hf ih ihf =>
      dsimp only
      rw [bind_apply]
      obtain ⟨new, hnew, hpost⟩ := ih s
      obtain ⟨rest, hrest, hpost'⟩ := ihf _ _ hpost _
      refine ⟨new ++ rest, hnew.trans hrest, ?_⟩
      rw [hnew.received, List.append_nil, List.append_assoc] at hpost'
      rwa [List.map_append, Session.received_append, List.nil_append]

/-- A relation between sessions that is respected by every request and every sleep is respected by
the work. -/
theorem run (h : Proceeds asks known post work) {R : Session → Session → Prop} {ctx : Context}
    (hrefl : ∀ s, R s s) (htrans : ∀ {s s' s''}, R s s' → R s' s'' → R s s'')
    (hsend : ∀ r s, R s (Session.send ctx r s).2)
    (hsleep : ∀ duration s, R s (Session.sleep ctx duration s).2) (s : Session) :
    R s (work ctx s).2 := by
  induction h generalizing s with
  | pure hx => exact hrefl s
  | send hasks herror hok => exact hsend _ s
  | sleep duration hpost => exact hsleep duration s
  | bind h hf ih ihf =>
      dsimp only
      rw [bind_apply]
      obtain ⟨new, -, hpost⟩ := h.sound ctx s
      exact htrans (ih s) (ihf _ _ hpost _)

/-- In a context that lets nothing start, nothing happens. -/
theorem still (h : Proceeds asks known post work) {ctx : Context} {s : Session}
    (hlive : ¬ ctx.IsLive s.clock) : (work ctx s).2 = s := by
  refine h.run (R := fun s s' => ¬ ctx.IsLive s.clock → s' = s) (fun s _ => rfl) ?_ ?_ ?_ s hlive
  · intro s s' s'' h h' hlive
    obtain rfl := h hlive
    exact h' hlive
  · intro r s hlive
    exact (send_session ctx r s).resolve_right fun h => hlive h.1
  · intro duration s hlive
    unfold Session.sleep Context.sleep
    cases hrefusal : ctx.refusal? s.clock with
    | none => exact absurd hrefusal hlive
    | some e => rfl

end Proceeds

end Http

open Http

/-! ### The calls of a client -/

namespace Endpoint

variable {e : Endpoint} {subscription : String} {names : String → String → Prop}
  {known : List Response}

/-- A request is about a policy of the subscription that is among those named by group and name, or
it asks after an operation that a known answer has named. -/
def Concerns (e : Endpoint) (subscription : String) (names : String → String → Prop)
    (known : List Response) (r : Request) : Prop :=
  (∃ method group name body, names group name ∧
    r = e.policyRequest subscription method group name body) ∨
  ∃ a ∈ known, ∃ target : PollTarget, target.IsNamedBy a ∧ r = e.pollRequest target

/-- An operation was named by a known answer. -/
def Named (known : List Response) (operation : Option Poller) : Prop :=
  ∀ p, operation = some p → ∃ a ∈ known, p.target.IsNamedBy a

theorem concerns_policyRequest {group name : String} (hnames : names group name)
    (method : Method) (body : Option Json) :
    e.Concerns subscription names known
      (e.request method (e.policyUrl subscription group name) body) := by
  rw [← policyRequest_eq]
  exact .inl ⟨method, group, name, body, hnames, rfl⟩

theorem send_proceeds {asks : List Response → Request → Prop} {method : Method} {url : String}
    {body : Option Json} (hasks : asks known (e.request method url body)) :
    Proceeds asks known (fun known x => ∀ a, x = .ok a → a ∈ known)
      fun ctx => e.send ctx method url body := by
  rw [request_eq] at hasks
  exact .send hasks (by simp) (by simp)

theorem sendExpecting_proceeds {asks : List Response → Request → Prop} {method : Method}
    {url : String} {body : Option Json} (hasks : asks known (e.request method url body))
    (expected : List Nat) :
    Proceeds asks known (fun known x => ∀ a, x = .ok a → a ∈ known)
      fun ctx => e.sendExpecting ctx method url body expected := by
  unfold sendExpecting
  refine .bind (send_proceeds hasks) ?_
  rintro more (err | a) hknown
  · exact .pure (by simp)
  · dsimp only
    split
    · exact .pure (by simpa using hknown)
    · exact .pure (by simp)

theorem getPolicy_proceeds {group name : String} (hnames : names group name) :
    Proceeds (e.Concerns subscription names) known (fun _ _ => True)
      fun ctx => e.getPolicy subscription ctx group name := by
  unfold getPolicy
  refine .bind (sendExpecting_proceeds (concerns_policyRequest hnames .get none) _) ?_
  rintro more (err | a) -
  · exact .pure trivial
  · dsimp only
    split <;> exact .pure trivial

theorem named_ofResponse? {a : Response} (ha : a ∈ known) :
    Named known (Poller.ofResponse? e.poll a) :=
  fun _ hp => ⟨a, ha, (Poller.ofResponse?_eq_some_iff.mp hp).1⟩

/-- A change starts an operation that its answer names. -/
theorem putPolicy_proceeds {group name : String} (hnames : names group name) (d : Document) :
    Proceeds (e.Concerns subscription names) known
      (fun known x => ∀ operation, x = .ok operation → Named known operation)
      fun ctx => e.putPolicy subscription ctx group name d := by
  unfold putPolicy
  refine .bind (sendExpecting_proceeds (concerns_policyRequest hnames .put (some d.toJson)) _) ?_
  rintro more (err | a) hknown
  · exact .pure (by simp)
  · refine .pure ?_
    intro operation heq
    obtain rfl := Except.ok.inj heq
    exact named_ofResponse? (hknown a rfl)

theorem deletePolicy_proceeds {group name : String} (hnames : names group name) :
    Proceeds (e.Concerns subscription names) known
      (fun known x => ∀ operation, x = .ok operation → Named known operation)
      fun ctx => e.deletePolicy subscription ctx group name := by
  unfold deletePolicy
  refine .bind (sendExpecting_proceeds (concerns_policyRequest hnames .delete none) _) ?_
  rintro more (err | a) hknown
  · exact .pure (by simp)
  · refine .pure ?_
    intro operation heq
    obtain rfl := Except.ok.inj heq
    exact named_ofResponse? (hknown a rfl)

theorem ask_proceeds {asks : List Response → Request → Prop} {target : PollTarget}
    (hasks : asks known (e.pollRequest target)) :
    Proceeds asks known (fun _ _ => True) fun ctx => e.ask ctx target := by
  unfold ask
  refine .bind (send_proceeds hasks) ?_
  rintro more (err | a) - <;> exact .pure trivial

/-- However often it is asked after an operation, it is asked at the same place. -/
theorem waitFor_proceeds {asks : List Response → Request → Prop} {p : Poller}
    (hasks : ∀ more, asks (known ++ more) (e.pollRequest p.target)) (attempts : Nat) :
    Proceeds asks known (fun _ _ => True) fun ctx => e.waitFor ctx attempts p := by
  induction attempts generalizing p known with
  | zero => exact .pure trivial
  | succ attempts ih =>
      unfold waitFor
      have hsleep : Proceeds asks known (fun _ _ => True)
          fun ctx => Session.sleep ctx p.nextDelay := .sleep p.nextDelay (by simp)
      refine .bind hsleep ?_
      rintro slept (err | _) -
      · exact .pure trivial
      · refine .bind (ask_proceeds (hasks slept)) ?_
        rintro asked (err | _ | delay) -
        · exact .pure trivial
        · exact .pure trivial
        · refine ih fun more => ?_
          rw [List.append_assoc, List.append_assoc]
          exact hasks _

theorem waitForOperation_proceeds {operation : Option Poller} (h : Named known operation) :
    Proceeds (e.Concerns subscription names) known (fun _ _ => True)
      fun ctx => e.waitForOperation ctx operation := by
  cases operation with
  | none => exact .pure trivial
  | some p =>
      obtain ⟨a, ha, hnamed⟩ := h p rfl
      have hasks : ∀ more,
          e.Concerns subscription names (known ++ more) (e.pollRequest p.target) :=
        fun more => .inr ⟨a, List.mem_append_left more ha, p.target, hnamed, rfl⟩
      exact .bind (waitFor_proceeds hasks e.poll.maxAttempts) fun _ _ _ => .pure trivial

end Endpoint

end EdgeFirewall
