import EdgeFirewall.Proofs.Lifecycle.Conduct
import Mathlib.Data.List.Forall2

/-! # Cancelled providers

Once a provider is cancelled, the contexts of its calls let nothing start, those that were handed
out before as well as those that are still to come: their tokens descend from that of the provider
(`Provider.descendsFrom_of_context?`). So the provider sends nothing more, whatever it is asked for,
and a call that needs the service fails at the first thing it needs of it
(`HostCall.AnsweredCancelled`). What is wrong with a call in itself is told as before
(`Provider.cancellation_is_final`). -/

namespace EdgeFirewall

open Http

/-! ### Contexts that have heard a signal -/

section

variable {ctx : Context} {s : Session}

theorem Http.send_of_hasCancelled (h : s.clock.hasCancelled ctx.token = true) (r : Request) :
    Session.send ctx r s = (.error .cancelled, s) := by
  unfold Session.send Context.run
  rw [Context.refusal?_of_hasCancelled h]

theorem Http.sleep_of_hasCancelled (h : s.clock.hasCancelled ctx.token = true) (duration : Nat) :
    Session.sleep ctx duration s = (.error .cancelled, s) := by
  unfold Session.sleep Context.sleep
  rw [Context.refusal?_of_hasCancelled h]

end

/-- A client refuses to do anything: nothing can be got, put or deleted. -/
structure Client.Refuses {σ η : Type} (c : Client σ η) (s : σ) (e : ServiceError) : Prop where
  get : ∀ group name, c.get group name s = (.error e, s)
  put : ∀ group name d, c.put group name d s = (.error e, s)
  delete : ∀ group name, c.delete group name s = (.error e, s)

theorem Endpoint.client_refuses {ctx : Context} {s : Session} (e : Endpoint) (subscription : String)
    (h : s.clock.hasCancelled ctx.token = true) :
    (e.client subscription ctx).Refuses s .cancelled := by
  have hsend : ∀ method url body expected,
      e.sendExpecting ctx method url body expected s = (.error .cancelled, s) := by
    intro method url body expected
    unfold sendExpecting
    rw [bind_apply, send, send_of_hasCancelled h]
    rfl
  refine ⟨fun group name => ?_, fun group name d => ?_, fun group name => ?_⟩
  · change e.getPolicy subscription ctx group name s = _
    unfold getPolicy
    rw [bind_apply, hsend]
    rfl
  · change e.putPolicy subscription ctx group name d s = _
    unfold putPolicy
    rw [bind_apply, hsend]
    rfl
  · change e.deletePolicy subscription ctx group name s = _
    unfold deletePolicy
    rw [bind_apply, hsend]
    rfl

/-! ### Calls that need the service -/

/-- A call passes all that is checked of it alone, and then needs the service: what for, and the
name and group of the policy. -/
inductive HostCall.Needs : HostCall → Operation → (name group : String) → Prop
  | create {r : Resource} {p : Policy} (hkey : r.key.type = Policy.resourceType)
      (hdeclared : Policy.ofAttributes r.attributes = .ok p) :
      Needs (.create r) .checkExisting p.name p.resourceGroup
  | read {key : ResourceKey} {identifier : String} {address : Policy.Address}
      (hkey : key.type = Policy.resourceType)
      (hparse : Policy.Address.parse identifier = .ok address) :
      Needs (.read key (some identifier)) .retrieve address.name address.group
  | update {key : ResourceKey} {identifier : String} {target : Resource}
      {address : Policy.Address} {p : Policy} (hkey : key.type = Policy.resourceType)
      (hparse : Policy.Address.parse identifier = .ok address)
      (hdeclared : Policy.ofAttributes target.attributes = .ok p)
      (hname : Text.eqIgnoringCase p.name address.name = true)
      (hgroup : Text.eqIgnoringCase p.resourceGroup address.group = true) :
      Needs (.update key identifier target) .retrieve address.name address.group
  | delete {key : ResourceKey} {identifier : String} {address : Policy.Address}
      (hkey : key.type = Policy.resourceType)
      (hparse : Policy.Address.parse identifier = .ok address) :
      Needs (.delete key identifier) .delete address.name address.group

/-- A call is rejected, or needs nothing, or needs the service. -/
theorem HostCall.rejected_or_needs (call : HostCall) :
    (∃ f, call.Rejected f) ∨ (call.key.type = Policy.resourceType ∧ call = .read call.key none) ∨
      ∃ operation name group, call.Needs operation name group := by
  by_cases hkey : call.key.type = Policy.resourceType
  · cases call with
    | create r =>
        cases hdeclared : Policy.ofAttributes r.attributes with
        | error vs => exact .inl ⟨_, .invalid hkey (by simp [identifier?]) rfl hdeclared⟩
        | ok p => exact .inr (.inr ⟨_, _, _, .create hkey hdeclared⟩)
    | read key identifier =>
        cases identifier with
        | none => exact .inr (.inl ⟨hkey, rfl⟩)
        | some identifier =>
            cases hparse : Policy.Address.parse identifier with
            | error e => exact .inl ⟨_, .invalidId hkey rfl hparse⟩
            | ok address => exact .inr (.inr ⟨_, _, _, .read hkey hparse⟩)
    | update key identifier target =>
        cases hparse : Policy.Address.parse identifier with
        | error e => exact .inl ⟨_, .invalidId hkey rfl hparse⟩
        | ok address =>
            cases hdeclared : Policy.ofAttributes target.attributes with
            | error vs =>
                refine .inl ⟨_, .invalid hkey (fun identifier' heq => ?_) rfl hdeclared⟩
                obtain rfl := Option.some.inj heq
                exact ⟨address, hparse⟩
            | ok p =>
                by_cases hkept : Text.eqIgnoringCase p.name address.name = true ∧
                    Text.eqIgnoringCase p.resourceGroup address.group = true
                · exact .inr (.inr ⟨_, _, _, .update hkey hparse hdeclared hkept.1 hkept.2⟩)
                · have hne : Lifecycle.replacements address p ≠ [] :=
                    mt Lifecycle.replacements_eq_nil_iff.mp hkept
                  have hdisplaced : p.Displaced address (Lifecycle.replacements address p) :=
                    Lifecycle.displaced_iff.mpr ⟨rfl, hne⟩
                  exact .inl ⟨_, .displaced hkey rfl rfl hparse hdeclared hdisplaced⟩
    | delete key identifier =>
        cases hparse : Policy.Address.parse identifier with
        | error e => exact .inl ⟨_, .invalidId hkey rfl hparse⟩
        | ok address => exact .inr (.inr ⟨_, _, _, .delete hkey hparse⟩)
  · exact .inl ⟨_, .unknownType hkey⟩

namespace Provider

variable {σ η : Type} {p : Provider} {call : HostCall} {operation : Operation}
  {name group : String}

/-- With a client that refuses to do anything, the first thing that is needed fails. -/
theorem attempt_of_refuses (p : Provider) {c : Client σ η} {s : σ} {e : ServiceError}
    (hc : c.Refuses s e) (he : e.isNotFound = false) (h : call.Needs operation name group) :
    p.attempt c call s = (.error (.remote operation name group e), s) := by
  cases h with
  | create hkey hdeclared =>
      unfold attempt Lifecycle.create
      dsimp only
      rw [Lifecycle.declared_eq_ok_iff.mpr hdeclared]
      dsimp only
      rw [bind_apply, bind_apply, hc.get]
      dsimp only
      rw [he]
      rfl
  | read hkey hparse =>
      unfold attempt Lifecycle.read
      dsimp only
      rw [hparse]
      dsimp only
      rw [bind_apply, bind_apply, hc.get]
      dsimp only
      rw [he]
      rfl
  | update hkey hparse hdeclared hname hgroup =>
      unfold attempt Lifecycle.update
      dsimp only
      rw [hparse]
      dsimp only
      rw [Lifecycle.declared_eq_ok_iff.mpr hdeclared]
      dsimp only
      rw [Lifecycle.replacements_eq_nil_iff.mpr ⟨hname, hgroup⟩]
      dsimp only
      rw [bind_apply, bind_apply, hc.get]
      dsimp only
      rw [he]
      rfl
  | delete hkey hparse =>
      unfold attempt Lifecycle.delete
      dsimp only
      rw [hparse]
      dsimp only
      rw [bind_apply, bind_apply, hc.delete]
      dsimp only
      rw [he]
      rfl

end Provider

/-! ### Calls after the signal -/

/-- What a host is told after the signal: what is wrong with the call in itself, that a resource
without an identifier does not exist, or that what the service is needed for was cancelled. -/
structure HostCall.AnsweredCancelled (call : HostCall) (answer : HostAnswer) : Prop where
  rejected : ∀ {f}, call.Rejected f → answer = .error f
  absent : call.key.type = Policy.resourceType → call = .read call.key none →
    answer = .ok (some (.absent call.key))
  cancelled : ∀ {operation name group}, call.Needs operation name group →
    answer = .error (HostCall.failure call.key (.remote operation name group .cancelled))
  /-- These are all the calls that there are. -/
  exhaustive : (∃ f, call.Rejected f) ∨
    (call.key.type = Policy.resourceType ∧ call = .read call.key none) ∨
    ∃ operation name group, call.Needs operation name group

theorem HostCall.Needs.type_key {call : HostCall} {operation : Operation} {name group : String}
    (h : call.Needs operation name group) : call.key.type = Policy.resourceType := by
  cases h <;> assumption

namespace Provider

variable {p : Provider} {e : Endpoint} {subscription : String} {call : HostCall} {s : Session}
  {c : Clock} {ctx : Context}

/-- A provider gives its calls tokens that descend from its own. -/
theorem descendsFrom_of_context? (h : p.context? c = some ctx) : ctx.token.DescendsFrom p.token := by
  have htoken : ctx.token = p.token.child := by
    unfold context? at h
    cases hlimit : p.timeout with
    | none =>
        rw [hlimit] at h
        obtain rfl := Option.some.inj h
        rfl
    | some limit =>
        rw [hlimit] at h
        obtain ⟨-, hsome⟩ := Option.ite_none_right_eq_some.mp h
        obtain rfl := Option.some.inj hsome
        rfl
  rw [htoken]
  exact .child (.self p.token)

/-- Of all contexts, those have heard of a cancellation that have heard a signal before or whose
token descends from that of the provider. -/
theorem hasCancelled_cancel_iff (p : Provider) (c : Clock) (t : Token) :
    (p.cancel c).hasCancelled t = true ↔
      t.DescendsFrom p.token ∨ c.hasCancelled t = true := by
  rw [cancel, Clock.hasCancelled_cancel, Bool.or_eq_true, Token.hears_iff]

/-- A provider that has been cancelled hands out contexts that have heard of it. -/
theorem hasCancelled_of_context? (hctx : p.context? c = some ctx) (c' : Clock) :
    (p.cancel c').hasCancelled ctx.token = true :=
  (p.hasCancelled_cancel_iff c' ctx.token).mpr (.inl (descendsFrom_of_context? hctx))

/-- The session in which a provider has been cancelled. -/
def cancelIn (p : Provider) (s : Session) : Session :=
  { s with clock := p.cancel s.clock }

/-- When a call starts is the same for its context, with the signal and without. -/
theorem context?_cancel (p : Provider) (c : Clock) : p.context? (p.cancel c) = p.context? c := rfl

/-- A call after the signal changes nothing. -/
theorem handle_cancelled_session (p : Provider) (e : Endpoint) (subscription : String)
    (call : HostCall) (s : Session) :
    (p.handle (e.backend subscription) call (p.cancelIn s)).2 = p.cancelIn s := by
  rcases handle_session p (e.backend subscription) call (p.cancelIn s) with
    hsame | ⟨ctx, hctx, hattempt⟩
  · exact hsame
  · rw [hattempt]
    have hheard : (p.cancelIn s).clock.hasCancelled ctx.token = true :=
      hasCancelled_of_context? hctx s.clock
    exact (p.attempt_proceeds e subscription call).still (Context.not_isLive_of_hasCancelled hheard)

theorem handle_cancelled (hctx : (p.context? s.clock).isSome = true) :
    call.AnsweredCancelled (p.handle (e.backend subscription) call (p.cancelIn s)).1 := by
  obtain ⟨ctx, hctx⟩ := Option.isSome_iff_exists.mp hctx
  have hctx' : p.context? ((e.backend subscription).clock (p.cancelIn s)) = some ctx := hctx
  refine ⟨fun h => ?_, fun hkey h => ?_, fun h => ?_, call.rejected_or_needs⟩
  · rw [handle_of_rejected h, hctx', if_neg (by simp)]
  · rw [h, handle_read_none hkey]
    rfl
  · have hheard : (p.cancelIn s).clock.hasCancelled ctx.token = true :=
      hasCancelled_of_context? hctx s.clock
    have hattempt := p.attempt_of_refuses (e.client_refuses subscription hheard) rfl h
    have hattempt' : p.attempt ((e.backend subscription).connect ctx) call (p.cancelIn s) =
      (.error (.remote _ _ _ .cancelled), p.cancelIn s) := hattempt
    rw [handle_of_context h.type_key hctx', hattempt', reply_error rfl, policyFailure_eq_failure]

/-- Nor do any number of calls. -/
theorem handleAll_cancelled (p : Provider) (e : Endpoint) (subscription : String)
    (later : List HostCall) (s : Session) :
    (p.handleAll (e.backend subscription) later (p.cancelIn s)).2 = p.cancelIn s ∧
      ((p.context? s.clock).isSome = true → List.Forall₂ HostCall.AnsweredCancelled later
        (p.handleAll (e.backend subscription) later (p.cancelIn s)).1) := by
  induction later with
  | nil => exact ⟨rfl, fun _ => .nil⟩
  | cons call later ih =>
      simp only [handleAll, bind_apply, pure_apply]
      rw [handle_cancelled_session p e subscription call s]
      exact ⟨ih.1, fun hctx => .cons (handle_cancelled hctx) (ih.2 hctx)⟩

/-- The session in which some calls were answered and then the provider was cancelled. -/
def cancelledAfter (p : Provider) (e : Endpoint) (subscription : String) (before : List HostCall)
    (s : Session) : Session :=
  p.cancelIn (p.handleAll (e.backend subscription) before s).2

/-- Once a provider is cancelled, after any calls, the calls to come send nothing and change
nothing. A call that needs the service is told that what it needs first was cancelled, and a call
that is rejected is told what it would have been told before. The signal reaches the contexts of
this provider, whenever they were handed out, and no others but those whose tokens descend from its
own as well: it lets nothing be sent and no time pass, and their clients refuse all that they are
asked for. -/
theorem cancellation_is_final (p : Provider) (e : Endpoint) (subscription : String)
    (before later : List HostCall) (s : Session) :
    (p.handleAll (e.backend subscription) later (p.cancelledAfter e subscription before s)).2 =
      p.cancelledAfter e subscription before s ∧
    ((p.context? (p.cancelledAfter e subscription before s).clock).isSome = true →
      List.Forall₂ HostCall.AnsweredCancelled later (p.handleAll (e.backend subscription) later
        (p.cancelledAfter e subscription before s)).1) ∧
    (∀ call f, call.Rejected f →
      (p.handle (e.backend subscription) call (p.cancelledAfter e subscription before s)).1 =
        (p.handle (e.backend subscription) call
          (p.handleAll (e.backend subscription) before s).2).1) ∧
    (∀ t : Token, (p.cancelledAfter e subscription before s).clock.hasCancelled t = true ↔
      t.DescendsFrom p.token ∨
        (p.handleAll (e.backend subscription) before s).2.clock.hasCancelled t = true) ∧
    ∀ start ctx, p.context? start = some ctx →
      (∀ r, Session.send ctx r (p.cancelledAfter e subscription before s) =
        (.error .cancelled, p.cancelledAfter e subscription before s)) ∧
      (∀ duration, Session.sleep ctx duration (p.cancelledAfter e subscription before s) =
        (.error .cancelled, p.cancelledAfter e subscription before s)) ∧
      (e.client subscription ctx).Refuses (p.cancelledAfter e subscription before s)
        .cancelled := by
  unfold cancelledAfter
  generalize (p.handleAll (e.backend subscription) before s).2 = stopped
  obtain ⟨hsession, hanswers⟩ := p.handleAll_cancelled e subscription later stopped
  refine ⟨hsession, hanswers, fun call f h => ?_, p.hasCancelled_cancel_iff stopped.clock,
    fun start ctx hctx => ?_⟩
  · -- the signal does not move the deadline of a call
    have hcontext : p.context? ((e.backend subscription).clock (p.cancelIn stopped)) =
      p.context? ((e.backend subscription).clock stopped) := p.context?_cancel stopped.clock
    rw [handle_of_rejected h, handle_of_rejected h, hcontext]
  · have hheard : (p.cancelIn stopped).clock.hasCancelled ctx.token = true :=
      hasCancelled_of_context? hctx stopped.clock
    exact ⟨send_of_hasCancelled hheard, sleep_of_hasCancelled hheard,
      e.client_refuses subscription hheard⟩

/-- A service that would answer anything. -/
def willingService : Session where
  web _ _ := .answer { status := 200 }

theorem cancellation_is_final_deletion :
    HostCall.Needs (.delete ⟨Policy.resourceType, "edge"⟩
        (Policy.resourceId "sub" "web" "edge").text) .delete "edge" "web" ∧
      (handleAll ⟨"sub", .own 0, none⟩
        (Endpoint.backend ⟨"https://service", "token", {}, fun _ _ => "?"⟩ "sub")
        [.delete ⟨Policy.resourceType, "edge"⟩ (Policy.resourceId "sub" "web" "edge").text]
        (cancelledAfter ⟨"sub", .own 0, none⟩ ⟨"https://service", "token", {}, fun _ _ => "?"⟩ "sub"
          [] willingService)).1 =
        [.error (HostCall.failure ⟨Policy.resourceType, "edge"⟩
          (.remote .delete "edge" "web" .cancelled))] := by
  have hparse : Policy.Address.parse (Policy.resourceId "sub" "web" "edge").text =
      .ok ⟨"web", "edge"⟩ := by decide +kernel
  have hneeds := @HostCall.Needs.delete ⟨Policy.resourceType, "edge"⟩ _ ⟨"web", "edge"⟩ rfl hparse
  refine ⟨hneeds, ?_⟩
  have hanswers := (cancellation_is_final ⟨"sub", .own 0, none⟩
    ⟨"https://service", "token", {}, fun _ _ => "?"⟩ "sub" []
    [.delete ⟨Policy.resourceType, "edge"⟩ (Policy.resourceId "sub" "web" "edge").text]
    willingService).2.1 rfl
  rw [List.forall₂_cons_left_iff] at hanswers
  obtain ⟨answer, rest, hanswer, hrest, hall⟩ := hanswers
  rw [hall, List.forall₂_nil_left_iff.mp hrest, hanswer.cancelled hneeds]
  rfl

end Provider

end EdgeFirewall
