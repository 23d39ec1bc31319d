import EdgeFirewall.Proofs.Service.Exchanges
import EdgeFirewall.Service.HttpClient
import Mathlib.Data.List.Forall2

/-! # Work with another token

Two pieces of work are alike if from related states they end with the same result and in related
states (`Alike`); that is kept by sequencing (`Alike.bind`). Sessions are related in which the same
was sent but for the access token (`Session.Swapped`). If nothing looks at the tokens that may stand
in a header (`Web.IgnoresTokens`), the calls of a client with one token are alike to those with
another (`Endpoint.client_alike`). -/

namespace EdgeFirewall

open Http

/-! ### Work in related states -/

/-- From related states, both pieces of work end with the same result and in related states. -/
def Alike {σ σ' α : Type} (R : σ → σ' → Prop) (work : StateM σ α) (work' : StateM σ' α) : Prop :=
  ∀ s s', R s s' → (work' s').1 = (work s).1 ∧ R (work s).2 (work' s').2

namespace Alike

variable {σ σ' α β : Type} {R : σ → σ' → Prop}

theorem pure (x : α) : Alike R (Pure.pure x) (Pure.pure x) := fun _ _ h => ⟨rfl, h⟩

theorem bind {work : StateM σ α} {work' : StateM σ' α} {f : α → StateM σ β} {f' : α → StateM σ' β}
    (h : Alike R work work') (hf : ∀ x, Alike R (f x) (f' x)) :
    Alike R (work >>= f) (work' >>= f') := by
  intro s s' hs
  obtain ⟨hresult, hs'⟩ := h s s' hs
  rw [bind_apply, bind_apply, hresult]
  exact hf _ _ _ hs'

end Alike

/-- The calls of two clients are alike. -/
structure Client.Alike {σ σ' η : Type} (R : σ → σ' → Prop) (c : Client σ η) (c' : Client σ' η) :
    Prop where
  get : ∀ group name, EdgeFirewall.Alike R (c.get group name) (c'.get group name)
  put : ∀ group name d, EdgeFirewall.Alike R (c.put group name d) (c'.put group name d)
  delete : ∀ group name, EdgeFirewall.Alike R (c.delete group name) (c'.delete group name)
  wait : ∀ operation, EdgeFirewall.Alike R (c.wait operation) (c'.wait operation)

/-! ### Sessions with another token -/

namespace Http

/-- A text may stand in a header: there are no control characters in it but tabs. -/
def IsHeaderText (t : String) : Prop :=
  ∀ c ∈ t.toList, c = '\t' ∨ ' ' ≤ c ∧ c ≠ '\x7f'

/-- Two requests are the same, or they differ in the access token that they are authorized with. -/
inductive Request.SameBut (token token' : String) : Request → Request → Prop
  | same (r : Request) : SameBut token token' r r
  | authorized (method : Method) (url : String) (before after : List (String × String))
      (body : Option Json) : SameBut token token'
        { method, url, headers := before ++ ("authorization", "Bearer " ++ token) :: after, body }
        { method, url, headers := before ++ ("authorization", "Bearer " ++ token') :: after, body }

/-- Whatever comes of a request, it does not depend on the tokens by which it and the requests
before it are authorized, as long as these may stand in a header. -/
def Web.IgnoresTokens (w : Web) : Prop :=
  ∀ token token', IsHeaderText token → IsHeaderText token' → ∀ past past' r r',
    List.Forall₂ (Request.SameBut token token') past past' →
    Request.SameBut token token' r r' → w past' r' = w past r

/-- What was sent is the same, at the same time, but for the access token. -/
structure Sent.SameBut (token token' : String) (x x' : Sent) : Prop where
  request : x.request.SameBut token token' x'.request
  time : x'.time = x.time

/-- Two sessions are the same but for the access token that requests were sent with, and nothing
comes of a request that depends on it. -/
structure Session.Swapped (token token' : String) (s s' : Session) : Prop where
  clock : s'.clock = s.clock
  web : s'.web = s.web
  ignores : s.web.IgnoresTokens
  sent : List.Forall₂ (Sent.SameBut token token') s.sent s'.sent

variable {token token' : String} {s s' : Session}

theorem Session.Swapped.refl (h : s.web.IgnoresTokens) : s.Swapped token token' s :=
  ⟨rfl, rfl, h, List.forall₂_same.mpr fun x _ => ⟨.same x.request, rfl⟩⟩

theorem Session.Swapped.past (h : s.Swapped token token' s') :
    List.Forall₂ (Request.SameBut token token') s.past s'.past := by
  unfold Session.past
  rw [List.forall₂_map_left_iff, List.forall₂_map_right_iff]
  exact h.sent.imp fun _ _ hx => hx.request

theorem Request.sameBut_authorized (token token' : String) (method : Method) (url : String)
    (body : Option Json) : (Request.authorized token method url body).SameBut token token'
      (.authorized token' method url body) :=
  .authorized method url [("user-agent", userAgent)] _ body

variable (h : IsHeaderText token) (h' : IsHeaderText token')

include h h'

/-- The same comes of a request with either token. -/
theorem exchange_alike (method : Method) (url : String) (body : Option Json) :
    Alike (Session.Swapped token token')
      (Session.exchange (.authorized token method url body))
      (Session.exchange (.authorized token' method url body)) := by
  intro s s' hs
  have hsame := Request.sameBut_authorized token token' method url body
  have hreply : s'.web s'.past (.authorized token' method url body) =
      s.web s.past (.authorized token method url body) := by
    rw [hs.web]
    exact hs.ignores token token' h h' _ _ _ _ hs.past hsame
  rw [exchange_eq, exchange_eq, hreply]
  refine ⟨rfl, hs.clock, hs.web, hs.ignores, ?_⟩
  exact List.rel_append hs.sent (.cons ⟨hsame, congrArg Clock.now hs.clock⟩ .nil)

theorem send_alike (ctx : Context) (method : Method) (url : String) (body : Option Json) :
    Alike (Session.Swapped token token')
      (Session.send ctx (.authorized token method url body))
      (Session.send ctx (.authorized token' method url body)) := by
  intro s s' hs
  unfold Session.send Context.run
  rw [hs.clock]
  split
  · exact ⟨rfl, hs⟩
  · exact exchange_alike h h' method url body s s' hs

omit h h' in
theorem sleep_alike (ctx : Context) (duration : Nat) :
    Alike (Session.Swapped token token') (Session.sleep ctx duration)
      (Session.sleep ctx duration) := by
  intro s s' hs
  unfold Session.sleep
  rw [hs.clock]
  exact ⟨rfl, rfl, hs.web, hs.ignores, hs.sent⟩

end Http

/-! ### Endpoints with another token -/

namespace Endpoint

/-- The endpoint for someone with another token. -/
def withToken (e : Endpoint) (token : String) : Endpoint :=
  { e with token }

variable {e : Endpoint} {token : String} (h : IsHeaderText e.token)
  (h' : IsHeaderText token)

include h h'

theorem sendExpecting_alike (ctx : Context) (method : Method) (url : String) (body : Option Json)
    (expected : List Nat) :
    Alike (Session.Swapped e.token token) (e.sendExpecting ctx method url body expected)
      ((e.withToken token).sendExpecting ctx method url body expected) := by
  unfold sendExpecting
  refine .bind (send_alike h h' ctx method url body) ?_
  rintro (err | r)
  · exact .pure _
  · dsimp only
    split <;> exact .pure _

theorem ask_alike (ctx : Context) (target : PollTarget) :
    Alike (Session.Swapped e.token token) (e.ask ctx target)
      ((e.withToken token).ask ctx target) := by
  unfold ask
  refine .bind (send_alike h h' ctx .get target.url none) ?_
  rintro (err | r) <;> exact .pure _

/-- However often it is asked after an operation, both ask at the same place and time. -/
theorem waitFor_alike (ctx : Context) (attempts : Nat) (p : Poller) :
    Alike (Session.Swapped e.token token) (e.waitFor ctx attempts p)
      ((e.withToken token).waitFor ctx attempts p) := by
  induction attempts generalizing p with
  | zero => exact .pure _
  | succ attempts ih =>
      unfold waitFor
      refine .bind (sleep_alike ctx p.nextDelay) ?_
      rintro (err | _)
      · exact .pure _
      · refine .bind (ask_alike h h' ctx p.target) ?_
        rintro (err | _ | delay)
        · exact .pure _
        · exact .pure _
        · exact ih _

theorem client_alike (subscription : String) (ctx : Context) :
    (e.client subscription ctx).Alike (Session.Swapped e.token token)
      ((e.withToken token).client subscription ctx) where
  get group name := by
    refine .bind (sendExpecting_alike h h' ctx .get (e.policyUrl subscription group name) none
      [200]) ?_
    rintro (err | r)
    · exact .pure _
    · dsimp only
      split <;> exact .pure _
  put group name d := by
    refine .bind (sendExpecting_alike h h' ctx .put (e.policyUrl subscription group name)
      (some d.toJson) [200, 201, 202]) ?_
    rintro (err | r) <;> exact .pure _
  delete group name := by
    refine .bind (sendExpecting_alike h h' ctx .delete (e.policyUrl subscription group name) none
      [200, 202, 204]) ?_
    rintro (err | r) <;> exact .pure _
  wait operation := by
    cases operation with
    | none => exact .pure _
    | some p => exact .bind (waitFor_alike h h' ctx e.poll.maxAttempts p) fun _ => .pure _

end Endpoint

end EdgeFirewall
