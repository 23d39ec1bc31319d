import EdgeFirewall.Proofs.Service.Polling
import EdgeFirewall.Service.HttpClient

/-! # The client over HTTP, call by call

Which answers earn the results of the four calls: to get, put and delete a policy is one request,
and to wait for the operation that an answer has started is to poll where the answer says
(`Endpoint.Awaits`), or nothing at all. -/

namespace EdgeFirewall

open Http

/-- The identifier of a policy, written out. -/
theorem Policy.text_resourceId (subscription group name : String) :
    (Policy.resourceId subscription group name).text =
      "/subscriptions/" ++ subscription ++ "/resourceGroups/" ++ group ++
        "/providers/Microsoft.Network/FrontDoorWebApplicationFirewallPolicies/" ++ name := by
  have htype : "/providers/Microsoft.Network/FrontDoorWebApplicationFirewallPolicies/" =
      "/providers/" ++ Policy.providerName ++ ("" ++ ("/" ++ Policy.idKey ++ "/")) := by decide
  have hpath : String.join ["/" ++ Policy.idKey ++ "/" ++ name] =
      "" ++ ("/" ++ Policy.idKey ++ "/" ++ name) := rfl
  have htext : (Policy.resourceId subscription group name).text =
      "/subscriptions/" ++ subscription ++ "/resourceGroups/" ++ group ++
        ("/providers/" ++ Policy.providerName) ++
        String.join ["/" ++ Policy.idKey ++ "/" ++ name] := rfl
  rw [htext, hpath, htype]
  simp only [String.append_assoc]

namespace Endpoint

variable {ctx : Context}

/-! ### Single requests -/

/-- The URL of a policy below a base. -/
def urlOf (base subscription group name : String) : String :=
  base ++ "/subscriptions/" ++ subscription ++ "/resourceGroups/" ++ group ++
    "/providers/Microsoft.Network/FrontDoorWebApplicationFirewallPolicies/" ++ name ++
    "?api-version=2019-04-01"

theorem policyUrl_eq (e : Endpoint) (subscription group name : String) :
    e.policyUrl subscription group name = urlOf e.base subscription group name := by
  have hversion : "?api-version=" ++ Document.apiVersion = "?api-version=2019-04-01" := by decide
  unfold policyUrl resourceUrl urlOf
  rw [Policy.text_resourceId, ← hversion]
  simp only [String.append_assoc]

/-- A request for a policy. -/
def policyRequest (e : Endpoint) (subscription : String) (method : Method) (group name : String)
    (body : Option Json) : Request :=
  e.request method (urlOf e.base subscription group name) body

theorem policyRequest_eq (e : Endpoint) (subscription : String) (method : Method)
    (group name : String) (body : Option Json) :
    e.policyRequest subscription method group name body =
      e.request method (e.policyUrl subscription group name) body := by
  rw [policyRequest, policyUrl_eq]

/-- A request settles on an expected answer, or on the news that there is nothing. -/
theorem sendExpecting_settles (e : Endpoint) (ctx : Context) (method : Method) (url : String)
    (body : Option Json) (expected : List Nat) :
    Settles ctx (e.sendExpecting ctx method url body expected) Conclusive fun x talk =>
      ∃ a, talk = [⟨e.request method url body, a⟩] ∧
        (a.status ∈ expected ∧ x = .ok a ∨
          a.status ∉ expected ∧ a.status = 404 ∧ x = .error (.ofStatus 404 a.body)) := by
  rw [request_eq]
  have hok : ∀ a : Response, Settles ctx (if expected.contains a.status then
        pure (.ok a) else pure (.error (.ofStatus a.status a.body))) Conclusive fun x talk =>
      talk = [] ∧ (a.status ∈ expected ∧ x = .ok a ∨
        a.status ∉ expected ∧ a.status = 404 ∧ x = .error (.ofStatus 404 a.body)) := by
    intro a
    by_cases hstatus : a.status ∈ expected
    · rw [if_pos (List.contains_iff_mem.mpr hstatus)]
      refine (Settles.pure _).of_iff fun x talk => ?_
      constructor
      · rintro ⟨-, rfl, rfl⟩
        exact ⟨rfl, .inl ⟨hstatus, rfl⟩⟩
      · rintro ⟨rfl, ⟨-, rfl⟩ | ⟨hnot, -⟩⟩
        · exact ⟨conclusive_ok a, rfl, rfl⟩
        · exact absurd hstatus hnot
    · rw [if_neg fun h => hstatus (List.contains_iff_mem.mp h)]
      refine (Settles.pure _).of_iff fun x talk => ?_
      constructor
      · rintro ⟨hx, rfl, rfl⟩
        have h404 := (ServiceError.isNotFound_ofStatus _ _).mp (conclusive_error.mp hx)
        exact ⟨rfl, .inr ⟨hstatus, h404, by rw [h404]⟩⟩
      · rintro ⟨rfl, ⟨hmem, -⟩ | ⟨-, h404, rfl⟩⟩
        · exact absurd hmem hstatus
        · rw [h404]
          exact ⟨conclusive_error.mpr ((ServiceError.isNotFound_ofStatus _ _).mpr rfl), rfl, rfl⟩
  refine Settles.of_iff (Settles.passing (send_settles ctx _) (fun _ => rfl) hok)
    fun x talk => ⟨?_, ?_⟩
  · rintro (⟨_, before, after, rfl, ⟨a, heq, rfl⟩, rfl, h⟩ | ⟨_, -, _, heq, -⟩)
    · obtain rfl := Except.ok.inj heq
      exact ⟨_, rfl, h⟩
    · exact absurd heq (by simp)
  · rintro ⟨a, rfl, h⟩
    exact .inl ⟨a, _, [], rfl, ⟨a, rfl, rfl⟩, rfl, h⟩

/-- The case of an answer that is read. -/
theorem sendExpecting_read_settles {α : Type} (e : Endpoint) (ctx : Context) (method : Method)
    (url : String) (body : Option Json) (expected : List Nat)
    (read : Response → Except ServiceError α)
    {f : Except ServiceError Response → StateM Session (Except ServiceError α)}
    (herror : ∀ err, f (.error err) = pure (.error err))
    (hok : ∀ a, f (.ok a) = pure (read a))
    (hread : ∀ a err, read a = .error err → err.isNotFound = false) :
    Settles ctx (e.sendExpecting ctx method url body expected >>= f) Conclusive fun x talk =>
      ∃ a, talk = [⟨e.request method url body, a⟩] ∧
        (a.status ∈ expected ∧ (∃ v, read a = .ok v ∧ x = .ok v) ∨
          a.status ∉ expected ∧ a.status = 404 ∧ x = .error (.ofStatus 404 a.body)) := by
  have hread' : ∀ a, Settles ctx (f (.ok a)) Conclusive
      fun x talk => talk = [] ∧ ∃ v, read a = .ok v ∧ x = .ok v := by
    intro a
    rw [hok]
    refine Settles.of_iff (Settles.pure _) fun x talk => ⟨?_, ?_⟩
    · rintro ⟨hx, rfl, rfl⟩
      cases hvalue : read a with
      | ok v => exact ⟨rfl, v, rfl, rfl⟩
      | error err =>
          rw [hvalue, conclusive_error, hread a err hvalue] at hx
          exact absurd hx (by simp)
    · rintro ⟨rfl, v, hvalue, rfl⟩
      exact ⟨conclusive_ok v, hvalue.symm, rfl⟩
  refine Settles.of_iff
    (Settles.passing (sendExpecting_settles e ctx method url body expected) herror hread')
    fun x talk => ⟨?_, ?_⟩
  · rintro (⟨_, before, after, rfl, ⟨a, rfl, hcase⟩, rfl, v, hvalue, rfl⟩ |
      ⟨err, rfl, a, rfl, hcase⟩)
    · rcases hcase with ⟨hstatus, heq⟩ | ⟨-, -, heq⟩
      · obtain rfl := Except.ok.inj heq
        exact ⟨_, rfl, .inl ⟨hstatus, v, hvalue, rfl⟩⟩
      · exact absurd heq (by simp)
    · rcases hcase with ⟨-, heq⟩ | ⟨hstatus, h404, heq⟩
      · exact absurd heq (by simp)
      · obtain rfl := Except.error.inj heq
        exact ⟨a, rfl, .inr ⟨hstatus, h404, rfl⟩⟩
  · rintro ⟨a, rfl, ⟨hstatus, v, hvalue, rfl⟩ | ⟨hstatus, h404, rfl⟩⟩
    · exact .inl ⟨a, [_], [], rfl, ⟨a, rfl, .inl ⟨hstatus, rfl⟩⟩, rfl, v, hvalue, rfl⟩
    · exact .inr ⟨_, rfl, a, rfl, .inr ⟨hstatus, h404, rfl⟩⟩

/-! ### Calls for a policy -/

/-- The policy in an answer. -/
def readPolicy (wording : Wording) (a : Response) : Except ServiceError Document :=
  match Document.ofText? a.body with
  | some d => .ok d
  | none => .error (.unreadable (wording .policy a.body))

theorem readPolicy_eq_ok_iff {wording : Wording} {a : Response} {d : Document} :
    readPolicy wording a = .ok d ↔ Document.ofText? a.body = some d := by
  unfold readPolicy
  cases Document.ofText? a.body <;> simp

theorem readPolicy_eq_error {wording : Wording} {a : Response} {err : ServiceError}
    (h : readPolicy wording a = .error err) : err.isNotFound = false := by
  unfold readPolicy at h
  split at h
  · simp at h
  · obtain rfl := Except.error.inj h
    rfl

/-- A get settles on a policy that can be read, or on the news that there is none. -/
theorem getPolicy_settles (e : Endpoint) (subscription : String) (ctx : Context)
    (group name : String) :
    Settles ctx (e.getPolicy subscription ctx group name) Conclusive fun x talk =>
      ∃ a, talk = [⟨e.policyRequest subscription .get group name none, a⟩] ∧
        (a.status = 200 ∧ (∃ d, Document.ofText? a.body = some d ∧ x = .ok d) ∨
          a.status = 404 ∧ x = .error (.ofStatus 404 a.body)) := by
  unfold getPolicy
  rw [policyRequest_eq]
  have hok : ∀ a, (match Document.ofText? a.body with
      | some d => pure (.ok d)
      | none => pure (.error (.unreadable (e.wording .policy a.body))) : StateM Session _) =
        pure (readPolicy e.wording a) := by
    intro a
    unfold readPolicy
    cases Document.ofText? a.body <;> rfl
  refine Settles.of_iff (sendExpecting_read_settles e ctx .get _ none [200] (readPolicy e.wording)
    (fun _ => rfl) hok fun _ _ => readPolicy_eq_error) fun x talk => ?_
  refine exists_congr fun a => and_congr_right fun _ => or_congr ?_ ?_
  · simp only [List.mem_singleton, readPolicy_eq_ok_iff]
  · constructor
    · exact fun h => h.2
    · rintro ⟨h404, hx⟩
      exact ⟨by simp [h404], h404, hx⟩

/-- A change settles on the operation that it starts, or on the news that there is no policy. -/
theorem sendExpecting_poller_settles (e : Endpoint) (ctx : Context) (method : Method)
    (url : String) (body : Option Json) (expected : List Nat) (h404 : 404 ∉ expected)
    {f : Except ServiceError Response → StateM Session (Except ServiceError (Option Poller))}
    (herror : ∀ err, f (.error err) = pure (.error err))
    (hok : ∀ a, f (.ok a) = pure (.ok (Poller.ofResponse? e.poll a))) :
    Settles ctx (e.sendExpecting ctx method url body expected >>= f) Conclusive fun x talk =>
      ∃ a, talk = [⟨e.request method url body, a⟩] ∧
        (a.status ∈ expected ∧ x = .ok (Poller.ofResponse? e.poll a) ∨
          a.status = 404 ∧ x = .error (.ofStatus 404 a.body)) := by
  refine Settles.of_iff (sendExpecting_read_settles e ctx method url body expected
    (fun a => .ok (Poller.ofResponse? e.poll a)) herror hok fun _ _ h => by simp at h)
    fun x talk => ?_
  refine exists_congr fun a => and_congr_right fun _ => or_congr ?_ ?_
  · simp
  · constructor
    · exact fun h => h.2
    · rintro ⟨hstatus, hx⟩
      exact ⟨by rwa [hstatus], hstatus, hx⟩

theorem putPolicy_settles (e : Endpoint) (subscription : String) (ctx : Context)
    (group name : String) (d : Document) :
    Settles ctx (e.putPolicy subscription ctx group name d) Conclusive fun x talk =>
      ∃ a, talk = [⟨e.policyRequest subscription .put group name (some d.toJson), a⟩] ∧
        (a.status ∈ [200, 201, 202] ∧ x = .ok (Poller.ofResponse? e.poll a) ∨
          a.status = 404 ∧ x = .error (.ofStatus 404 a.body)) := by
  rw [policyRequest_eq]
  exact sendExpecting_poller_settles e ctx .put _ _ [200, 201, 202] (by decide) (fun _ => rfl)
    fun _ => rfl

theorem deletePolicy_settles (e : Endpoint) (subscription : String) (ctx : Context)
    (group name : String) :
    Settles ctx (e.deletePolicy subscription ctx group name) Conclusive fun x talk =>
      ∃ a, talk = [⟨e.policyRequest subscription .delete group name none, a⟩] ∧
        (a.status ∈ [200, 202, 204] ∧ x = .ok (Poller.ofResponse? e.poll a) ∨
          a.status = 404 ∧ x = .error (.ofStatus 404 a.body)) := by
  rw [policyRequest_eq]
  exact sendExpecting_poller_settles e ctx .delete _ _ [200, 202, 204] (by decide) (fun _ => rfl)
    fun _ => rfl

/-! ### Operations -/

/-- The polls after an answer, and how the last of them ends: none if the answer does not say where
to ask. -/
inductive Awaits (e : Endpoint) (a : Response) (ends : PollTarget → Response → Prop) :
    List Exchange → Prop
  | nothing (h : ∀ target : PollTarget, ¬ target.IsNamedBy a) : Awaits e a ends []
  | polls {target : PollTarget} {polls : List Exchange} (h : target.IsNamedBy a)
      (hpolls : e.PollsUntil target e.poll.maxAttempts (ends target) polls) : Awaits e a ends polls

/-- The polls of an operation and how the last of them ends: none if there is nothing to ask. -/
def PollsOf (e : Endpoint) (operation : Option Poller) (ends : PollTarget → Response → Prop)
    (polls : List Exchange) : Prop :=
  match operation with
  | none => polls = []
  | some p => e.PollsUntil p.target e.poll.maxAttempts (ends p.target) polls

theorem awaits_iff (e : Endpoint) (a : Response) (ends : PollTarget → Response → Prop)
    (polls : List Exchange) :
    e.Awaits a ends polls ↔ e.PollsOf (Poller.ofResponse? e.poll a) ends polls := by
  unfold PollsOf
  constructor
  · intro h
    cases h with
    | nothing hnothing => rw [Poller.ofResponse?_eq_none_iff.mpr hnothing]
    | @polls target polls hnamed hpolls =>
        have hdelay : a.SetsDelay e.poll.interval ((Poll.retryAfter? a).getD e.poll.interval) :=
          Response.setsDelay_iff.mpr rfl
        have hpoller : Poller.ofResponse? e.poll a = some ⟨target, _⟩ :=
          Poller.ofResponse?_eq_some_iff.mpr ⟨hnamed, hdelay⟩
        rw [hpoller]
        exact hpolls
  · intro h
    cases hpoller : Poller.ofResponse? e.poll a with
    | none =>
        rw [hpoller] at h
        obtain rfl : polls = [] := h
        exact .nothing (Poller.ofResponse?_eq_none_iff.mp hpoller)
    | some p =>
        rw [hpoller] at h
        exact .polls (Poller.ofResponse?_eq_some_iff.mp hpoller).1 h

/-- That polls end with the operation done or with nothing found, whichever it is. -/
theorem exists_pollsOf_iff {e : Endpoint} {operation : Option Poller} {polls : List Exchange} :
    (∃ x, e.PollsOf operation (fun target last => target.Ends last x) polls ∧
      (polls = [] → x = .ok ())) ↔
    e.PollsOf operation (fun target last => target.IsDone last ∨ last.status = 404) polls := by
  cases operation with
  | none =>
      constructor
      · rintro ⟨x, hpolls, -⟩
        exact hpolls
      · exact fun hpolls => ⟨.ok (), hpolls, fun _ => rfl⟩
  | some p =>
      constructor
      · rintro ⟨x, ⟨pending, last, hpolls, hlength, hrequests, hpending, hends⟩, -⟩
        refine ⟨pending, last, hpolls, hlength, hrequests, hpending, ?_⟩
        cases x with
        | ok _ => exact .inl hends
        | error err => exact .inr hends.1
      · rintro ⟨pending, last, hpolls, hlength, hrequests, hpending, hdone | h404⟩
        · exact ⟨.ok (), ⟨pending, last, hpolls, hlength, hrequests, hpending, hdone⟩, fun _ => rfl⟩
        · have hends : e.PollsUntil p.target e.poll.maxAttempts (fun a => a.status = 404 ∧
              ServiceError.ofStatus 404 last.answer.body = .ofStatus 404 a.body) polls :=
            ⟨pending, last, hpolls, hlength, hrequests, hpending, h404, rfl⟩
          exact ⟨.error _, hends, fun hnil => absurd hnil hends.ne_nil⟩

/-- Waiting for an operation settles on how the polls end. With nothing to ask it is done. -/
theorem waitForOperation_settles (e : Endpoint) (ctx : Context) (operation : Option Poller) :
    Settles ctx (e.waitForOperation ctx operation) Conclusive fun x polls =>
      e.PollsOf operation (fun target last => target.Ends last x) polls ∧
        (polls = [] → x = .ok ()) := by
  cases operation with
  | none =>
      refine Settles.of_iff (Settles.pure _) fun x polls => ?_
      constructor
      · rintro ⟨-, rfl, rfl⟩
        exact ⟨rfl, fun _ => rfl⟩
      · rintro ⟨hpolls, hx⟩
        rw [hx hpolls]
        exact ⟨conclusive_ok (), rfl, hpolls⟩
  | some p =>
      refine Settles.of_iff (waitFor_settles e ctx e.poll.maxAttempts p) fun x polls => ?_
      exact ⟨fun h => ⟨h, fun hpolls => absurd hpolls h.ne_nil⟩, And.left⟩

end Endpoint

end EdgeFirewall
