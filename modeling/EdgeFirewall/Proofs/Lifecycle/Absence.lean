import EdgeFirewall.Proofs.Lifecycle.Handling
import EdgeFirewall.Proofs.Service.HttpClient
import Mathlib.Control.Monad.Basic

/-! # Absence over HTTP

That a policy does not exist is concluded from nothing but an answer with the status 404. Reading
over HTTP settles on the policy in an answer or on such a 404 (`Lifecycle.read_settles`), deleting
on an operation that ends or on a 404 on the way (`Lifecycle.delete_settles`). What a host is told
follows, in both directions, whatever comes of the requests (`Provider.absence_from_answers`). -/

namespace EdgeFirewall

open Http

/-! ### What earns an outcome -/

/-- A policy is deleted over HTTP: it is not there to begin with, or the operation is done, or there
is nothing left when the operation is asked after. -/
def Endpoint.Deletes (e : Endpoint) (subscription : String) (address : Policy.Address)
    (talk : List Exchange) : Prop :=
  ∃ a polls, talk =
      ⟨e.policyRequest subscription .delete address.group address.name none, a⟩ :: polls ∧
    (a.status = 404 ∧ polls = [] ∨ a.status ∈ [200, 202, 204] ∧
      e.Awaits a (fun target last => target.IsDone last ∨ last.status = 404) polls)

namespace Lifecycle

variable {e : Endpoint} {ctx : Context} {subscription identifier : String}

/-- Whether a step has come to an end, or has found that there is no policy. -/
def FoundOut {α : Type} (x : Except PolicyError α) : Prop :=
  ∀ e, x = .error e → e.isNotFound = true

@[simp] theorem foundOut_ok {α : Type} (a : α) : FoundOut (.ok a) := by simp [FoundOut]

@[simp] theorem foundOut_error {α : Type} {err : PolicyError} :
    FoundOut (.error err : Except PolicyError α) ↔ err.isNotFound = true := by simp [FoundOut]

/-! ### Reading -/

/-- What is read off the answer to a get. -/
def readResult (identifier : String) (address : Policy.Address) :
    Except ServiceError Document → Except PolicyError PolicyState
  | .error e =>
    if e.isNotFound then .error (.notFound address.name address.group)
    else .error (.remote .retrieve address.name address.group e)
  | .ok d => stateOf d (d.id.getD identifier) address.name address.group

/-- What an answer to the get of a policy says about it. -/
def Reads (identifier : String) (address : Policy.Address) (a : Response) :
    Except PolicyError PolicyState → Prop
  | .ok state => a.status = 200 ∧ ∃ d mode, Document.ofText? a.body = some d ∧
      d.mode? = some mode ∧
      state = ⟨d.id.getD identifier, d.attributesIn mode address.name address.group⟩
  | .error e => a.status = 404 ∧ e = .notFound address.name address.group

variable {address : Policy.Address} {a : Response} {d : Document} {mode : PolicyMode}

theorem stateOf_of_mode (h : d.mode? = some mode) (id name group : String) :
    stateOf d id name group = .ok ⟨id, d.attributesIn mode name group⟩ := by
  unfold stateOf Document.toAttributes
  rw [h]

theorem not_foundOut_stateOf (h : d.mode? = none) (id name group : String) :
    ¬ FoundOut (stateOf d id name group) := by
  unfold stateOf Document.toAttributes
  rw [h]
  simp [PolicyError.isNotFound, ServiceError.isNotFound]

theorem readResult_ok :
    readResult identifier address (.ok d) =
      stateOf d (d.id.getD identifier) address.name address.group :=
  rfl

theorem readResult_of_notFound {err : ServiceError} (h : err.isNotFound = true) :
    readResult identifier address (.error err) = .error (.notFound address.name address.group) :=
  if_pos h

theorem readResult_of_other {err : ServiceError} (h : ¬ err.isNotFound = true) :
    readResult identifier address (.error err) =
      .error (.remote .retrieve address.name address.group err) :=
  if_neg h

theorem conclusive_of_readResult {x : Except ServiceError Document}
    (h : FoundOut (readResult identifier address x)) : Conclusive x := by
  cases x with
  | ok d => exact conclusive_ok d
  | error err =>
      rw [conclusive_error]
      by_contra hother
      rw [readResult_of_other hother, foundOut_error] at h
      exact hother h

/-- What is found out from what a get settles on is what the answer says. -/
theorem reads_iff {x : Except PolicyError PolicyState} :
    (FoundOut x ∧ ∃ found, x = readResult identifier address found ∧
      (a.status = 200 ∧ (∃ d, Document.ofText? a.body = some d ∧ found = .ok d) ∨
        a.status = 404 ∧ found = .error (.ofStatus 404 a.body))) ↔
      Reads identifier address a x := by
  have h404 := (ServiceError.isNotFound_ofStatus 404 a.body).mpr rfl
  constructor
  · rintro ⟨hx, found, rfl, ⟨hstatus, d, hdocument, rfl⟩ | ⟨hstatus, rfl⟩⟩
    · rw [readResult_ok] at hx ⊢
      cases hmode : d.mode? with
      | none => exact absurd hx (not_foundOut_stateOf hmode _ _ _)
      | some mode =>
          rw [stateOf_of_mode hmode]
          exact ⟨hstatus, d, mode, hdocument, hmode, rfl⟩
    · rw [readResult_of_notFound h404]
      exact ⟨hstatus, rfl⟩
  · intro hreads
    cases x with
    | ok state =>
        obtain ⟨hstatus, d, mode, hdocument, hmode, rfl⟩ := hreads
        exact ⟨foundOut_ok _, .ok d, (stateOf_of_mode hmode _ _ _).symm,
          .inl ⟨hstatus, d, hdocument, rfl⟩⟩
    | error err =>
        obtain ⟨hstatus, rfl⟩ := hreads
        exact ⟨foundOut_error.mpr rfl, .error _, (readResult_of_notFound h404).symm,
          .inr ⟨hstatus, rfl⟩⟩

/-- Reading settles on what the answer says. -/
theorem read_settles (identifier : String) :
    Settles ctx (read (e.client subscription ctx) identifier) FoundOut fun x talk =>
      ∃ address a, Policy.Address.parse identifier = .ok address ∧
        talk = [⟨e.policyRequest subscription .get address.group address.name none, a⟩] ∧
        Reads identifier address a x := by
  unfold read
  cases hparse : Policy.Address.parse identifier with
  | error err =>
      have hnot : ¬ FoundOut (.error (.invalidId err) : Except PolicyError PolicyState) := by
        simp [PolicyError.isNotFound]
      exact (Settles.pure_of_not hnot).of_iff fun x talk => by simp
  | ok address =>
      dsimp only
      refine Settles.of_iff (Settles.map (readResult identifier address)
        (e.getPolicy_settles subscription ctx address.group address.name) ?result
        fun _ => conclusive_of_readResult) fun x talk => ⟨?_, ?_⟩
      case result =>
        intro found
        cases found with
        | ok d => rfl
        | error err =>
            unfold readResult
            dsimp only
            split <;> rfl
      · rintro ⟨hx, found, hresult, a, rfl, hfound⟩
        exact ⟨address, a, rfl, rfl, reads_iff.mp ⟨hx, found, hresult, hfound⟩⟩
      · rintro ⟨address', a, hparse', rfl, hreads⟩
        obtain rfl := Except.ok.inj hparse'
        obtain ⟨hx, found, hresult, hfound⟩ := reads_iff.mpr hreads
        exact ⟨hx, found, hresult, a, rfl, hfound⟩

/-- The get of the policy with an identifier is answered. -/
def Answered (e : Endpoint) (subscription : String) (s : Session) (identifier : String)
    (address : Policy.Address) (a : Response) : Prop :=
  Policy.Address.parse identifier = .ok address ∧
    s.web s.past (e.policyRequest subscription .get address.group address.name none) = .answer a

theorem read_eq_iff {s : Session}
    (hlive : ctx.IsLive (read (e.client subscription ctx) identifier s).2.clock)
    {x : Except PolicyError PolicyState} (hx : FoundOut x) :
    (read (e.client subscription ctx) identifier s).1 = x ↔
      ∃ address a, Answered e subscription s identifier address a ∧
        Reads identifier address a x := by
  rw [(read_settles identifier).eq_iff hlive hx]
  constructor
  · rintro ⟨_, ⟨address, a, hparse, rfl, hreads⟩, hanswers⟩
    rw [Session.answers_singleton, List.append_nil] at hanswers
    exact ⟨address, a, ⟨hparse, hanswers⟩, hreads⟩
  · rintro ⟨address, a, ⟨hparse, hanswer⟩, hreads⟩
    refine ⟨_, ⟨address, a, hparse, rfl, hreads⟩, ?_⟩
    rw [Session.answers_singleton, List.append_nil]
    exact hanswer

/-! ### Deleting -/

/-- What the wait for the end of a deletion comes to. -/
def deleteResult (address : Policy.Address) : Except ServiceError Unit → Except PolicyError Unit
  | .error e =>
    if e.isNotFound then .ok () else .error (.remote .waitForDelete address.name address.group e)
  | .ok _ => .ok ()

theorem succeeds_deleteResult {x : Except ServiceError Unit} :
    Succeeds (deleteResult address x) ↔ Conclusive x := by
  cases x with
  | ok _ => simp [Succeeds, deleteResult]
  | error err =>
      unfold deleteResult
      cases h : err.isNotFound <;> simp [Succeeds, h]

theorem deleteResult_eq_ok {x : Except ServiceError Unit} (h : Conclusive x) :
    deleteResult address x = .ok () := by
  obtain ⟨_, h⟩ := succeeds_deleteResult.mpr h
  exact h

/-- The polls that end a deletion: none if there was nothing to delete. -/
def EndsDeletion (e : Endpoint) (polls : List Exchange) :
    Except ServiceError (Option Poller) → Prop
  | .error _ => polls = []
  | .ok operation => e.PollsOf operation
      (fun target last => target.IsDone last ∨ last.status = 404) polls

/-- The wait for the end of a deletion settles on polls that end with it done or with nothing
found. -/
theorem waitForDelete_settles (address : Policy.Address)
    {f : Except ServiceError Unit → StateM Session (Except PolicyError Unit)}
    (hf : ∀ waited, f waited = pure (deleteResult address waited)) (operation : Option Poller) :
    Settles ctx (e.waitForOperation ctx operation >>= f) Succeeds fun x polls =>
      x = .ok () ∧ EndsDeletion e polls (.ok operation) := by
  have hwait := e.waitForOperation_settles ctx operation
  refine Settles.of_iff (Settles.map (deleteResult address) hwait hf
    fun _ => succeeds_deleteResult.mp) fun x polls => ?_
  rw [EndsDeletion, ← Endpoint.exists_pollsOf_iff]
  constructor
  · rintro ⟨hx, waited, rfl, hpolls⟩
    exact ⟨deleteResult_eq_ok (succeeds_deleteResult.mp hx), waited, hpolls⟩
  · rintro ⟨rfl, waited, hpolls⟩
    have hwaited : deleteResult address waited = .ok () :=
      deleteResult_eq_ok (hwait.settled_of_earns hpolls)
    exact ⟨⟨(), rfl⟩, waited, hwaited.symm, hpolls⟩

/-- Deleting settles on the end of the operation, or on a policy that is not there. -/
theorem delete_settles (identifier : String) :
    Settles ctx (delete (e.client subscription ctx) identifier) Succeeds fun x talk =>
      x = .ok () ∧ ∃ address, Policy.Address.parse identifier = .ok address ∧
        e.Deletes subscription address talk := by
  unfold delete
  cases hparse : Policy.Address.parse identifier with
  | error err =>
      exact (Settles.pure_of_not (by simp [Succeeds])).of_iff fun x talk => by simp
  | ok address =>
      dsimp only
      refine Settles.of_iff (Settles.bind_conclusive
        (fun started x polls => x = .ok () ∧ EndsDeletion e polls started)
        (e.deletePolicy_settles subscription ctx address.group address.name) ?other ?found)
        fun x talk => ⟨?_, ?_⟩
      case other =>
        intro err herr
        dsimp only
        rw [herr]
        exact ⟨_, rfl⟩
      case found =>
        intro started hstarted
        cases started with
        | error err =>
            dsimp only
            rw [if_pos (conclusive_error.mp hstarted)]
            refine Settles.of_iff (Settles.pure _) fun x polls => ?_
            constructor
            · exact And.right
            · rintro ⟨rfl, rfl⟩
              exact ⟨⟨_, rfl⟩, rfl, rfl⟩
        | ok operation =>
            refine waitForDelete_settles address (fun waited => ?_) operation
            cases waited with
            | ok _ => rfl
            | error err =>
                unfold deleteResult
                dsimp only
                split <;> rfl
      · rintro ⟨_, _, polls, rfl, ⟨a, rfl, ⟨hstatus, rfl⟩ | ⟨hstatus, rfl⟩⟩, rfl, hpolls⟩
        · exact ⟨rfl, address, rfl, a, polls, rfl, .inr ⟨hstatus, (e.awaits_iff _ _ _).mpr hpolls⟩⟩
        · exact ⟨rfl, address, rfl, a, polls, rfl, .inl ⟨hstatus, hpolls⟩⟩
      · rintro ⟨rfl, address', hparse', a, polls, rfl, hcase⟩
        obtain rfl := Except.ok.inj hparse'
        rcases hcase with ⟨hstatus, rfl⟩ | ⟨hstatus, hawaits⟩
        · exact ⟨_, [_], [], rfl, ⟨a, rfl, .inr ⟨hstatus, rfl⟩⟩, rfl, rfl⟩
        · exact ⟨_, [_], polls, rfl, ⟨a, rfl, .inl ⟨hstatus, rfl⟩⟩, rfl,
            (e.awaits_iff _ _ _).mp hawaits⟩

end Lifecycle

/-! ### What a host is told -/

namespace Provider

/-- A call gets a context, and that is still live when the call has ended. -/
def StaysLive (p : Provider) (start stop : Clock) : Prop :=
  ∃ ctx, p.context? start = some ctx ∧ ctx.IsLive stop

variable {p : Provider} {e : Endpoint} {subscription identifier : String} {key : ResourceKey}
  {s : Session} {ctx : Context} {state : ResourceState}

theorem ok_absent_iff :
    (.ok (.absent key) : Except CallFailure ResourceState) = .ok state ∧ state.isPresent = false ↔
      state = .absent key := by
  constructor
  · rintro ⟨heq, -⟩
    exact (Except.ok.inj heq).symm
  · rintro rfl
    exact ⟨rfl, rfl⟩

theorem not_ok_absent_present :
    ¬ ((.ok (.absent key) : Except CallFailure ResourceState) = .ok state ∧
      state.isPresent = true) := by
  rintro ⟨heq, hpresent⟩
  obtain rfl := Except.ok.inj heq
  exact absurd hpresent (by simp [ResourceState.absent])

theorem readAnswer_absent_iff {x : Except PolicyError PolicyState} :
    (readAnswer key x = .ok state ∧ state.isPresent = false) ↔
      (∃ err, x = .error err ∧ err.isNotFound = true) ∧ state = .absent key := by
  cases x with
  | ok found =>
      simp only [readAnswer, Except.ok.injEq, reduceCtorEq, false_and, exists_false, iff_false]
      rintro ⟨rfl, hpresent⟩
      exact absurd hpresent (by simp [stateOf, ResourceState.present, ResourceState.withIdentifier])
  | error err =>
      unfold readAnswer
      cases herr : err.isNotFound with
      | false => simp [herr]
      | true =>
          simp only [if_true, Except.error.injEq, exists_eq_left', herr, true_and]
          exact ok_absent_iff

theorem readAnswer_present_iff {x : Except PolicyError PolicyState} :
    (readAnswer key x = .ok state ∧ state.isPresent = true) ↔
      ∃ found, x = .ok found ∧ state = stateOf key found := by
  cases x with
  | ok found =>
      simp only [readAnswer, Except.ok.injEq, exists_eq_left']
      constructor
      · rintro ⟨rfl, -⟩
        rfl
      · rintro rfl
        exact ⟨rfl, rfl⟩
  | error err =>
      simp only [readAnswer, reduceCtorEq, false_and, exists_false, iff_false]
      cases err.isNotFound with
      | false => simp
      | true => exact not_ok_absent_present

theorem read_some_absent_iff (hkey : key.type = Policy.resourceType)
    (hlive : p.StaysLive s.clock
      (p.read (e.backend subscription) key (some identifier) s).2.clock) :
    (p.read (e.backend subscription) key (some identifier) s).1 = .ok state ∧
      state.isPresent = false ↔
    state = .absent key ∧
      ∃ address a, Lifecycle.Answered e subscription s identifier address a ∧ a.status = 404 := by
  obtain ⟨ctx, hctx, hlive⟩ := hlive
  have hread := read_of_context (b := e.backend subscription) hkey hctx identifier
  rw [hread] at hlive ⊢
  rw [readAnswer_absent_iff, and_comm]
  refine and_congr_right fun _ => ⟨?_, ?_⟩
  · rintro ⟨err, heq, herr⟩
    obtain ⟨address, a, hanswered, h404, -⟩ :=
      (Lifecycle.read_eq_iff hlive (Lifecycle.foundOut_error.mpr herr)).mp heq
    exact ⟨address, a, hanswered, h404⟩
  · rintro ⟨address, a, hanswered, h404⟩
    exact ⟨.notFound address.name address.group, (Lifecycle.read_eq_iff hlive
      (Lifecycle.foundOut_error.mpr rfl)).mpr ⟨address, a, hanswered, h404, rfl⟩, rfl⟩

theorem read_some_present_iff (hkey : key.type = Policy.resourceType)
    (hlive : p.StaysLive s.clock
      (p.read (e.backend subscription) key (some identifier) s).2.clock) :
    (p.read (e.backend subscription) key (some identifier) s).1 = .ok state ∧
      state.isPresent = true ↔
    ∃ address a d mode, Lifecycle.Answered e subscription s identifier address a ∧ a.status = 200 ∧
      Document.ofText? a.body = some d ∧ d.mode? = some mode ∧ state = stateOf key
        ⟨d.id.getD identifier, d.attributesIn mode address.name address.group⟩ := by
  obtain ⟨ctx, hctx, hlive⟩ := hlive
  have hread := read_of_context (b := e.backend subscription) hkey hctx identifier
  rw [hread] at hlive ⊢
  rw [readAnswer_present_iff]
  constructor
  · rintro ⟨found, heq, rfl⟩
    obtain ⟨address, a, hanswered, hstatus, d, mode, hdocument, hmode, rfl⟩ :=
      (Lifecycle.read_eq_iff hlive (Lifecycle.foundOut_ok found)).mp heq
    exact ⟨address, a, d, mode, hanswered, hstatus, hdocument, hmode, rfl⟩
  · rintro ⟨address, a, d, mode, hanswered, hstatus, hdocument, hmode, rfl⟩
    exact ⟨_, (Lifecycle.read_eq_iff hlive (Lifecycle.foundOut_ok _)).mpr
      ⟨address, a, hanswered, hstatus, d, mode, hdocument, hmode, rfl⟩, rfl⟩

theorem delete_eq_ok_iff (hkey : key.type = Policy.resourceType)
    (hlive : p.StaysLive s.clock (p.delete (e.backend subscription) key identifier s).2.clock) :
    (p.delete (e.backend subscription) key identifier s).1 = .ok () ↔
      ∃ address talk, Policy.Address.parse identifier = .ok address ∧
        e.Deletes subscription address talk ∧ s.Answers [] talk := by
  obtain ⟨ctx, hctx, hlive⟩ := hlive
  have hdelete := delete_of_context (b := e.backend subscription) hkey hctx identifier
  rw [hdelete] at hlive ⊢
  have hiff := (Lifecycle.delete_settles identifier).eq_iff hlive ⟨(), rfl⟩
  have hmap : ∀ x : Except PolicyError Unit,
      x.mapError (policyFailure key) = .ok () ↔ x = .ok () := by
    intro x
    cases x <;> simp [Except.mapError]
  rw [hmap]
  refine hiff.trans ⟨?_, ?_⟩
  · rintro ⟨talk, ⟨-, address, hparse, hdeletes⟩, hanswers⟩
    exact ⟨address, talk, hparse, hdeletes, hanswers⟩
  · rintro ⟨address, talk, hparse, hdeletes, hanswers⟩
    exact ⟨talk, ⟨rfl, address, hparse, hdeletes⟩, hanswers⟩

/-- Over HTTP, a resource is said not to exist exactly if it has no identifier or if the service
answers the get of its policy with the status 404, and it is said to exist exactly if the service
answers with the status 200 and a policy document that has a mode. A resource is said to be deleted
exactly if the answers say that its policy was deleted or is not there. All else is an error. -/
theorem absence_from_answers (p : Provider) (e : Endpoint) (subscription : String)
    (key : ResourceKey) (s : Session) :
    (∀ identifier, p.StaysLive s.clock (p.read (e.backend subscription) key identifier s).2.clock →
      ∀ state,
      ((p.read (e.backend subscription) key identifier s).1 = .ok state ∧
          state.isPresent = false ↔
        key.type = Policy.resourceType ∧ state = .absent key ∧ ∀ text, identifier = some text →
          ∃ address a, Lifecycle.Answered e subscription s text address a ∧ a.status = 404) ∧
      ((p.read (e.backend subscription) key identifier s).1 = .ok state ∧
          state.isPresent = true ↔
        key.type = Policy.resourceType ∧ ∃ text address a d mode, identifier = some text ∧
          Lifecycle.Answered e subscription s text address a ∧ a.status = 200 ∧
          Document.ofText? a.body = some d ∧ d.mode? = some mode ∧ state = stateOf key
            ⟨d.id.getD text, d.attributesIn mode address.name address.group⟩)) ∧
    (∀ identifier,
      p.StaysLive s.clock (p.delete (e.backend subscription) key identifier s).2.clock →
      ((p.delete (e.backend subscription) key identifier s).1 = .ok () ↔
        key.type = Policy.resourceType ∧ ∃ address talk,
          Policy.Address.parse identifier = .ok address ∧ e.Deletes subscription address talk ∧
          s.Answers [] talk)) := by
  by_cases hkey : key.type = Policy.resourceType
  · refine ⟨fun identifier hlive state => ?_, fun identifier hlive => ?_⟩
    · cases identifier with
      | none =>
          rw [read_none hkey, ok_absent_iff, iff_false_intro not_ok_absent_present]
          simp [hkey]
      | some text =>
          rw [read_some_absent_iff hkey hlive, read_some_present_iff hkey hlive]
          simp [hkey]
    · rw [delete_eq_ok_iff hkey hlive]
      simp [hkey]
  · refine ⟨fun identifier _ state => ?_, fun identifier _ => ?_⟩
    · rw [read_of_unknown hkey]
      simp [hkey]
    · rw [delete_of_failed_run (failsToRun_of_unknown hkey)]
      simp [hkey]

/-- A service that takes a deletion, and has forgotten the operation by the second poll. -/
def forgetfulService : Session where
  web := .ofList [
    .answer {
      status := 202
      headers := [("Azure-AsyncOperation", "https://service/operation"), ("Retry-After", "2")] },
    .answer { status := 200, body := "\x7b\"status\":\"InProgress\"\x7d" },
    .answer { status := 404 }]

/-- A service in which a policy is in place. -/
def knowingService : Session where
  web := .ofList [.answer {
    status := 200
    body := "\x7b\"properties\":\x7b\"policySettings\":\x7b\"mode\":\"Prevention\"\x7d\x7d\x7d" }]

/-- The deletion of a policy with the first of these services. -/
def forgottenDeletion : Except CallFailure Unit × Session :=
  delete ⟨"sub", .own 0, none⟩
    (Endpoint.backend ⟨"https://service", "token", {}, fun _ _ => "?"⟩ "sub")
    ⟨Policy.resourceType, "edge"⟩ (Policy.resourceId "sub" "web" "edge").text forgetfulService

/-- The read of a policy with a service. -/
def readWith (s : Session) : Except CallFailure ResourceState × Session :=
  read ⟨"sub", .own 0, none⟩
    (Endpoint.backend ⟨"https://service", "token", {}, fun _ _ => "?"⟩ "sub")
    ⟨Policy.resourceType, "edge"⟩ (some (Policy.resourceId "sub" "web" "edge").text) s

theorem absence_from_answers_forgotten :
    (StaysLive ⟨"sub", .own 0, none⟩ forgetfulService.clock forgottenDeletion.2.clock ∧
      forgottenDeletion.1 = .ok () ∧
      forgottenDeletion.2.sent.map (fun x => (x.request.method, x.time)) =
        [(.delete, 0), (.get, 2000), (.get, 12000)] ∧
      ∃ address talk,
        Policy.Address.parse (Policy.resourceId "sub" "web" "edge").text = .ok address ∧
        Endpoint.Deletes ⟨"https://service", "token", {}, fun _ _ => "?"⟩ "sub" address talk ∧
        forgetfulService.Answers [] talk) ∧
    ∃ state, (readWith knowingService).1 = .ok state ∧ state.isPresent = true ∧
      StaysLive ⟨"sub", .own 0, none⟩ knowingService.clock (readWith knowingService).2.clock ∧
      ∃ address a d mode, Lifecycle.Answered ⟨"https://service", "token", {}, fun _ _ => "?"⟩ "sub"
          knowingService (Policy.resourceId "sub" "web" "edge").text address a ∧
        a.status = 200 ∧ Document.ofText? a.body = some d ∧ d.mode? = some mode := by
  constructor
  · obtain ⟨hdeleted, hrefusal⟩ : forgottenDeletion.1 = .ok () ∧
        Context.refusal? { token := (Token.own 0).child } forgottenDeletion.2.clock = none := by
      decide +kernel
    refine ⟨⟨_, rfl, hrefusal⟩, hdeleted, by decide +kernel, ?_⟩
    unfold forgottenDeletion at hdeleted hrefusal
    have hiff := (absence_from_answers _ _ _ _ _).2 _ ⟨_, rfl, hrefusal⟩
    exact (hiff.mp hdeleted).2
  · obtain ⟨hpresent, hrefusal⟩ :
        (readWith knowingService).1.map ResourceState.isPresent = .ok true ∧
          Context.refusal? { token := (Token.own 0).child } (readWith knowingService).2.clock =
            none := by
      decide +kernel
    cases hread : (readWith knowingService).1 with
    | error f =>
        rw [hread] at hpresent
        exact absurd hpresent (by simp [Except.map])
    | ok state =>
        rw [hread] at hpresent
        refine ⟨state, rfl, Except.ok.inj hpresent, ⟨_, rfl, hrefusal⟩, ?_⟩
        unfold readWith at hread hrefusal
        have hiff := ((absence_from_answers _ _ _ _ _).1 _ ⟨_, rfl, hrefusal⟩ state).2
        obtain ⟨-, text, address, a, d, mode, htext, hanswered, hstatus, hbody, hmode, -⟩ :=
          hiff.mp ⟨hread, Except.ok.inj hpresent⟩
        obtain rfl := Option.some.inj htext
        exact ⟨address, a, d, mode, hanswered, hstatus, hbody, hmode⟩

end Provider

end EdgeFirewall
