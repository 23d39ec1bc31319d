import EdgeFirewall.Proofs.Lifecycle.Requests
import EdgeFirewall.Proofs.Service.HttpClient
import Mathlib.Control.Monad.Basic

/-! # Success over HTTP is earned

Creating and updating a policy over HTTP succeeds only if the answers of the service earn it: the
policy was looked for with the right outcome, it was put, the service has told that the change is
done, and what is returned is what the service answered last (`success_is_earned`). What earns a
success is told by the exchanges alone, from `WriteEarns` for a put to `CreateEarns` and
`UpdateEarns`. -/

namespace EdgeFirewall

open Http

namespace Lifecycle

variable {e : Endpoint} {ctx : Context} {subscription : String}

/-! ### What earns a success -/

/-- A policy is put, it is polled until the change is done, and what is got last is the state. -/
def WriteEarns (e : Endpoint) (subscription : String) (p : Policy) (state : PolicyState)
    (talk : List Exchange) : Prop :=
  ∃ put polls last d,
    talk = ⟨e.policyRequest subscription .put p.resourceGroup p.name (some p.toDocument.toJson),
      put⟩ :: (polls ++ [⟨e.policyRequest subscription .get p.resourceGroup p.name none, last⟩]) ∧
    put.status ∈ [200, 201, 202] ∧ e.Awaits put PollTarget.IsDone polls ∧
    last.status = 200 ∧ Document.ofText? last.body = some d ∧
    d.id = some state.id ∧ d.toAttributes p.name p.resourceGroup = .ok state.attributes

/-- The declared policy is looked for and not found, and then put. -/
def CreateEarns (e : Endpoint) (subscription : String) (a : Attributes) (state : PolicyState)
    (talk : List Exchange) : Prop :=
  ∃ p absent rest, Policy.ofAttributes a = .ok p ∧
    talk = ⟨e.policyRequest subscription .get p.resourceGroup p.name none, absent⟩ :: rest ∧
    absent.status = 404 ∧ WriteEarns e subscription p state rest

/-- The policy with an identifier is looked for and found, and then the declared policy is put,
which has the same name and group but for case. -/
def UpdateEarns (e : Endpoint) (subscription identifier : String) (a : Attributes)
    (state : PolicyState) (talk : List Exchange) : Prop :=
  ∃ address p present d rest, Policy.Address.parse identifier = .ok address ∧
    Policy.ofAttributes a = .ok p ∧
    Text.eqIgnoringCase p.name address.name = true ∧
    Text.eqIgnoringCase p.resourceGroup address.group = true ∧
    talk = ⟨e.policyRequest subscription .get address.group address.name none, present⟩ :: rest ∧
    present.status = 200 ∧ Document.ofText? present.body = some d ∧
    WriteEarns e subscription p state rest

variable {a : Attributes} {p : Policy} {identifier : String} {address : Policy.Address}
  {state : PolicyState} {talk : List Exchange}

theorem createEarns_iff (hp : Policy.ofAttributes a = .ok p) :
    CreateEarns e subscription a state talk ↔ ∃ absent rest,
      talk = ⟨e.policyRequest subscription .get p.resourceGroup p.name none, absent⟩ :: rest ∧
      absent.status = 404 ∧ WriteEarns e subscription p state rest := by
  simp [CreateEarns, hp]

theorem updateEarns_iff (hparse : Policy.Address.parse identifier = .ok address)
    (hp : Policy.ofAttributes a = .ok p) :
    UpdateEarns e subscription identifier a state talk ↔
      (Text.eqIgnoringCase p.name address.name = true ∧
        Text.eqIgnoringCase p.resourceGroup address.group = true) ∧
      ∃ present d rest,
        talk =
          ⟨e.policyRequest subscription .get address.group address.name none, present⟩ :: rest ∧
        present.status = 200 ∧ Document.ofText? present.body = some d ∧
        WriteEarns e subscription p state rest := by
  simp [UpdateEarns, hparse, hp, and_assoc]

/-! ### What each step settles on -/

/-- A document in hand settles on the state that it describes if it has an identifier and a mode. -/
theorem stateOf_settles (d : Document) (p : Policy) :
    Settles ctx (match d.id with
      | none => pure (.error (.notFoundAfterCreate p.name p.resourceGroup))
      | some id => pure (stateOf d id p.name p.resourceGroup)) Succeeds fun x talk =>
        talk = [] ∧ ∃ state, x = .ok state ∧ d.id = some state.id ∧
          d.toAttributes p.name p.resourceGroup = .ok state.attributes := by
  cases hid : d.id with
  | none =>
      refine Settles.of_iff (Settles.pure_of_not (by simp [Succeeds])) fun x talk => by simp
  | some id =>
      unfold stateOf
      cases hattributes : d.toAttributes p.name p.resourceGroup with
      | error err =>
          exact Settles.of_iff (Settles.pure_of_not (by simp [Succeeds])) fun x talk => by simp
      | ok attributes =>
          refine Settles.of_iff (Settles.pure _) fun x talk => ?_
          constructor
          · rintro ⟨-, rfl, rfl⟩
            exact ⟨rfl, _, rfl, rfl, rfl⟩
          · rintro ⟨rfl, state, rfl, hid', hattributes'⟩
            obtain rfl := Option.some.inj hid'
            obtain rfl := Except.ok.inj hattributes'
            exact ⟨⟨_, rfl⟩, rfl, rfl⟩

/-- Putting a policy settles on the state that is read back, once the change is done. -/
theorem apply_settles (p : Policy) :
    Settles ctx (apply (e.client subscription ctx) p) Succeeds fun x talk =>
      ∃ state, x = .ok state ∧ WriteEarns e subscription p state talk := by
  have hreread : ∀ err : ServiceError, ∃ err', (if err.isNotFound then
        pure (.error (.notFoundAfterCreate p.name p.resourceGroup))
      else pure (.error (.remote .retrieve p.name p.resourceGroup err)) :
        StateM Session (Except PolicyError PolicyState)) = pure (.error err') := by
    intro err
    split <;> exact ⟨_, rfl⟩
  refine Settles.of_iff
    (Settles.andThen (e.putPolicy_settles subscription ctx p.resourceGroup p.name p.toDocument)
      (fun _ => ⟨_, rfl⟩) fun operation =>
    Settles.andThen (e.waitForOperation_settles ctx operation)
      (fun _ => ⟨_, rfl⟩) fun _ =>
    Settles.andThen (e.getPolicy_settles subscription ctx p.resourceGroup p.name)
      hreread fun d => stateOf_settles d p)
    fun x talk => ?_
  -- no step fails that ends with a result
  simp only [reduceCtorEq, Except.ok.injEq, and_false, or_false]
  constructor
  · rintro ⟨_, _, _, rfl, ⟨put, rfl, hstatus, rfl⟩, _, polls, _, rfl, ⟨hpolls, -⟩, d, _, _, rfl,
      ⟨last, rfl, hok, _, hdocument, rfl⟩, rfl, state, rfl, hid, hattributes⟩
    have hawaits := (e.awaits_iff put PollTarget.IsDone polls).mpr hpolls
    exact ⟨state, rfl, put, polls, last, d, rfl, hstatus, hawaits, hok, hdocument, hid, hattributes⟩
  · rintro ⟨state, rfl, put, polls, last, d, rfl, hstatus, hawaits, hok, hdocument, hid,
      hattributes⟩
    have hpolls := (e.awaits_iff put PollTarget.IsDone polls).mp hawaits
    exact ⟨_, [_], _, rfl, ⟨put, rfl, hstatus, rfl⟩,
      (), polls, [_], rfl, ⟨hpolls, fun _ => trivial⟩,
      d, [_], [], rfl, ⟨last, rfl, hok, d, hdocument, rfl⟩, rfl, state, rfl, hid, hattributes⟩

/-- Creating settles on the state that is read back, if the policy was not found before. -/
theorem create_settles (own : String) (a : Attributes) :
    Settles ctx (create (e.client subscription ctx) own a) Succeeds fun x talk =>
      ∃ state, x = .ok state ∧ CreateEarns e subscription a state talk := by
  unfold create
  cases hdeclared : declared a with
  | error err =>
      refine Settles.of_iff (Settles.pure_of_not (by simp [Succeeds])) fun x talk => ?_
      simp [CreateEarns, ofAttributes_ne_ok hdeclared]
  | ok p =>
      have hp := declared_eq_ok_iff.mp hdeclared
      refine Settles.of_iff
        (Settles.bind_conclusive (fun found x rest => (∃ err, found = .error err) ∧
            ∃ state, x = .ok state ∧ WriteEarns e subscription p state rest)
          (e.getPolicy_settles subscription ctx p.resourceGroup p.name) ?other ?found)
        fun x talk => ⟨?_, ?_⟩
      case other =>
        intro err herr
        exact ⟨_, if_neg (Bool.not_eq_true _ ▸ herr)⟩
      case found =>
        intro found hfound
        cases found with
        | ok d =>
            refine Settles.of_iff (Settles.pure_of_not (by simp [Succeeds])) fun x talk => ?_
            simp
        | error err =>
            rw [conclusive_error] at hfound
            dsimp only
            rw [if_pos hfound]
            exact (apply_settles p).of_iff fun x talk => by simp
      · rintro ⟨_, _, rest, rfl, ⟨absent, rfl, hget⟩, ⟨err, rfl⟩, state, rfl, hwrite⟩
        rcases hget with ⟨-, d, -, heq⟩ | ⟨hstatus, -⟩
        · exact absurd heq (by simp)
        · exact ⟨state, rfl, (createEarns_iff hp).mpr ⟨absent, rest, rfl, hstatus, hwrite⟩⟩
      · rintro ⟨state, rfl, hearns⟩
        obtain ⟨absent, rest, rfl, hstatus, hwrite⟩ := (createEarns_iff hp).mp hearns
        exact ⟨_, [_], rest, rfl, ⟨absent, rfl, .inr ⟨hstatus, rfl⟩⟩, ⟨_, rfl⟩, state, rfl, hwrite⟩

/-- Updating settles on the state that is read back, if the policy was found before. -/
theorem update_settles (identifier : String) (a : Attributes) :
    Settles ctx (update (e.client subscription ctx) identifier a) Succeeds fun x talk =>
      ∃ state, x = .ok state ∧ UpdateEarns e subscription identifier a state talk := by
  unfold update
  cases hparse : Policy.Address.parse identifier with
  | error err =>
      refine Settles.of_iff (Settles.pure_of_not (by simp [Succeeds])) fun x talk => ?_
      simp [UpdateEarns, hparse]
  | ok address =>
      dsimp only
      cases hdeclared : declared a with
      | error err =>
          refine Settles.of_iff (Settles.pure_of_not (by simp [Succeeds])) fun x talk => ?_
          simp [UpdateEarns, ofAttributes_ne_ok hdeclared]
      | ok p =>
          have hp := declared_eq_ok_iff.mp hdeclared
          dsimp only
          cases hreplaced : replacements address p with
          | cons v vs =>
              have hkept : ¬ (Text.eqIgnoringCase p.name address.name = true ∧
                  Text.eqIgnoringCase p.resourceGroup address.group = true) := by
                rw [← replacements_eq_nil_iff, hreplaced]
                exact List.cons_ne_nil v vs
              refine Settles.of_iff (Settles.pure_of_not (by simp [Succeeds])) fun x talk => ?_
              simp [updateEarns_iff hparse hp, hkept]
          | nil =>
              have hkept := replacements_eq_nil_iff.mp hreplaced
              have hmissing : ∀ err : ServiceError, ∃ err', (if err.isNotFound then
                    pure (.error (.notFound address.name address.group))
                  else pure (.error (.remote .retrieve address.name address.group err)) :
                    StateM Session (Except PolicyError PolicyState)) = pure (.error err') := by
                intro err
                split <;> exact ⟨_, rfl⟩
              refine Settles.of_iff
                (Settles.andThen (e.getPolicy_settles subscription ctx address.group address.name)
                  hmissing fun _ => apply_settles p) fun x talk => ?_
              simp only [reduceCtorEq, Except.ok.injEq, and_false, or_false]
              constructor
              · rintro ⟨d, _, rest, rfl, ⟨present, rfl, hok, _, hdocument, rfl⟩, state, rfl, hwrite⟩
                exact ⟨state, rfl, (updateEarns_iff hparse hp).mpr
                  ⟨hkept, present, d, rest, rfl, hok, hdocument, hwrite⟩⟩
              · rintro ⟨state, rfl, hearns⟩
                obtain ⟨-, present, d, rest, rfl, hok, hdocument, hwrite⟩ :=
                  (updateEarns_iff hparse hp).mp hearns
                exact ⟨d, [_], rest, rfl, ⟨present, rfl, hok, d, hdocument, rfl⟩, state, rfl,
                  hwrite⟩

/-- Creating and updating over HTTP succeed exactly if the answers of the service earn it, and then
the exchanges that earn it are all that were had. That they do, if they are earned, takes a context
that is still live at the end. -/
theorem success_is_earned (e : Endpoint) (ctx : Context) (subscription own identifier : String)
    (a : Attributes) (s : Session) (state : PolicyState) :
    ((create (e.client subscription ctx) own a s).1 = .ok state →
      ∃ talk, CreateEarns e subscription a state talk ∧ s.Answers [] talk ∧
        s.Sends talk (create (e.client subscription ctx) own a s).2) ∧
    ((update (e.client subscription ctx) identifier a s).1 = .ok state →
      ∃ talk, UpdateEarns e subscription identifier a state talk ∧ s.Answers [] talk ∧
        s.Sends talk (update (e.client subscription ctx) identifier a s).2) ∧
    (ctx.IsLive (create (e.client subscription ctx) own a s).2.clock →
      ∀ talk, CreateEarns e subscription a state talk → s.Answers [] talk →
        (create (e.client subscription ctx) own a s).1 = .ok state) ∧
    (ctx.IsLive (update (e.client subscription ctx) identifier a s).2.clock →
      ∀ talk, UpdateEarns e subscription identifier a state talk → s.Answers [] talk →
        (update (e.client subscription ctx) identifier a s).1 = .ok state) := by
  exact ⟨(create_settles own a).exists_of_ok, (update_settles identifier a).exists_of_ok,
    fun hlive _ => (create_settles own a).ok_of_earns hlive,
    fun hlive _ => (update_settles identifier a).ok_of_earns hlive⟩

/-- The answer of a service in which a policy is in place. -/
def inPlace : Response where
  status := 200
  body := "\x7b\"id\":\"edge\",\"properties\":" ++
    "\x7b\"policySettings\":\x7b\"mode\":\"Prevention\"\x7d\x7d\x7d"

/-- A service that has no policy, takes one, and says at the second poll that it is in place. -/
def slowService : Session where
  web := .ofList [
    .answer { status := 404 },
    .answer { status := 201, headers := [("Azure-AsyncOperation", "https://service/operation")] },
    .answer { status := 200, body := "\x7b\"status\":\"InProgress\"\x7d" },
    .answer { status := 200, body := "\x7b\"status\":\"Succeeded\"\x7d" },
    .answer inPlace]

/-- The creation of a policy with a service. -/
def createWith (s : Session) : Except PolicyError PolicyState × Session :=
  create (Endpoint.client ⟨"https://service", "token", {}, fun _ _ => "?"⟩ "sub"
    { token := .own 0 }) "sub" (declaring "edge") s

theorem success_is_earned_slowly :
    ∃ state talk, CreateEarns ⟨"https://service", "token", {}, fun _ _ => "?"⟩ "sub"
        (declaring "edge") state talk ∧
      state.id = "edge" ∧ talk.length = 5 ∧ slowService.Answers [] talk := by
  obtain ⟨run, hrun⟩ : ∃ run, createWith slowService = run := ⟨_, rfl⟩
  obtain ⟨hid, hsent⟩ : run.1.map PolicyState.id = .ok "edge" ∧ run.2.sent.length = 5 := by
    rw [← hrun]
    decide +kernel
  obtain ⟨result, s'⟩ := run
  cases result with
  | error err => exact absurd hid (by simp [Except.map])
  | ok state =>
      unfold createWith at hrun
      obtain ⟨talk, hearns, hanswers, hsends⟩ :=
        (success_is_earned _ _ _ _ "" _ slowService state).1 (congrArg Prod.fst hrun)
      rw [hrun] at hsends
      refine ⟨state, talk, hearns, Except.ok.inj hid, ?_, hanswers⟩
      have hlength := hsends.length_sent
      rw [hsent] at hlength
      simpa [slowService] using hlength.symm

/-- An answer has a header that is there to say where to ask after an operation, whatever it says. -/
def PointsToOperation (a : Response) : Prop :=
  (∃ h ∈ a.headers, Text.eqIgnoringCase h.1 "Azure-AsyncOperation" = true) ∨
    a.status = 202 ∧ ∃ h ∈ a.headers, Text.eqIgnoringCase h.1 "Location" = true

/-- The answer of a service that takes a policy and says where to ask, but not in plain text. -/
def takenUnclearly : Response where
  status := 201
  headers := [("Azure-AsyncOperation", "https://service/op\u00e9ration")]

/-- A service that has no policy, takes one, and has it in place when it is looked for. -/
def unclearService : Session where
  web := .ofList [.answer { status := 404 }, .answer takenUnclearly, .answer inPlace]

/-- Not every operation is asked after that a header is there for: a header that is no plain text is
passed over, and the creation succeeds without a poll. -/
theorem not_polled_for_every_header :
    ¬ ∀ (e : Endpoint) (ctx : Context) (subscription own : String) (a : Attributes) (s : Session)
      (state : PolicyState) (talk : List Exchange),
      (create (e.client subscription ctx) own a s).1 = .ok state → s.Answers [] talk →
      s.Sends talk (create (e.client subscription ctx) own a s).2 →
      (talk.length = 3 ↔ ∀ x ∈ talk, x.request.method = .put → ¬ PointsToOperation x.answer) := by
  intro h
  obtain ⟨run, hrun⟩ : ∃ run, createWith unclearService = run := ⟨_, rfl⟩
  obtain ⟨hid, hmethods⟩ : run.1.map PolicyState.id = .ok "edge" ∧
      run.2.sent.map (·.request.method) = [.get, .put, .get] := by
    rw [← hrun]
    decide +kernel
  obtain ⟨result, s'⟩ := run
  cases result with
  | error err => exact absurd hid (by simp [Except.map])
  | ok state =>
      obtain ⟨get, rest, hsent, -, hmethods⟩ := List.map_eq_cons_iff.mp hmethods
      obtain ⟨put, rest, rfl, hput, hmethods⟩ := List.map_eq_cons_iff.mp hmethods
      obtain ⟨last, rest, rfl, -, hmethods⟩ := List.map_eq_cons_iff.mp hmethods
      obtain rfl := List.map_eq_nil_iff.mp hmethods
      have hanswers : unclearService.Answers [] [⟨get.request, { status := 404 }⟩,
          ⟨put.request, takenUnclearly⟩, ⟨last.request, inPlace⟩] := by
        simp only [Session.Answers]
        exact ⟨rfl, rfl, rfl, trivial⟩
      unfold createWith at hrun
      obtain ⟨_, -, -, hsends⟩ := (create_settles "sub" _).exists_of_ok (congrArg Prod.fst hrun)
      have hclaim := h _ _ _ _ _ unclearService state _ (congrArg Prod.fst hrun) hanswers
      rw [hrun] at hsends hclaim
      have hunpointed := (hclaim ⟨hsends.web, _, hsent, rfl⟩).mp rfl
        ⟨put.request, takenUnclearly⟩ (by simp) hput
      exact hunpointed (.inl ⟨_, List.mem_singleton_self _, by decide⟩)

end Lifecycle

end EdgeFirewall
