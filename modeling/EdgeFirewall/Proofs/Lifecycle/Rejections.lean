import EdgeFirewall.Proofs.Lifecycle.Handling
import EdgeFirewall.Proofs.Lifecycle.Requests
import EdgeFirewall.Proofs.Service.Calls

/-! # Rejected calls

A call of a host is rejected for what it says alone: an unknown type, an identifier or attributes
that cannot be read, a policy that would have to be replaced (`HostCall.Rejected`). Such a call asks
nothing of the service, whatever that is, and the host is told what was wrong. And an error that
stands for a check made before writing (`PolicyError.precedesWrites`) is never told after a write
(`Provider.rejected_untouched`). -/

namespace EdgeFirewall

variable {σ η : Type}

/-! ### Rejected calls -/

namespace HostCall

/-- The identifier that a call comes with. -/
def identifier? : HostCall → Option String
  | .create _ => none
  | .read _ identifier => identifier
  | .update _ identifier _ => some identifier
  | .delete _ identifier => some identifier

/-- The attributes that a call comes with. -/
def attributes? : HostCall → Option Attributes
  | .create r => some r.attributes
  | .update _ _ target => some target.attributes
  | .read .. => none
  | .delete .. => none

/-- A call is rejected for what it says alone, and what the host is told about it. -/
inductive Rejected (call : HostCall) : CallFailure → Prop
  | unknownType (hkey : call.key.type ≠ Policy.resourceType) :
      Rejected call (.error {
        message := s!"Unknown resource type: {call.key.type}"
        resource := some call.key })
  | invalidId {identifier : String} {e : ResourceIdError}
      (hkey : call.key.type = Policy.resourceType)
      (hidentifier : call.identifier? = some identifier)
      (hparse : Policy.Address.parse identifier = .error e) :
      Rejected call (failure call.key (.invalidId e))
  | invalid {a : Attributes} {vs : List Violation}
      (hkey : call.key.type = Policy.resourceType)
      (hidentifier : ∀ identifier, call.identifier? = some identifier →
        ∃ address, Policy.Address.parse identifier = .ok address)
      (hattributes : call.attributes? = some a) (hinvalid : Policy.ofAttributes a = .error vs) :
      Rejected call (failure call.key (.undeclared a vs))
  | displaced {identifier : String} {a : Attributes} {address : Policy.Address} {p : Policy}
      {vs : List Violation} (hkey : call.key.type = Policy.resourceType)
      (hidentifier : call.identifier? = some identifier) (hattributes : call.attributes? = some a)
      (hparse : Policy.Address.parse identifier = .ok address)
      (hdeclared : Policy.ofAttributes a = .ok p) (hdisplaced : p.Displaced address vs) :
      Rejected call (failure call.key (.invalid address.name address.group vs))

end HostCall

namespace Provider

variable {p : Provider} {b : Backend σ η} {call : HostCall} {f : CallFailure} {s : σ}

theorem attempt_of_rejected (p : Provider) (h : call.Rejected f)
    (hkey : call.key.type = Policy.resourceType) (c : Client σ η) (s : σ) :
    ∃ e, e.isNotFound = false ∧ f = HostCall.failure call.key e ∧
      p.attempt c call s = (.error e, s) := by
  cases h with
  | unknownType hunknown => exact absurd hkey hunknown
  | invalidId _ hidentifier hparse =>
      refine ⟨_, rfl, rfl, ?_⟩
      cases call with
      | create r => exact absurd hidentifier (by simp [HostCall.identifier?])
      | read key identifier =>
          obtain rfl : identifier = _ := hidentifier
          rw [attempt, Lifecycle.read, hparse]
          rfl
      | update key identifier target =>
          obtain rfl := Option.some.inj hidentifier
          rw [attempt, Lifecycle.update, hparse]
          rfl
      | delete key identifier =>
          obtain rfl := Option.some.inj hidentifier
          rw [attempt, Lifecycle.delete, hparse]
          rfl
  | invalid _ hidentifier hattributes hinvalid =>
      refine ⟨_, rfl, rfl, ?_⟩
      cases call with
      | create r =>
          obtain rfl := Option.some.inj hattributes
          rw [attempt, Lifecycle.create_of_error (Lifecycle.declared_of_violations hinvalid)]
          rfl
      | update key identifier target =>
          obtain rfl := Option.some.inj hattributes
          obtain ⟨address, hparse⟩ := hidentifier identifier rfl
          rw [attempt, Lifecycle.update, hparse]
          dsimp only
          rw [Lifecycle.declared_of_violations hinvalid]
          rfl
      | read key identifier => exact absurd hattributes (by simp [HostCall.attributes?])
      | delete key identifier => exact absurd hattributes (by simp [HostCall.attributes?])
  | displaced _ hidentifier hattributes hparse hdeclared hdisplaced =>
      refine ⟨_, rfl, rfl, ?_⟩
      cases call with
      | update key identifier target =>
          obtain rfl := Option.some.inj hidentifier
          obtain rfl := Option.some.inj hattributes
          obtain ⟨hviolations, hne⟩ := Lifecycle.displaced_iff.mp hdisplaced
          obtain ⟨v, rest, rfl⟩ := List.exists_cons_of_ne_nil hne
          rw [attempt, Lifecycle.update, hparse]
          dsimp only
          rw [Lifecycle.declared_eq_ok_iff.mpr hdeclared]
          dsimp only
          rw [hviolations]
          rfl
      | create r => exact absurd hidentifier (by simp [HostCall.identifier?])
      | read key identifier => exact absurd hattributes (by simp [HostCall.attributes?])
      | delete key identifier => exact absurd hattributes (by simp [HostCall.attributes?])

/-- A rejected call is answered without the client, and leaves the state as it is. The call breaks
off before it is looked at if it can have no deadline. -/
theorem handle_of_rejected (h : call.Rejected f) :
    p.handle b call s = (if call.key.type = Policy.resourceType ∧ p.context? (b.clock s) = none then
      .error .noDeadline else .error f, s) := by
  by_cases hkey : call.key.type = Policy.resourceType
  · cases hctx : p.context? (b.clock s) with
    | none =>
        have hcall : call ≠ .read call.key none := by
          intro heq
          cases h with
          | unknownType hunknown => exact hunknown hkey
          | invalidId _ hidentifier _ | displaced _ hidentifier _ _ _ _ =>
              rw [heq] at hidentifier
              exact absurd hidentifier (by simp [HostCall.identifier?])
          | invalid _ _ hattributes _ =>
              rw [heq] at hattributes
              exact absurd hattributes (by simp [HostCall.attributes?])
        rw [handle_of_failed_run (failsToRun_of_no_context hkey hctx) hcall, if_pos ⟨hkey, rfl⟩]
    | some ctx =>
        obtain ⟨e, he, rfl, hattempt⟩ := attempt_of_rejected p h hkey (b.connect ctx) s
        rw [handle_of_context hkey hctx, hattempt, reply_error he, if_neg (by simp),
          policyFailure_eq_failure]
  · rw [handle_of_unknown hkey, if_neg (by simp [hkey])]
    cases h with
    | unknownType => rfl
    | invalidId hknown | invalid hknown | displaced hknown => exact absurd hknown hkey

/-! ### Errors that stand for checks -/

end Provider

/-- Whether an error stands for a check that is made before anything is written. -/
def PolicyError.precedesWrites : PolicyError → Bool
  | .invalid .. => true
  | .invalidId _ => true
  | .alreadyExists _ => true
  | .notFound .. => true
  | .remote .checkExisting .. => true
  | _ => false

/-- An outcome and the calls before it: if it stands for a check, nothing was written. -/
def QuietBeforeCheck {α : Type} (x : Except PolicyError α) (log : List CallRecord) : Prop :=
  ∀ e, x = .error e → e.precedesWrites = true → Quiet log

theorem Quiet.beforeCheck {α : Type} {x : Except PolicyError α} {log : List CallRecord}
    (h : Quiet log) : QuietBeforeCheck x log :=
  fun _ _ _ => h

theorem quietBeforeCheck_late {α : Type} {e : PolicyError} {log : List CallRecord}
    (he : e.precedesWrites = false) : QuietBeforeCheck (.error e : Except PolicyError α) log := by
  intro e' heq he'
  obtain rfl := Except.error.inj heq
  rw [he] at he'
  exact absurd he' (by simp)

theorem quietBeforeCheck_ok {α : Type} (a : α) (log : List CallRecord) :
    QuietBeforeCheck (.ok a) log := by
  intro e heq
  exact absurd heq (by simp)

theorem QuietBeforeCheck.map {α β : Type} {x : Except PolicyError α} {log : List CallRecord}
    (h : QuietBeforeCheck x log) (f : α → β) : QuietBeforeCheck (x.map f) log := by
  cases x with
  | ok a => exact quietBeforeCheck_ok (f a) log
  | error e => exact fun e' heq => h e' (by rw [Except.error.inj heq])

namespace Lifecycle

variable {c : Client σ η} {a : Attributes} {identifier : String}

/-- Nothing that goes wrong from the put on stands for a check. -/
theorem quiet_apply (p : Policy) :
    LogsAs (apply c.logged p) (apply c p) fun x _ => ∀ log, QuietBeforeCheck x log := by
  refine LogsAs.noting_bind fun put => ?_
  cases put with
  | error e => exact .pure fun _ => quietBeforeCheck_late rfl
  | ok operation =>
      refine LogsAs.noting_bind fun wait => ?_
      cases wait with
      | error e => exact .pure fun _ => quietBeforeCheck_late rfl
      | ok _ =>
          refine LogsAs.noting_bind fun get => ?_
          cases get with
          | error e =>
              dsimp only
              split <;> exact .pure fun _ => quietBeforeCheck_late rfl
          | ok d =>
              dsimp only
              split
              · exact .pure fun _ => quietBeforeCheck_late rfl
              · unfold stateOf
                split
                · exact .pure fun _ => quietBeforeCheck_ok _ _
                · exact .pure fun _ => quietBeforeCheck_late rfl

theorem quiet_get {α : Type} {x : Except PolicyError α} {group name : String}
    {result : Except ServiceError (Option Document)} :
    QuietBeforeCheck x [⟨.get group name, result⟩] :=
  Quiet.beforeCheck (by simp [Call.isPut, Call.isDelete])

theorem quiet_create (subscription : String) :
    LogsAs (create c.logged subscription a) (create c subscription a) QuietBeforeCheck := by
  unfold create
  cases declared a with
  | error e => exact .pure quiet_nil.beforeCheck
  | ok p =>
      refine LogsAs.noting_bind fun get => ?_
      cases get with
      | ok d => exact .pure quiet_get
      | error e =>
          dsimp only
          split
          · exact (quiet_apply p).mono fun x added hlate => hlate _
          · exact .pure quiet_get

theorem quiet_update :
    LogsAs (update c.logged identifier a) (update c identifier a) QuietBeforeCheck := by
  unfold update
  cases Policy.Address.parse identifier with
  | error e => exact .pure quiet_nil.beforeCheck
  | ok address =>
      dsimp only
      cases declared a with
      | error e => exact .pure quiet_nil.beforeCheck
      | ok p =>
          dsimp only
          cases replacements address p with
          | cons v vs => exact .pure quiet_nil.beforeCheck
          | nil =>
              refine LogsAs.noting_bind fun get => ?_
              cases get with
              | error e =>
                  dsimp only
                  split <;> exact .pure quiet_get
              | ok d => exact (quiet_apply p).mono fun x added hlate => hlate _

theorem quiet_createOrUpdate :
    LogsAs (createOrUpdate c.logged a) (createOrUpdate c a) QuietBeforeCheck := by
  unfold createOrUpdate
  cases declared a with
  | error e => exact .pure quiet_nil.beforeCheck
  | ok p => exact (quiet_apply p).mono fun x added hlate => hlate _

theorem quiet_read :
    LogsAs (read c.logged identifier) (read c identifier) QuietBeforeCheck := by
  unfold read
  cases Policy.Address.parse identifier with
  | error e => exact .pure quiet_nil.beforeCheck
  | ok address =>
      refine LogsAs.noting_bind fun get => ?_
      cases get with
      | error e =>
          dsimp only
          split <;> exact .pure quiet_get
      | ok d => exact .pure quiet_get

theorem quiet_delete :
    LogsAs (delete c.logged identifier) (delete c identifier) QuietBeforeCheck := by
  unfold delete
  cases Policy.Address.parse identifier with
  | error e => exact .pure quiet_nil.beforeCheck
  | ok address =>
      refine LogsAs.noting_bind fun removed => ?_
      cases removed with
      | error e =>
          dsimp only
          split
          · exact .pure (quietBeforeCheck_ok _ _)
          · exact .pure (quietBeforeCheck_late rfl)
      | ok operation =>
          refine LogsAs.noting_bind fun wait => ?_
          cases wait with
          | error e =>
              dsimp only
              split
              · exact .pure (quietBeforeCheck_ok _ _)
              · exact .pure (quietBeforeCheck_late rfl)
          | ok _ => exact .pure (quietBeforeCheck_ok _ _)

end Lifecycle

/-! ### Calls of a host -/

/-- A backend whose clients note their calls. -/
def Backend.logged (b : Backend σ η) : Backend (σ × List CallRecord) η where
  connect ctx := (b.connect ctx).logged
  clock s := b.clock s.1

namespace Provider

variable {p : Provider} {b : Backend σ η} {call : HostCall}

/-- The calls of a client that a call of a host leads to. -/
def calls (p : Provider) (b : Backend σ η) (call : HostCall) (s : σ) : List CallRecord :=
  (p.handle b.logged call (s, [])).2.2

theorem quiet_attempt (p : Provider) (c : Client σ η) (call : HostCall) :
    LogsAs (p.attempt c.logged call) (p.attempt c call) QuietBeforeCheck := by
  cases call with
  | create r =>
      exact (Lifecycle.quiet_create p.subscription).map _ (fun _ => rfl) (fun _ => rfl)
        fun x added h => h.map some
  | read key identifier =>
      cases identifier with
      | none => exact .pure (quietBeforeCheck_ok _ _)
      | some identifier =>
          exact Lifecycle.quiet_read.map _ (fun _ => rfl) (fun _ => rfl)
            fun x added h => h.map some
  | update key identifier target =>
      exact Lifecycle.quiet_update.map _ (fun _ => rfl) (fun _ => rfl)
        fun x added h => h.map some
  | delete key identifier =>
      exact Lifecycle.quiet_delete.map _ (fun _ => rfl) (fun _ => rfl)
        fun x added h => h.map _

theorem handle_quiet {key : ResourceKey} {e : PolicyError} {s : σ}
    (h : (p.handle b call s).1 = .error (HostCall.failure key e)) (he : e.precedesWrites = true) :
    Quiet (p.calls b call s) := by
  unfold calls
  by_cases hkey : call.key.type = Policy.resourceType
  · cases hctx : p.context? (b.clock s) with
    | none =>
        by_cases hcall : call = .read call.key none
        · rw [hcall, handle_read_none hkey]
          exact quiet_nil
        · have hctx' : p.context? (b.logged.clock (s, [])) = none := hctx
          rw [handle_of_failed_run (failsToRun_of_no_context hkey hctx') hcall]
          exact quiet_nil
    | some ctx =>
        have hctx' : p.context? (b.logged.clock (s, [])) = some ctx := hctx
        rw [handle_of_context hkey hctx] at h
        rw [handle_of_context hkey hctx']
        obtain ⟨added, hadded, hquiet⟩ := quiet_attempt p (b.connect ctx) call s []
        have hlog : (p.attempt (b.logged.connect ctx) call (s, [])).2.2 = added := by
          rw [Backend.logged]
          dsimp only
          rw [hadded]
          rfl
        rw [hlog]
        exact hquiet e (eq_of_reply h) he
  · rw [handle_of_unknown hkey]
    exact quiet_nil

/-- A rejected call asks nothing of the service and tells the host what was wrong with it, unless it
breaks off before it is looked at since it can have no deadline. And whatever the service answers, a
call that ends with an error that stands for a check has put and deleted nothing; nor has what such
a call asks of a client, or putting a policy whether it exists or not. -/
theorem rejected_untouched (p : Provider) (b : Backend σ η) (call : HostCall) (s : σ) :
    (∀ f, call.Rejected f → p.calls b call s = [] ∧ (p.handle b call s).1 =
      if call.key.type = Policy.resourceType ∧ p.context? (b.clock s) = none then .error .noDeadline
      else .error f) ∧
    (∀ key e, (p.handle b call s).1 = .error (HostCall.failure key e) → e.precedesWrites = true →
      Quiet (p.calls b call s)) ∧
    (∀ (c : Client σ η) e, e.precedesWrites = true →
      ((p.attempt c call s).1 = .error e → Quiet (c.calls s (p.attempt · call))) ∧
      ∀ a, (Lifecycle.createOrUpdate c a s).1 = .error e →
        Quiet (c.calls s (Lifecycle.createOrUpdate · a))) := by
  refine ⟨fun f h => ⟨?_, ?_⟩, fun key e h he => handle_quiet h he,
    fun c e he => ⟨fun h => ?_, fun a h => ?_⟩⟩
  · unfold calls
    rw [handle_of_rejected h]
  · rw [handle_of_rejected h]
  · have hquiet : QuietBeforeCheck (p.attempt c call s).1 (c.calls s (p.attempt · call)) :=
      (quiet_attempt p c call).calls s
    exact hquiet e h he
  · have hquiet : QuietBeforeCheck (Lifecycle.createOrUpdate c a s).1
        (c.calls s (Lifecycle.createOrUpdate · a)) := Lifecycle.quiet_createOrUpdate.calls s
    exact hquiet e h he

/-- A read by a text that is no identifier. -/
def unreadableCall : HostCall :=
  .read ⟨Policy.resourceType, "edge"⟩ (some "edge")

/-- The identifier of the policy `waf`. -/
def wafId : String :=
  "/subscriptions/sub/resourceGroups/WEB/providers/Microsoft.Network" ++
    "/FrontDoorWebApplicationFirewallPolicies/waf"

/-- An update of the policy `waf` that calls it `edge`. The group stays, though it is spelled in
another way. -/
def renamingCall : HostCall :=
  .update ⟨Policy.resourceType, "edge"⟩ wafId
    ⟨⟨Policy.resourceType, "edge"⟩, Lifecycle.declaring "edge"⟩

theorem rejected_untouched_unreadable_renaming :
    unreadableCall.Rejected
        (HostCall.failure ⟨Policy.resourceType, "edge"⟩ (.invalidId (.notAbsolute "edge"))) ∧
      calls ⟨"sub", .own 0, none⟩
        (Endpoint.backend ⟨"https://service", "token", {}, fun _ _ => "?"⟩ "sub") unreadableCall
        { web := .ofList [] } = [] ∧
      renamingCall.Rejected (HostCall.failure ⟨Policy.resourceType, "edge"⟩
        (.invalid "waf" "WEB" [⟨[.key "name"], .replaced "waf" "edge"⟩])) ∧
      calls ⟨"sub", .own 0, none⟩
        (Endpoint.backend ⟨"https://service", "token", {}, fun _ _ => "?"⟩ "sub") renamingCall
        { web := .ofList [] } = [] := by
  have hunreadable : unreadableCall.Rejected
      (HostCall.failure ⟨Policy.resourceType, "edge"⟩ (.invalidId (.notAbsolute "edge"))) :=
    .invalidId rfl rfl rfl
  obtain ⟨p, hp, hgroup, hname⟩ := Lifecycle.exists_declaring "edge" (by decide +kernel)
  have hdisplaced : p.Displaced ⟨"WEB", "waf"⟩ [⟨[.key "name"], .replaced "waf" "edge"⟩] := by
    have hviolations := @Policy.Displaced.name ⟨"WEB", "waf"⟩ p (by rw [hname]; decide)
      (by rw [hgroup]; decide)
    rwa [hname] at hviolations
  have hparse : Policy.Address.parse wafId = .ok ⟨"WEB", "waf"⟩ := by decide +kernel
  have hidentifier : renamingCall.identifier? = some wafId := rfl
  have hattributes : renamingCall.attributes? = some (Lifecycle.declaring "edge") := rfl
  have hkey : renamingCall.key.type = Policy.resourceType := rfl
  have hrenaming :=
    HostCall.Rejected.displaced hkey hidentifier hattributes hparse hp hdisplaced
  exact ⟨hunreadable, ((rejected_untouched _ _ _ _).1 _ hunreadable).1, hrenaming,
    ((rejected_untouched _ _ _ _).1 _ hrenaming).1⟩

end Provider

end EdgeFirewall
