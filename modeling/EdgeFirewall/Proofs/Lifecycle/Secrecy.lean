import EdgeFirewall.Proofs.Lifecycle.Handling
import EdgeFirewall.Proofs.Service.Tokens
import EdgeFirewall.Proofs.Settings.Resolution

/-! # Secrecy of the token

With clients that are alike, policies live alike: every step of the life of a policy and every call
of a host ends with the same result (`Provider.handleAll_alike`). Settings that are resolved from
attributes with another token differ in the token alone (`Settings.resolve_withToken`). Together,
the token has a say in nothing but the authorization of requests: no state, no error and no
description tells one token from another (`Settings.token_only_authorizes`). -/

namespace EdgeFirewall

open Http

variable {σ σ' η : Type} {R : σ → σ' → Prop} {c : Client σ η} {c' : Client σ' η}

/-! ### Lives with clients that are alike -/

namespace Lifecycle

variable (h : c.Alike R c')

include h

theorem apply_alike (p : Policy) : Alike R (apply c p) (apply c' p) := by
  unfold apply
  refine .bind (h.put _ _ _) ?_
  rintro (err | operation)
  · exact .pure _
  · refine .bind (h.wait operation) ?_
    rintro (err | _)
    · exact .pure _
    · refine .bind (h.get _ _) ?_
      rintro (err | d)
      · dsimp only
        split <;> exact .pure _
      · dsimp only
        split <;> exact .pure _

theorem create_alike (subscription : String) (a : Attributes) :
    Alike R (create c subscription a) (create c' subscription a) := by
  unfold create
  cases declared a with
  | error err => exact .pure _
  | ok p =>
      refine .bind (h.get _ _) ?_
      rintro (err | d)
      · dsimp only
        split
        · exact apply_alike h p
        · exact .pure _
      · exact .pure _

theorem createOrUpdate_alike (a : Attributes) :
    Alike R (createOrUpdate c a) (createOrUpdate c' a) := by
  unfold createOrUpdate
  cases declared a with
  | error err => exact .pure _
  | ok p => exact apply_alike h p

theorem update_alike (identifier : String) (a : Attributes) :
    Alike R (update c identifier a) (update c' identifier a) := by
  unfold update
  cases Policy.Address.parse identifier with
  | error err => exact .pure _
  | ok address =>
      dsimp only
      cases declared a with
      | error err => exact .pure _
      | ok p =>
          dsimp only
          cases replacements address p with
          | cons v vs => exact .pure _
          | nil =>
              refine .bind (h.get _ _) ?_
              rintro (err | d)
              · dsimp only
                split <;> exact .pure _
              · exact apply_alike h p

theorem read_alike (identifier : String) : Alike R (read c identifier) (read c' identifier) := by
  unfold read
  cases Policy.Address.parse identifier with
  | error err => exact .pure _
  | ok address =>
      refine .bind (h.get _ _) ?_
      rintro (err | d)
      · dsimp only
        split <;> exact .pure _
      · exact .pure _

theorem delete_alike (identifier : String) :
    Alike R (delete c identifier) (delete c' identifier) := by
  unfold delete
  cases Policy.Address.parse identifier with
  | error err => exact .pure _
  | ok address =>
      refine .bind (h.delete _ _) ?_
      rintro (err | operation)
      · dsimp only
        split <;> exact .pure _
      · refine .bind (h.wait operation) ?_
        rintro (err | _)
        · dsimp only
          split <;> exact .pure _
        · exact .pure _

end Lifecycle

/-! ### Calls of a host -/

/-- Two backends tell the same time and connect with clients that are alike. -/
structure Backend.Alike (R : σ → σ' → Prop) (b : Backend σ η) (b' : Backend σ' η) : Prop where
  clock : ∀ {s s'}, R s s' → b'.clock s' = b.clock s
  connect : ∀ ctx, (b.connect ctx).Alike R (b'.connect ctx)

namespace Provider

variable {b : Backend σ η} {b' : Backend σ' η}

theorem attempt_alike (p : Provider) (h : c.Alike R c') (call : HostCall) :
    Alike R (p.attempt c call) (p.attempt c' call) := by
  cases call with
  | create r =>
      exact .bind (Lifecycle.create_alike h p.subscription r.attributes) fun _ => .pure _
  | read key identifier =>
      cases identifier with
      | none => exact .pure _
      | some identifier => exact .bind (Lifecycle.read_alike h identifier) fun _ => .pure _
  | update key identifier target =>
      exact .bind (Lifecycle.update_alike h identifier target.attributes) fun _ => .pure _
  | delete key identifier => exact .bind (Lifecycle.delete_alike h identifier) fun _ => .pure _

/-- What is told does not depend on which of the backends answers. -/
theorem handle_alike (p : Provider) (h : b.Alike R b') (call : HostCall) :
    Alike R (p.handle b call) (p.handle b' call) := by
  intro s s' hs
  by_cases hkey : call.key.type = Policy.resourceType
  · cases hctx : p.context? (b.clock s) with
    | some ctx =>
        have hctx' : p.context? (b'.clock s') = some ctx := by rw [h.clock hs, hctx]
        obtain ⟨hresult, hs'⟩ := p.attempt_alike (h.connect ctx) call s s' hs
        rw [handle_of_context hkey hctx, handle_of_context hkey hctx']
        exact ⟨congrArg (reply call) hresult, hs'⟩
    | none =>
        have hctx' : p.context? (b'.clock s') = none := by rw [h.clock hs, hctx]
        by_cases hcall : call = .read call.key none
        · rw [hcall, handle_read_none hkey, handle_read_none hkey]
          exact ⟨rfl, hs⟩
        · rw [handle_of_failed_run (failsToRun_of_no_context hkey hctx) hcall,
            handle_of_failed_run (failsToRun_of_no_context hkey hctx') hcall]
          exact ⟨rfl, hs⟩
  · rw [handle_of_unknown hkey, handle_of_unknown hkey]
    exact ⟨rfl, hs⟩

theorem handleAll_alike (p : Provider) (h : b.Alike R b') (calls : List HostCall) :
    Alike R (p.handleAll b calls) (p.handleAll b' calls) := by
  induction calls with
  | nil => exact .pure _
  | cons call rest ih =>
      exact .bind (p.handle_alike h call) fun _ => .bind ih fun _ => .pure _

end Provider

theorem Endpoint.backend_alike {e : Endpoint} {token : String}
    (h : IsHeaderText e.token) (h' : IsHeaderText token) (subscription : String) :
    (e.backend subscription).Alike (Session.Swapped e.token token)
      ((e.withToken token).backend subscription) where
  clock hs := hs.clock
  connect ctx := e.client_alike h h' subscription ctx

/-! ### Settings with another token -/

namespace Settings

/-- The settings of someone with another token. -/
def withToken (s : Settings) (token : String) : Settings :=
  { s with token }

/-- Attributes that differ in nothing but the token, which both of them give. -/
structure DifferInToken (a a' : Attributes) (token token' : String) : Prop where
  others : ∀ key, key ≠ Setting.token.key → a'.lookup key = a.lookup key
  given : a.lookup Setting.token.key = some (.string token)
  given' : a'.lookup Setting.token.key = some (.string token')
  filled : Text.isBlankText token = false
  filled' : Text.isBlankText token' = false

variable {a a' : Attributes} {env : Environment} {token token' : String} {s : Setting}

theorem required_token (hgiven : a.lookup Setting.token.key = some (.string token))
    (hfilled : Text.isBlankText token = false) :
    required a env .token = .ok (Text.trim token) := by
  have htext : text? a env .token = some (Text.trim token) :=
    (text?_iff_given_of_text rfl).mpr (.attribute hgiven hfilled)
  rw [required, htext]

theorem DifferInToken.text?_eq (h : DifferInToken a a' token token')
    (hs : s.key ≠ Setting.token.key) : text? a' env s = text? a env s := by
  unfold text?
  rw [h.others s.key hs]

theorem DifferInToken.numeral?_eq (h : DifferInToken a a' token token')
    (hs : s.key ≠ Setting.token.key) : numeral? a' env s = numeral? a env s := by
  unfold numeral?
  rw [h.others s.key hs, h.text?_eq hs]

theorem DifferInToken.number?_eq {least : Nat} (h : DifferInToken a a' token token')
    (hs : s.key ≠ Setting.token.key) : number? a' env s least = number? a env s least := by
  unfold number?
  rw [h.numeral?_eq hs]

theorem DifferInToken.required_eq (h : DifferInToken a a' token token')
    (hs : s.key ≠ Setting.token.key) : required a' env s = required a env s := by
  unfold required
  rw [h.text?_eq hs]

/-- With another token, the same error or the same settings but for the token are resolved. -/
theorem resolve_withToken (env : Environment) (h : DifferInToken a a' token token') :
    resolve a' env = (resolve a env).map (·.withToken (Text.trim token')) := by
  have hinterval : number? a' env .pollInterval 0 = number? a env .pollInterval 0 :=
    h.number?_eq (by decide)
  have hattempts : attempts? a' env = attempts? a env := by
    unfold attempts?
    rw [h.number?_eq (by decide)]
  have hsubscription : required a' env .subscription = required a env .subscription :=
    h.required_eq (by decide)
  have htimeout : number? a' env .operationTimeout 1 = number? a env .operationTimeout 1 :=
    h.number?_eq (by decide)
  have hendpoint : text? a' env .endpoint = text? a env .endpoint := h.text?_eq (by decide)
  unfold resolve
  rw [required_token h.given h.filled, required_token h.given' h.filled', hinterval, hattempts,
    hsubscription, htimeout, hendpoint]
  cases number? a env .pollInterval 0 with
  | error err => rfl
  | ok interval =>
  cases attempts? a env with
  | error err => rfl
  | ok attempts =>
  cases required a env .subscription with
  | error err => rfl
  | ok subscription => cases number? a env .operationTimeout 1 <;> rfl

/-! ### What the token has a say in -/

/-- Answers calls of a host as settings say. -/
def serve (serial : Nat) (wording : Wording) (settings : Settings) (calls : List HostCall) :
    StateM Session (List HostAnswer) :=
  let (provider, endpoint) := Provider.ofSettings serial wording settings
  provider.handleAll (endpoint.backend settings.subscription) calls

/-- The client of a call, as settings say. -/
def client (serial : Nat) (wording : Wording) (settings : Settings) (ctx : Context) :
    Client Session (Option Poller) :=
  (Provider.ofSettings serial wording settings).2.client settings.subscription ctx

/-- Two settings work alike: the calls of a host and what has no call of its own give the same
results, and the same is sent at the same times, but for the token. -/
structure WorkAlike (serial : Nat) (wording : Wording) (settings settings' : Settings)
    (s : Session) : Prop where
  serve : ∀ calls,
    (settings'.serve serial wording calls s).1 = (settings.serve serial wording calls s).1 ∧
      Session.Swapped settings.token settings'.token (settings.serve serial wording calls s).2
        (settings'.serve serial wording calls s).2
  createOrUpdate : ∀ ctx a,
    (Lifecycle.createOrUpdate (settings'.client serial wording ctx) a s).1 =
        (Lifecycle.createOrUpdate (settings.client serial wording ctx) a s).1 ∧
      Session.Swapped settings.token settings'.token
        (Lifecycle.createOrUpdate (settings.client serial wording ctx) a s).2
        (Lifecycle.createOrUpdate (settings'.client serial wording ctx) a s).2

theorem workAlike_withToken {serial : Nat} {wording : Wording} {settings : Settings}
    (h : IsHeaderText settings.token) (h' : IsHeaderText token) {s : Session}
    (hweb : s.web.IgnoresTokens) :
    WorkAlike serial wording settings (settings.withToken token) s where
  serve calls :=
    (Provider.ofSettings serial wording settings).1.handleAll_alike
      (Endpoint.backend_alike (e := (Provider.ofSettings serial wording settings).2) h h'
        settings.subscription) calls s s (.refl hweb)
  createOrUpdate ctx a :=
    Lifecycle.createOrUpdate_alike
      (Endpoint.client_alike (e := (Provider.ofSettings serial wording settings).2) h h'
        settings.subscription ctx) a s s (.refl hweb)

/-- The token has a say in nothing but the authorization of requests. With another one, the same
error comes of attributes, or settings that differ in nothing else and describe themselves in the
same way. Whatever comes of requests, if it does not depend on tokens that may stand in a header,
then with either of two such tokens all calls end with the same result and send the same requests
but for the token. -/
theorem token_only_authorizes (env : Environment) (h : DifferInToken a a' token token') :
    (∃ e, resolve a env = .error e ∧ resolve a' env = .error e) ∨
      ∃ settings settings', resolve a env = .ok settings ∧ resolve a' env = .ok settings' ∧
        settings.token = Text.trim token ∧ settings' = settings.withToken (Text.trim token') ∧
        settings'.describe = settings.describe ∧
        (IsHeaderText (Text.trim token) → IsHeaderText (Text.trim token') →
          ∀ serial wording (s : Session), s.web.IgnoresTokens →
            WorkAlike serial wording settings settings' s) := by
  have hresolve' := resolve_withToken env h
  cases hresolve : resolve a env with
  | error e =>
      rw [hresolve] at hresolve'
      exact .inl ⟨e, rfl, hresolve'⟩
  | ok settings =>
      rw [hresolve] at hresolve'
      have htoken : settings.token = Text.trim token :=
        (yields_of_resolve hresolve).token.unique (.attribute h.given h.filled)
      refine .inr ⟨settings, _, rfl, hresolve', htoken, rfl, rfl,
        fun hheader hheader' serial wording s hweb => ?_⟩
      exact workAlike_withToken (htoken ▸ hheader) hheader' hweb

/-- Whether a character may stand in a header. -/
def isHeaderChar (c : Char) : Bool :=
  c == '\t' || (' ' ≤ c && c != '\x7f')

theorem isHeaderText_iff {t : String} : IsHeaderText t ↔ t.toList.all isHeaderChar = true := by
  simp [IsHeaderText, isHeaderChar]

/-- A web in which requests are refused here if a header cannot be written down, and elsewhere in
any case. -/
def refusingWeb : Web := fun _ r =>
  if r.headers.all (·.2.toList.all isHeaderChar) then
    .answer { status := 403, body := "\x7b\"error\":\x7b\"code\":\"Forbidden\"\x7d\x7d" }
  else .failure "builder error"

theorem refusingWeb_ignoresTokens : refusingWeb.IgnoresTokens := by
  intro token token' h h' past past' r r' _ hr
  cases hr with
  | same => rfl
  | authorized method url before after body =>
      have hbearer : ∀ t, IsHeaderText t → ("Bearer " ++ t).toList.all isHeaderChar = true := by
        intro t ht
        rw [String.toList_append, List.all_append, isHeaderText_iff.mp ht]
        decide
      unfold refusingWeb
      simp only [List.all_append, List.all_cons, hbearer token h, hbearer token' h']

/-- A policy is read with either of two tokens, and refused. -/
theorem token_only_authorizes_refused :
    let a (token : String) : Attributes :=
      [("access_token", .string token), ("subscription_id", .string "sub")]
    let settings (token : String) : Settings :=
      ⟨"sub", token, "https://management.azure.com", ⟨10000, 360⟩, none⟩
    let start : Session := { web := refusingWeb }
    let calls : List HostCall :=
      [.read ⟨Policy.resourceType, "waf"⟩ (some (Policy.resourceId "sub" "rg" "waf").text)]
    let wording : Wording := fun _ _ => "?"
    DifferInToken (a "first") (a "second\n") "first" "second\n" ∧
      resolve (a "first") (fun _ => none) = .ok (settings "first") ∧
      resolve (a "second\n") (fun _ => none) = .ok (settings "second") ∧
      ((settings "first").serve 0 wording calls start).2.sent.map (·.request.headers) =
        [[("user-agent", "azwaf/0.1.0"), ("authorization", "Bearer first")]] ∧
      List.Forall₂ (Sent.SameBut "first" "second")
        ((settings "first").serve 0 wording calls start).2.sent
        ((settings "second").serve 0 wording calls start).2.sent ∧
      ((settings "second").serve 0 wording calls start).1 =
        ((settings "first").serve 0 wording calls start).1 := by
  intro a settings start calls wording
  have h : DifferInToken (a "first") (a "second\n") "first" "second\n" := by
    refine ⟨fun key hkey => ?_, rfl, rfl, by decide, by decide⟩
    have hne : (key == "access_token") = false := beq_eq_false_iff_ne.mpr hkey
    simp only [a, List.lookup_cons, hne]
  have hfirst : resolve (a "first") (fun _ => none) = .ok (settings "first") := by decide +kernel
  have hsecond : resolve (a "second\n") (fun _ => none) = .ok (settings "second") := by
    decide +kernel
  obtain ⟨e, herror, -⟩ | ⟨s, s', hs, hs', -, -, -, hwork⟩ :=
    token_only_authorizes (fun _ => none) h
  · exact absurd (hfirst.symm.trans herror) (by simp)
  · obtain rfl : settings "first" = s := Except.ok.inj (hfirst.symm.trans hs)
    obtain rfl : settings "second" = s' := Except.ok.inj (hsecond.symm.trans hs')
    have hheader : IsHeaderText (Text.trim "first") := isHeaderText_iff.mpr (by decide +kernel)
    have hheader' : IsHeaderText (Text.trim "second\n") := isHeaderText_iff.mpr (by decide +kernel)
    obtain ⟨hanswers, hswapped⟩ :=
      (hwork hheader hheader' 0 wording start refusingWeb_ignoresTokens).serve calls
    exact ⟨h, hfirst, hsecond, by decide +kernel, hswapped.sent, hanswers⟩

end Settings

end EdgeFirewall
