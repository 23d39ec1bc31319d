import EdgeFirewall.Proofs.Lifecycle.Handling
import EdgeFirewall.Proofs.Lifecycle.Requests
import EdgeFirewall.Proofs.Policy.RoundTrip
import EdgeFirewall.Proofs.Service.Rehearsal

/-! # Providers refine registries

A service that keeps what is put, gives what it keeps and removes what is deleted makes a provider
answer as a registry does, whatever the host calls (`handleAll_eq_answers`). The service is known by
its laws alone (`Backend.Keeps`), which the rehearsal without a plan obeys
(`Rehearsal.backend_keeps`). Each call keeps the documents of the service in step with the registry
(`handle_inStep`). -/

namespace EdgeFirewall

variable {σ η : Type}

/-! ### Backends -/

/-- A backend whose clients keep policies, for a provider that can give each call a context. -/
def Backend.Keeps (b : Backend σ η) (f : Folding) (p : Provider) (subscription : String)
    (Holds : σ → (StoreKey → Option Document) → Prop) : Prop :=
  ∀ s m, Holds s m → ∃ ctx, p.context? (b.clock s) = some ctx ∧
    (b.connect ctx).Keeps f subscription Holds

/-! ### Documents and what a registry holds of them -/

theorem toAttributes_asPut (d : Document) (name group : String) :
    d.asPut.toAttributes name group = d.toAttributes name group := by
  cases d with
  | mk _ _ _ _ _ _ properties => cases properties <;> rfl

/-- Name and group stand in the attributes as they are given, in the places of their keys. -/
theorem attributesIn_eq_respelled (d : Document) (mode : PolicyMode) (name group : String)
    (address : Policy.Address) :
    d.attributesIn mode address.name address.group =
      Registry.respelled (d.attributesIn mode name group) address := by
  dsimp only [Registry.respelled, Document.attributesIn]
  generalize (d.properties.getD {}).settings.getD {} = settings
  -- which optional entries there are decides where the two keys stand
  cases settings.blockBody <;> cases settings.blockStatusCode <;> cases settings.redirectUrl <;> rfl

theorem toAttributes_eq_respelled {d : Document} {name group : String} {a : Attributes}
    (h : d.toAttributes name group = .ok a) (address : Policy.Address) :
    d.toAttributes address.name address.group = .ok (Registry.respelled a address) := by
  unfold Document.toAttributes at h ⊢
  cases hmode : d.mode? with
  | none => simp [hmode] at h
  | some mode =>
      simp only [hmode, Except.ok.injEq] at h ⊢
      rw [← h]
      exact attributesIn_eq_respelled d mode name group address

/-- The document of a policy, and what a registry holds of it. -/
def Represents (d : Document) (s : PolicyState) : Prop :=
  d.id = some s.id ∧ ∃ name group, d.toAttributes name group = .ok s.attributes

/-- Whether the documents of a service in some state are those of a registry. -/
def InStep (Holds : σ → (StoreKey → Option Document) → Prop) (s : σ) (m : Registry) : Prop :=
  ∃ documents, Holds s documents ∧ ∀ key, Option.Rel Represents (documents key) (m key)

namespace InStep

variable {Holds : σ → (StoreKey → Option Document) → Prop} {s : σ} {m : Registry}

theorem update {documents : StoreKey → Option Document} {key : StoreKey} {d : Option Document}
    {state : Option PolicyState} (hs : Holds s (Function.update documents key d))
    (hm : ∀ k, Option.Rel Represents (documents k) (m k)) (hd : Option.Rel Represents d state) :
    InStep Holds s (Function.update m key state) := by
  refine ⟨_, hs, fun k => ?_⟩
  by_cases hk : k = key
  · subst hk
    rw [Function.update_self, Function.update_self]
    exact hd
  · rw [Function.update_of_ne hk, Function.update_of_ne hk]
    exact hm k

variable {documents : StoreKey → Option Document} {key : StoreKey}

theorem absent (hm : ∀ k, Option.Rel Represents (documents k) (m k)) (h : m key = none) :
    documents key = none := by
  have hkey := hm key
  rw [h] at hkey
  cases hd : documents key with
  | none => rfl
  | some d => simp [hd] at hkey

theorem present (hm : ∀ k, Option.Rel Represents (documents k) (m k)) {state : PolicyState}
    (h : m key = some state) : ∃ d, documents key = some d ∧ Represents d state := by
  have hkey := hm key
  rw [h] at hkey
  cases hd : documents key with
  | none => simp [hd] at hkey
  | some d =>
      rw [hd, Option.rel_some_some] at hkey
      exact ⟨d, rfl, hkey⟩

end InStep

/-! ### The calls of a client, told by the registry -/

namespace Client.Keeps

variable {c : Client σ η} {f : Folding} {subscription : String}
  {Holds : σ → (StoreKey → Option Document) → Prop} {s : σ} {m : Registry}

theorem get_of_absent (h : c.Keeps f subscription Holds) (hs : InStep Holds s m)
    {group name : String} (hm : m (.of f group name) = none) :
    ∃ e s', c.get group name s = (.error e, s') ∧ e.isNotFound = true ∧ InStep Holds s' m := by
  obtain ⟨documents, hholds, hrel⟩ := hs
  obtain ⟨e, s', hget, he, hs'⟩ := h.get_none group name hholds (InStep.absent hrel hm)
  exact ⟨e, s', hget, he, documents, hs', hrel⟩

theorem get_of_present (h : c.Keeps f subscription Holds) (hs : InStep Holds s m)
    {group name : String} {state : PolicyState} (hm : m (.of f group name) = some state) :
    ∃ d s', c.get group name s = (.ok d, s') ∧ Represents d state ∧ InStep Holds s' m := by
  obtain ⟨documents, hholds, hrel⟩ := hs
  obtain ⟨d, hd, hstate⟩ := InStep.present hrel hm
  obtain ⟨s', hget, hs'⟩ := h.get_some group name hholds hd
  exact ⟨d, s', hget, hstate, documents, hs', hrel⟩

theorem delete_of_absent (h : c.Keeps f subscription Holds) (hs : InStep Holds s m)
    {group name : String} (hm : m (.of f group name) = none) :
    ∃ e s', c.delete group name s = (.error e, s') ∧ e.isNotFound = true ∧
      InStep Holds s' m := by
  obtain ⟨documents, hholds, hrel⟩ := hs
  obtain ⟨e, s', hdelete, he, hs'⟩ := h.delete_none group name hholds (InStep.absent hrel hm)
  exact ⟨e, s', hdelete, he, documents, hs', hrel⟩

theorem delete_of_present (h : c.Keeps f subscription Holds) (hs : InStep Holds s m)
    {group name : String} {state : PolicyState} (hm : m (.of f group name) = some state) :
    ∃ operation s', c.delete group name s = (.ok operation, s') ∧
      InStep Holds s' (Function.update m (.of f group name) none) := by
  obtain ⟨documents, hholds, hrel⟩ := hs
  obtain ⟨d, hd, -⟩ := InStep.present hrel hm
  obtain ⟨operation, s', hdelete, hs'⟩ := h.delete_some group name hholds hd
  exact ⟨operation, s', hdelete, .update hs' hrel .none⟩

theorem wait_inStep (h : c.Keeps f subscription Holds) (hs : InStep Holds s m) (operation : η) :
    ∃ s', c.wait operation s = (.ok (), s') ∧ InStep Holds s' m := by
  obtain ⟨documents, hholds, hrel⟩ := hs
  obtain ⟨s', hwait, hs'⟩ := h.wait operation hholds
  exact ⟨s', hwait, documents, hs', hrel⟩

end Client.Keeps

/-! ### Steps in the life of a policy -/

namespace Lifecycle

variable {c : Client σ η} {f : Folding} {subscription : String}
  {Holds : σ → (StoreKey → Option Document) → Prop} {s : σ} {m : Registry}
  {a : Attributes} {p : Policy}

/-- A policy has one key, however its names are spelled. -/
theorem storeKey_eq_of_eqIgnoringCase {group group' name name' : String}
    (hname : Text.eqIgnoringCase name name' = true)
    (hgroup : Text.eqIgnoringCase group group' = true) :
    StoreKey.of f group name = .of f group' name' := by
  rw [StoreKey.of, StoreKey.of, f.fold_eq_of_eqIgnoringCase _ _ hname,
    f.fold_eq_of_eqIgnoringCase _ _ hgroup]

/-- A policy that is put is found in place, with the attributes it was declared with. -/
theorem apply_inStep (h : c.Keeps f subscription Holds) (hs : InStep Holds s m)
    (hp : Policy.ofAttributes a = .ok p) :
    ∃ s', apply c p s = (.ok (Registry.placed subscription p a), s') ∧
      InStep Holds s' (Function.update m (.of f p.resourceGroup p.name)
        (some (Registry.placed subscription p a))) := by
  obtain ⟨documents, hholds, hm⟩ := hs
  obtain ⟨operation, s₁, d, hput, hasPut, hid, h₁⟩ :=
    h.put p.resourceGroup p.name p.toDocument hholds
  obtain ⟨s₂, hwait, h₂⟩ := h.wait operation h₁
  obtain ⟨s₃, hget, h₃⟩ := h.get_some p.resourceGroup p.name h₂ (Function.update_self _ _ _)
  have hattributes : d.toAttributes p.name p.resourceGroup = .ok (Policy.canonical a) := by
    rw [← toAttributes_asPut, hasPut, toAttributes_asPut]
    exact Policy.toAttributes_toDocument hp
  refine ⟨s₃, ?_, .update h₃ hm (.some ⟨hid, p.name, p.resourceGroup, hattributes⟩)⟩
  simp only [apply, bind_apply, pure_apply, hput, hwait, hget, hid, stateOf, hattributes]
  rfl

theorem create_inStep (h : c.Keeps f subscription Holds) (hs : InStep Holds s m)
    (ownSubscription : String) (a : Attributes) :
    ∃ s', create c ownSubscription a s = ((m.create f subscription a).1, s') ∧
      InStep Holds s' (m.create f subscription a).2 := by
  unfold create Registry.create
  cases hp : Policy.ofAttributes a with
  | error vs =>
      rw [declared_of_violations hp]
      exact ⟨s, rfl, hs⟩
  | ok p =>
      rw [declared_eq_ok_iff.mpr hp]
      dsimp only
      cases hm : m (.of f p.resourceGroup p.name) with
      | none =>
          obtain ⟨e, s₁, hget, he, h₁⟩ := h.get_of_absent hs hm
          obtain ⟨s₂, happly, h₂⟩ := apply_inStep h h₁ hp
          refine ⟨s₂, ?_, h₂⟩
          simp only [bind_apply, hget, he, happly, if_true]
      | some state =>
          obtain ⟨d, s₁, hget, hstate, h₁⟩ := h.get_of_present hs hm
          refine ⟨s₁, ?_, h₁⟩
          simp only [bind_apply, hget, pure_apply, hstate.1, Option.getD_some]

/-- An update that keeps a policy in place finds it, or not, and puts it. -/
theorem update_inPlace (h : c.Keeps f subscription Holds) (hs : InStep Holds s m)
    (hp : Policy.ofAttributes a = .ok p) {identifier : String} {address : Policy.Address}
    (haddress : Policy.Address.parse identifier = .ok address)
    (hname : Text.lowerAscii p.name = Text.lowerAscii address.name)
    (hgroup : Text.lowerAscii p.resourceGroup = Text.lowerAscii address.group) :
    ∃ s', update c identifier a s = ((m.update f subscription identifier a).1, s') ∧
      InStep Holds s' (m.update f subscription identifier a).2 := by
  have hstays : replacements address p = [] :=
    replacements_eq_nil_iff.mpr ⟨beq_iff_eq.mpr hname, beq_iff_eq.mpr hgroup⟩
  have hkey : StoreKey.of f p.resourceGroup p.name = .of f address.group address.name :=
    storeKey_eq_of_eqIgnoringCase (beq_iff_eq.mpr hname) (beq_iff_eq.mpr hgroup)
  unfold update Registry.update
  rw [haddress, declared_eq_ok_iff.mpr hp]
  dsimp only
  rw [hp, hstays]
  dsimp only
  rw [if_pos ⟨hname, hgroup⟩]
  cases hm : m (.of f address.group address.name) with
  | none =>
      obtain ⟨e, s₁, hget, he, h₁⟩ := h.get_of_absent hs hm
      refine ⟨s₁, ?_, h₁⟩
      simp only [bind_apply, hget, he, pure_apply, if_true]
  | some state =>
      obtain ⟨d, s₁, hget, -, h₁⟩ := h.get_of_present hs hm
      obtain ⟨s₂, happly, h₂⟩ := apply_inStep h h₁ hp
      rw [hkey] at h₂
      refine ⟨s₂, ?_, h₂⟩
      simp only [bind_apply, hget, happly]

theorem update_of_displaced (c : Client σ η) (s : σ) (hp : Policy.ofAttributes a = .ok p)
    {identifier : String} {address : Policy.Address}
    (haddress : Policy.Address.parse identifier = .ok address) {vs : List Violation}
    (h : p.Displaced address vs) :
    update c identifier a s = (.error (Registry.displaced address vs), s) := by
  obtain ⟨hvs, hne⟩ := displaced_iff.mp h
  obtain ⟨v, vs, rfl⟩ := List.exists_cons_of_ne_nil hne
  unfold update
  rw [haddress, declared_eq_ok_iff.mpr hp]
  dsimp only
  rw [hvs]
  rfl

/-- An update that would move a policy is refused by the registry as well. -/
theorem update_elsewhere (m : Registry) (hp : Policy.ofAttributes a = .ok p) {identifier : String}
    {address : Policy.Address} (haddress : Policy.Address.parse identifier = .ok address)
    {vs : List Violation} (h : p.Displaced address vs) :
    m.update f subscription identifier a = (.error (Registry.displaced address vs), m) := by
  unfold Registry.update
  rw [haddress]
  dsimp only
  rw [hp]
  dsimp only
  cases h with
  | name hname hgroup => rw [if_neg (hname ·.1), if_neg hname, if_pos hgroup]; rfl
  | group hname hgroup => rw [if_neg (hgroup ·.2), if_pos hname]; rfl
  | both hname hgroup => rw [if_neg (hname ·.1), if_neg hname, if_neg hgroup]; rfl

theorem update_inStep (h : c.Keeps f subscription Holds) (hs : InStep Holds s m)
    (identifier : String) (a : Attributes) :
    ∃ s', update c identifier a s = ((m.update f subscription identifier a).1, s') ∧
      InStep Holds s' (m.update f subscription identifier a).2 := by
  cases haddress : Policy.Address.parse identifier with
  | error e =>
      unfold update Registry.update
      rw [haddress]
      exact ⟨s, rfl, hs⟩
  | ok address =>
      cases hp : Policy.ofAttributes a with
      | error vs =>
          unfold update Registry.update
          rw [haddress, declared_of_violations hp]
          dsimp only
          rw [hp]
          exact ⟨s, rfl, hs⟩
      | ok p =>
          by_cases hstays : Text.lowerAscii p.name = Text.lowerAscii address.name ∧
              Text.lowerAscii p.resourceGroup = Text.lowerAscii address.group
          · exact update_inPlace h hs hp haddress hstays.1 hstays.2
          · obtain ⟨vs, hvs⟩ : ∃ vs, p.Displaced address vs := by
              refine ⟨_, displaced_iff.mpr ⟨rfl, fun hnil => hstays ?_⟩⟩
              obtain ⟨hname, hgroup⟩ := replacements_eq_nil_iff.mp hnil
              exact ⟨eq_of_beq hname, eq_of_beq hgroup⟩
            rw [update_elsewhere m hp haddress hvs]
            exact ⟨s, update_of_displaced c s hp haddress hvs, hs⟩

/-- A policy is read with its name and its group as the identifier spells them. -/
theorem read_inStep (h : c.Keeps f subscription Holds) (hs : InStep Holds s m)
    (identifier : String) :
    ∃ result s', read c identifier s = (result, s') ∧ InStep Holds s' m ∧
      match m.find? f identifier with
      | .error e => result = .error e ∧ e.isNotFound = false
      | .ok none => ∃ e, result = .error e ∧ e.isNotFound = true
      | .ok (some state) => result = .ok state := by
  unfold read Registry.find?
  cases Policy.Address.parse identifier with
  | error e => exact ⟨_, s, rfl, hs, rfl, rfl⟩
  | ok address =>
      dsimp only
      cases hm : m (StoreKey.of f address.group address.name) with
      | none =>
          obtain ⟨e, s₁, hget, he, h₁⟩ := h.get_of_absent hs hm
          refine ⟨_, s₁, ?_, h₁, .notFound address.name address.group, rfl, rfl⟩
          simp only [bind_apply, hget, he, pure_apply, if_true]
      | some state =>
          obtain ⟨d, s₁, hget, ⟨hid, name, group, hattributes⟩, h₁⟩ := h.get_of_present hs hm
          refine ⟨_, s₁, ?_, h₁, rfl⟩
          simp only [bind_apply, hget, pure_apply, hid, Option.getD_some, stateOf,
            toAttributes_eq_respelled hattributes address]

/-- Deleting a policy that is not there changes nothing, as does unbinding its key. -/
theorem delete_inStep (h : c.Keeps f subscription Holds) (hs : InStep Holds s m)
    (identifier : String) :
    ∃ s', delete c identifier s = ((m.delete f identifier).1, s') ∧
      InStep Holds s' (m.delete f identifier).2 := by
  unfold delete Registry.delete
  cases Policy.Address.parse identifier with
  | error e => exact ⟨s, rfl, hs⟩
  | ok address =>
      dsimp only
      cases hm : m (StoreKey.of f address.group address.name) with
      | none =>
          obtain ⟨e, s₁, hdelete, he, h₁⟩ := h.delete_of_absent hs hm
          refine ⟨s₁, ?_, ?_⟩
          · simp only [bind_apply, hdelete, he, pure_apply, if_true]
          · rw [← hm, Function.update_eq_self]
            exact h₁
      | some state =>
          obtain ⟨operation, s₁, hdelete, h₁⟩ := h.delete_of_present hs hm
          obtain ⟨s₂, hwait, h₂⟩ := h.wait_inStep h₁ operation
          refine ⟨s₂, ?_, h₂⟩
          simp only [bind_apply, hdelete, hwait, pure_apply]

end Lifecycle

/-! ### Calls of a host -/

namespace Provider

variable {p : Provider} {b : Backend σ η} {f : Folding} {subscription : String}
  {Holds : σ → (StoreKey → Option Document) → Prop} {s : σ} {m : Registry} {key : ResourceKey}

theorem run_of_known (hb : b.Keeps f p subscription Holds) (hs : InStep Holds s m)
    (hkey : key.type = Policy.resourceType) :
    ∃ c : Client σ η, c.Keeps f subscription Holds ∧
      ∀ (α : Type) (work : Client σ η → StateM σ (Except PolicyError α)),
        p.run b key work s = (.ok (work c s).1, (work c s).2) := by
  obtain ⟨documents, hholds, -⟩ := hs
  obtain ⟨ctx, hctx, hkeeps⟩ := hb s documents hholds
  refine ⟨b.connect ctx, hkeeps, fun α work => ?_⟩
  unfold run
  rw [if_pos hkey, hctx]
  rfl

theorem read_of_known (hb : b.Keeps f p subscription Holds) (hs : InStep Holds s m)
    (hkey : key.type = Policy.resourceType) (identifier : Option String) :
    ∃ result s', p.read b key identifier s = (result, s') ∧ InStep Holds s' m ∧
      result.map some = (m.answerKnown f subscription (.read key identifier)).1 := by
  obtain ⟨c, hc, hrun⟩ := run_of_known hb hs hkey
  cases identifier with
  | none =>
      refine ⟨.ok (.absent key), s, ?_, hs, rfl⟩
      simp only [read, hkey, if_true, pure_apply]
  | some identifier =>
      obtain ⟨result, s', hread, hs', hresult⟩ := Lifecycle.read_inStep hc hs identifier
      simp only [read, bind_apply, hrun, hread, Registry.answerKnown]
      cases hfind : m.find? f identifier with
      | error e =>
          rw [hfind] at hresult
          obtain ⟨rfl, he⟩ := hresult
          refine ⟨.error (policyFailure key e), s', ?_, hs', rfl⟩
          simp only [he]
          rfl
      | ok found =>
          cases found with
          | none =>
              rw [hfind] at hresult
              obtain ⟨e, rfl, he⟩ := hresult
              refine ⟨.ok (.absent key), s', ?_, hs', rfl⟩
              simp only [he, if_true, pure_apply]
          | some state =>
              rw [hfind] at hresult
              obtain rfl := hresult
              exact ⟨.ok (stateOf key state), s', rfl, hs', rfl⟩

theorem concluded_eq (key : ResourceKey) (x : Except PolicyError PolicyState) :
    (conclude key (.ok x)).map some = Registry.concluded key x := by
  cases x <;> rfl

/-- A read does not change a registry. -/
theorem answerKnown_read_snd (identifier : Option String) :
    (m.answerKnown f subscription (.read key identifier)).2 = m := by
  cases identifier with
  | none => rfl
  | some identifier =>
      unfold Registry.answerKnown
      dsimp only
      split <;> rfl

theorem handle_of_known (hb : b.Keeps f p subscription Holds) (hs : InStep Holds s m)
    {call : HostCall} (hkey : call.key.type = Policy.resourceType) :
    ∃ s', p.handle b call s = ((m.answerKnown f subscription call).1, s') ∧
      InStep Holds s' (m.answerKnown f subscription call).2 := by
  obtain ⟨c, hc, hrun⟩ := run_of_known hb hs hkey
  cases call with
  | create r =>
      obtain ⟨s', hcreate, hs'⟩ := Lifecycle.create_inStep hc hs p.subscription r.attributes
      refine ⟨s', ?_, hs'⟩
      simp only [HostCall.key] at hrun
      simp only [handle, create, bind_apply, pure_apply, hrun, hcreate, concluded_eq]
      rfl
  | read key identifier =>
      simp only [HostCall.key] at hkey
      obtain ⟨result, s', hread, hs', hresult⟩ := read_of_known hb hs hkey identifier
      refine ⟨s', ?_, ?_⟩
      · simp only [handle, bind_apply, pure_apply, hread, hresult]
      · rw [answerKnown_read_snd]
        exact hs'
  | update key identifier target =>
      obtain ⟨s', hupdate, hs'⟩ := Lifecycle.update_inStep hc hs identifier target.attributes
      refine ⟨s', ?_, hs'⟩
      simp only [HostCall.key] at hrun
      simp only [handle, update, bind_apply, pure_apply, hrun, hupdate, concluded_eq]
      rfl
  | delete key identifier =>
      obtain ⟨s', hdelete, hs'⟩ := Lifecycle.delete_inStep hc hs identifier
      simp only [HostCall.key] at hrun
      simp only [handle, delete, bind_apply, hrun, hdelete, Registry.answerKnown]
      generalize m.delete f identifier = removed at hs' ⊢
      obtain ⟨result, m'⟩ := removed
      cases result with
      | error e => exact ⟨s', rfl, hs'⟩
      | ok _ => exact ⟨s', rfl, hs'⟩

/-- One call is answered as by the registry, and leaves the service in step with it. -/
theorem handle_inStep (hb : b.Keeps f p subscription Holds) (hs : InStep Holds s m)
    (call : HostCall) :
    ∃ s', p.handle b call s = ((m.answer f subscription call).1, s') ∧
      InStep Holds s' (m.answer f subscription call).2 := by
  unfold Registry.answer
  by_cases hkey : call.key.type = Policy.resourceType
  · have htype : call.key.type = "frontdoor_firewall_policy" := hkey
    rw [if_pos htype]
    exact handle_of_known hb hs hkey
  · have htype : call.key.type ≠ "frontdoor_firewall_policy" := hkey
    rw [if_neg htype]
    exact ⟨s, handle_of_unknown hkey s, hs⟩

theorem handleAll_of_inStep (hb : b.Keeps f p subscription Holds) (hs : InStep Holds s m)
    (calls : List HostCall) : (p.handleAll b calls s).1 = m.answers f subscription calls := by
  induction calls generalizing s m with
  | nil => rfl
  | cons call rest ih =>
      obtain ⟨s', hcall, hs'⟩ := handle_inStep hb hs call
      simp only [handleAll, bind_apply, hcall, pure_apply, Registry.answers, ih hs']

end Provider

/-! ### Rehearsals keep policies -/

namespace Rehearsal

/-- A rehearsal for the policies of a subscription as a backend. -/
def backend (f : Folding) (subscription : String) : Backend Rehearsal Unit where
  connect := client f subscription
  clock := Rehearsal.clock

theorem backend_keeps (f : Folding) (subscription : String) {p : Provider} {ctx : Context}
    {clock : Clock} (hp : p.context? clock = some ctx) (hctx : ctx.refusal? clock = none) :
    (backend f subscription).Keeps f p subscription (Holds clock) := by
  intro r m hr
  refine ⟨ctx, ?_, client_keeps f subscription hctx⟩
  rw [← hp, ← hr.1]
  rfl

end Rehearsal

/-! ### Runs -/

namespace Provider

variable {p : Provider} {b : Backend σ η} {f : Folding} {subscription : String}
  {Holds : σ → (StoreKey → Option Document) → Prop} {s : σ}

/-- Over a service that keeps policies and holds none at first, every call of every run is answered
as by a registry that is empty at first. -/
theorem handleAll_eq_answers (hb : b.Keeps f p subscription Holds) (hs : Holds s fun _ => none)
    (calls : List HostCall) :
    (p.handleAll b calls s).1 = Registry.answers f subscription (fun _ => none) calls :=
  handleAll_of_inStep hb ⟨_, hs, fun _ => .none⟩ calls

/-- A policy comes into being, once, is read as someone else spells it, changed, and removed. -/
def sampleCalls : List HostCall :=
  let key : ResourceKey := ⟨Policy.resourceType, "edge"⟩
  let identifier := (Policy.resourceId "sub" "WEB" "Edge").text
  [.create ⟨key, Policy.qualifiedAttributes⟩, .create ⟨key, Policy.qualifiedAttributes⟩,
    .read key (some identifier), .update key identifier ⟨key, Policy.qualifiedAttributes⟩,
    .delete key identifier, .read key (some identifier)]

/-- The name of the policy that a host is told to be in place. -/
def nameTold? (answer : HostAnswer) : Option Value :=
  answer.toOption.join.bind fun state => state.attributes.lookup "name"

theorem handleAll_eq_answers_rehearsal :
    let p : Provider := ⟨"sub", .own 0, none⟩
    let b := Rehearsal.backend .ascii "sub"
    b.Keeps .ascii p "sub" (Rehearsal.Holds {}) ∧ Rehearsal.Holds {} {} (fun _ => none) ∧
      (p.handleAll b sampleCalls {}).1 =
        Registry.answers .ascii "sub" (fun _ => none) sampleCalls ∧
      (p.handleAll b sampleCalls {}).1.map nameTold? = [some (.string "edge"), none,
        some (.string "Edge"), some (.string "edge"), none, none] := by
  intro p b
  have hcontext : p.context? {} = some { token := .child (.own 0) } := rfl
  have hkeeps : b.Keeps .ascii p "sub" (Rehearsal.Holds {}) :=
    Rehearsal.backend_keeps .ascii "sub" hcontext rfl
  have hholds : Rehearsal.Holds {} {} (fun _ => none) := ⟨rfl, rfl, Store.get?_empty⟩
  have hanswers := handleAll_eq_answers hkeeps hholds sampleCalls
  refine ⟨hkeeps, hholds, hanswers, ?_⟩
  decide +kernel

end Provider

end EdgeFirewall
