import EdgeFirewall.Proofs.Lifecycle.DurableIds
import EdgeFirewall.Proofs.ResourceId.Casing
import Mathlib.Data.Bool.AllAny

/-! # Identifiers in another case

A service that compares names without regard to case may spell the identifier of a policy in any
case. What creation gives has the name and the resource group as they were declared, what is read
has them as the identifier spells them, and otherwise the two agree
(`Lifecycle.create_then_read_respelled`): so reading back what was created leaves the attributes as
they were exactly if the service spells both as they were declared. -/

namespace EdgeFirewall

variable {σ η : Type}

/-! ### Services that spell identifiers -/

/-- The document that a service gives for one that was put under a group and a name. -/
structure Document.Mirrors (d put : Document) (subscription group name : String) : Prop where
  asPut : d.asPut = put.asPut
  id : ∃ id, d.id = some id ∧
    Text.eqIgnoringCase id (Policy.resourceId subscription group name).text = true

/-- The service sets nothing that the attributes of a policy tell. -/
theorem Document.Mirrors.toAttributes {d put : Document} {subscription group name : String}
    (h : d.Mirrors put subscription group name) (name' group' : String) :
    d.toAttributes name' group' = put.toAttributes name' group' := by
  rw [← toAttributes_asPut, h.asPut, toAttributes_asPut]

/-- A client of a service that stores what is put, once the operation for that is over, and gives it
with an identifier whose ASCII letters may be in any case. `Holds s m` says that in state `s` the
documents `m` are those that were put. -/
structure Client.Stores (c : Client σ η) (subscription : String)
    (Holds : σ → (StoreKey → Option Document) → Prop) : Prop where
  put : ∀ {s s₁ s₂ m operation} (group name) (d : Document), Holds s m →
    c.put group name d s = (.ok operation, s₁) → c.wait operation s₁ = (.ok (), s₂) →
    Holds s₂ (Function.update m (.of .ascii group name) (some d))
  get : ∀ {s m put} (group name), Holds s m → m (.of .ascii group name) = some put →
    ∃ d s', c.get group name s = (.ok d, s') ∧ d.Mirrors put subscription group name ∧ Holds s' m
  get_error : ∀ {s s' m e} (group name), Holds s m → c.get group name s = (.error e, s') →
    Holds s' m

/-! ### Spelling names and groups -/

namespace Registry

/-- The spelling can be told from the attributes. -/
theorem respelled_inj {a : Attributes} {address address' : Policy.Address} :
    respelled a address = respelled a address' ↔ address = address' := by
  refine ⟨fun h => ?_, fun h => h ▸ rfl⟩
  have hne : "name" ≠ "resource_group_name" := by decide
  have hgroup := congrArg (List.lookup "resource_group_name") h
  have hname := congrArg (List.lookup "name") h
  unfold respelled at hgroup hname
  rw [Attributes.lookup_set_self, Attributes.lookup_set_self, Option.some.injEq,
    Value.string.injEq] at hgroup
  rw [Attributes.lookup_set_of_ne hne, Attributes.lookup_set_of_ne hne, Attributes.lookup_set_self,
    Attributes.lookup_set_self, Option.some.injEq, Value.string.injEq] at hname
  exact congrArg₂ Policy.Address.mk hgroup hname

end Registry

namespace Policy

variable {subscription group group' name name' : String} {a : Attributes} {p : Policy}

theorem eqIgnoringCase_text_resourceId (hgroup : Text.eqIgnoringCase group group' = true)
    (hname : Text.eqIgnoringCase name name' = true) :
    Text.eqIgnoringCase (resourceId subscription group name).text
      (resourceId subscription group' name').text = true :=
  ResourceId.eqIgnoringCase_text (Text.eqIgnoringCase_self _) hgroup (Text.eqIgnoringCase_self _)
    hname

theorem HasDurableId.parse_text (h : p.HasDurableId) (hp : ofAttributes a = .ok p)
    (hsubscription : ResourceId.IsClean subscription) :
    Address.parse (resourceId subscription p.resourceGroup p.name).text =
      .ok ⟨p.resourceGroup, p.name⟩ := by
  obtain ⟨hgroup, hname⟩ := filled_of_ofAttributes hp
  refine (parse_text_iff hsubscription ?_ hname).mpr h
  rintro hempty
  simp [hempty, Text.isBlankText] at hgroup

end Policy

/-! ### Creating and reading -/

namespace Lifecycle

variable {c c' : Client σ η} {subscription identifier own : String}
  {Holds : σ → (StoreKey → Option Document) → Prop} {s s₁ : σ} {m : StoreKey → Option Document}
  {a attributes : Attributes} {p : Policy} {state : PolicyState} {put : Document}
  {address : Policy.Address}

/-- A policy that attributes declare has just been put where the documents `m` were in place, and
this is its state: its attributes have its name and its group as they were declared. -/
structure HasPut (subscription : String) (Holds : σ → (StoreKey → Option Document) → Prop) (s : σ)
    (m : StoreKey → Option Document) (a : Attributes) (p : Policy) (state : PolicyState) : Prop where
  holds : Holds s (Function.update m (.of .ascii p.resourceGroup p.name) (some p.toDocument))
  attributes : state.attributes = Policy.canonical a
  id : Text.eqIgnoringCase state.id
    (Policy.resourceId subscription p.resourceGroup p.name).text = true

theorem apply_of_stores (h : c.Stores subscription Holds) (hs : Holds s m)
    (hp : Policy.ofAttributes a = .ok p) (happly : apply c p s = (.ok state, s₁)) :
    HasPut subscription Holds s₁ m a p state := by
  unfold apply at happly
  rcases hput : c.put p.resourceGroup p.name p.toDocument s with ⟨e | operation, s₂⟩
  · simp only [bind_apply, hput, pure_apply] at happly
    cases happly
  rcases hwait : c.wait operation s₂ with ⟨e | ⟨⟩, s₃⟩
  · simp only [bind_apply, hput, hwait, pure_apply] at happly
    cases happly
  have hs₃ := h.put _ _ _ hs hput hwait
  obtain ⟨d, s₄, hget, hmirrors, hs₄⟩ :=
    h.get p.resourceGroup p.name hs₃ (Function.update_self _ _ _)
  obtain ⟨id, hid, hcase⟩ := hmirrors.id
  have hattributes : d.toAttributes p.name p.resourceGroup = .ok (Policy.canonical a) := by
    rw [hmirrors.toAttributes, Policy.toAttributes_toDocument hp]
  simp only [bind_apply, hput, hwait, hget, hid, pure_apply, stateOf, hattributes] at happly
  cases happly
  exact ⟨hs₄, rfl, hcase⟩

theorem create_of_stores (h : c.Stores subscription Holds) (hs : Holds s m)
    (hp : Policy.ofAttributes a = .ok p) (hcreate : create c own a s = (.ok state, s₁)) :
    HasPut subscription Holds s₁ m a p state := by
  unfold create at hcreate
  rw [declared_eq_ok_iff.mpr hp] at hcreate
  dsimp only at hcreate
  rw [bind_apply] at hcreate
  rcases hget : c.get p.resourceGroup p.name s with ⟨e | d, s₂⟩
  · simp only [hget] at hcreate
    split at hcreate
    · exact apply_of_stores h (h.get_error _ _ hs hget) hp hcreate
    · cases hcreate
  · rw [hget] at hcreate
    cases hcreate

/-- The attributes that are spelled as the policy was declared are those of its state. -/
theorem HasPut.respelled_eq_iff (h : HasPut subscription Holds s m a p state)
    (hp : Policy.ofAttributes a = .ok p) :
    Registry.respelled state.attributes address = state.attributes ↔
      address = ⟨p.resourceGroup, p.name⟩ := by
  have hdeclared : Registry.respelled state.attributes ⟨p.resourceGroup, p.name⟩ =
      state.attributes := by
    rw [h.attributes, respelled_canonical hp]
  rw [← Registry.respelled_inj (a := state.attributes), hdeclared]

/-- What was put under the address of an identifier is read with that spelling. -/
theorem read_of_stores (h : c'.Stores subscription Holds) (hs : Holds s m)
    (hparse : Policy.Address.parse identifier = .ok address)
    (hm : m (.of .ascii address.group address.name) = some put)
    (hput : put.toAttributes address.name address.group = .ok attributes) :
    ∃ id s', read c' identifier s = (.ok ⟨id, attributes⟩, s') ∧ Text.eqIgnoringCase id
      (Policy.resourceId subscription address.group address.name).text = true := by
  obtain ⟨d, s', hget, hmirrors, -⟩ := h.get address.group address.name hs hm
  obtain ⟨id, hid, hcase⟩ := hmirrors.id
  have hattributes : d.toAttributes address.name address.group = .ok attributes := by
    rw [hmirrors.toAttributes, hput]
  refine ⟨id, s', ?_, hcase⟩
  unfold read
  rw [hparse]
  simp only [bind_apply, hget, pure_apply, hid, Option.getD_some, stateOf, hattributes]

/-- The identifier that creation gave leads to the policy as the service spells it, and the
attributes that are read by it are those that creation gave but for that spelling. -/
theorem read_of_created (h : c.Stores subscription Holds) (h' : c'.Stores subscription Holds)
    (hs : Holds s m) (hsubscription : ResourceId.IsClean subscription)
    (hp : Policy.ofAttributes a = .ok p) (hdurable : p.HasDurableId)
    (hcreate : create c own a s = (.ok state, s₁)) :
    ∃ address state' s₂, Policy.Address.parse state.id = .ok address ∧
      address.lowered = Policy.Address.lowered ⟨p.resourceGroup, p.name⟩ ∧
      read c' state.id s₁ = (.ok state', s₂) ∧
      Text.lowerAscii state'.id = Text.lowerAscii state.id ∧
      state'.attributes = Registry.respelled state.attributes address := by
  have hplaced := create_of_stores h hs hp hcreate
  obtain ⟨address, hparse, hlowered⟩ := Policy.Address.exists_parse_of_eqIgnoringCase hplaced.id
    (hdurable.parse_text hp hsubscription)
  obtain ⟨hgroup, hname⟩ := Policy.Address.mk.inj hlowered
  have hkey : StoreKey.of .ascii address.group address.name = .of .ascii p.resourceGroup p.name :=
    storeKey_eq_of_eqIgnoringCase (beq_iff_eq.mpr hname) (beq_iff_eq.mpr hgroup)
  have hput := toAttributes_eq_respelled (Policy.toAttributes_toDocument hp) address
  obtain ⟨id, s₂, hread, hid'⟩ :=
    read_of_stores h' hplaced.holds hparse (by rw [hkey, Function.update_self]) hput
  refine ⟨address, _, s₂, hparse, hlowered, hread, ?_, by rw [hplaced.attributes]⟩
  have htext : Text.lowerAscii (Policy.resourceId subscription address.group address.name).text =
      Text.lowerAscii (Policy.resourceId subscription p.resourceGroup p.name).text :=
    beq_iff_eq.mp (Policy.eqIgnoringCase_text_resourceId (beq_iff_eq.mpr hgroup)
      (beq_iff_eq.mpr hname))
  calc Text.lowerAscii id
      _ = Text.lowerAscii (Policy.resourceId subscription address.group address.name).text :=
        beq_iff_eq.mp hid'
      _ = Text.lowerAscii (Policy.resourceId subscription p.resourceGroup p.name).text := htext
      _ = Text.lowerAscii state.id := (beq_iff_eq.mp hplaced.id).symm

/-- What is created can be read by the identifier that its creation gave. The identifier spells the
name and the resource group as they were declared, up to the case of letters, the attributes that
are read spell them as the identifier does, and otherwise they are those that creation gave. So
they are the same attributes exactly if the identifier spells both as they were declared. -/
theorem create_then_read_respelled (h : c.Stores subscription Holds)
    (h' : c'.Stores subscription Holds) (hs : Holds s m)
    (hsubscription : ResourceId.IsClean subscription) (hp : Policy.ofAttributes a = .ok p)
    (hdurable : p.HasDurableId) (hcreate : create c own a s = (.ok state, s₁)) :
    ∃ address state' s₂, Policy.Address.parse state.id = .ok address ∧
      Text.eqIgnoringCase address.group p.resourceGroup = true ∧
      Text.eqIgnoringCase address.name p.name = true ∧
      read c' state.id s₁ = (.ok state', s₂) ∧
      Text.eqIgnoringCase state'.id state.id = true ∧
      state'.attributes = Registry.respelled state.attributes address ∧
      (state'.attributes = state.attributes ↔ address = ⟨p.resourceGroup, p.name⟩) := by
  obtain ⟨address, state', s₂, hparse, hlowered, hread, hid, hattributes⟩ :=
    read_of_created h h' hs hsubscription hp hdurable hcreate
  obtain ⟨hgroup, hname⟩ := Policy.Address.mk.inj hlowered
  refine ⟨address, state', s₂, hparse, beq_iff_eq.mpr hgroup, beq_iff_eq.mpr hname, hread,
    beq_iff_eq.mpr hid, hattributes, ?_⟩
  rw [hattributes, (create_of_stores h hs hp hcreate).respelled_eq_iff hp]

end Lifecycle

/-! ### A service that gives identifiers in lower case -/

/-- The client that gives identifiers in another spelling. -/
def Client.spelling (spell : String → String) (c : Client σ η) : Client σ η where
  get group name s :=
    let (result, s) := c.get group name s
    (result.map fun d => { d with id := d.id.map spell }, s)
  put := c.put
  delete := c.delete
  wait := c.wait

/-- Whether documents are given for those that were put. -/
def AllMirror (subscription : String) (given put : StoreKey → Option Document) : Prop :=
  ∀ group name, Option.Rel (fun d put => d.Mirrors put subscription group name)
    (given (.of .ascii group name)) (put (.of .ascii group name))

/-- A service that keeps policies stores them, however the identifiers that it has are spelled. -/
theorem Client.Keeps.spelling_stores {c : Client σ η} {subscription : String}
    {Holds : σ → (StoreKey → Option Document) → Prop} (h : c.Keeps .ascii subscription Holds)
    {spell : String → String} (hspell : ∀ t, Text.eqIgnoringCase (spell t) t = true) :
    (c.spelling spell).Stores subscription fun s m =>
      ∃ kept, Holds s kept ∧ AllMirror subscription kept m where
  put {s s₁ s₂ m operation} group name d hs hput hwait := by
    obtain ⟨kept, hholds, hmirror⟩ := hs
    obtain ⟨operation', s', d', hput', hasPut, hid, h₁⟩ := h.put group name d hholds
    obtain ⟨s'', hwait', h₂⟩ := h.wait operation h₁
    dsimp only [spelling] at hput hwait
    cases hput.symm.trans hput'
    cases hwait.symm.trans hwait'
    refine ⟨_, h₂, fun group' name' => ?_⟩
    by_cases hkey : StoreKey.of .ascii group' name' = .of .ascii group name
    · obtain ⟨hgroup, hname⟩ := StoreKey.mk.inj hkey
      rw [hkey, Function.update_self, Function.update_self]
      exact .some ⟨hasPut, _, hid, Policy.eqIgnoringCase_text_resourceId
        (beq_iff_eq.mpr hgroup.symm) (beq_iff_eq.mpr hname.symm)⟩
    · rw [Function.update_of_ne hkey, Function.update_of_ne hkey]
      exact hmirror group' name'
  get {s m put} group name hs hm := by
    obtain ⟨kept, hholds, hmirror⟩ := hs
    have hrel := hmirror group name
    rw [hm] at hrel
    cases hkept : kept (.of .ascii group name) with
    | none => simp [hkept] at hrel
    | some d =>
        rw [hkept, Option.rel_some_some] at hrel
        obtain ⟨hasPut, id, hid, hcase⟩ := hrel
        obtain ⟨s', hget, hs'⟩ := h.get_some group name hholds hkept
        refine ⟨{ d with id := d.id.map spell }, s', ?_, ⟨hasPut, spell id, ?_, ?_⟩,
          kept, hs', hmirror⟩
        · simp only [spelling, hget, Except.map]
        · simp only [hid, Option.map_some]
        · exact beq_iff_eq.mpr ((beq_iff_eq.mp (hspell id)).trans (beq_iff_eq.mp hcase))
  get_error {s s' m e} group name hs hget := by
    obtain ⟨kept, hholds, hmirror⟩ := hs
    refine ⟨kept, ?_, hmirror⟩
    cases hkept : kept (.of .ascii group name) with
    | none =>
        obtain ⟨e', s'', hget', -, hs'⟩ := h.get_none group name hholds hkept
        simp only [spelling, hget', Except.map] at hget
        cases hget
        exact hs'
    | some d =>
        obtain ⟨s'', hget', -⟩ := h.get_some group name hholds hkept
        simp only [spelling, hget', Except.map] at hget
        cases hget

namespace Lifecycle

/-- A rehearsal that gives identifiers in lower case. -/
def lowercaseClient : Client Rehearsal Unit :=
  (Rehearsal.client .ascii "sub" { token := .own 0 }).spelling Text.lowerAscii

theorem lowercaseClient_stores :
    ∃ Holds : Rehearsal → (StoreKey → Option Document) → Prop,
      lowercaseClient.Stores "sub" Holds ∧ Holds {} fun _ => none := by
  have hkeeps : (Rehearsal.client .ascii "sub" { token := .own 0 }).Keeps .ascii "sub"
    (Rehearsal.Holds {}) := Rehearsal.client_keeps .ascii "sub" rfl
  have hspell : ∀ t, Text.eqIgnoringCase (Text.lowerAscii t) t = true := fun t => by
    rw [Text.eqIgnoringCase_lowerAscii, Text.eqIgnoringCase_self]
  exact ⟨_, hkeeps.spelling_stores hspell, _, ⟨rfl, rfl, Store.get?_empty⟩, fun _ _ => .none⟩

theorem lowercaseClient_create : ∃ state s₁,
    create lowercaseClient "sub" (declaring "Edge") {} = (.ok state, s₁) ∧
      Policy.Address.parse state.id = .ok ⟨"web", "edge"⟩ := by
  have hparse : ((create lowercaseClient "sub" (declaring "Edge") {}).1.toOption.map fun state =>
      (Policy.Address.parse state.id).toOption) = some (some ⟨"web", "edge"⟩) := by
    decide +kernel
  rcases hcreate : create lowercaseClient "sub" (declaring "Edge") {} with ⟨e | state, s₁⟩
  · simp [hcreate, Except.toOption] at hparse
  · rw [hcreate] at hparse
    have hid : (Policy.Address.parse state.id).toOption = some ⟨"web", "edge"⟩ :=
      Option.some.inj hparse
    refine ⟨state, s₁, rfl, ?_⟩
    cases hresult : Policy.Address.parse state.id with
    | error e => simp [hresult, Except.toOption] at hid
    | ok address =>
        rw [hresult] at hid
        exact congrArg Except.ok (Option.some.inj hid)

theorem exists_declaring_edge : ∃ p, Policy.ofAttributes (declaring "Edge") = .ok p ∧
    p.resourceGroup = "web" ∧ p.name = "Edge" ∧ p.HasDurableId := by
  obtain ⟨p, hp, hgroup, hname⟩ := exists_declaring "Edge" (by decide +kernel)
  refine ⟨p, hp, hgroup, hname, ?_⟩
  have hlast : "Edge".toList.getLast? = some 'e' := by decide
  unfold Policy.HasDurableId
  rw [hgroup, hname, hlast]
  refine ⟨by decide, by decide, fun c hc => ?_⟩
  obtain rfl := Option.some.inj hc
  decide

theorem create_then_read_respelled_lowercase :
    ∃ Holds p state s₁ address state' s₂, lowercaseClient.Stores "sub" Holds ∧
      Holds {} (fun _ => none) ∧ ResourceId.IsClean "sub" ∧
      Policy.ofAttributes (declaring "Edge") = .ok p ∧ p.HasDurableId ∧
      create lowercaseClient "sub" (declaring "Edge") {} = (.ok state, s₁) ∧
      Policy.Address.parse state.id = .ok address ∧ p.name = "Edge" ∧ address.name = "edge" ∧
      read lowercaseClient state.id s₁ = (.ok state', s₂) ∧
      state'.attributes = Registry.respelled state.attributes address ∧
      state'.attributes ≠ state.attributes := by
  obtain ⟨Holds, hstores, hholds⟩ := lowercaseClient_stores
  obtain ⟨p, hp, hgroup, hname, hdurable⟩ := exists_declaring_edge
  obtain ⟨state, s₁, hcreate, hlower⟩ := lowercaseClient_create
  have hsubscription : ResourceId.IsClean "sub" := ⟨by decide, by decide⟩
  obtain ⟨address, state', s₂, hparse, -, -, hread, -, hrespelled, hiff⟩ :=
    create_then_read_respelled hstores hstores hholds hsubscription hp hdurable hcreate
  obtain rfl : ⟨"web", "edge"⟩ = address := Except.ok.inj (hlower.symm.trans hparse)
  refine ⟨Holds, p, state, s₁, _, state', s₂, hstores, hholds, hsubscription, hp, hdurable, hcreate,
    hparse, hname, rfl, hread, hrespelled, fun hsame => ?_⟩
  have haddress := hiff.mp hsame
  rw [hgroup, hname] at haddress
  exact absurd haddress (by decide)

/-- A service that gives identifiers in lower case makes a difference between what was created and
what is read, in the very attributes that force a replacement. -/
theorem not_create_then_read_unchanged :
    ¬ ∀ (c : Client Rehearsal Unit) (subscription : String)
      (Holds : Rehearsal → (StoreKey → Option Document) → Prop), c.Stores subscription Holds →
      ∀ s m a p state s₁, Holds s m → Policy.ofAttributes a = .ok p →
      (∀ t ∈ [subscription, p.resourceGroup, p.name], t ≠ "" ∧
        ∀ ch ∈ t.toList, ch.isAlphanum = true ∨ ch = '-') →
      create c subscription a s = (.ok state, s₁) →
      ∃ state' s₂, read c state.id s₁ = (.ok state', s₂) ∧
        state'.attributes = state.attributes := by
  intro h
  obtain ⟨Holds, hstores, hholds⟩ := lowercaseClient_stores
  obtain ⟨p, hp, hgroup, hname, hdurable⟩ := exists_declaring_edge
  obtain ⟨state, s₁, hcreate, hlower⟩ := lowercaseClient_create
  have hplain : ∀ t ∈ ["sub", "web", "Edge"], t ≠ "" ∧
      ∀ ch ∈ t.toList, ch.isAlphanum = true ∨ ch = '-' := by
    have hall : ∀ t ∈ ["sub", "web", "Edge"], t ≠ "" ∧
        (t.toList.all fun ch => decide (ch.isAlphanum = true ∨ ch = '-')) = true := by
      decide
    simpa only [List.all_iff_forall_prop] using hall
  obtain ⟨state', s₂, hread, hsame⟩ := h lowercaseClient "sub" Holds hstores {} _ _ p state s₁
    hholds hp (by rw [hgroup, hname]; exact hplain) hcreate
  obtain ⟨address, state'', s₂', hparse, -, hread', -, hrespelled⟩ :=
    read_of_created hstores hstores hholds ⟨by decide, by decide⟩ hp hdurable hcreate
  obtain rfl : ⟨"web", "edge"⟩ = address := Except.ok.inj (hlower.symm.trans hparse)
  cases hread.symm.trans hread'
  have haddress := ((create_of_stores hstores hholds hp hcreate).respelled_eq_iff hp).mp
    (hrespelled.symm.trans hsame)
  rw [hgroup, hname] at haddress
  exact absurd haddress (by decide)

end Lifecycle

end EdgeFirewall
