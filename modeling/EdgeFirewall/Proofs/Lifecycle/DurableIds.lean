import EdgeFirewall.Proofs.Lifecycle.Refinement
import EdgeFirewall.Proofs.Policy.Sound
import EdgeFirewall.Proofs.ResourceId.RoundTrip

/-! # Durable identifiers

The identifier of a policy leads back to its resource group and its name exactly if neither has a
slash in it and the name has no blank at its end (`Policy.parse_text_iff`); attributes may declare
other names too. Where it leads back, a policy that was created can be read, updated and deleted by
the identifier that its creation gave, as long as the service holds it (`durable_identifier`). -/

namespace EdgeFirewall

open ResourceId

namespace Policy

variable {subscription group name : String}

theorem get?_resourceId (subscription group name : String) :
    (resourceId subscription group name).get? idKey = some name := by
  simp [resourceId, child, get?]

theorem isClean_of_get? {id : ResourceId} {key value : String}
    (hclean : ∀ e ∈ id.pairs, IsClean e.1 ∧ IsClean e.2) (h : id.get? key = some value) :
    IsClean value := by
  obtain ⟨e, he, rfl⟩ := Option.map_eq_some_iff.mp h
  refine (hclean e ?_).2
  have hmem := List.mem_of_find?_eq_some he
  unfold pairs
  simp [hmem]

theorem isClean_resourceId (hsubscription : IsClean subscription) (hgroup : IsClean group)
    (hname : IsClean name) :
    ∀ e ∈ (resourceId subscription group name).pairs, IsClean e.1 ∧ IsClean e.2 := by
  have hkeys : IsClean providerName ∧ IsClean idKey := by
    unfold IsClean
    decide
  have hpairs : (resourceId subscription group name).pairs = [("subscriptions", subscription),
    ("resourceGroups", group), ("providers", providerName), (idKey, name)] := rfl
  rw [hpairs]
  simp only [List.forall_mem_cons, List.not_mem_nil, false_imp_iff, implies_true, and_true]
  obtain ⟨hkeySubscription, hkeyGroup, hkeyProvider⟩ := isClean_keys
  exact ⟨⟨hkeySubscription, hsubscription⟩, ⟨hkeyGroup, hgroup⟩, ⟨hkeyProvider, hkeys.1⟩,
    hkeys.2, hname⟩

theorem last_resourceId (subscription group name : String) :
    (resourceId subscription group name).last = name := by
  simp [resourceId, child, last]

theorem withLast_resourceId (subscription group name name' : String) :
    (resourceId subscription group name).withLast name' = resourceId subscription group name' := by
  simp [resourceId, child, withLast]

/-- Without slashes in the way, the identifier leads back to the group, and to the name but for
blanks at its end. -/
theorem parse_text_resourceId (hsubscription : IsClean subscription) (hgroup : IsClean group)
    (hname : '/' ∉ name.toList) (hfilled : Text.isBlankText name = false) :
    Address.parse (resourceId subscription group name).text = .ok ⟨group, trimEnd name⟩ := by
  have hne : name ≠ "" := by
    rintro rfl
    exact absurd hfilled (by decide)
  have hclear : (resourceId subscription group name).IsClear :=
    ⟨isClean_resourceId hsubscription hgroup ⟨hne, hname⟩, by simp [resourceId, child]⟩
  have hlast : trimEnd (resourceId subscription group name).last ≠ "" := by
    rw [last_resourceId]
    exact trimEnd_ne_empty hfilled
  have hparse := (parse_text_of_shortened hclear hlast).1
  rw [last_resourceId, withLast_resourceId] at hparse
  exact Address.parse_eq_ok_iff.mpr ⟨_, hparse, rfl, get?_resourceId _ _ _⟩

/-- The identifier leads back to the group and the name exactly if neither has a slash in it and no
blank stands at the end of the name. -/
theorem parse_text_iff (hsubscription : IsClean subscription) (hgroup : group ≠ "")
    (hfilled : Text.isBlankText name = false) :
    Address.parse (resourceId subscription group name).text = .ok ⟨group, name⟩ ↔
      '/' ∉ group.toList ∧ '/' ∉ name.toList ∧
        ∀ c ∈ name.toList.getLast?, Text.isBlank c = false := by
  constructor
  · intro h
    obtain ⟨id, hparse, hidGroup, hidName⟩ := Address.parse_eq_ok_iff.mp h
    have hclean := clean_of_parse hparse
    have hcleanName := isClean_of_get? hclean hidName
    have hcleanGroup : IsClean group := by
      have hidGroup : id.group = group := hidGroup
      rw [← hidGroup]
      exact (hclean ("resourceGroups", id.group) (by simp [pairs])).2
    have hread := parse_text_resourceId hsubscription hcleanGroup hcleanName.2 hfilled
    rw [h, Except.ok.injEq, Address.mk.injEq] at hread
    exact ⟨hcleanGroup.2, hcleanName.2, trimEnd_eq_self_iff.mp hread.2.symm⟩
  · rintro ⟨hslashGroup, hslashName, hend⟩
    rw [parse_text_resourceId hsubscription ⟨hgroup, hslashGroup⟩ hslashName hfilled,
      trimEnd_eq_self_iff.mpr hend]

/-- An identifier can hold the resource group and the name of a policy. -/
def HasDurableId (p : Policy) : Prop :=
  '/' ∉ p.resourceGroup.toList ∧ '/' ∉ p.name.toList ∧
    ∀ c ∈ p.name.toList.getLast?, Text.isBlank c = false

/-- Attributes that declare a policy give it a resource group and a name that are not blank. -/
theorem filled_of_ofAttributes {a : Attributes} {p : Policy} (h : ofAttributes a = .ok p) :
    Text.isBlankText p.resourceGroup = false ∧ Text.isBlankText p.name = false := by
  obtain ⟨hname, hgroup, -⟩ := ofBlock_eq_ok_iff.mp (ofAttributes_eq_ok_iff.mp h)
  exact ⟨Block.required_ensures Reading.text_ensures hgroup,
    Block.required_ensures Reading.text_ensures hname⟩

end Policy

namespace Lifecycle

variable {σ η : Type} {c : Client σ η} {f : Folding} {subscription identifier : String}
  {Holds : σ → (StoreKey → Option Document) → Prop} {s s' : σ} {m : Registry} {a : Attributes}
  {p : Policy} {state : PolicyState}

/-- Steps by an identifier reach the policy that is in place. -/
structure Reaches (c : Client σ η) (s : σ) (identifier : String) (p : Policy) : Prop where
  read : ∃ state, (read c identifier s).1 = .ok state
  update : ∀ {a' p'}, Policy.ofAttributes a' = .ok p' →
    Text.eqIgnoringCase p'.name p.name = true →
    Text.eqIgnoringCase p'.resourceGroup p.resourceGroup = true →
    ∃ state, (update c identifier a' s).1 = .ok state
  delete : (delete c identifier s).1 = .ok ()

/-- What is read by an identifier that leads back to the policy in place. -/
theorem read_of_inPlace (h : c.Keeps f subscription Holds) (hs : InStep Holds s m)
    (hparse : Policy.Address.parse identifier = .ok ⟨p.resourceGroup, p.name⟩)
    (hm : m (.of f p.resourceGroup p.name) = some state) :
    (read c identifier s).1 = .ok { state with
      attributes := Registry.respelled state.attributes ⟨p.resourceGroup, p.name⟩ } := by
  obtain ⟨result, s', hread, -, hresult⟩ := read_inStep h hs identifier
  have hfind : m.find? f identifier = .ok (some { state with
      attributes := Registry.respelled state.attributes ⟨p.resourceGroup, p.name⟩ }) := by
    unfold Registry.find?
    rw [hparse]
    dsimp only
    rw [hm]
    rfl
  rw [hfind] at hresult
  rw [hread, hresult]

theorem reaches_of_inPlace (h : c.Keeps f subscription Holds) (hs : InStep Holds s m)
    (hparse : Policy.Address.parse identifier = .ok ⟨p.resourceGroup, p.name⟩)
    (hm : m (.of f p.resourceGroup p.name) = some state) : Reaches c s identifier p where
  read := ⟨_, read_of_inPlace h hs hparse hm⟩
  update := by
    intro a' p' hp' hname hgroup
    obtain ⟨s', hupdate, -⟩ := update_inStep h hs identifier a'
    have hresult : (m.update f subscription identifier a').1 =
        .ok (Registry.placed subscription p' a') := by
      unfold Registry.update
      rw [hparse]
      dsimp only
      rw [hp']
      dsimp only
      rw [if_pos ⟨eq_of_beq hname, eq_of_beq hgroup⟩, hm]
    rw [hupdate, hresult]
    exact ⟨_, rfl⟩
  delete := by
    obtain ⟨s', hdelete, -⟩ := delete_inStep h hs identifier
    rw [hdelete, Registry.delete, hparse]

/-- A creation that succeeds puts the policy in place, and gives its state there. -/
theorem create_inPlace (h : c.Keeps f subscription Holds) (hs : InStep Holds s m)
    (hp : Policy.ofAttributes a = .ok p) {own : String}
    (hcreate : create c own a s = (.ok state, s')) :
    state = Registry.placed subscription p a ∧
      InStep Holds s' (Function.update m (.of f p.resourceGroup p.name) (some state)) := by
  obtain ⟨s₁, hcreated, hs₁⟩ := create_inStep h hs own a
  obtain ⟨hresult, rfl⟩ := Prod.mk.inj (hcreate.symm.trans hcreated)
  unfold Registry.create at hresult hs₁
  rw [hp] at hresult hs₁
  dsimp only at hresult hs₁
  cases hm : m (.of f p.resourceGroup p.name) with
  | some found => simp [hm] at hresult
  | none =>
      rw [hm] at hresult hs₁
      obtain rfl := Except.ok.inj hresult
      exact ⟨rfl, hs₁⟩

/-- The attributes of a policy in place have its name and its group as they were declared. -/
theorem respelled_canonical (hp : Policy.ofAttributes a = .ok p) :
    Registry.respelled (Policy.canonical a) ⟨p.resourceGroup, p.name⟩ = Policy.canonical a := by
  have hattributes := Policy.toAttributes_toDocument hp
  have hrespelled := toAttributes_eq_respelled hattributes ⟨p.resourceGroup, p.name⟩
  rw [hattributes] at hrespelled
  exact (Except.ok.inj hrespelled).symm

/-- The identifier of a declared policy leads back to its resource group and its name exactly if an
identifier can hold them. If so, over a service that gives policies this identifier, a policy that
was created is read as it was created, and as long as it is in place it can be read, updated and
deleted by the identifier that its creation gave. -/
theorem durable_identifier (hp : Policy.ofAttributes a = .ok p) (hsubscription : subscription ≠ "")
    (hslash : '/' ∉ subscription.toList) :
    (Policy.Address.parse (Policy.resourceId subscription p.resourceGroup p.name).text =
      .ok ⟨p.resourceGroup, p.name⟩ ↔ p.HasDurableId) ∧
    (p.HasDurableId → ∀ {σ η : Type} {f : Folding} {c : Client σ η}
      {Holds : σ → (StoreKey → Option Document) → Prop}, c.Keeps f subscription Holds →
      ∀ {s m own state s₁}, InStep Holds s m → create c own a s = (.ok state, s₁) →
        (read c state.id s₁).1 = .ok state ∧ Reaches c s₁ state.id p ∧
        ∀ {s₂ m₂}, InStep Holds s₂ m₂ → m₂ (.of f p.resourceGroup p.name) ≠ none →
          Reaches c s₂ state.id p) := by
  obtain ⟨hgroup, hname⟩ := Policy.filled_of_ofAttributes hp
  have hgroup : p.resourceGroup ≠ "" := by
    rintro hempty
    simp [hempty, Text.isBlankText] at hgroup
  have hiff := Policy.parse_text_iff ⟨hsubscription, hslash⟩ hgroup hname
  refine ⟨hiff, fun hdurable σ η f c Holds hkeeps s m own state s₁ hs hcreate => ?_⟩
  have hparse := hiff.mpr hdurable
  obtain ⟨rfl, hs₁⟩ := create_inPlace hkeeps hs hp hcreate
  have hm₁ : Function.update m (.of f p.resourceGroup p.name)
      (some (Registry.placed subscription p a)) (.of f p.resourceGroup p.name) = _ :=
    Function.update_self _ _ _
  refine ⟨?_, reaches_of_inPlace hkeeps hs₁ hparse hm₁, fun hs₂ hne => ?_⟩
  · have hread := read_of_inPlace hkeeps hs₁ hparse hm₁
    rw [Registry.placed, respelled_canonical hp] at hread
    exact hread
  · obtain ⟨found, hfound⟩ := Option.ne_none_iff_exists'.mp hne
    exact reaches_of_inPlace hkeeps hs₂ hparse hfound

theorem durable_identifier_rehearsal :
    let c := Rehearsal.client .ascii "sub" { token := .own 0 }
    ∃ p state s₁, Policy.ofAttributes (declaring "edge") = .ok p ∧ p.HasDurableId ∧
      create c "sub" (declaring "edge") {} = (.ok state, s₁) ∧
      (read c state.id s₁).1 = .ok state ∧ Reaches c s₁ state.id p := by
  intro c
  obtain ⟨p, hp, hgroup, hname⟩ := exists_declaring "edge" (by decide +kernel)
  have hdurable : p.HasDurableId := by
    unfold Policy.HasDurableId
    have hlast : "edge".toList.getLast? = some 'e' := by decide
    rw [hgroup, hname, hlast]
    refine ⟨by decide, by decide, fun c hc => ?_⟩
    obtain rfl := Option.some.inj hc
    decide
  have hkeeps : c.Keeps .ascii "sub" (Rehearsal.Holds {}) :=
    Rehearsal.client_keeps .ascii "sub" rfl
  have hs : InStep (Rehearsal.Holds {}) {} (fun _ => none) :=
    ⟨_, ⟨rfl, rfl, Store.get?_empty⟩, fun _ => .none⟩
  obtain ⟨s₁, hcreate, -⟩ := create_inStep hkeeps hs "sub" (declaring "edge")
  have hcreated : (Registry.create .ascii (fun _ => none) "sub" (declaring "edge")).1 =
      .ok (Registry.placed "sub" p (declaring "edge")) := by
    unfold Registry.create
    rw [hp]
  rw [hcreated] at hcreate
  obtain ⟨hread, hreaches, -⟩ :=
    (durable_identifier hp (by decide) (by decide)).2 hdurable hkeeps hs hcreate
  exact ⟨p, _, s₁, hp, hdurable, hcreate, hread, hreaches⟩

/-- Attributes declare names with a slash in them, too, and their identifiers do not lead back. -/
theorem durable_identifier_slash :
    ¬ ∀ (a : Attributes) (p : Policy) (subscription : String), Policy.ofAttributes a = .ok p →
      subscription ≠ "" → '/' ∉ subscription.toList →
      (∀ c ∈ subscription.toList, Text.isBlank c = false) →
      Policy.Address.parse (Policy.resourceId subscription p.resourceGroup p.name).text =
        .ok ⟨p.resourceGroup, p.name⟩ := by
  intro h
  obtain ⟨p, hp, hgroup, hname⟩ := exists_declaring "edge/waf" (by decide +kernel)
  have hblank : "sub".toList.any Text.isBlank = false := by decide
  have hparse := h (declaring "edge/waf") p "sub" hp (by decide) (by decide) fun c hc =>
    Bool.not_eq_true _ ▸ List.any_eq_false.mp hblank c hc
  rw [hgroup, hname] at hparse
  have hslash := (Policy.parse_text_iff ⟨by decide, by decide⟩ (by decide) (by decide)).mp hparse
  exact hslash.2.1 (by decide)

end Lifecycle

end EdgeFirewall
