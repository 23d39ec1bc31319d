import EdgeFirewall.Proofs.Text.Pieces
import EdgeFirewall.ResourceId

/-! # Reading resource identifiers

The text of an identifier is its pairs in a row (`toList_text`), and reading finds pairs that were
written in a row (`pairs?_eq_some_iff`). An identifier whose components are clean is read back from
its text (`parse_text`), and no other comes out of reading (`clean_of_parse`). -/

namespace EdgeFirewall

namespace ResourceId

/-! ### Text and pairs -/

/-- The pairs of an identifier, in the order in which its text has them. -/
def pairs (id : ResourceId) : List (String × String) :=
  ("subscriptions", id.subscription) :: ("resourceGroups", id.group) ::
    ((match id.provider with
      | some p => [("providers", p)]
      | none => []) ++ id.path)

/-- The segments that pairs take up. -/
def segments (pairs : List (String × String)) : List (List Char) :=
  pairs.flatMap fun e => [e.1.toList, e.2.toList]

/-- A component that takes up one segment of a text. -/
def IsClean (s : String) : Prop :=
  s ≠ "" ∧ '/' ∉ s.toList

variable {found rest : List (String × String)} {s t source key value : String} {id : ResourceId}

theorem segments_cons (e : String × String) (rest : List (String × String)) :
    segments (e :: rest) = e.1.toList :: e.2.toList :: segments rest := rfl

theorem toList_join_pairs (path : List (String × String)) :
    (String.join (path.map fun e => "/" ++ e.1 ++ "/" ++ e.2)).toList =
      Text.delimited '/' (segments path) := by
  induction path with
  | nil => rfl
  | cons e path ih =>
      rw [String.toList_join] at ih ⊢
      rw [List.map_cons, List.flatMap_cons, ih, segments_cons]
      simp [Text.delimited, String.toList_append]

theorem toList_text (id : ResourceId) :
    id.text.toList = Text.delimited '/' (segments id.pairs) := by
  unfold text pairs
  rw [String.toList_append, String.toList_append, toList_join_pairs]
  cases id.provider with
  | none => simp [ToString.toString, Text.delimited, segments, String.toList_append]
  | some p => simp [ToString.toString, Text.delimited, segments, String.toList_append]

theorem pairs?_segments (h : ∀ e ∈ found, e.1 ≠ "" ∧ e.2 ≠ "") :
    pairs? (segments found) = some found := by
  induction found with
  | nil => rfl
  | cons e found ih =>
      rw [List.forall_mem_cons] at h
      have hfull : ¬ (e.1.toList.isEmpty || e.2.toList.isEmpty) = true := by
        simpa using h.1
      rw [segments_cons, pairs?, if_neg hfull, ih h.2, String.ofList_toList, String.ofList_toList]
      rfl

theorem eq_segments_of_pairs? {pieces : List (List Char)} (h : pairs? pieces = some found) :
    pieces = segments found ∧ ∀ e ∈ found, e.1 ≠ "" ∧ e.2 ≠ "" := by
  induction pieces using pairs?.induct generalizing found with
  | case1 =>
      obtain rfl : [] = found := Option.some.inj h
      exact ⟨rfl, by simp⟩
  | case2 key value pieces hempty =>
      rw [pairs?, if_pos hempty] at h
      exact absurd h (by simp)
  | case3 key value pieces hfull ih =>
      rw [pairs?, if_neg hfull] at h
      obtain ⟨rest, hrest, rfl⟩ := Option.map_eq_some_iff.mp h
      obtain ⟨rfl, hne⟩ := ih hrest
      rw [segments_cons, List.forall_mem_cons, String.toList_ofList, String.toList_ofList]
      refine ⟨rfl, ?_, hne⟩
      simpa using hfull
  | case4 piece => exact absurd h (by simp [pairs?])

theorem pairs?_eq_some_iff {pieces : List (List Char)} :
    pairs? pieces = some found ↔ pieces = segments found ∧ ∀ e ∈ found, e.1 ≠ "" ∧ e.2 ≠ "" := by
  constructor
  · exact eq_segments_of_pairs?
  · rintro ⟨rfl, h⟩
    exact pairs?_segments h

/-! ### Putting pairs together -/

theorem extract_cons_self (key value : String) (rest : List (String × String)) :
    extract key ((key, value) :: rest) = some (value, rest) := by
  rw [extract, if_pos (Text.eqIgnoringCase_self key)]

theorem extract_eq_none_iff :
    extract key found = none ↔ ∀ e ∈ found, Text.eqIgnoringCase e.1 key = false := by
  induction found with
  | nil => simp [extract]
  | cons e found ih =>
      rw [List.forall_mem_cons, ← ih, extract]
      cases h : Text.eqIgnoringCase e.1 key <;> simp

/-- The pair that is taken out is the first one with the key. -/
theorem extract_eq_some (h : extract key found = some (value, rest)) :
    ∃ before k after, found = before ++ (k, value) :: after ∧ rest = before ++ after ∧
      Text.eqIgnoringCase k key = true ∧ ∀ e ∈ before, Text.eqIgnoringCase e.1 key = false := by
  induction found generalizing rest with
  | nil => exact absurd h (by simp [extract])
  | cons e found ih =>
      rw [extract] at h
      split at h
      · next hkey =>
          obtain ⟨rfl, rfl⟩ := Prod.mk.inj (Option.some.inj h)
          exact ⟨[], e.1, found, rfl, rfl, hkey, by simp⟩
      · next hkey =>
          obtain ⟨⟨v, rest'⟩, hextract, heq⟩ := Option.map_eq_some_iff.mp h
          obtain ⟨rfl, rfl⟩ := Prod.mk.inj heq
          obtain ⟨before, k, after, rfl, rfl, hk, hbefore⟩ := ih hextract
          refine ⟨e :: before, k, after, rfl, rfl, hk, ?_⟩
          rw [List.forall_mem_cons]
          exact ⟨Bool.not_eq_true _ ▸ hkey, hbefore⟩

/-- What holds of all pairs holds of the one that is taken out and of the others. -/
theorem forall_of_extract {P : String × String → Prop}
    (h : extract key found = some (value, rest)) (hP : ∀ e ∈ found, P e) :
    (∃ k, P (k, value)) ∧ ∀ e ∈ rest, P e := by
  obtain ⟨before, k, after, rfl, rfl, -, -⟩ := extract_eq_some h
  refine ⟨⟨k, hP _ (by simp)⟩, fun e he => hP e ?_⟩
  rw [List.mem_append] at he ⊢
  exact he.imp_right (List.mem_cons_of_mem _)

/-- An identifier is put together of a subscription, of a resource group in what is left, and of a
provider in what is left then, if there is one. -/
theorem ofPairs_eq_ok_iff : ofPairs source found = .ok id ↔ ∃ found₁ found₂,
    extract "subscriptions" found = some (id.subscription, found₁) ∧
    extract "resourceGroups" found₁ = some (id.group, found₂) ∧
    (extract "providers" found₂ = none ∧ id.provider = none ∧ id.path = found₂ ∨
      ∃ provider, extract "providers" found₂ = some (provider, id.path) ∧
        id.provider = some provider) := by
  obtain ⟨subscription, group, provider, path⟩ := id
  unfold ofPairs
  constructor
  · intro h
    split at h
    · exact absurd h (by simp)
    · next found₁ hsubscription =>
        split at h
        · exact absurd h (by simp)
        · next found₂ hgroup =>
            split at h
            · next hprovider =>
                obtain ⟨rfl, rfl, rfl, rfl⟩ := mk.inj (Except.ok.inj h)
                exact ⟨_, _, hsubscription, hgroup, .inl ⟨hprovider, rfl, rfl⟩⟩
            · next hprovider =>
                obtain ⟨rfl, rfl, rfl, rfl⟩ := mk.inj (Except.ok.inj h)
                exact ⟨_, _, hsubscription, hgroup, .inr ⟨_, hprovider, rfl⟩⟩
  · rintro ⟨found₁, found₂, hsubscription, hgroup, ⟨hprovider, rfl, rfl⟩ | ⟨p, hprovider, rfl⟩⟩
    · simp only [hsubscription, hgroup, hprovider]
    · simp only [hsubscription, hgroup, hprovider]

theorem ofPairs_pairs (id : ResourceId)
    (h : id.provider = none → ∀ e ∈ id.path, Text.eqIgnoringCase e.1 "providers" = false) :
    ofPairs source id.pairs = .ok id := by
  rw [ofPairs_eq_ok_iff]
  refine ⟨_, _, extract_cons_self _ _ _, extract_cons_self _ _ _, ?_⟩
  cases hprovider : id.provider with
  | none => exact .inl ⟨extract_eq_none_iff.mpr (h hprovider), rfl, rfl⟩
  | some p => exact .inr ⟨p, extract_cons_self _ _ _, rfl⟩

theorem isClean_keys :
    IsClean "subscriptions" ∧ IsClean "resourceGroups" ∧ IsClean "providers" := by
  unfold IsClean
  decide

/-- What is put together from clean pairs is clean. -/
theorem clean_of_ofPairs (h : ofPairs source found = .ok id)
    (hclean : ∀ e ∈ found, IsClean e.1 ∧ IsClean e.2) :
    ∀ e ∈ id.pairs, IsClean e.1 ∧ IsClean e.2 := by
  obtain ⟨found₁, found₂, hsubscription, hgroup, hprovider⟩ := ofPairs_eq_ok_iff.mp h
  obtain ⟨hkeySubscription, hkeyGroup, hkeyProvider⟩ := isClean_keys
  obtain ⟨⟨_, -, hsub⟩, hclean₁⟩ := forall_of_extract hsubscription hclean
  obtain ⟨⟨_, -, hgrp⟩, hclean₂⟩ := forall_of_extract hgroup hclean₁
  unfold pairs
  rcases hprovider with ⟨-, hnone, rfl⟩ | ⟨provider, hsome, heq⟩
  · rw [hnone]
    simp only [List.nil_append, List.forall_mem_cons]
    exact ⟨⟨hkeySubscription, hsub⟩, ⟨hkeyGroup, hgrp⟩, hclean₂⟩
  · obtain ⟨⟨_, -, hprov⟩, hclean₃⟩ := forall_of_extract hsome hclean₂
    rw [heq]
    simp only [List.cons_append, List.nil_append, List.forall_mem_cons]
    exact ⟨⟨hkeySubscription, hsub⟩, ⟨hkeyGroup, hgrp⟩, ⟨hkeyProvider, hprov⟩, hclean₃⟩

/-! ### Reading -/

theorem parse_eq_ok_iff : parse s = .ok id ↔ ∃ body found, Text.trimChars s.toList = '/' :: body ∧
    Text.split '/' (stripSlashes body) = segments found ∧ (∀ e ∈ found, e.1 ≠ "" ∧ e.2 ≠ "") ∧
      ofPairs s found = .ok id := by
  unfold parse
  constructor
  · intro h
    split at h
    · exact absurd h (by simp)
    · next body hbody =>
        split at h
        · next found hfound =>
            obtain ⟨hsegments, hne⟩ := pairs?_eq_some_iff.mp hfound
            exact ⟨body, found, hbody, hsegments, hne, h⟩
        · exact absurd h (by simp)
    · exact absurd h (by simp)
  · rintro ⟨body, found, hbody, hsegments, hne, h⟩
    have hfound := pairs?_eq_some_iff.mpr ⟨hsegments, hne⟩
    simp only [hbody, hfound]
    exact h

/-- Texts that differ in nothing but blanks at their ends are read as the same identifier. -/
theorem parse_eq_ok_congr (h : Text.trimChars s.toList = Text.trimChars t.toList) :
    parse s = .ok id ↔ parse t = .ok id := by
  rw [parse_eq_ok_iff, parse_eq_ok_iff, h]
  refine exists_congr fun body => exists_congr fun found => ?_
  rw [ofPairs_eq_ok_iff, ofPairs_eq_ok_iff]

theorem clean_of_parse (h : parse s = .ok id) : ∀ e ∈ id.pairs, IsClean e.1 ∧ IsClean e.2 := by
  obtain ⟨body, found, -, hsegments, hne, hid⟩ := parse_eq_ok_iff.mp h
  refine clean_of_ofPairs hid fun e he => ?_
  have hpiece : ∀ piece ∈ segments found, '/' ∉ piece := by
    rw [← hsegments]
    exact fun piece hmem => Text.notMem_of_mem_split hmem
  have hmem : e.1.toList ∈ segments found ∧ e.2.toList ∈ segments found := by
    unfold segments
    rw [List.mem_flatMap, List.mem_flatMap]
    exact ⟨⟨e, he, by simp⟩, ⟨e, he, by simp⟩⟩
  exact ⟨⟨(hne e he).1, hpiece _ hmem.1⟩, ⟨(hne e he).2, hpiece _ hmem.2⟩⟩

theorem mem_segments {piece : List Char} (h : piece ∈ segments found) :
    ∃ e ∈ found, piece = e.1.toList ∨ piece = e.2.toList := by
  obtain ⟨e, he, hpiece⟩ := List.mem_flatMap.mp h
  exact ⟨e, he, by simpa using hpiece⟩

theorem stripSlashes_cons (body : List Char) : stripSlashes ('/' :: body) = stripSlashes body := by
  simp [stripSlashes, Text.strip]

/-- Pieces that hold something but slashes are found again where each was written behind a slash. -/
theorem split_stripSlashes_delimited {pieces : List (List Char)} (hne : pieces ≠ [])
    (hpieces : ∀ piece ∈ pieces, piece ≠ [] ∧ '/' ∉ piece) :
    Text.split '/' (stripSlashes (Text.delimited '/' pieces)) = pieces := by
  obtain ⟨first, others, rfl⟩ := List.exists_cons_of_ne_nil hne
  rw [List.forall_mem_cons] at hpieces
  obtain ⟨⟨hfirst, hslash⟩, hothers⟩ := hpieces
  have hbody : stripSlashes (Text.delimited '/' (first :: others)) =
      first ++ Text.delimited '/' others := by
    obtain ⟨c, first, rfl⟩ := List.exists_cons_of_ne_nil hfirst
    rw [List.mem_cons, not_or] at hslash
    have hkept : (first ++ Text.delimited '/' others).rdropWhile (· == '/') =
        first ++ Text.delimited '/' others := by
      by_cases hnil : others = []
      · rw [hnil, Text.delimited, List.flatMap_nil, List.append_nil]
        exact Text.rdropWhile_of_notMem hslash.2
      · exact Text.rdropWhile_delimited hnil hothers
    rw [Text.delimited, List.flatMap_cons, List.cons_append, stripSlashes_cons, List.cons_append,
      stripSlashes, Text.strip_cons (by simpa using Ne.symm hslash.1)]
    exact congrArg (c :: ·) hkept
  rw [hbody, Text.split_append_delimited hslash fun piece hmem => (hothers piece hmem).2]

theorem clean_of_mem_segments {piece : List Char} (h : ∀ e ∈ found, IsClean e.1 ∧ IsClean e.2)
    (hpiece : piece ∈ segments found) : piece ≠ [] ∧ '/' ∉ piece := by
  obtain ⟨e, he, rfl | rfl⟩ := mem_segments hpiece
  · exact ⟨by simpa using (h e he).1.1, (h e he).1.2⟩
  · exact ⟨by simpa using (h e he).2.1, (h e he).2.2⟩

/-- Between the first slash and the end of the text of an identifier with clean components there is
nothing to strip, and the pieces are its segments. -/
theorem split_body (hclean : ∀ e ∈ id.pairs, IsClean e.1 ∧ IsClean e.2) :
    ∃ body, id.text.toList = '/' :: body ∧
      Text.split '/' (stripSlashes body) = segments id.pairs := by
  obtain ⟨body, hbody⟩ : ∃ body, Text.delimited '/' (segments id.pairs) = '/' :: body := ⟨_, rfl⟩
  have hne : segments id.pairs ≠ [] := by
    unfold pairs
    rw [segments_cons]
    exact List.cons_ne_nil _ _
  refine ⟨body, (toList_text id).trans hbody, ?_⟩
  rw [← stripSlashes_cons, ← hbody]
  exact split_stripSlashes_delimited hne fun piece => clean_of_mem_segments hclean

/-- An identifier with clean components is read back from its text, if no blank stands at the end
of that. -/
theorem parse_text (hclean : ∀ e ∈ id.pairs, IsClean e.1 ∧ IsClean e.2)
    (hprovider : id.provider = none →
      ∀ e ∈ id.path, Text.eqIgnoringCase e.1 "providers" = false)
    (htrimmed : Text.trimChars id.text.toList = id.text.toList) : parse id.text = .ok id := by
  obtain ⟨body, hbody, hsplit⟩ := split_body hclean
  rw [parse_eq_ok_iff]
  exact ⟨body, id.pairs, htrimmed.trans hbody, hsplit,
    fun e he => ⟨(hclean e he).1.1, (hclean e he).2.1⟩, ofPairs_pairs id hprovider⟩

/-! ### Blanks at the end -/

/-- A text without the blanks at its end. -/
def trimEnd (s : String) : String :=
  String.ofList (s.toList.rdropWhile Text.isBlank)

theorem trimEnd_eq_self_iff :
    trimEnd s = s ↔ ∀ c ∈ s.toList.getLast?, Text.isBlank c = false := by
  have hlists : trimEnd s = s ↔ s.toList.rdropWhile Text.isBlank = s.toList := by
    rw [← String.toList_inj, trimEnd, String.toList_ofList]
  rw [hlists, List.rdropWhile_eq_self_iff]
  constructor
  · intro h c hc
    obtain ⟨hne, rfl⟩ := List.mem_getLast?_eq_getLast hc
    exact Bool.not_eq_true _ ▸ h hne
  · intro h hne
    rw [h _ (List.getLast?_eq_some_getLast hne)]
    exact Bool.false_ne_true

theorem trimEnd_trimEnd (s : String) : trimEnd (trimEnd s) = trimEnd s := by
  rw [trimEnd, trimEnd, String.toList_ofList, List.rdropWhile_idempotent]

theorem notMem_trimEnd {c : Char} (h : c ∉ s.toList) : c ∉ (trimEnd s).toList := by
  rw [trimEnd, String.toList_ofList]
  exact fun hmem => h ((List.rdropWhile_prefix _ _).subset hmem)

theorem trimEnd_ne_empty (h : Text.isBlankText s = false) : trimEnd s ≠ "" := by
  intro hempty
  rw [trimEnd, String.ofList_eq_empty_iff, List.rdropWhile_eq_nil_iff] at hempty
  rw [Text.isBlankText, List.all_eq_true.mpr hempty] at h
  exact absurd h (by simp)

theorem pairs_child (id : ResourceId) (key value : String) :
    (id.child key value).pairs = id.pairs ++ [(key, value)] := by
  unfold pairs child
  cases id.provider <;> simp

end ResourceId

/-! ### Addresses of policies -/

/-- The address of a policy is the resource group of its identifier, and the name in its path. -/
theorem Policy.Address.parse_eq_ok_iff {s : String} {address : Policy.Address} :
    parse s = .ok address ↔ ∃ id, ResourceId.parse s = .ok id ∧ id.group = address.group ∧
      id.get? idKey = some address.name := by
  unfold parse
  cases hparse : ResourceId.parse s with
  | error e => simp [bind, Except.bind]
  | ok id =>
      unfold ResourceId.require
      cases hname : id.get? idKey with
      | none => simp [bind, Except.bind, hname]
      | some name =>
          obtain ⟨group, name'⟩ := address
          simp [bind, Except.bind, pure, Except.pure, hname]

end EdgeFirewall
