import EdgeFirewall.Proofs.ResourceId.Reading
import Mathlib.Algebra.Ring.Parity

/-! # The grammar of resource identifiers

What reading a text gives, said without the reader. The pieces of a text stand between its slashes,
blanks and then slashes at its ends aside (`pieces`); each piece at an even position is the key of
the one after it (`pairUp`). `Reads s r` lists the errors in the order in which they are looked for,
and says of what an identifier is made up: the first pair with each special key, and all the other
pairs in their order (`MakesUp`). Reading follows the grammar on every text
(`parse_follows_grammar`), and the pairs of an identifier are those of its text, in another order
and with other spellings of the special keys (`IsArrangement`). -/

namespace EdgeFirewall

namespace ResourceId

variable {found rest : List (String × String)} {e : String × String} {segs : List (List Char)}
  {s source key key' value : String} {id : ResourceId}

/-! ### Pieces and pairs of a text -/

/-- The pieces between the slashes of a text, blanks and then slashes at its ends aside. -/
def pieces (s : String) : List (List Char) :=
  Text.split '/' (stripSlashes (Text.trimChars s.toList))

/-- A text starts with a slash, blanks before it aside. -/
def IsAbsolute (s : String) : Prop :=
  (Text.trimChars s.toList).head? = some '/'

/-- The pieces of a text can be paired up, and none is empty. -/
def IsPaired (s : String) : Prop :=
  Even (pieces s).length ∧ [] ∉ pieces s

/-- Each piece at an even position with the one after it. -/
def pairUp : List (List Char) → List (String × String)
  | key :: value :: rest => (String.ofList key, String.ofList value) :: pairUp rest
  | _ => []

/-- Whether a pair has a key. -/
def hasKey (key : String) (e : String × String) : Bool :=
  Text.eqIgnoringCase e.1 key

/-- A pair is the first one with a key. -/
def IsFirst (key : String) (e : String × String) (found : List (String × String)) : Prop :=
  ∃ before after, found = before ++ e :: after ∧ hasKey key e = true ∧
    ∀ e' ∈ before, hasKey key e' = false

/-- An identifier is made up of pairs: of the first one with each special key, and of the others in
their order. -/
structure MakesUp (found : List (String × String)) (id : ResourceId) : Prop where
  subscription : ∃ k, IsFirst "subscriptions" (k, id.subscription) found
  group : ∃ k, IsFirst "resourceGroups" (k, id.group) found
  provider : ∀ p, id.provider = some p ↔ ∃ k, IsFirst "providers" (k, p) found
  path : id.path = ((found.eraseP (hasKey "subscriptions")).eraseP
    (hasKey "resourceGroups")).eraseP (hasKey "providers")

/-- The pairs of an identifier, with the special keys spelled in a given way. -/
def spelledPairs (id : ResourceId) (k₁ k₂ k₃ : String) : List (String × String) :=
  (k₁, id.subscription) :: (k₂, id.group) ::
    ((match id.provider with
      | some p => [(k₃, p)]
      | none => []) ++ id.path)

/-- Pairs are those of an identifier in some order, with the special keys in some spelling. -/
def IsArrangement (found : List (String × String)) (id : ResourceId) : Prop :=
  ∃ k₁ k₂ k₃, Text.eqIgnoringCase k₁ "subscriptions" = true ∧
    Text.eqIgnoringCase k₂ "resourceGroups" = true ∧ Text.eqIgnoringCase k₃ "providers" = true ∧
      found.Perm (id.spelledPairs k₁ k₂ k₃)

/-- What reading a text gives. -/
inductive Reads (s : String) : Except ResourceIdError ResourceId → Prop where
  | empty (hempty : Text.trimChars s.toList = []) : Reads s (.error .empty)
  | notAbsolute (hne : Text.trimChars s.toList ≠ []) (hrelative : ¬ IsAbsolute s) :
    Reads s (.error (.notAbsolute s))
  | oddSegments (habsolute : IsAbsolute s) (hodd : Odd (pieces s).length ∨ [] ∈ pieces s) :
    Reads s (.error (.oddSegments s))
  | missingSubscription (habsolute : IsAbsolute s) (hpaired : IsPaired s)
    (hsubscription : ∀ e ∈ pairUp (pieces s), hasKey "subscriptions" e = false) :
    Reads s (.error (.missingSubscription s))
  | missingGroup (habsolute : IsAbsolute s) (hpaired : IsPaired s)
    (hsubscription : ∃ e ∈ pairUp (pieces s), hasKey "subscriptions" e = true)
    (hgroup : ∀ e ∈ pairUp (pieces s), hasKey "resourceGroups" e = false) :
    Reads s (.error (.missingGroup s))
  | ok {id : ResourceId} (habsolute : IsAbsolute s) (hpaired : IsPaired s)
    (hid : MakesUp (pairUp (pieces s)) id) : Reads s (.ok id)

theorem pairs_eq_spelledPairs (id : ResourceId) :
    id.pairs = id.spelledPairs "subscriptions" "resourceGroups" "providers" := by
  unfold pairs spelledPairs
  cases id.provider <;> rfl

/-! ### Pairing up -/

theorem length_segments (found : List (String × String)) :
    (segments found).length = 2 * found.length := by
  induction found with
  | nil => rfl
  | cons e found ih =>
      rw [segments_cons, List.length_cons, List.length_cons, ih, List.length_cons]
      omega

theorem pairUp_segments (found : List (String × String)) : pairUp (segments found) = found := by
  induction found with
  | nil => rfl
  | cons e found ih =>
      rw [segments_cons, pairUp, ih, String.ofList_toList, String.ofList_toList]

theorem pairs?_of_even (heven : Even segs.length) (hfull : [] ∉ segs) :
    pairs? segs = some (pairUp segs) := by
  induction segs using pairs?.induct with
  | case1 => rfl
  | case2 key value rest hempty =>
      rw [List.mem_cons, List.mem_cons, not_or, not_or] at hfull
      rw [Bool.or_eq_true, List.isEmpty_iff, List.isEmpty_iff] at hempty
      rcases hempty with rfl | rfl
      · exact absurd rfl hfull.1
      · exact absurd rfl hfull.2.1
  | case3 key value rest hne ih =>
      rw [List.mem_cons, List.mem_cons, not_or, not_or] at hfull
      have hrest : Even rest.length := by
        rw [List.length_cons, List.length_cons] at heven
        simpa [Nat.even_add_one] using heven
      rw [pairs?, if_neg hne, ih hrest hfull.2.2]
      rfl
  | case4 piece => exact absurd heven (by simp)

/-- Pieces are paired up exactly if they are even in number and none is empty. -/
theorem pairs?_eq_some_iff_even :
    pairs? segs = some found ↔ (Even segs.length ∧ [] ∉ segs) ∧ found = pairUp segs := by
  constructor
  · intro h
    obtain ⟨rfl, hne⟩ := eq_segments_of_pairs? h
    refine ⟨⟨⟨found.length, ?_⟩, fun hempty => ?_⟩, (pairUp_segments found).symm⟩
    · rw [length_segments]
      omega
    · obtain ⟨e, he, hpiece | hpiece⟩ := mem_segments hempty
      · exact (hne e he).1 (String.toList_eq_nil_iff.mp hpiece.symm)
      · exact (hne e he).2 (String.toList_eq_nil_iff.mp hpiece.symm)
  · rintro ⟨⟨heven, hfull⟩, rfl⟩
    exact pairs?_of_even heven hfull

theorem segments_pairUp (h : IsPaired s) : segments (pairUp (pieces s)) = pieces s :=
  (eq_segments_of_pairs? (pairs?_of_even h.1 h.2)).1.symm

theorem not_isPaired_iff : ¬ IsPaired s ↔ Odd (pieces s).length ∨ [] ∈ pieces s := by
  rw [IsPaired, not_and_or, Nat.not_even_iff_odd, not_not]

/-! ### The first pair with a key -/

theorem isFirst_iff : IsFirst key e found ↔ found.find? (hasKey key) = some e := by
  rw [List.find?_eq_some_iff_append]
  constructor
  · rintro ⟨before, after, rfl, hkey, hbefore⟩
    exact ⟨hkey, before, after, rfl, fun e' he' => by rw [hbefore e' he']; rfl⟩
  · rintro ⟨hkey, before, after, rfl, hbefore⟩
    exact ⟨before, after, rfl, hkey, fun e' he' => by simpa using hbefore e' he'⟩

theorem exists_isFirst_iff :
    (∃ k value, IsFirst key (k, value) found) ↔ ∃ e ∈ found, hasKey key e = true := by
  simp only [isFirst_iff]
  rw [← List.find?_isSome, Option.isSome_iff_exists, Prod.exists]

/-- A pair has one key only. -/
theorem hasKey_eq_false (hkeys : Text.eqIgnoringCase key key' = false) (h : hasKey key e = true) :
    hasKey key' e = false := by
  rw [← Bool.not_eq_true]
  intro h'
  rw [hasKey, Text.eqIgnoringCase, beq_iff_eq] at h h'
  rw [Text.eqIgnoringCase, ← h, ← h', beq_self_eq_true] at hkeys
  exact absurd hkeys (by simp)

/-- What is erased for one key leaves the pairs with another key where they are. -/
theorem find?_eraseP (hkeys : Text.eqIgnoringCase key key' = false)
    (found : List (String × String)) :
    (found.eraseP (hasKey key)).find? (hasKey key') = found.find? (hasKey key') := by
  induction found with
  | nil => rfl
  | cons e found ih =>
      cases h : hasKey key e with
      | true =>
          rw [List.eraseP_cons_of_pos h, List.find?_cons, hasKey_eq_false hkeys h]
      | false =>
          rw [List.eraseP_cons_of_neg (by simp [h]), List.find?_cons, List.find?_cons, ih]

theorem isFirst_eraseP (hkeys : Text.eqIgnoringCase key key' = false) :
    IsFirst key' e (found.eraseP (hasKey key)) ↔ IsFirst key' e found := by
  rw [isFirst_iff, isFirst_iff, find?_eraseP hkeys]

/-- The pair that is taken out is the first one with the key, and all others stay. -/
theorem extract_eq (key : String) (found : List (String × String)) : extract key found =
    (found.find? (hasKey key)).map fun e => (e.2, found.eraseP (hasKey key)) := by
  induction found with
  | nil => rfl
  | cons e found ih =>
      have hkey : Text.eqIgnoringCase e.1 key = hasKey key e := rfl
      rw [extract, hkey, List.find?_cons]
      cases h : hasKey key e with
      | true =>
          rw [List.eraseP_cons_of_pos h]
          rfl
      | false =>
          rw [List.eraseP_cons_of_neg (by simp [h]), ih, if_neg Bool.false_ne_true, Option.map_map]
          rfl

theorem extract_eq_some_iff : extract key found = some (value, rest) ↔
    (∃ k, IsFirst key (k, value) found) ∧ rest = found.eraseP (hasKey key) := by
  rw [extract_eq, Option.map_eq_some_iff]
  simp only [isFirst_iff, Prod.mk.injEq, Prod.exists]
  constructor
  · rintro ⟨k, _, hfirst, rfl, rfl⟩
    exact ⟨⟨k, hfirst⟩, rfl⟩
  · rintro ⟨⟨k, hfirst⟩, rfl⟩
    exact ⟨k, value, hfirst, rfl, rfl⟩

/-! ### What pairs make up -/

theorem special_keys : Text.eqIgnoringCase "subscriptions" "resourceGroups" = false ∧
    Text.eqIgnoringCase "subscriptions" "providers" = false ∧
      Text.eqIgnoringCase "resourceGroups" "providers" = false := by
  decide

/-- What is taken out if it is there. -/
theorem extract_optional_iff {taken : Option String} :
    (extract key found = none ∧ taken = none ∧ rest = found ∨
      ∃ value, extract key found = some (value, rest) ∧ taken = some value) ↔
    (∀ value, taken = some value ↔ ∃ k, IsFirst key (k, value) found) ∧
      rest = found.eraseP (hasKey key) := by
  simp only [isFirst_iff, extract_eq]
  cases hfind : found.find? (hasKey key) with
  | none =>
      rw [List.eraseP_of_forall_not (List.find?_eq_none.mp hfind)]
      simp [Option.eq_none_iff_forall_ne_some]
  | some e =>
      obtain ⟨k, v⟩ := e
      simp only [Option.map_some, Option.some.injEq, Prod.mk.injEq, reduceCtorEq, false_and,
        false_or]
      constructor
      · rintro ⟨_, ⟨rfl, rfl⟩, rfl⟩
        simp
      · rintro ⟨htaken, rfl⟩
        exact ⟨v, ⟨rfl, rfl⟩, (htaken v).mpr ⟨k, rfl, rfl⟩⟩

theorem ofPairs_eq_ok_iff_makesUp : ofPairs source found = .ok id ↔ MakesUp found id := by
  obtain ⟨hgroup, hprovider, hprovider'⟩ := special_keys
  rw [ofPairs_eq_ok_iff]
  simp only [extract_optional_iff]
  simp only [extract_eq_some_iff]
  constructor
  · rintro ⟨found₁, found₂, ⟨hsubscription, rfl⟩, ⟨hgrp, rfl⟩, hprov, hpath⟩
    simp only [isFirst_eraseP hgroup] at hgrp
    simp only [isFirst_eraseP hprovider', isFirst_eraseP hprovider] at hprov
    exact ⟨hsubscription, hgrp, hprov, hpath⟩
  · intro h
    refine ⟨_, _, ⟨h.subscription, rfl⟩, ⟨?_, rfl⟩, ?_, h.path⟩
    · simpa only [isFirst_eraseP hgroup] using h.group
    · simpa only [isFirst_eraseP hprovider', isFirst_eraseP hprovider] using h.provider

theorem ofPairs_of_no_subscription (h : ∀ e ∈ found, hasKey "subscriptions" e = false) :
    ofPairs source found = .error (.missingSubscription source) := by
  unfold ofPairs
  rw [extract_eq_none_iff.mpr h]

theorem ofPairs_of_no_group (hsubscription : ∃ e ∈ found, hasKey "subscriptions" e = true)
    (hgroup : ∀ e ∈ found, hasKey "resourceGroups" e = false) :
    ofPairs source found = .error (.missingGroup source) := by
  obtain ⟨k, value, hfirst⟩ := exists_isFirst_iff.mpr hsubscription
  have hnone : ∀ e ∈ found.eraseP (hasKey "subscriptions"), hasKey "resourceGroups" e = false :=
    fun e he => hgroup e (List.mem_of_mem_eraseP he)
  unfold ofPairs
  rw [extract_eq_some_iff.mpr ⟨⟨k, hfirst⟩, rfl⟩]
  simp only [extract_eq_none_iff.mpr hnone]

theorem exists_makesUp (hsubscription : ∃ e ∈ found, hasKey "subscriptions" e = true)
    (hgroup : ∃ e ∈ found, hasKey "resourceGroups" e = true) : ∃ id, MakesUp found id := by
  obtain ⟨k, subscription, hfirst⟩ := exists_isFirst_iff.mpr hsubscription
  obtain ⟨k', group, hfirst'⟩ := exists_isFirst_iff.mpr hgroup
  refine ⟨⟨subscription, group, (found.find? (hasKey "providers")).map (·.2), _⟩,
    ⟨k, hfirst⟩, ⟨k', hfirst'⟩, fun p => ?_, rfl⟩
  simp only [isFirst_iff, Option.map_eq_some_iff, Prod.exists]
  constructor
  · rintro ⟨k, _, hfind, rfl⟩
    exact ⟨k, hfind⟩
  · rintro ⟨k, hfind⟩
    exact ⟨k, p, hfind, rfl⟩

theorem exists_perm_of_extract (h : extract key found = some (value, rest)) :
    ∃ k, Text.eqIgnoringCase k key = true ∧ found.Perm ((k, value) :: rest) := by
  obtain ⟨before, k, after, rfl, rfl, hkey, -⟩ := extract_eq_some h
  exact ⟨k, hkey, List.perm_middle⟩

/-- An identifier has the pairs that it is made up of. -/
theorem isArrangement_of_ofPairs (h : ofPairs source found = .ok id) : IsArrangement found id := by
  obtain ⟨found₁, found₂, hsubscription, hgroup, hprovider⟩ := ofPairs_eq_ok_iff.mp h
  obtain ⟨k₁, hk₁, hperm₁⟩ := exists_perm_of_extract hsubscription
  obtain ⟨k₂, hk₂, hperm₂⟩ := exists_perm_of_extract hgroup
  rcases hprovider with ⟨-, hnone, rfl⟩ | ⟨p, hsome, heq⟩
  · refine ⟨k₁, k₂, "providers", hk₁, hk₂, Text.eqIgnoringCase_self _, ?_⟩
    rw [spelledPairs, hnone]
    exact hperm₁.trans (hperm₂.cons _)
  · obtain ⟨k₃, hk₃, hperm₃⟩ := exists_perm_of_extract hsome
    refine ⟨k₁, k₂, k₃, hk₁, hk₂, hk₃, ?_⟩
    rw [spelledPairs, heq]
    exact hperm₁.trans ((hperm₂.trans (hperm₃.cons _)).cons _)

/-! ### Reading follows the grammar -/

theorem parse_of_isAbsolute (h : IsAbsolute s) : parse s = match pairs? (pieces s) with
    | some pairs => ofPairs s pairs
    | none => .error (.oddSegments s) := by
  unfold IsAbsolute at h
  unfold parse pieces
  cases htrim : Text.trimChars s.toList with
  | nil => simp [htrim] at h
  | cons c body =>
      rw [htrim, List.head?_cons, Option.some.injEq] at h
      subst h
      rw [stripSlashes_cons]
      rfl

theorem parse_of_isPaired (habsolute : IsAbsolute s) (hpaired : IsPaired s) :
    parse s = ofPairs s (pairUp (pieces s)) := by
  rw [parse_of_isAbsolute habsolute, pairs?_of_even hpaired.1 hpaired.2]

theorem parse_of_not_isPaired (habsolute : IsAbsolute s) (hpaired : ¬ IsPaired s) :
    parse s = .error (.oddSegments s) := by
  have hnone : pairs? (pieces s) = none := by
    rw [Option.eq_none_iff_forall_ne_some]
    intro found hfound
    exact hpaired (pairs?_eq_some_iff_even.mp hfound).1
  rw [parse_of_isAbsolute habsolute, hnone]

theorem parse_of_not_isAbsolute (hne : Text.trimChars s.toList ≠ []) (h : ¬ IsAbsolute s) :
    parse s = .error (.notAbsolute s) := by
  unfold IsAbsolute at h
  unfold parse
  cases htrim : Text.trimChars s.toList with
  | nil => exact absurd htrim hne
  | cons c body =>
      rw [htrim, List.head?_cons, Option.some.injEq] at h
      split
      · next h' => exact absurd h' (by simp)
      · next h' => exact absurd (List.cons.inj h').1 h
      · rfl

theorem reads_parse (s : String) : Reads s (parse s) := by
  by_cases hempty : Text.trimChars s.toList = []
  · have hparse : parse s = .error .empty := by
      unfold parse
      rw [hempty]
    rw [hparse]
    exact .empty hempty
  by_cases habsolute : IsAbsolute s
  swap
  · rw [parse_of_not_isAbsolute hempty habsolute]
    exact .notAbsolute hempty habsolute
  by_cases hpaired : IsPaired s
  swap
  · rw [parse_of_not_isPaired habsolute hpaired]
    exact .oddSegments habsolute (not_isPaired_iff.mp hpaired)
  rw [parse_of_isPaired habsolute hpaired]
  by_cases hsubscription : ∃ e ∈ pairUp (pieces s), hasKey "subscriptions" e = true
  swap
  · simp only [not_exists, not_and, Bool.not_eq_true] at hsubscription
    rw [ofPairs_of_no_subscription hsubscription]
    exact .missingSubscription habsolute hpaired hsubscription
  by_cases hgroup : ∃ e ∈ pairUp (pieces s), hasKey "resourceGroups" e = true
  swap
  · simp only [not_exists, not_and, Bool.not_eq_true] at hgroup
    rw [ofPairs_of_no_group hsubscription hgroup]
    exact .missingGroup habsolute hpaired hsubscription hgroup
  obtain ⟨id, hid⟩ := exists_makesUp hsubscription hgroup
  rw [ofPairs_eq_ok_iff_makesUp.mpr hid]
  exact .ok habsolute hpaired hid

theorem parse_of_reads {r : Except ResourceIdError ResourceId} (h : Reads s r) : parse s = r := by
  cases h with
  | empty hempty =>
      unfold parse
      rw [hempty]
  | notAbsolute hne hrelative => exact parse_of_not_isAbsolute hne hrelative
  | oddSegments habsolute hodd =>
      exact parse_of_not_isPaired habsolute (not_isPaired_iff.mpr hodd)
  | missingSubscription habsolute hpaired hsubscription =>
      rw [parse_of_isPaired habsolute hpaired, ofPairs_of_no_subscription hsubscription]
  | missingGroup habsolute hpaired hsubscription hgroup =>
      rw [parse_of_isPaired habsolute hpaired, ofPairs_of_no_group hsubscription hgroup]
  | ok habsolute hpaired hid =>
      rw [parse_of_isPaired habsolute hpaired, ofPairs_eq_ok_iff_makesUp.mpr hid]

/-- The pairs of the identifier that a text is read as are the pairs of the text. -/
theorem isArrangement_of_parse (h : parse s = .ok id) : IsArrangement (pairUp (pieces s)) id := by
  cases h ▸ reads_parse s with
  | ok habsolute hpaired _ =>
      exact isArrangement_of_ofPairs ((parse_of_isPaired habsolute hpaired).symm.trans h)

theorem get?_eq_some_iff : id.get? key = some value ↔ ∃ k, IsFirst key (k, value) id.path := by
  simp only [isFirst_iff]
  unfold get?
  rw [Option.map_eq_some_iff, Prod.exists]
  constructor
  · rintro ⟨k, _, hfind, rfl⟩
    exact ⟨k, hfind⟩
  · rintro ⟨k, hfind⟩
    exact ⟨k, value, hfind, rfl⟩

/-- Reading follows the grammar on every text. No piece of a text that is read is lost or used twice,
and a pair of the path is found by its key, the first one with the key if there are several. -/
theorem parse_follows_grammar (s : String) :
    (∀ r, parse s = r ↔ Reads s r) ∧
      (∀ id, parse s = .ok id → segments (pairUp (pieces s)) = pieces s ∧
        IsArrangement (pairUp (pieces s)) id) ∧
      ∀ (id : ResourceId) key value,
        id.get? key = some value ↔ ∃ k, IsFirst key (k, value) id.path := by
  refine ⟨fun r => ⟨fun h => h ▸ reads_parse s, parse_of_reads⟩,
    fun id h => ⟨?_, isArrangement_of_parse h⟩, fun id key value => get?_eq_some_iff⟩
  cases h ▸ reads_parse s with
  | ok _ hpaired _ => exact segments_pairUp hpaired

/-- Blanks, slashes, the special keys in another order, and one that is there twice. -/
theorem parse_follows_grammar_disorderly :
    parse " //providers/P/a/b/resourcegroups/g/Subscriptions/s/SUBSCRIPTIONS/t/ " =
        .ok ⟨"s", "g", some "P", [("a", "b"), ("SUBSCRIPTIONS", "t")]⟩ ∧
      Reads " //providers/P/a/b/resourcegroups/g/Subscriptions/s/SUBSCRIPTIONS/t/ "
        (.ok ⟨"s", "g", some "P", [("a", "b"), ("SUBSCRIPTIONS", "t")]⟩) ∧
      IsArrangement
        (pairUp (pieces " //providers/P/a/b/resourcegroups/g/Subscriptions/s/SUBSCRIPTIONS/t/ "))
        ⟨"s", "g", some "P", [("a", "b"), ("SUBSCRIPTIONS", "t")]⟩ := by
  have hparse : parse " //providers/P/a/b/resourcegroups/g/Subscriptions/s/SUBSCRIPTIONS/t/ " =
      .ok ⟨"s", "g", some "P", [("a", "b"), ("SUBSCRIPTIONS", "t")]⟩ := by
    decide +kernel
  obtain ⟨hreads, hpairs, -⟩ := parse_follows_grammar
    " //providers/P/a/b/resourcegroups/g/Subscriptions/s/SUBSCRIPTIONS/t/ "
  exact ⟨hparse, (hreads _).mp hparse, (hpairs _ hparse).2⟩

end ResourceId

end EdgeFirewall
