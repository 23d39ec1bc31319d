import EdgeFirewall.Proofs.ResourceId.Grammar

/-! # Reading back the text of an identifier

The text of an identifier is read as that identifier exactly if its components are clear
(`IsClear`) and the last of them, the one that ends the text, has no blank at its end
(`parse_text_eq_self_iff`). What comes out of reading is clear (`isClear_of_parse`). But the text
that was read may have had its components in another order, or slashes behind them, so the last one
may end in blanks. These are lost when the text of the identifier is read, and nothing else is
(`parse_text_of_parse`). -/

namespace EdgeFirewall

namespace ResourceId

variable {s value : String} {id : ResourceId}

/-- No component of an identifier is empty or has a slash in it, and none can be taken for the
provider. -/
structure IsClear (id : ResourceId) : Prop where
  clean : ∀ e ∈ id.pairs, IsClean e.1 ∧ IsClean e.2
  provider : id.provider = none → ∀ e ∈ id.path, Text.eqIgnoringCase e.1 "providers" = false

/-- The component that ends the text of an identifier. -/
def last (id : ResourceId) : String :=
  match id.path.getLast?, id.provider with
  | some e, _ => e.2
  | none, some p => p
  | none, none => id.group

/-- The identifier with another component at the end of its text. -/
def withLast (id : ResourceId) (value : String) : ResourceId :=
  match id.path.getLast?, id.provider with
  | some e, _ => { id with path := id.path.dropLast ++ [(e.1, value)] }
  | none, some _ => { id with provider := some value }
  | none, none => { id with group := value }

/-! ### The last component -/

theorem withLast_of_path (subscription group : String) (provider : Option String)
    (init : List (String × String)) (e : String × String) (value : String) :
    withLast ⟨subscription, group, provider, init ++ [e]⟩ value =
      child ⟨subscription, group, provider, init⟩ e.1 value := by
  simp [withLast, child]

theorem withLast_last (id : ResourceId) : id.withLast id.last = id := by
  obtain ⟨subscription, group, provider, path⟩ := id
  obtain rfl | ⟨init, e, rfl⟩ := path.eq_nil_or_concat'
  · cases provider <;> rfl
  · simp [withLast, last]

theorem last_withLast (id : ResourceId) (value : String) : (id.withLast value).last = value := by
  obtain ⟨subscription, group, provider, path⟩ := id
  obtain rfl | ⟨init, e, rfl⟩ := path.eq_nil_or_concat'
  · cases provider <;> rfl
  · simp [withLast, last]

/-- Only the value of the last pair changes with the last component. -/
theorem exists_pairs_withLast (id : ResourceId) :
    ∃ init key, ∀ value, (id.withLast value).pairs = init ++ [(key, value)] := by
  obtain ⟨subscription, group, provider, path⟩ := id
  obtain rfl | ⟨init, e, rfl⟩ := path.eq_nil_or_concat'
  · cases provider with
    | none => exact ⟨[("subscriptions", subscription)], "resourceGroups", fun _ => rfl⟩
    | some p =>
        exact ⟨[("subscriptions", subscription), ("resourceGroups", group)], "providers",
          fun _ => rfl⟩
  · refine ⟨pairs ⟨subscription, group, provider, init⟩, e.1, fun value => ?_⟩
    rw [withLast_of_path, pairs_child]

theorem provider_withLast_eq_none_iff :
    (id.withLast value).provider = none ↔ id.provider = none := by
  obtain ⟨subscription, group, provider, path⟩ := id
  obtain rfl | ⟨init, e, rfl⟩ := path.eq_nil_or_concat'
  · cases provider <;> simp [withLast]
  · simp [withLast]

theorem keys_withLast (id : ResourceId) (value : String) :
    (id.withLast value).path.map (·.1) = id.path.map (·.1) := by
  obtain ⟨subscription, group, provider, path⟩ := id
  obtain rfl | ⟨init, e, rfl⟩ := path.eq_nil_or_concat'
  · cases provider <;> rfl
  · simp [withLast]

/-- Whether the components are clean can be told from the last one and the others. -/
theorem exists_clean_withLast_iff (id : ResourceId) : ∃ others : Prop, ∀ value,
    (∀ e ∈ (id.withLast value).pairs, IsClean e.1 ∧ IsClean e.2) ↔ others ∧ IsClean value := by
  obtain ⟨init, key, hpairs⟩ := exists_pairs_withLast id
  refine ⟨(∀ e ∈ init, IsClean e.1 ∧ IsClean e.2) ∧ IsClean key, fun value => ?_⟩
  rw [hpairs, List.forall_mem_append, List.forall_mem_singleton, and_assoc]

theorem IsClear.last (h : id.IsClear) : IsClean id.last := by
  obtain ⟨others, hclean⟩ := exists_clean_withLast_iff id
  exact ((hclean id.last).mp (by rw [withLast_last]; exact h.clean)).2

theorem IsClear.withLast (h : id.IsClear) (hvalue : IsClean value) :
    (id.withLast value).IsClear where
  clean := by
    obtain ⟨others, hclean⟩ := exists_clean_withLast_iff id
    have hid := (hclean id.last).mp (by rw [withLast_last]; exact h.clean)
    exact (hclean value).mpr ⟨hid.1, hvalue⟩
  provider := by
    rw [provider_withLast_eq_none_iff]
    intro hnone
    have hkeys : ∀ k ∈ id.path.map (·.1), Text.eqIgnoringCase k "providers" = false :=
      List.forall_mem_map.mpr (h.provider hnone)
    rw [← keys_withLast id value] at hkeys
    exact List.forall_mem_map.mp hkeys

/-! ### The end of the text -/

theorem stripSlashes_append_slash (l : List Char) : stripSlashes (l ++ ['/']) = stripSlashes l := by
  unfold stripSlashes Text.strip
  rw [List.dropWhile_append]
  cases l.dropWhile (· == '/') with
  | nil => rfl
  | cons c rest => simp

/-- What stands before the last component is the same whatever that is: an odd number of pieces. -/
theorem exists_front (id : ResourceId) : ∃ front : List (List Char), Odd front.length ∧
    (id.IsClear → ∀ piece ∈ front, piece ≠ [] ∧ '/' ∉ piece) ∧
    ∀ value, (id.withLast value).text.toList = Text.delimited '/' front ++ '/' :: value.toList := by
  obtain ⟨init, key, hpairs⟩ := exists_pairs_withLast id
  have hsegments : ∀ value, segments (id.withLast value).pairs =
      (segments init ++ [key.toList]) ++ [value.toList] := fun value => by
    rw [hpairs, segments, List.flatMap_append, segments]
    simp
  refine ⟨segments init ++ [key.toList], ?_, fun h piece hpiece => ?_, fun value => ?_⟩
  · rw [List.length_append, length_segments]
    exact odd_two_mul_add_one _
  · rw [← withLast_last id] at h
    refine clean_of_mem_segments h.clean ?_
    rw [hsegments]
    exact List.mem_append_left _ hpiece
  · rw [toList_text, hsegments, Text.delimited, List.flatMap_append]
    simp [Text.delimited]

/-- Blanks at the end of the last component are stripped with the text. -/
theorem trimChars_text_withLast (id : ResourceId) (value : String) :
    Text.trimChars (id.withLast value).text.toList =
      (id.withLast (trimEnd value)).text.toList := by
  obtain ⟨front, hodd, -, htext⟩ := exists_front id
  have hslash : Text.isBlank '/' = false := by decide
  have hne : front ≠ [] := by
    rintro rfl
    exact absurd hodd (by simp)
  obtain ⟨piece, others, rfl⟩ := List.exists_cons_of_ne_nil hne
  -- The slash before the last component is no blank, so that stripping ends there at the latest.
  have hend : ('/' :: value.toList).rdropWhile Text.isBlank = '/' :: (trimEnd value).toList := by
    rw [Text.rdropWhile_cons hslash, trimEnd, String.toList_ofList]
  rw [htext, htext, Text.delimited, List.flatMap_cons, List.cons_append, List.cons_append,
    Text.trimChars, Text.strip_cons hslash, Text.rdropWhile_append (by rw [hend]; simp), hend]
  rfl

/-! ### Reading -/

theorem isClear_of_parse (h : parse s = .ok id) : id.IsClear where
  clean := clean_of_parse h
  provider := by
    obtain ⟨_, found, -, -, -, hid⟩ := parse_eq_ok_iff.mp h
    obtain ⟨_, found₂, -, -, ⟨hprovider, -, hpath⟩ | ⟨p, -, hsome⟩⟩ := ofPairs_eq_ok_iff.mp hid
    · rw [hpath]
      exact fun _ => extract_eq_none_iff.mp hprovider
    · rw [hsome]
      exact fun hnone => absurd hnone (by simp)

theorem parse_text_of_kept (h : id.IsClear) (hlast : trimEnd id.last = id.last) :
    parse id.text = .ok id := by
  refine parse_text h.clean h.provider ?_
  have htrim := trimChars_text_withLast id id.last
  rwa [hlast, withLast_last] at htrim

/-- Of a clear identifier nothing is lost but the blanks at its end. -/
theorem parse_text_of_shortened (h : id.IsClear) (hlast : trimEnd id.last ≠ "") :
    parse id.text = .ok (id.withLast (trimEnd id.last)) ∧
      parse (id.withLast (trimEnd id.last)).text = .ok (id.withLast (trimEnd id.last)) := by
  have hshort : parse (id.withLast (trimEnd id.last)).text = .ok (id.withLast (trimEnd id.last)) :=
    parse_text_of_kept (h.withLast ⟨hlast, notMem_trimEnd h.last.2⟩)
      (by rw [last_withLast, trimEnd_trimEnd])
  have htrim : Text.trimChars id.text.toList =
      Text.trimChars (id.withLast (trimEnd id.last)).text.toList := by
    rw [trimChars_text_withLast, trimEnd_trimEnd, ← trimChars_text_withLast, withLast_last]
  exact ⟨(parse_eq_ok_congr htrim).mpr hshort, hshort⟩

/-- If the last component is nothing but blanks, its key stays behind alone. -/
theorem parse_text_of_blank (h : id.IsClear) (hlast : trimEnd id.last = "") :
    parse id.text = .error (.oddSegments id.text) := by
  obtain ⟨front, hodd, hfront, htext⟩ := exists_front id
  have hne : front ≠ [] := by
    rintro rfl
    exact absurd hodd (by simp)
  have htrim : Text.trimChars id.text.toList = Text.delimited '/' front ++ ['/'] := by
    have htrim := trimChars_text_withLast id id.last
    rwa [withLast_last, hlast, htext] at htrim
  -- The slash that is left at the end is stripped in its turn, and the pieces are odd in number.
  have hpieces : pieces id.text = front := by
    rw [pieces, htrim, stripSlashes_append_slash]
    exact split_stripSlashes_delimited hne (hfront h)
  refine parse_of_not_isPaired ?_ (not_isPaired_iff.mpr (.inl (by rwa [hpieces])))
  obtain ⟨piece, others, rfl⟩ := List.exists_cons_of_ne_nil hne
  rw [IsAbsolute, htrim]
  rfl

theorem parse_text_eq_ok_iff_kept (h : id.IsClear) :
    parse id.text = .ok id ↔ trimEnd id.last = id.last := by
  constructor
  · intro hread
    by_cases hlast : trimEnd id.last = ""
    · rw [parse_text_of_blank h hlast] at hread
      exact absurd hread (by simp)
    · rw [(parse_text_of_shortened h hlast).1, Except.ok.injEq] at hread
      calc trimEnd id.last = (id.withLast (trimEnd id.last)).last := (last_withLast _ _).symm
        _ = id.last := by rw [hread]
  · exact parse_text_of_kept h

/-! ### Main statements -/

theorem clean_pairs_iff : (∀ e ∈ id.pairs, IsClean e.1 ∧ IsClean e.2) ↔ IsClean id.subscription ∧
    IsClean id.group ∧ (∀ p ∈ id.provider, IsClean p) ∧
      ∀ e ∈ id.path, IsClean e.1 ∧ IsClean e.2 := by
  obtain ⟨hsubscription, hgroup, hprovider⟩ := isClean_keys
  unfold pairs
  cases id.provider with
  | none => simp [hsubscription, hgroup]
  | some p => simp [hsubscription, hgroup, hprovider]

/-- An identifier is read back from its text exactly if no component is empty or has a slash in it,
the last one has no blank at its end, and without a provider no key of the path can be taken for
the one of a provider. -/
theorem parse_text_eq_self_iff (id : ResourceId) : parse id.text = .ok id ↔
    IsClean id.subscription ∧ IsClean id.group ∧ (∀ p ∈ id.provider, IsClean p) ∧
      (∀ e ∈ id.path, IsClean e.1 ∧ IsClean e.2) ∧
      (∀ c ∈ id.last.toList.getLast?, Text.isBlank c = false) ∧
      (id.provider = none → ∀ e ∈ id.path, Text.eqIgnoringCase e.1 "providers" = false) := by
  rw [← trimEnd_eq_self_iff]
  constructor
  · intro h
    have hclear := isClear_of_parse h
    obtain ⟨hsubscription, hgroup, hprovider, hpath⟩ := clean_pairs_iff.mp hclear.clean
    exact ⟨hsubscription, hgroup, hprovider, hpath, (parse_text_eq_ok_iff_kept hclear).mp h,
      hclear.provider⟩
  · rintro ⟨hsubscription, hgroup, hprovider, hpath, hlast, hkeys⟩
    exact parse_text_of_kept
      ⟨clean_pairs_iff.mpr ⟨hsubscription, hgroup, hprovider, hpath⟩, hkeys⟩ hlast

/-- Special keys survive where they cannot be the first of their kind. -/
example : parse (text ⟨"s", "g", some "P", [("Subscriptions", "x"), ("providers", "y")]⟩) =
    .ok ⟨"s", "g", some "P", [("Subscriptions", "x"), ("providers", "y")]⟩ := by
  decide +kernel

/-- What a text is read as comes out of its own text again, but for the blanks at the end of its
last component. Its pairs are those of the text that was read, and its own text has them in a fixed
order, with the special keys in a fixed spelling. -/
theorem parse_text_of_parse (h : parse s = .ok id) :
    (parse id.text = .ok id ↔ ∀ c ∈ id.last.toList.getLast?, Text.isBlank c = false) ∧
      (trimEnd id.last ≠ "" → parse id.text = .ok (id.withLast (trimEnd id.last)) ∧
        parse (id.withLast (trimEnd id.last)).text = .ok (id.withLast (trimEnd id.last))) ∧
      (trimEnd id.last = "" → parse id.text = .error (.oddSegments id.text)) ∧
      IsArrangement (pairUp (pieces s)) id ∧ id.text.toList = Text.delimited '/'
        (segments (id.spelledPairs "subscriptions" "resourceGroups" "providers")) := by
  have hclear := isClear_of_parse h
  refine ⟨?_, parse_text_of_shortened hclear, parse_text_of_blank hclear,
    isArrangement_of_parse h, ?_⟩
  · rw [← trimEnd_eq_self_iff]
    exact parse_text_eq_ok_iff_kept hclear
  · rw [toList_text, pairs_eq_spelledPairs]

/-- The provider comes last in the text of the identifier, and so loses the blank at its end. -/
theorem parse_text_of_parse_reordered :
    parse "/providers/P /subscriptions/s/resourceGroups/g" = .ok ⟨"s", "g", some "P ", []⟩ ∧
      parse (text ⟨"s", "g", some "P ", []⟩) = .ok ⟨"s", "g", some "P", []⟩ ∧
      parse (text ⟨"s", "g", some "P", []⟩) = .ok ⟨"s", "g", some "P", []⟩ := by
  have hparse : parse "/providers/P /subscriptions/s/resourceGroups/g" =
      .ok ⟨"s", "g", some "P ", []⟩ := by
    decide +kernel
  have hlast : withLast ⟨"s", "g", some "P ", []⟩ (trimEnd (last ⟨"s", "g", some "P ", []⟩)) =
      ⟨"s", "g", some "P", []⟩ := by
    decide +kernel
  have hread := (parse_text_of_parse hparse).2.1 (by decide +kernel)
  rw [hlast] at hread
  exact ⟨hparse, hread⟩

/-- Not every identifier that is read comes out of its own text again. -/
theorem not_parse_text_of_every_parse :
    ¬ ∀ s id, parse s = .ok id → parse id.text = .ok id := by
  intro h
  have hread := h "/providers/P /subscriptions/s/resourceGroups/g" ⟨"s", "g", some "P ", []⟩
    (by decide +kernel)
  exact absurd hread (by decide +kernel)

end ResourceId

end EdgeFirewall
