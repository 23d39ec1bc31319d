import EdgeFirewall.Proofs.Json.Edits

/-! # Projections of documents

What is written of a document that was read is a projection of it (`Format.Projects`): each value
stands in the document at the same place, each list has the same length and order, only lists that
may be left out are added, and only nulls and undeclared members are missing. That is said once for
the canonical form (`Format.projects_of_canon?`). No document is read in which somewhere a word is
not spelled exactly or a number is not a 32-bit integer (`Format.canon?_eq_none_of_refuses`). -/

namespace EdgeFirewall.Json.Format

/-- The first document is what the second one says in a format. Lists with these names may stand
empty in the first one where the second one has none. -/
inductive Projects (lists : List String) : Format → Json → Json → Prop where
  | text (s : String) : Projects lists text (.str s) (.str s)
  | truth (b : Bool) : Projects lists truth (.bool b) (.bool b)
  | number {n : Int} (h : -2147483648 ≤ n ∧ n ≤ 2147483647) :
    Projects lists number (.int n) (.int n)
  | word {spellings : List String} {s : String} (h : s ∈ spellings) :
    Projects lists (word spellings) (.str s) (.str s)
  | table {es es' : List (String × String)} (h : es.Perm es') :
    Projects lists table (.obj (es.map fun e => (e.1, .str e.2)))
      (.obj (es'.map fun e => (e.1, .str e.2)))
  | list {item : Format} {written given : List Json} (hlength : written.length = given.length)
      (hitems : ∀ (i : Nat) (w g : Json), written[i]? = some w → given[i]? = some g →
        Projects lists item w g) :
    Projects lists (list item) (.arr written) (.arr given)
  | record {members : List (Member Format)} {written given : List (String × Json)}
      (hdeclared : ∀ x ∈ written, ∃ m ∈ members, m.name = x.1)
      (honce : (written.map Prod.fst).Nodup)
      (hkept : ∀ m ∈ members, ∀ w g, (m.name, w) ∈ written → (m.name, g) ∈ given →
        Projects lists m.format w g)
      (hadded : ∀ m ∈ members, ∀ w, (m.name, w) ∈ written →
        m.name ∈ given.map Prod.fst ∨ m.name ∈ lists ∧ w = .arr [])
      (hmissing : ∀ m ∈ members, ∀ g, (m.name, g) ∈ given →
        m.name ∈ written.map Prod.fst ∨ g = .null) :
    Projects lists (record members) (.obj written) (.obj given)

/-- A word is not written as an object. -/
def Spelled : Format → Json → Prop
  | .word _, .obj _ => False
  | _, _ => True

/-- A word that is not spelled exactly, or a number that is no 32-bit integer. -/
def Refuses : Format → Json → Prop
  | .word spellings, .str s => s ∉ spellings
  | .number, .int n => ¬ (-2147483648 ≤ n ∧ n ≤ 2147483647)
  | .number, .real => True
  | .number, .str _ => True
  | _, _ => False

variable {lists : List String} {f f' : Format} {j k v : Json} {members : List (Member Format)}

/-! ### Single values -/

theorem projects_number (h : number.canon? j = some k) : Projects lists number k j := by
  obtain ⟨n, hn, rfl⟩ := Option.map_eq_some_iff.mp h
  cases j with
  | int i =>
      obtain ⟨hi, hin⟩ := Option.ite_none_right_eq_some.mp hn
      have hvalue : n.toInt = i := by
        rw [← Option.some.inj hin, Int32.toInt_ofInt_of_le (by omega) (by omega)]
      rw [hvalue]
      exact .number hi
  | _ => cases hn

theorem projects_word {spellings : List String} (hj : Spelled (word spellings) j)
    (h : (word spellings).canon? j = some k) : Projects lists (word spellings) k j := by
  obtain ⟨s, hs, rfl⟩ := Option.map_eq_some_iff.mp h
  cases j with
  | str t =>
      obtain ⟨ht, hts⟩ := Option.ite_none_right_eq_some.mp hs
      obtain rfl := Option.some.inj hts
      exact .word ht
  | obj given => exact absurd hj id
  | _ => cases hs

theorem projects_table (hj : Orderly table j) (h : table.canon? j = some k) :
    Projects lists table k j := by
  obtain ⟨t, ht, rfl⟩ := Option.map_eq_some_iff.mp h
  obtain ⟨es, rfl, rfl⟩ := Tags.ofJson?_eq_some_iff.mp ht
  have hkeys : (es.map Prod.fst).Nodup := by simpa [Orderly, Function.comp_def] using hj
  exact .table (Tags.entries_ofList hkeys)

/-! ### Documents -/

theorem projects_list {items : List Json}
    (hitems : ∀ g ∈ items, ∀ w, f.canon? g = some w → Projects lists f w g)
    (h : f.list.canon? (.arr items) = some k) : Projects lists f.list k (.arr items) := by
  obtain ⟨_, written, hgiven, rfl, hcanon⟩ := canon?_list_eq_some_iff.mp h
  obtain rfl := arr.inj hgiven
  have hlength : written.length = items.length := by
    simpa using (congrArg List.length hcanon).symm
  refine .list hlength fun i w g hw hg => hitems g (List.mem_of_getElem? hg) w ?_
  have hi := congrArg (fun l : List (Option Json) => l[i]?) hcanon
  simpa [hw, hg] using hi

/-- What stands in the canonical form of a record under the name of a member is the canonical form
of what the document has there; if the document has nothing there, or null, it is nothing, or an
empty list. -/
theorem canonMembers?_cases {given written : List (String × Json)} {m : Member Format}
    (hnames : (members.map Member.name).Nodup)
    (hkeys : ((known members given).map Prod.fst).Nodup)
    (h : canonMembers? members (known members given) = some written) (hm : m ∈ members) :
    (∃ g w, (∀ g', (m.name, g') ∈ given ↔ g' = g) ∧ m.format.canon? g = some w ∧
      ∀ w', (m.name, w') ∈ written ↔ w' = w) ∨
    ((∀ g, (m.name, g) ∈ given → g = .null) ∧ ∀ w, (m.name, w) ∉ written) ∨
    (m.presence = .listOrEmpty ∧ (∀ g, (m.name, g) ∉ given) ∧
      ∀ w, (m.name, w) ∈ written ↔ w = .arr []) := by
  have hlookup : ∀ g, (m.name, g) ∈ given ↔ (known members given).lookup m.name = some g :=
    fun g => ((Entries.lookup_eq_some_iff hkeys).trans (mem_known_iff hm)).symm
  obtain ⟨part, hpart, hwritten⟩ := exists_canon?_of_canonMembers? hnames h hm
  simp only [hlookup, hwritten]
  rcases m.canon?_eq_some hpart with ⟨g, w, hg, hw, rfl⟩ | ⟨-, hnull, rfl⟩ | ⟨hlist, hnone, rfl⟩
  · exact .inl ⟨g, w, fun g' => by rw [hg, Option.some_inj, eq_comm], hw, by simp⟩
  · exact .inr (.inl ⟨hnull, by simp⟩)
  · exact .inr (.inr ⟨hlist, by simp [hnone], by simp⟩)

theorem projects_record {given : List (String × Json)}
    (hnames : (members.map Member.name).Nodup) (hlists : ListsAmong lists members)
    (hmembers : ∀ m ∈ members, ∀ g, (m.name, g) ∈ given → ∀ w, m.format.canon? g = some w →
      Projects lists m.format w g)
    (h : (record members).canon? (.obj given) = some k) :
    Projects lists (record members) k (.obj given) := by
  obtain ⟨hkeys, written, hwritten, rfl⟩ := canon?_record_obj_eq_some_iff.mp h
  have hsub := keys_canonMembers? hwritten
  have hcases := fun m (hm : m ∈ members) => canonMembers?_cases hnames hkeys hwritten hm
  refine .record ?declared (hnames.sublist hsub) ?kept ?added ?missing
  case declared => exact fun x hx => List.mem_map.mp (hsub.subset (List.mem_map_of_mem hx))
  case kept =>
    intro m hm w g hw hg
    rcases hcases m hm with ⟨g', w', hgiven, hcanon, hw'⟩ | ⟨-, hnone⟩ | ⟨-, hnone, -⟩
    · obtain rfl := (hgiven g).mp hg
      obtain rfl := (hw' w).mp hw
      exact hmembers m hm g hg w hcanon
    · exact absurd hw (hnone w)
    · exact absurd hg (hnone g)
  case added =>
    intro m hm w hw
    rcases hcases m hm with ⟨g, w', hgiven, -, -⟩ | ⟨-, hnone⟩ | ⟨hlist, -, hw'⟩
    · exact .inl (List.mem_map.mpr ⟨(m.name, g), (hgiven g).mpr rfl, rfl⟩)
    · exact absurd hw (hnone w)
    · exact .inr ⟨hlists m hm hlist, (hw' w).mp hw⟩
  case missing =>
    intro m hm g hg
    rcases hcases m hm with ⟨g', w, -, -, hw⟩ | ⟨hnull, -⟩ | ⟨-, hnone, -⟩
    · exact .inl (List.mem_map.mpr ⟨(m.name, w), (hw w).mpr rfl, rfl⟩)
    · exact .inr (hnull g hg)
    · exact absurd hg (hnone g)

/-- The canonical form of a document is a projection of it. -/
theorem projects_of_canon? (hf : f.Distinct) (hlists : f.Every (ListsAmong lists))
    (hj : Throughout Orderly f j) (hwords : Throughout Spelled f j) (h : f.canon? j = some k) :
    Projects lists f k j := by
  induction hf generalizing j k with
  | text =>
      obtain ⟨s, hs, rfl⟩ := Option.map_eq_some_iff.mp h
      cases j <;> cases hs
      exact .text s
  | truth =>
      obtain ⟨b, hb, rfl⟩ := Option.map_eq_some_iff.mp h
      cases j <;> cases hb
      exact .truth b
  | number => exact projects_number h
  | word spellings => exact projects_word hwords.self h
  | table => exact projects_table hj.self h
  | list hitem ih =>
      cases hlists with
      | list hlists =>
          obtain ⟨items, -, rfl, -, -⟩ := canon?_list_eq_some_iff.mp h
          rw [throughout_list_iff] at hj hwords
          exact projects_list (fun g hg w hw => ih hlists (hj.2 g hg) (hwords.2 g hg) hw) h
  | record hnames hmembers ih =>
      cases hlists with
      | record hamong hlists =>
          cases j with
          | obj given =>
              rw [throughout_record_iff] at hj hwords
              exact projects_record hnames hamong (fun m hm g hg w hw =>
                ih m hm (hlists m hm) (hj.2 m hm g hg) (hwords.2 m hm g hg) hw) h
          | arr items => exact absurd hj.self id
          | _ => simp [canon?, record?] at h

/-! ### Refused documents -/

theorem canon?_eq_none_of_refuses_self (h : Refuses f v) : f.canon? v = none := by
  cases f with
  | number =>
      cases v with
      | int n =>
          rw [canon?, asInt32?, if_neg h]
          rfl
      | real | str => rfl
      | _ => exact absurd h id
  | word spellings =>
      cases v with
      | str s =>
          rw [canon?, asSpelling?, if_neg h]
          rfl
      | _ => exact absurd h id
  | _ => exact absurd h (by cases v <;> exact id)

theorem exists_canon?_of_mem_items {items : List Json} (h : f.list.canon? (.arr items) = some k)
    (hj : j ∈ items) : ∃ w, f.canon? j = some w := by
  obtain ⟨_, written, hitems, rfl, hcanon⟩ := canon?_list_eq_some_iff.mp h
  obtain rfl := arr.inj hitems
  have hmem := List.mem_map_of_mem (f := f.canon?) hj
  rw [hcanon, List.mem_map] at hmem
  obtain ⟨w, -, hw⟩ := hmem
  exact ⟨w, hw.symm⟩

theorem exists_canon?_of_mem_members {given : List (String × Json)} {m : Member Format}
    (h : (record members).canon? (.obj given) = some k) (hm : m ∈ members)
    (hj : (m.name, j) ∈ given) (hnull : j ≠ .null) : ∃ w, m.format.canon? j = some w := by
  obtain ⟨hkeys, written, hwritten, rfl⟩ := canon?_record_obj_eq_some_iff.mp h
  obtain ⟨part, hpart⟩ := forall_canon?_of_canonMembers? hwritten m hm
  have hlookup := (Entries.lookup_eq_some_iff hkeys).mpr ((mem_known_iff hm).mpr hj)
  rw [Member.canon?_of_lookup hlookup hnull, Option.map_eq_some_iff] at hpart
  obtain ⟨w, hw, -⟩ := hpart
  exact ⟨w, hw⟩

/-- If a document has a canonical form, so has each part of it that is not null. -/
theorem canon?_ne_none_of_reaches (h : f.Reaches j f' v) (hv : v ≠ .null)
    (hj : f.canon? j ≠ none) : f'.canon? v ≠ none := by
  induction h with
  | here => exact hj
  | item hitem h ih =>
      obtain ⟨k, hk⟩ := Option.ne_none_iff_exists'.mp hj
      obtain ⟨w, hw⟩ := exists_canon?_of_mem_items hk hitem
      exact ih hv (by simp [hw])
  | @member _ _ m _ j _ hm hmem h ih =>
      obtain ⟨k, hk⟩ := Option.ne_none_iff_exists'.mp hj
      have hnull : j ≠ .null := by
        rintro rfl
        exact hv (eq_null_of_reaches h)
      obtain ⟨w, hw⟩ := exists_canon?_of_mem_members hk hm hmem hnull
      exact ih hv (by simp [hw])

/-- No document is read in which a part is refused. -/
theorem canon?_eq_none_of_refuses (h : f.Reaches j f' v) (hv : Refuses f' v) :
    f.canon? j = none := by
  by_contra hj
  refine canon?_ne_none_of_reaches h ?_ hj (canon?_eq_none_of_refuses_self hv)
  rintro rfl
  cases f' <;> exact hv

end EdgeFirewall.Json.Format
