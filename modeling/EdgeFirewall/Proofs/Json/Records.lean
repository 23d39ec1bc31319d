import EdgeFirewall.Json.Record
import EdgeFirewall.Proofs.Entries

/-! # What a record holds

A document is a record with members of some names if it is an object in which none of them is
repeated, or an array with no more items than there are names. `IsRecord` tells what it holds in the
place of each name, if anything, and `isRecord_iff` that this is what is read. -/

namespace EdgeFirewall.Json

/-- A document is a record with members of some names, and this is what it holds, name by name. -/
inductive IsRecord (names : List String) : Json → List (Option Json) → Prop
  | obj {members : List (String × Json)}
      (honce : ∀ name ∈ names, (members.map Prod.fst).count name ≤ 1) :
      IsRecord names (.obj members) (names.map fun name => members.lookup name)
  | arr {items : List Json} (hlength : items.length ≤ names.length) :
      IsRecord names (.arr items)
        (items.map some ++ List.replicate (names.length - items.length) none)

/-- What is held by a member that may be left out or null. -/
inductive IsOptional {α : Type} (is : Json → α → Prop) : Option Json → Option α → Prop
  | absent : IsOptional is none none
  | null : IsOptional is (some .null) none
  | given {j : Json} {a : α} (hj : j ≠ .null) (h : is j a) : IsOptional is (some j) (some a)

variable {names : List String} {members : List (String × Json)} {items : List Json} {j : Json}
  {held : List (Option Json)}

theorem nodup_known_iff :
    ((members.filter (names.contains ·.1)).map Prod.fst).Nodup ↔
      ∀ name ∈ names, (members.map Prod.fst).count name ≤ 1 := by
  have hkeys : (members.filter (names.contains ·.1)).map Prod.fst =
      (members.map Prod.fst).filter names.contains := by
    rw [List.filter_map]
    rfl
  rw [hkeys, List.nodup_iff_count_le_one]
  constructor
  · intro h name hname
    have hkept : names.contains name = true := List.contains_iff_mem.mpr hname
    rw [← List.count_filter hkept]
    exact h name
  · intro h name
    by_cases hname : name ∈ names
    · have hkept : names.contains name = true := List.contains_iff_mem.mpr hname
      rw [List.count_filter hkept]
      exact h name hname
    · have hleft : name ∉ (members.map Prod.fst).filter names.contains := by
        intro hmem
        exact hname (List.contains_iff_mem.mp (List.mem_filter.mp hmem).2)
      rw [List.count_eq_zero_of_not_mem hleft]
      omega

theorem map_lookup_known (names : List String) (members : List (String × Json)) :
    (names.map fun name => (members.filter (names.contains ·.1)).lookup name) =
      names.map fun name => members.lookup name := by
  refine List.map_congr_left fun name hname => ?_
  exact Entries.lookup_filter fun _ => List.contains_iff_mem.mpr hname

/-- The items of an array stand in the places of the first names. -/
theorem map_lookup_zip (hnames : names.Nodup) (hlength : items.length ≤ names.length) :
    (names.map fun name => (names.zip items).lookup name) =
      items.map some ++ List.replicate (names.length - items.length) none := by
  induction names generalizing items with
  | nil =>
      obtain rfl : items = [] := List.eq_nil_of_length_eq_zero (Nat.le_zero.mp hlength)
      rfl
  | cons name names ih =>
      obtain ⟨hnot, hnames⟩ := List.nodup_cons.mp hnames
      cases items with
      | nil =>
          have hnone : (fun _ : String => (none : Option Json)) = Function.const String none := rfl
          simp only [List.zip_nil_right, List.lookup_nil, List.map_nil, List.nil_append,
            List.length_nil, Nat.sub_zero, hnone, List.map_const]
      | cons item items =>
          rw [List.length_cons, List.length_cons, Nat.add_le_add_iff_right] at hlength
          have hrest : (names.map fun k => ((name :: names).zip (item :: items)).lookup k) =
              names.map fun k => (names.zip items).lookup k := by
            refine List.map_congr_left fun k hk => ?_
            have hne : (k == name) = false := beq_eq_false_iff_ne.mpr fun h => hnot (h ▸ hk)
            rw [List.zip_cons_cons, List.lookup_cons, hne]
          rw [List.map_cons, hrest, ih hnames hlength, List.zip_cons_cons, List.lookup_cons_self,
            List.length_cons, List.length_cons, Nat.add_sub_add_right]
          rfl

/-- Reading a record finds what it holds. -/
theorem isRecord_iff (hnames : names.Nodup) : j.IsRecord names held ↔
    ∃ r, j.record? names = some r ∧ (names.map fun name => r.lookup name) = held := by
  constructor
  · intro h
    cases h with
    | @obj members honce =>
        have hnodup := nodup_known_iff.mpr honce
        exact ⟨_, if_pos hnodup, map_lookup_known names members⟩
    | arr hlength => exact ⟨_, if_pos hlength, map_lookup_zip hnames hlength⟩
  · rintro ⟨r, hr, rfl⟩
    cases j with
    | obj members =>
        obtain ⟨hnodup, hr⟩ := Option.ite_none_right_eq_some.mp hr
        obtain rfl := Option.some.inj hr
        rw [map_lookup_known]
        exact .obj (nodup_known_iff.mp hnodup)
    | arr items =>
        obtain ⟨hlength, hr⟩ := Option.ite_none_right_eq_some.mp hr
        obtain rfl := Option.some.inj hr
        rw [map_lookup_zip hnames hlength]
        exact .arr hlength
    | null => exact absurd hr (by simp [record?])
    | bool truth => exact absurd hr (by simp [record?])
    | int number => exact absurd hr (by simp [record?])
    | real => exact absurd hr (by simp [record?])
    | str text => exact absurd hr (by simp [record?])
    | unreadable => exact absurd hr (by simp [record?])

/-- A document holds one thing only under each name. -/
theorem IsRecord.unique {held' : List (Option Json)} (hnames : names.Nodup)
    (h : j.IsRecord names held) (h' : j.IsRecord names held') : held = held' := by
  obtain ⟨r, hr, rfl⟩ := (isRecord_iff hnames).mp h
  obtain ⟨r', hr', rfl⟩ := (isRecord_iff hnames).mp h'
  obtain rfl := Option.some.inj (hr.symm.trans hr')
  rfl

/-- Reading a member that may be left out finds what it holds. -/
theorem isOptional_iff {α : Type} {r : Record} {name : String} {read? : Json → Option α}
    {a? : Option α} :
    IsOptional (fun j a => read? j = some a) (r.lookup name) a? ↔
      r.optional name read? = some a? := by
  unfold Record.optional
  constructor
  · intro h
    generalize r.lookup name = held at h
    cases h with
    | absent => rfl
    | null => rfl
    | given hj h => simp [h]
  · intro h
    split at h
    · next hnone =>
        obtain rfl := Option.some.inj h
        rw [hnone]
        exact .absent
    · next hnull =>
        obtain rfl := Option.some.inj h
        rw [hnull]
        exact .null
    · next j hj hheld =>
        obtain ⟨a, ha, rfl⟩ := Option.map_eq_some_iff.mp h
        rw [hheld]
        exact .given hj ha

end EdgeFirewall.Json
