import Mathlib.Data.List.Nodup
import Mathlib.Data.List.Perm.Basic

/-! # Association lists

What stands under a key of an association list. If no key is bound twice, an entry is found under
its key wherever it stands (`Entries.lookup_eq_some_iff`), so the order of the entries does not
matter (`Entries.lookup_perm`). -/

namespace EdgeFirewall.Entries

variable {β : Type} {entries entries' before after : List (String × β)} {key k : String} {value : β}

theorem mem_of_lookup (h : entries.lookup key = some value) : (key, value) ∈ entries := by
  induction entries with
  | nil => simp at h
  | cons e rest ih =>
      rw [List.lookup_cons] at h
      split at h
      · next hkey =>
          rw [beq_iff_eq.mp hkey, ← Option.some.inj h]
          exact List.mem_cons_self
      · exact List.mem_cons_of_mem _ (ih h)

/-- If no key is bound twice, each entry is the one that is found. -/
theorem lookup_eq_some_iff (hkeys : (entries.map Prod.fst).Nodup) :
    entries.lookup key = some value ↔ (key, value) ∈ entries := by
  refine ⟨mem_of_lookup, fun h => ?_⟩
  induction entries with
  | nil => simp at h
  | cons e rest ih =>
      rw [List.map_cons, List.nodup_cons] at hkeys
      rw [List.lookup_cons]
      rcases List.mem_cons.mp h with rfl | hrest
      · simp
      · have hne : key ≠ e.1 := by
          rintro rfl
          exact hkeys.1 (List.mem_map.mpr ⟨_, hrest, rfl⟩)
        rw [beq_eq_false_iff_ne.mpr hne]
        exact ih hkeys.2 hrest

theorem lookup_eq_none_iff : entries.lookup key = none ↔ key ∉ entries.map Prod.fst := by
  rw [List.lookup_eq_none_iff, List.mem_map]
  simp only [bne_iff_ne]
  exact ⟨fun h ⟨e, he, hkey⟩ => h e he hkey.symm, fun h e he hkey => h ⟨e, he, hkey.symm⟩⟩

theorem lookup_perm (h : entries.Perm entries') (hkeys : (entries.map Prod.fst).Nodup) :
    entries.lookup key = entries'.lookup key := by
  have hkeys' := (h.map Prod.fst).nodup_iff.mp hkeys
  refine Option.ext fun value => ?_
  rw [lookup_eq_some_iff hkeys, lookup_eq_some_iff hkeys', h.mem_iff]

/-- Entries of other keys may be left out. -/
theorem lookup_filter {p : String × β → Bool} (h : ∀ value, p (key, value) = true) :
    (entries.filter p).lookup key = entries.lookup key := by
  induction entries with
  | nil => rfl
  | cons e rest ih =>
      obtain ⟨k, value⟩ := e
      by_cases hk : key = k
      · have hkept : p (k, value) = true := hk ▸ h value
        rw [List.filter_cons_of_pos hkept, hk, List.lookup_cons_self, List.lookup_cons_self]
      · have hne : (key == k) = false := beq_eq_false_iff_ne.mpr hk
        rw [List.filter_cons]
        split
        · rw [List.lookup_cons, List.lookup_cons, hne, ih]
        · rw [List.lookup_cons, hne, ih]

theorem lookup_append_cons_of_ne (h : k ≠ key) :
    (before ++ (key, value) :: after).lookup k = (before ++ after).lookup k := by
  rw [List.lookup_append, List.lookup_append, List.lookup_cons, beq_eq_false_iff_ne.mpr h]

theorem lookup_append_cons_self (h : key ∉ before.map Prod.fst) :
    (before ++ (key, value) :: after).lookup key = some value := by
  rw [List.lookup_append, lookup_eq_none_iff.mpr h, List.lookup_cons, beq_self_eq_true]
  rfl

end EdgeFirewall.Entries
