import EdgeFirewall.Attribute.Value
import EdgeFirewall.Proofs.Entries

/-! # Attribute maps in order

An attribute map is an association list whose keys increase, so that equal maps are equal lists.
`Attributes.set` keeps that order (`ordered_set`), and `Attributes.ofList` changes nothing exactly
when it is kept already (`ofList_eq_self_iff`). For reading by key it is enough that no key is bound
twice, in a map or in the values under it (`Value.Distinct`). -/

namespace EdgeFirewall

namespace Attributes

/-- The keys of a map increase. -/
def Ordered (a : Attributes) : Prop :=
  a.Pairwise fun d e => d.1 < e.1

variable {key : String} {value : Value} {a : Attributes}

theorem mem_set {e : String × Value} (h : e ∈ set key value a) : e = (key, value) ∨ e ∈ a := by
  induction a with
  | nil => simpa [set] using h
  | cons d rest ih =>
      unfold set at h
      split at h
      · simpa using h
      · split at h
        · rcases List.mem_cons.mp h with rfl | h
          · exact .inr (by simp)
          · exact (ih h).imp_right (List.mem_cons_of_mem _)
        · rcases List.mem_cons.mp h with rfl | h
          · exact .inl rfl
          · exact .inr (List.mem_cons_of_mem _ h)

theorem ordered_set (h : Ordered a) : Ordered (set key value a) := by
  induction a with
  | nil => exact List.pairwise_singleton _ _
  | cons d rest ih =>
      have hd := List.pairwise_cons.mp h
      unfold set
      split
      · next hlt =>
          refine List.pairwise_cons.mpr ⟨fun e he => ?_, h⟩
          rcases List.mem_cons.mp he with rfl | he
          · exact hlt
          · exact String.lt_trans hlt (hd.1 e he)
      · next hge =>
          split
          · next hlt =>
              refine List.pairwise_cons.mpr ⟨fun e he => ?_, ih hd.2⟩
              rcases mem_set he with rfl | he
              · exact hlt
              · exact hd.1 e he
          · next hle =>
              have heq : key = d.1 := String.le_antisymm hle hge
              refine List.pairwise_cons.mpr ⟨fun e he => ?_, hd.2⟩
              rw [heq]
              exact hd.1 e he

theorem lookup_set_of_ne {k : String} (h : k ≠ key) : (set key value a).lookup k = a.lookup k := by
  have hkey : (k == key) = false := beq_eq_false_iff_ne.mpr h
  induction a with
  | nil => simp [set, h]
  | cons d rest ih =>
      unfold set
      split
      · rw [List.lookup_cons, hkey]
      · split
        · rw [List.lookup_cons, List.lookup_cons, ih]
        · next hge hle =>
            obtain rfl : key = d.1 := String.le_antisymm hle hge
            rw [List.lookup_cons, List.lookup_cons, hkey]

/-- A key above all others goes to the end. -/
theorem set_of_lt (h : ∀ e ∈ a, e.1 < key) : set key value a = a ++ [(key, value)] := by
  induction a with
  | nil => rfl
  | cons d rest ih =>
      have hd := h d (by simp)
      have hn : ¬ key < d.1 := fun hlt => String.lt_irrefl _ (String.lt_trans hlt hd)
      simp [set, hn, hd, ih fun e he => h e (by simp [he])]

theorem ordered_ofList (entries : Attributes) : Ordered (ofList entries) := by
  suffices h : ∀ a, Ordered a → Ordered (entries.foldl (fun a e => set e.1 e.2 a) a) from
    h [] List.Pairwise.nil
  induction entries with
  | nil => exact fun _ ha => ha
  | cons e rest ih => exact fun a ha => ih _ (ordered_set ha)

theorem foldl_set_of_ordered {entries : Attributes} (h : Ordered (a ++ entries)) :
    entries.foldl (fun a e => set e.1 e.2 a) a = a ++ entries := by
  induction entries generalizing a with
  | nil => simp
  | cons e rest ih =>
      have hsplit := List.pairwise_append.mp h
      have hset : set e.1 e.2 a = a ++ [e] :=
        set_of_lt fun d hd => hsplit.2.2 d hd e (by simp)
      rw [List.foldl_cons, hset, ih (by simpa using h)]
      simp

/-- Binding the entries of a list one after the other gives the list back exactly when its keys
increase. -/
theorem ofList_eq_self_iff {entries : Attributes} :
    ofList entries = entries ↔ Ordered entries := by
  constructor
  · intro h
    rw [← h]
    exact ordered_ofList entries
  · intro h
    exact foldl_set_of_ordered (a := []) h

end Attributes

/-! ### Distinct keys -/

namespace Value

/-- No map in a value, at any depth, binds a key twice. -/
inductive Distinct : Value → Prop where
  | string (s : String) : Distinct (.string s)
  | int (n : Int) : Distinct (.int n)
  | bool (b : Bool) : Distinct (.bool b)
  | list {items : List Value} (items_distinct : ∀ v ∈ items, Distinct v) : Distinct (.list items)
  | map {entries : Attributes} (keys_nodup : (entries.map (·.1)).Nodup)
      (entries_distinct : ∀ e ∈ entries, Distinct e.2) : Distinct (.map entries)

@[simp] theorem distinct_string (s : String) : (string s).Distinct := .string s

@[simp] theorem distinct_int (n : Int) : (int n).Distinct := .int n

@[simp] theorem distinct_bool (b : Bool) : (bool b).Distinct := .bool b

@[simp] theorem distinct_list {items : List Value} :
    (list items).Distinct ↔ ∀ v ∈ items, v.Distinct :=
  ⟨fun | .list h => h, .list⟩

@[simp] theorem distinct_map {entries : Attributes} :
    (map entries).Distinct ↔ (entries.map (·.1)).Nodup ∧ ∀ e ∈ entries, e.2.Distinct :=
  ⟨fun | .map hkeys hentries => ⟨hkeys, hentries⟩, fun h => .map h.1 h.2⟩

theorem Distinct.of_lookup {entries : Attributes} {key : String} {v : Value}
    (h : (Value.map entries).Distinct) (hv : entries.lookup key = some v) : v.Distinct :=
  (distinct_map.mp h).2 _ (Entries.mem_of_lookup hv)

end Value

end EdgeFirewall
