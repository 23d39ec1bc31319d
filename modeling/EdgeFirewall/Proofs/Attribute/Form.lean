import EdgeFirewall.Proofs.Attribute.Maps
import EdgeFirewall.Proofs.Vocabulary.Words

/-! # Canonical forms of attribute values

A form says how a value is written canonically: words without their dotted paths, maps in the order
of their keys, blocks with exactly the entries that they may have and with a default where one is
absent. `Form.canon` gives the canonical form of a value and works on the value alone;
`Form.IsCanonical` describes canonical values without it. The two agree for the forms that do not
name an entry twice (`Form.faithful_block` and its neighbours): `canon` leaves a value alone exactly
if it is canonical. -/

namespace EdgeFirewall

/-- An entry that a block may have: its key, the form of its value, and what stands there if the
block has no such entry. -/
structure Slot (φ : Type) where
  key : String
  form : φ
  default : Option Value := none

/-- How a value is written canonically. -/
inductive Form where
  /-- As it is. -/
  | plain
  /-- A word, without the dotted path before it. -/
  | word
  /-- A map with any keys, in the order of its keys. -/
  | table
  | items (item : Form)
  | block (slots : List (Slot Form))

namespace Form

mutual

/-- The canonical form of a value. -/
def canon : Form → Value → Value
  | .word, .string s => .string (Text.afterLast '.' s)
  | .table, .map entries => .map (Attributes.ofList entries)
  | .items item, .list vs => .list (vs.map item.canon)
  | .block slots, .map a => .map (fill slots a)
  | _, v => v
termination_by structural f => f

/-- The entries of a block in the order of its slots, each in its form, or its default. -/
def fill : List (Slot Form) → Attributes → Attributes
  | [], _ => []
  | ⟨key, form, default⟩ :: rest, a =>
    Attributes.entry? key id (((a.lookup key).map form.canon).or default) ++ fill rest a
termination_by structural slots => slots

end

mutual

/-- Whether a value is written canonically. -/
def IsCanonical : Form → Value → Prop
  | .word, .string s => '.' ∉ s.toList
  | .table, .map entries => Attributes.Ordered entries
  | .items item, .list vs => ∀ v ∈ vs, item.IsCanonical v
  | .block slots, .map a => (a.map (·.1)).Sublist (slots.map (·.key)) ∧ IsFilled slots a
  | _, _ => True
termination_by structural f => f

/-- Whether every entry of a block is canonical, and none is absent that has a default. -/
def IsFilled : List (Slot Form) → Attributes → Prop
  | [], _ => True
  | ⟨key, form, default⟩ :: rest, a =>
    (match a.lookup key with
      | some v => form.IsCanonical v
      | none => default = none) ∧ IsFilled rest a
termination_by structural slots => slots

end

end Form

/-! ### The entries of a filled block -/

namespace Slot

/-- What stands in a slot of the canonical block. -/
def value? (s : Slot Form) (a : Attributes) : Option Value :=
  ((a.lookup s.key).map s.form.canon).or s.default

end Slot

namespace Form

variable {slots : List (Slot Form)} {a : Attributes}

@[simp] theorem canon_plain (v : Value) : canon .plain v = v := by cases v <;> rfl

@[simp] theorem canon_word (s : String) :
    canon .word (.string s) = .string (Text.afterLast '.' s) := rfl

@[simp] theorem canon_table (entries : Attributes) :
    canon .table (.map entries) = .map (Attributes.ofList entries) := rfl

@[simp] theorem canon_items (item : Form) (vs : List Value) :
    canon (.items item) (.list vs) = .list (vs.map item.canon) := rfl

@[simp] theorem canon_block (slots : List (Slot Form)) (a : Attributes) :
    canon (.block slots) (.map a) = .map (fill slots a) := rfl

@[simp] theorem fill_nil : fill [] a = [] := rfl

@[simp] theorem fill_cons (s : Slot Form) :
    fill (s :: slots) a = Attributes.entry? s.key id (s.value? a) ++ fill slots a := rfl

theorem mem_keys_of_mem_fill {e : String × Value} (h : e ∈ fill slots a) :
    e.1 ∈ slots.map (·.key) := by
  induction slots with
  | nil => simp at h
  | cons s rest ih =>
      rw [fill_cons, List.mem_append] at h
      rcases h with h | h
      · cases hv : s.value? a <;> simp_all [Attributes.entry?]
      · exact List.mem_cons_of_mem _ (ih h)

theorem keys_fill_sublist : ((fill slots a).map (·.1)).Sublist (slots.map (·.key)) := by
  induction slots with
  | nil => exact .slnil
  | cons s rest ih =>
      rw [fill_cons, List.map_append, List.map_cons]
      cases s.value? a with
      | none => exact ih.cons _
      | some v => exact ih.cons_cons _

theorem lookup_fill_of_notMem {key : String} (h : key ∉ slots.map (·.key)) :
    (fill slots a).lookup key = none := by
  rw [List.lookup_eq_none_iff]
  intro e he
  have : key ≠ e.1 := fun hk => h (hk ▸ mem_keys_of_mem_fill he)
  simpa using this

/-- A slot of a filled block holds its own value if no other slot has its key. -/
theorem lookup_fill {s : Slot Form} (hs : s ∈ slots) (hd : (slots.map (·.key)).Nodup) :
    (fill slots a).lookup s.key = s.value? a := by
  induction slots with
  | nil => simp at hs
  | cons t rest ih =>
      rw [List.map_cons, List.nodup_cons] at hd
      rw [fill_cons, List.lookup_append]
      rcases List.mem_cons.mp hs with rfl | hs
      · rw [lookup_fill_of_notMem hd.1]
        cases s.value? a <;> simp [Attributes.entry?]
      · have hne : s.key ≠ t.key := fun hk => hd.1 (hk ▸ List.mem_map_of_mem hs)
        have hno : (Attributes.entry? t.key id (t.value? a)).lookup s.key = none := by
          have : (s.key == t.key) = false := by simpa using hne
          cases t.value? a <;> simp [Attributes.entry?, List.lookup_cons, this]
        rw [hno, ih hs hd.2]
        rfl

/-- Only the entries that the slots name count. -/
theorem fill_congr {b : Attributes} (h : ∀ s ∈ slots, a.lookup s.key = b.lookup s.key) :
    fill slots a = fill slots b := by
  induction slots with
  | nil => rfl
  | cons s rest ih =>
      have hs : s.value? a = s.value? b := by rw [Slot.value?, Slot.value?, h s (by simp)]
      rw [fill_cons, fill_cons, hs, ih fun t ht => h t (by simp [ht])]

theorem isFilled_iff : IsFilled slots a ↔ ∀ s ∈ slots,
    match a.lookup s.key with
    | some v => s.form.IsCanonical v
    | none => s.default = none := by
  induction slots with
  | nil => simp [IsFilled]
  | cons s rest ih =>
      obtain ⟨key, form, default⟩ := s
      rw [IsFilled, ih, List.forall_mem_cons]

/-! ### Canonical values are those that `canon` leaves alone -/

/-- Of the values, `canon` leaves exactly the canonical ones alone. -/
def Faithful (f : Form) : Prop :=
  ∀ v, f.canon v = v ↔ f.IsCanonical v

attribute [local simp] canon IsCanonical

theorem faithful_plain : Faithful .plain := fun v => by simp

theorem faithful_word : Faithful .word := by
  intro v
  cases v with
  | string s => simp [Text.afterLast_eq_self_iff]
  | _ => simp

theorem faithful_table : Faithful .table := by
  intro v
  cases v with
  | map entries => simp [Attributes.ofList_eq_self_iff]
  | _ => simp

theorem faithful_items {item : Form} (h : Faithful item) : Faithful (.items item) := by
  intro v
  cases v with
  | list vs =>
      simp only [canon, IsCanonical, Value.list.injEq]
      induction vs with
      | nil => simp
      | cons v rest ih => rw [List.map_cons, List.cons.injEq, List.forall_mem_cons, h v, ih]
  | _ => simp

/-- A block whose entries stand in the order of the slots is filled if it is as `IsFilled` says. -/
theorem fill_eq_self_of_isFilled (hf : ∀ s ∈ slots, Faithful s.form)
    (hd : (slots.map (·.key)).Nodup) (hs : (a.map (·.1)).Sublist (slots.map (·.key)))
    (h : IsFilled slots a) : fill slots a = a := by
  rw [isFilled_iff] at h
  induction slots generalizing a with
  | nil =>
      rw [List.map_nil, List.sublist_nil, List.map_eq_nil_iff] at hs
      rw [hs, fill_nil]
  | cons s rest ih =>
      rw [List.map_cons, List.nodup_cons] at hd
      have hrest := fun t ht => hf t (List.mem_cons_of_mem s ht)
      have hslot := h s (by simp)
      have hothers := fun t ht => h t (List.mem_cons_of_mem s ht)
      rw [List.map_cons, List.sublist_cons_iff] at hs
      rcases hs with hs | ⟨keys, hkeys, hs⟩
      · -- the block has no entry for the first slot
        have hno : a.lookup s.key = none := by
          rw [List.lookup_eq_none_iff]
          intro e he
          have : s.key ≠ e.1 := fun hk => hd.1 (hk ▸ hs.subset (List.mem_map_of_mem he))
          simpa using this
        rw [hno] at hslot
        rw [fill_cons, ih hrest hd.2 hs hothers, Slot.value?, hno, hslot]
        rfl
      · -- the first entry of the block is that of the first slot
        obtain ⟨⟨key, v⟩, after, rfl, hkey, rfl⟩ := List.map_eq_cons_iff.mp hkeys
        obtain rfl : key = s.key := hkey
        have hsome : List.lookup s.key ((s.key, v) :: after) = some v := List.lookup_cons_self
        have hafter : ∀ t ∈ rest,
            List.lookup t.key ((s.key, v) :: after) = after.lookup t.key := by
          intro t ht
          have hne : t.key ≠ s.key := fun hk => hd.1 (hk ▸ List.mem_map_of_mem ht)
          have : (t.key == s.key) = false := by simpa using hne
          rw [List.lookup_cons, this]
        have hcanon : s.form.canon v = v := by
          rw [hsome] at hslot
          exact (hf s (by simp) v).mpr hslot
        rw [fill_cons, fill_congr hafter, Slot.value?, hsome,
          ih hrest hd.2 hs fun t ht => hafter t ht ▸ hothers t ht]
        simp [Attributes.entry?, hcanon]

theorem faithful_block (hf : ∀ s ∈ slots, Faithful s.form) (hd : (slots.map (·.key)).Nodup) :
    Faithful (.block slots) := by
  intro v
  cases v with
  | map a =>
      simp only [canon, IsCanonical, Value.map.injEq]
      constructor
      · intro h
        refine ⟨h ▸ keys_fill_sublist, isFilled_iff.mpr fun s hs => ?_⟩
        have hv : a.lookup s.key = s.value? a := by
          rw [← lookup_fill hs hd, h]
        cases hl : a.lookup s.key with
        | none => simpa [Slot.value?, hl] using hv.symm
        | some v =>
            rw [Slot.value?, hl] at hv
            exact (hf s hs v).mp (Option.some.inj hv.symm)
      · exact fun h => fill_eq_self_of_isFilled hf hd h.1 h.2
  | _ => simp

end Form

end EdgeFirewall
