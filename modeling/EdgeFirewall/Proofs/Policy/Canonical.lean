import EdgeFirewall.Document.Attributes
import EdgeFirewall.Proofs.Attribute.Form
import EdgeFirewall.Proofs.Policy.Reading

/-! # Readings and canonical forms

A reading is canonical for a form if what it reads a value as determines the canonical form of the
value, and if that form is read as the same again, wherever it stands (`Reading.Canonical`). The
property passes from items to lists, from blocks to lists of blocks, and from entries to blocks
(`Slot.Reads`), so each level of a policy needs only the facts about its own entries. -/

namespace EdgeFirewall

variable {α β : Type}

/-- What is read determines the canonical form, which is read as the same again. -/
structure Reading.Canonical (read : Reading α) (form : Form) (write : α → Value) : Prop where
  canon : ∀ {path v x}, read path v = .ok x → form.canon v = write x
  reread : ∀ {path v x}, read path v = .ok x → ∀ path', read path' (write x) = .ok x

/-- What is read from a block determines its canonical form, which is read as the same again. -/
structure Block.Canonical (read : Block → Checked α) (slots : List (Slot Form))
    (write : α → Attributes) : Prop where
  canon : ∀ {b x}, read b = .ok x → Form.fill slots b.entries = write x
  reread : ∀ {b x}, read b = .ok x → ∀ path, read ⟨path, write x⟩ = .ok x

/-! ### Single values -/

namespace Reading

theorem text_eq_ok_iff {path : Path} {v : Value} {x : String} :
    text path v = .ok x ↔ v = .string x ∧ Text.isBlankText x = false := by
  cases v with
  | string s =>
      rw [text]
      split
      · next h => simpa using fun heq => heq ▸ h
      · next h => simpa using fun heq => heq ▸ eq_false_of_ne_true h
  | _ => simp [text]

theorem truth_eq_ok_iff {path : Path} {v : Value} {x : Bool} :
    truth path v = .ok x ↔ v = .bool x := by
  cases v <;> simp [truth]

theorem number_eq_ok_iff {least most : Int} {path : Path} {v : Value} {x : Int32} :
    number least most path v = .ok x ↔
      v = Document.numberValue x ∧ least ≤ x.toInt ∧ x.toInt ≤ most := by
  cases v with
  | int n =>
      rw [number, Document.numberValue, Value.int.injEq]
      split
      · next h =>
          rw [Checked.eq_ok_iff, narrow?_eq_some_iff, and_iff_left rfl]
          exact ⟨fun heq => ⟨heq, heq ▸ h⟩, And.left⟩
      · next h =>
          refine iff_of_false Checked.fail_ne_ok ?_
          rintro ⟨rfl, hx⟩
          exact h hx
  | _ => simp [number, Document.numberValue]

theorem word_eq_ok_iff [Vocabulary α] {path : Path} {v : Value} {x : α} :
    word path v = .ok x ↔ ∃ s, v = .string s ∧ Vocabulary.parseQualified s = .ok x := by
  cases v with
  | string s =>
      rw [word]
      cases h : Vocabulary.parseQualified (α := α) s with
      | ok a => simp [h]
      | error e => simp [h]
  | _ => simp [word]

theorem text_canonical : text.Canonical .plain .string where
  canon h := by rw [(text_eq_ok_iff.mp h).1, Form.canon_plain]
  reread h _ := text_eq_ok_iff.mpr ⟨rfl, (text_eq_ok_iff.mp h).2⟩

theorem truth_canonical : truth.Canonical .plain .bool where
  canon h := by rw [truth_eq_ok_iff.mp h, Form.canon_plain]
  reread _ _ := rfl

theorem number_canonical (least most : Int) :
    (number least most).Canonical .plain Document.numberValue where
  canon h := by rw [(number_eq_ok_iff.mp h).1, Form.canon_plain]
  reread h _ := number_eq_ok_iff.mpr ⟨rfl, (number_eq_ok_iff.mp h).2⟩

theorem word_wordValue [Vocabulary α] [Vocabulary.Dotless α] (path : Path) (a : α) :
    word path (Document.wordValue a) = .ok a :=
  word_eq_ok_iff.mpr ⟨_, rfl, Vocabulary.parseQualified_spelling a⟩

theorem word_canonical [Vocabulary α] [Vocabulary.Dotless α] :
    (word (α := α)).Canonical .word Document.wordValue where
  canon h := by
    obtain ⟨s, rfl, hs⟩ := word_eq_ok_iff.mp h
    rw [Form.canon_word, Vocabulary.spelling_of_parseQualified hs]
    rfl
  reread _ path := word_wordValue path _

theorem suchThat_eq_ok_iff {read : Reading α} {test : α → Bool} {reason : α → Reason}
    {path : Path} {v : Value} {x : α} :
    read.suchThat test reason path v = .ok x ↔ read path v = .ok x ∧ test x = true := by
  rw [suchThat, Checked.suchThat_eq_ok_iff]

/-- A constraint on what is read does not change how it is written. -/
theorem Canonical.suchThat {read : Reading α} {form : Form} {write : α → Value}
    (h : read.Canonical form write) (test : α → Bool) (reason : α → Reason) :
    (read.suchThat test reason).Canonical form write where
  canon hx := h.canon (suchThat_eq_ok_iff.mp hx).1
  reread hx path := by
    obtain ⟨hread, htest⟩ := suchThat_eq_ok_iff.mp hx
    exact suchThat_eq_ok_iff.mpr ⟨h.reread hread path, htest⟩

/-! ### Lists -/

theorem Canonical.listOf {read : Reading α} [∀ path v, (read path v).IsExplained] {form : Form}
    {write : α → Value}
    (h : read.Canonical form write) (least most : Nat) :
    (Reading.listOf least most read).Canonical (.items form) fun xs => .list (xs.map write) := by
  constructor
  · intro path v xs hxs
    obtain ⟨items, rfl, -, hitems⟩ := listOf_eq_ok_iff.mp hxs
    have hmap := Checked.map_eq_map_of_collect (F := fun e : Value × Nat => form.canon e.1)
      (w := write) (fun _ _ hx => h.canon hx) hitems
    rw [← hmap, Form.canon_items, map_zipIdx_fst]
  · intro path v xs hxs path'
    obtain ⟨items, rfl, hbounds, hitems⟩ := listOf_eq_ok_iff.mp hxs
    have hlength : (xs.map write).length = items.length := by
      simpa using Checked.length_of_collect hitems
    exact listOf_eq_ok_iff.mpr ⟨_, rfl, hlength ▸ hbounds,
      Checked.collect_zipIdx_of_collect (fun _ _ hx _ => h.reread hx _) hitems 0⟩

end Reading

theorem Block.Canonical.listOf {read : Block → Checked α} [∀ b, (read b).IsExplained]
    {slots : List (Slot Form)} {write : α → Attributes} (h : Block.Canonical read slots write)
    (most : Nat) :
    (Block.listOf most read).Canonical (.items (.block slots))
      fun xs => .list (xs.map fun x => .map (write x)) := by
  constructor
  · intro path v xs hxs
    obtain ⟨maps, rfl, -, hmaps⟩ := Block.listOf_eq_ok_iff.mp hxs
    have hmap := Checked.map_eq_map_of_collect
      (F := fun e : Attributes × Nat => Value.map (Form.fill slots e.1))
      (w := fun x => Value.map (write x)) (fun _ _ hx => congrArg _ (h.canon hx)) hmaps
    rw [← hmap, Form.canon_items, List.map_map,
      map_zipIdx_fst (fun a => Value.map (Form.fill slots a))]
    rfl
  · intro path v xs hxs path'
    obtain ⟨maps, rfl, hmost, hmaps⟩ := Block.listOf_eq_ok_iff.mp hxs
    have hlength : (xs.map write).length = maps.length := by
      simpa using Checked.length_of_collect hmaps
    refine Block.listOf_eq_ok_iff.mpr ⟨xs.map write, by simp, hlength ▸ hmost, ?_⟩
    exact Checked.collect_zipIdx_of_collect (fun _ _ hx _ => h.reread hx _) hmaps 0

/-! ### Entries of blocks -/

/-- What `get` reads from a block decides what stands in a slot of the canonical block, and is read
again from every block that has this in the slot. -/
structure Slot.Reads (s : Slot Form) (get : Block → Checked α) (write : α → Option Value) :
    Prop where
  value : ∀ {b x}, get b = .ok x → s.value? b.entries = write x
  reread : ∀ {b x}, get b = .ok x → ∀ b', b'.entries.lookup s.key = write x → get b' = .ok x

namespace Slot

variable {key : String} {form : Form} {default : Option Value} {read : Reading α}
  {write : α → Value}

/-- A slot is read again from the canonical block. -/
theorem Reads.fill {s : Slot Form} {get : Block → Checked α} {writeSlot : α → Option Value}
    (h : s.Reads get writeSlot) {slots : List (Slot Form)} (hs : s ∈ slots)
    (hd : (slots.map (·.key)).Nodup) {b : Block} {x : α} (hx : get b = .ok x) (path : Path) :
    get ⟨path, Form.fill slots b.entries⟩ = .ok x :=
  h.reread hx _ ((Form.lookup_fill hs hd).trans (h.value hx))

theorem value?_of_some {v : Value} {a : Attributes} (h : a.lookup key = some v) :
    value? ⟨key, form, default⟩ a = some (form.canon v) := by
  simp [value?, h]

theorem value?_of_none {a : Attributes} (h : a.lookup key = none) :
    value? ⟨key, form, default⟩ a = default := by
  simp [value?, h]

theorem reads_required (h : read.Canonical form write) :
    Reads ⟨key, form, none⟩ (·.required key read) fun x => some (write x) := by
  constructor
  · intro b x hx
    unfold Block.required at hx
    split at hx
    · next v hv => rw [value?_of_some hv, h.canon hx]
    · simp at hx
  · intro b x hx b' hb'
    unfold Block.required at hx
    split at hx
    · simpa [Block.required, hb'] using h.reread hx _
    · simp at hx

theorem reads_optional [∀ path v, (read path v).IsExplained] (h : read.Canonical form write) :
    Reads ⟨key, form, none⟩ (·.optional key read) (Option.map write) := by
  constructor
  · intro b x hx
    unfold Block.optional at hx
    split at hx
    · next v hv =>
        obtain ⟨y, hy, rfl⟩ := Checked.attempt_eq_ok_iff.mp hx
        rw [value?_of_some hv, h.canon hy, Option.map_some]
    · next hv =>
        obtain rfl := Checked.ok_inj.mp hx
        rw [value?_of_none hv, Option.map_none]
  · intro b x hx b' hb'
    unfold Block.optional at hx
    split at hx
    · obtain ⟨y, hy, rfl⟩ := Checked.attempt_eq_ok_iff.mp hx
      simp only [Block.optional, hb', Option.map_some]
      exact Checked.attempt_eq_ok_iff.mpr ⟨y, h.reread hy _, rfl⟩
    · obtain rfl := Checked.ok_inj.mp hx
      simp [Block.optional, hb']

/-- A default must pass the check of its own attribute. -/
theorem reads_withDefault (h : read.Canonical form write) (d : α)
    (hd : ∀ path, read path (write d) = .ok d) :
    Reads ⟨key, form, some (write d)⟩ (·.withDefault key d read) fun x => some (write x) := by
  constructor
  · intro b x hx
    unfold Block.withDefault at hx
    split at hx
    · next v hv => rw [value?_of_some hv, h.canon hx]
    · next hv =>
        obtain rfl := Checked.ok_inj.mp hx
        exact value?_of_none hv
  · intro b x hx b' hb'
    unfold Block.withDefault at hx
    split at hx
    · simpa [Block.withDefault, hb'] using h.reread hx _
    · obtain rfl := Checked.ok_inj.mp hx
      simpa [Block.withDefault, hb'] using hd _

theorem reads_numberWithDefault {least most d : Int} (hd : (Int32.ofInt d).toInt = d)
    (hbounds : least ≤ d ∧ d ≤ most) :
    Reads ⟨key, .plain, some (.int d)⟩
      (·.withDefault key (Int32.ofInt d) (Reading.number least most))
      fun n => some (Document.numberValue n) := by
  have hwritten : Document.numberValue (Int32.ofInt d) = .int d := by rw [Document.numberValue, hd]
  rw [← hwritten]
  refine reads_withDefault (Reading.number_canonical least most) _ fun path => ?_
  rw [Reading.number_eq_ok_iff, hd]
  exact ⟨rfl, hbounds⟩

/-- An absent list is read like an empty one, which must be the default unless it is too short. -/
theorem reads_getD (h : read.Canonical form write)
    (hd : ∀ {path x}, read path (.list []) = .ok x → default = some (form.canon (.list []))) :
    Reads ⟨key, form, default⟩
      (fun b => read (b.entryPath key) ((b.entries.lookup key).getD (.list [])))
      fun x => some (write x) := by
  constructor
  · intro b x hx
    cases hv : b.entries.lookup key with
    | some v =>
        rw [hv, Option.getD_some] at hx
        rw [value?_of_some hv, h.canon hx]
    | none =>
        rw [hv, Option.getD_none] at hx
        rw [value?_of_none hv, hd hx, h.canon hx]
  · intro b x hx b' hb'
    simpa [hb'] using h.reread hx _

theorem reads_list [∀ path v, (read path v).IsExplained] (h : read.Canonical form write)
    (most : Nat) :
    Reads ⟨key, .items form, some (.list [])⟩ (·.list key 0 most read)
      fun xs => some (.list (xs.map write)) :=
  reads_getD (h.listOf 0 most) fun _ => rfl

theorem reads_nonEmptyList [∀ path v, (read path v).IsExplained] (h : read.Canonical form write)
    {least : Nat} (hleast : 0 < least) (most : Nat) :
    Reads ⟨key, .items form, none⟩ (·.list key least most read)
      fun xs => some (.list (xs.map write)) := by
  refine reads_getD (h.listOf least most) fun {path xs} hxs => ?_
  obtain ⟨items, hitems, hbounds, -⟩ := Reading.listOf_eq_ok_iff.mp hxs
  obtain rfl := Value.list.inj hitems
  exact absurd hbounds.1 (Nat.not_le.mpr hleast)

theorem reads_blocks {read : Block → Checked α} [∀ b, (read b).IsExplained]
    {slots : List (Slot Form)} {write : α → Attributes} (h : Block.Canonical read slots write)
    (most : Nat) :
    Reads ⟨key, .items (.block slots), some (.list [])⟩ (·.blocks key most read)
      fun xs => some (.list (xs.map fun x => .map (write x))) :=
  reads_getD (h.listOf most) fun _ => rfl

end Slot

/-- A canonical block has no unknown entries. -/
theorem Block.unknownEntries_fill {slots : List (Slot Form)} {known : List String}
    (h : ∀ s ∈ slots, s.key ∈ known) (path : Path) (a : Attributes) :
    Block.unknownEntries ⟨path, Form.fill slots a⟩ known = [] := by
  rw [Block.unknownEntries, List.map_eq_nil_iff, List.filter_eq_nil_iff]
  intro e he
  obtain ⟨s, hs, hkey⟩ := List.mem_map.mp (Form.mem_keys_of_mem_fill he)
  simpa [← hkey] using h s hs

end EdgeFirewall
