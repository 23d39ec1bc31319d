import EdgeFirewall.Proofs.Json.Format
import EdgeFirewall.Proofs.Vocabulary.Words

/-! # Readers and writers that belong to a format

A reader and a writer of the values of some type belong to a format (`Format.Codec`) if the reader
undoes the writer, and what is written of what was read is the canonical form. Single values, words,
tables and lists have their codecs here. A record is read member by member, and what it takes for its
codec is shown in the same steps, once for what is written first (`Codec.reads_required` and the
like) and once for what is read first (`Codec.rewrites_required` and the like). -/

namespace EdgeFirewall.Json

/-- A reader and a writer belong to a format. -/
structure Format.Codec {α : Type} (f : Format) (read? : Json → Option α) (write : α → Json) :
    Prop where
  read_write : ∀ a, read? (write a) = some a
  map_write : ∀ j, (read? j).map write = f.canon? j

namespace Format

theorem codec_text : text.Codec asText? .str where
  read_write _ := rfl
  map_write _ := rfl

theorem codec_truth : truth.Codec asBool? .bool where
  read_write _ := rfl
  map_write _ := rfl

theorem asInt32?_toInt (n : Int32) : asInt32? (.int n.toInt) = some n := by
  have hlower := n.le_toInt
  have hupper := n.toInt_lt
  unfold asInt32?
  dsimp only
  rw [if_pos (by omega), Int32.ofInt_toInt]

theorem codec_number : number.Codec asInt32? fun n => .int n.toInt where
  read_write := asInt32?_toInt
  map_write _ := rfl

/-- The words of a vocabulary. -/
def ofVocabulary (α : Type) [Vocabulary α] : Format := .word (Vocabulary.spellings α)

theorem map_spelling_ofSpelling? {α : Type} [Vocabulary α] (s : String) :
    (Vocabulary.ofSpelling? s : Option α).map Vocabulary.spelling =
      if s ∈ Vocabulary.spellings α then some s else none := by
  cases h : (Vocabulary.ofSpelling? s : Option α) with
  | some a =>
      have hs := Vocabulary.ofSpelling?_eq_some_iff.mp h
      rw [if_pos (Vocabulary.mem_spellings_iff.mpr ⟨a, hs⟩), Option.map_some, hs]
  | none =>
      have hnot : s ∉ Vocabulary.spellings α := by
        rw [Vocabulary.mem_spellings_iff]
        rintro ⟨a, hs⟩
        rw [Vocabulary.ofSpelling?_eq_some_iff.mpr hs] at h
        simp at h
      rw [if_neg hnot, Option.map_none]

theorem codec_ofVocabulary (α : Type) [Vocabulary α] :
    (ofVocabulary α).Codec (asWord? : Json → Option α) ofWord where
  read_write := Vocabulary.ofSpelling?_spelling
  map_write j := by
    have hmap : ∀ s, (Vocabulary.ofSpelling? s : Option α).map ofWord =
        (if s ∈ Vocabulary.spellings α then some s else none).map Json.str := by
      intro s
      rw [← map_spelling_ofSpelling?, Option.map_map]
      rfl
    unfold ofVocabulary canon? asWord? asSpelling?
    split <;> simp [hmap]

theorem mapM_asText? (entries : List (String × String)) :
    (entries.map fun e => (e.1, Json.str e.2)).mapM
      (fun m : String × Json => m.2.asText?.map (m.1, ·)) = some entries := by
  rw [List.mapM_map]
  exact List.mapM_pure.trans (by simp)

theorem codec_table : table.Codec Tags.ofJson? Tags.toJson where
  read_write t := by
    unfold Tags.toJson Tags.ofJson?
    dsimp only
    rw [mapM_asText?, Option.map_some, Tags.ofList_entries]
  map_write _ := rfl

section

variable {α : Type} {f : Format} {read? : Json → Option α} {write : α → Json}

theorem Codec.mapM_read_write (c : f.Codec read? write) (as : List α) :
    (as.map write).mapM read? = some as := by
  induction as with
  | nil => rfl
  | cons a rest ih => simp [List.mapM_cons, c.read_write, ih]

theorem Codec.mapM_map_write (c : f.Codec read? write) (items : List Json) :
    (items.mapM read?).map (List.map write) = items.mapM f.canon? := by
  induction items with
  | nil => rfl
  | cons j rest ih =>
      rw [List.mapM_cons, List.mapM_cons, ← ih, ← c.map_write]
      cases read? j <;> cases rest.mapM read? <;> rfl

theorem codec_list (c : f.Codec read? write) :
    f.list.Codec (asList? read?) fun as => .arr (as.map write) where
  read_write := c.mapM_read_write
  map_write j := by
    cases j with
    | arr items =>
        simp only [canon?, asList?, ← c.mapM_map_write, Option.map_map]
        rfl
    | _ => rfl

theorem Codec.read_null (c : f.Codec read? write) : read? .null = none := by
  have h := c.map_write .null
  rwa [canon?_null, Option.map_eq_none_iff] at h

end

/-! ### Records written -/

section

variable {α β : Type} {f : Format} {read? : Json → Option β} {write : β → Json} {r : Record}
  {name : String} {put : α → Json}

/-- Of what is read from a record, what some members hold is written, in the canonical form of
these members and after what stands before it. -/
def Rewrites (members : List (Member Format)) (r : Record) (work : Option α) (put : α → Json)
    (before : List (String × Json)) : Prop :=
  work.map put = (canonMembers? members r).map fun ms => .obj (before ++ ms)

variable {rest : List (Member Format)} {before : List (String × Json)}

theorem rewrites_nil {a : α} (h : put a = .obj before) : Rewrites [] r (pure a) put before := by
  simp [Rewrites, canonMembers?, h]

theorem rewrites_cons {m : Member Format} {get : Option β} {k : β → Option α}
    {written : β → List (String × Json)} (hget : get.map written = m.canon? r)
    (hk : ∀ b, Rewrites rest r (k b) put (before ++ written b)) :
    Rewrites (m :: rest) r (get >>= k) put before := by
  unfold Rewrites
  rw [canonMembers?_cons, ← hget]
  cases get with
  | none => rfl
  | some b => simpa [Rewrites, Function.comp_def] using hk b

variable {k : β → Option α}

theorem Codec.rewrites_required (c : f.Codec read? write)
    (hk : ∀ b, Rewrites rest r (k b) put (before ++ [(name, write b)])) :
    Rewrites (⟨name, .required, f⟩ :: rest) r (r.required name read? >>= k) put before := by
  refine rewrites_cons ?_ hk
  simp only [Member.canon?, Presence.canon?, Record.required]
  cases r.lookup name with
  | none => rfl
  | some j => simp [← c.map_write, Function.comp_def]

theorem Codec.rewrites_optional (c : f.Codec read? write) {k : Option β → Option α}
    (hk : ∀ b, Rewrites rest r (k b) put (before ++ member? name write b)) :
    Rewrites (⟨name, .optional, f⟩ :: rest) r (r.optional name read? >>= k) put before := by
  refine rewrites_cons ?_ hk
  simp only [Member.canon?, Presence.canon?, Record.optional]
  split
  · rfl
  · rfl
  · rw [← c.map_write, Option.map_map, Option.map_map, Option.map_map]
    rfl

theorem Codec.rewrites_listOrEmpty (c : f.Codec read? write) {k : List β → Option α}
    (hk : ∀ bs, Rewrites rest r (k bs) put (before ++ [(name, .arr (bs.map write))])) :
    Rewrites (⟨name, .listOrEmpty, f.list⟩ :: rest) r (r.listOrEmpty name read? >>= k) put
      before := by
  refine rewrites_cons ?_ hk
  simp only [Member.canon?, Presence.canon?, Record.listOrEmpty]
  cases r.lookup name with
  | none => rfl
  | some j =>
      simp only [← (codec_list c).map_write, Option.map_map]
      rfl

theorem map_write_record {members : List (Member Format)} {names : List String}
    {work : Record → Option α} (h : ∀ r, Rewrites members r (work r) put [])
    (hnames : members.map Member.name = names) (j : Json) :
    (j.record? names >>= work).map put = (record members).canon? j := by
  subst hnames
  rw [canon?]
  cases j.record? (members.map Member.name) with
  | none => rfl
  | some r => exact h r

/-! ### Records read back -/

theorem record?_obj {names : List String} {members : List (String × Json)} (hnames : names.Nodup)
    (hkeys : (members.map Prod.fst).Sublist names) : (obj members).record? names = some members := by
  have hknown : members.filter (names.contains ·.1) = members := by
    rw [List.filter_eq_self]
    intro x hx
    rw [List.contains_iff_mem]
    exact hkeys.subset (List.mem_map_of_mem hx)
  simp only [record?, hknown, if_pos (hnames.sublist hkeys)]

theorem keys_member? {write : β → Json} {b : Option β} :
    ((member? name write b).map Prod.fst).Sublist [name] := by
  cases b <;> simp [member?]

theorem keys_append {ms ms' : List (String × Json)} {names names' : List String}
    (h : (ms.map Prod.fst).Sublist names) (h' : (ms'.map Prod.fst).Sublist names') :
    ((ms ++ ms').map Prod.fst).Sublist (names ++ names') := by
  rw [List.map_append]
  exact h.append h'

theorem lookup_member? (key name : String) (write : β → Json) (b : Option β) :
    (member? name write b).lookup key = if key = name then b.map write else none := by
  cases b with
  | none => simp [member?]
  | some b =>
      rw [member?, List.lookup_cons, List.lookup_nil]
      by_cases h : key = name
      · simp [h]
      · simp [h, beq_eq_false_iff_ne.mpr h]

theorem read_record {names : List String} {members : List (String × Json)} {a : α}
    {work : Record → Option α} (hkeys : (members.map Prod.fst).Sublist names)
    (hwork : work members = some a) (hnames : names.Nodup) :
    ((obj members).record? names >>= work) = some a := by
  rw [record?_obj hnames hkeys]
  exact hwork

variable {a : α}

theorem Codec.reads_required (c : f.Codec read? write) (b : β)
    (h : r.lookup name = some (write b)) (hk : k b = some a) :
    (r.required name read? >>= k) = some a := by
  have hread : r.required name read? = some b := by simp [Record.required, h, c.read_write]
  rw [hread]
  exact hk

theorem Codec.reads_optional (c : f.Codec read? write) (b : Option β)
    (h : r.lookup name = b.map write) {k : Option β → Option α} (hk : k b = some a) :
    (r.optional name read? >>= k) = some a := by
  have hread : r.optional name read? = some b := by
    unfold Record.optional
    rw [h]
    cases b with
    | none => rfl
    | some b =>
        have hread := c.read_write b
        rw [Option.map_some]
        cases hj : write b with
        | null => simp [hj, c.read_null] at hread
        | _ => simp [← hj, hread]
  rw [hread]
  exact hk

theorem Codec.reads_listOrEmpty (c : f.Codec read? write) (bs : List β)
    (h : r.lookup name = some (.arr (bs.map write))) {k : List β → Option α}
    (hk : k bs = some a) : (r.listOrEmpty name read? >>= k) = some a := by
  have hread : r.listOrEmpty name read? = some bs := by
    simp [Record.listOrEmpty, h, asList?, c.mapM_read_write]
  rw [hread]
  exact hk

end

end Format

end EdgeFirewall.Json
