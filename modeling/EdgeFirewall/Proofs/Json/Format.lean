import EdgeFirewall.Document.Json
import EdgeFirewall.Proofs.Entries

/-! # Formats of JSON documents

The format of a document says what stands where: texts, truth values, numbers, words and tables of
texts, in lists and in records whose members are declared. A document that can be read in a format
has one canonical form (`Format.canon?`): its records are objects that have their members in the
declared order, nothing undeclared, no null (`canon?_not_hasNullMember`), and no list left out.
Which part of a document is read in which format is a relation between the two (`Format.Reaches`). -/

namespace EdgeFirewall.Json

/-- Whether a declared member may be left out. -/
inductive Presence where
  | required
  /-- It may be absent or null. -/
  | optional
  /-- It is a list, and is empty if it is absent. -/
  | listOrEmpty
  deriving DecidableEq

/-- A declared member of a record, where `φ` are the formats of what may stand in it. -/
structure Member (φ : Type) where
  name : String
  presence : Presence
  format : φ

/-- The formats of documents. -/
inductive Format where
  | text
  | truth
  /-- A 32-bit integer. -/
  | number
  | word (spellings : List String)
  /-- An object that maps names to texts. -/
  | table
  | list (item : Format)
  | record (members : List (Member Format))

/-- The spelling that a document gives for a word. -/
def asSpelling? (spellings : List String) : Json → Option String
  | .str s | .obj [(s, .null)] => if s ∈ spellings then some s else none
  | _ => none

/-- What a declared member contributes to the canonical form of a record. -/
def Presence.canon? (presence : Presence) (name : String) (canon? : Json → Option Json)
    (r : Record) : Option (List (String × Json)) :=
  match presence with
  | .required => (r.required name canon?).map fun j => [(name, j)]
  | .optional => (r.optional name canon?).map (member? name id)
  | .listOrEmpty =>
    match r.lookup name with
    | none => some [(name, .arr [])]
    | some j => (canon? j).map fun j => [(name, j)]

mutual

/-- The canonical form of a document that follows a format. -/
def Format.canon? : Format → Json → Option Json
  | .text, j => j.asText?.map .str
  | .truth, j => j.asBool?.map .bool
  | .number, j => j.asInt32?.map fun n => .int n.toInt
  | .word spellings, j => (j.asSpelling? spellings).map .str
  | .table, j => (Tags.ofJson? j).map Tags.toJson
  | .list item, j => (j.asList? item.canon?).map .arr
  | .record members, j =>
    (j.record? (members.map Member.name)).bind fun r => (Format.canonMembers? members r).map .obj
termination_by structural f => f

/-- The canonical forms of the members of a record. -/
def Format.canonMembers? : List (Member Format) → Record → Option (List (String × Json))
  | [], _ => some []
  | ⟨name, presence, format⟩ :: rest, r => do
    return (← presence.canon? name format.canon? r) ++ (← Format.canonMembers? rest r)
termination_by structural members => members

end

/-- What a member contributes to the canonical form of a record. -/
def Member.canon? (m : Member Format) (r : Record) : Option (List (String × Json)) :=
  m.presence.canon? m.name m.format.canon? r

theorem Format.canonMembers?_cons (m : Member Format) (rest : List (Member Format)) (r : Record) :
    Format.canonMembers? (m :: rest) r =
      (m.canon? r).bind fun ms => (Format.canonMembers? rest r).map (ms ++ ·) := by
  obtain ⟨name, presence, format⟩ := m
  simp only [Format.canonMembers?, Member.canon?, Option.bind_eq_bind, Option.pure_def,
    Option.map_eq_bind, Function.comp_def]

/-- No format has null for a document. -/
@[simp] theorem Format.canon?_null (f : Format) : f.canon? .null = none := by
  cases f <;> rfl

/-! ### What is in a canonical form -/

/-- A member that is there contributes the canonical form of what it holds; one that is not
contributes nothing, or an empty list. -/
theorem Member.canon?_eq_some {m : Member Format} {r : Record} {part : List (String × Json)}
    (h : m.canon? r = some part) :
    (∃ given j, r.lookup m.name = some given ∧ m.format.canon? given = some j ∧
      part = [(m.name, j)]) ∨
    (m.presence = .optional ∧ (∀ given, r.lookup m.name = some given → given = .null) ∧
      part = []) ∨
    (m.presence = .listOrEmpty ∧ r.lookup m.name = none ∧ part = [(m.name, .arr [])]) := by
  obtain ⟨name, presence, format⟩ := m
  unfold Member.canon? Presence.canon? at h
  cases presence with
  | required =>
      cases hgiven : r.lookup name with
      | none => simp [Record.required, hgiven] at h
      | some given =>
          simp only [Record.required, hgiven, Option.bind_some, Option.map_eq_some_iff] at h
          obtain ⟨j, hj, rfl⟩ := h
          exact .inl ⟨given, j, rfl, hj, rfl⟩
  | optional =>
      cases hgiven : r.lookup name with
      | none =>
          obtain rfl : part = [] := by simpa [Record.optional, hgiven, member?] using h.symm
          exact .inr (.inl ⟨rfl, by simp, rfl⟩)
      | some given =>
          by_cases hnull : given = .null
          · subst hnull
            obtain rfl : part = [] := by simpa [Record.optional, hgiven, member?] using h.symm
            exact .inr (.inl ⟨rfl, by simp, rfl⟩)
          · simp only [Record.optional, hgiven, Option.map_map, Option.map_eq_some_iff] at h
            obtain ⟨j, hj, rfl⟩ := h
            exact .inl ⟨given, j, rfl, hj, rfl⟩
  | listOrEmpty =>
      cases hgiven : r.lookup name with
      | none =>
          obtain rfl : part = [(name, .arr [])] := by simpa [hgiven] using h.symm
          exact .inr (.inr ⟨rfl, rfl, rfl⟩)
      | some given =>
          simp only [hgiven, Option.map_eq_some_iff] at h
          obtain ⟨j, hj, rfl⟩ := h
          exact .inl ⟨given, j, rfl, hj, rfl⟩

theorem Member.fst_of_canon? {m : Member Format} {r : Record} {part : List (String × Json)}
    (h : m.canon? r = some part) {x : String × Json} (hx : x ∈ part) : x.1 = m.name := by
  rcases m.canon?_eq_some h with ⟨_, _, -, -, rfl⟩ | ⟨-, -, rfl⟩ | ⟨-, -, rfl⟩ <;> simp_all

namespace Format

variable {members : List (Member Format)} {r : Record} {part ms : List (String × Json)}

theorem canonMembers?_cons_eq_some_iff {m : Member Format} {rest : List (Member Format)} :
    canonMembers? (m :: rest) r = some ms ↔
      ∃ part others, m.canon? r = some part ∧ canonMembers? rest r = some others ∧
        ms = part ++ others := by
  rw [canonMembers?_cons, Option.bind_eq_some_iff]
  simp only [Option.map_eq_some_iff]
  constructor
  · rintro ⟨part, hpart, others, hothers, rfl⟩
    exact ⟨part, others, hpart, hothers, rfl⟩
  · rintro ⟨part, others, hpart, hothers, rfl⟩
    exact ⟨part, hpart, others, hothers, rfl⟩

/-- What is in the canonical form of a record is what its members contribute. -/
theorem mem_canonMembers?_iff (h : canonMembers? members r = some ms) (x : String × Json) :
    x ∈ ms ↔ ∃ m ∈ members, ∃ part, m.canon? r = some part ∧ x ∈ part := by
  induction members generalizing ms with
  | nil =>
      obtain rfl : ms = [] := by simpa [canonMembers?] using h.symm
      simp
  | cons m rest ih =>
      obtain ⟨part, others, hpart, hothers, rfl⟩ := canonMembers?_cons_eq_some_iff.mp h
      rw [List.mem_append, ih hothers, List.exists_mem_cons_iff, hpart]
      simp

theorem forall_canon?_of_canonMembers? (h : canonMembers? members r = some ms) :
    ∀ m ∈ members, ∃ part, m.canon? r = some part := by
  induction members generalizing ms with
  | nil => simp
  | cons m rest ih =>
      obtain ⟨part, others, hpart, hothers, -⟩ := canonMembers?_cons_eq_some_iff.mp h
      exact List.forall_mem_cons.mpr ⟨⟨part, hpart⟩, ih hothers⟩

/-- What is in the canonical form of a record under the name of a member is what that member
contributes. -/
theorem exists_canon?_of_canonMembers? (hnames : (members.map Member.name).Nodup)
    (h : canonMembers? members r = some ms) {m : Member Format} (hm : m ∈ members) :
    ∃ part, m.canon? r = some part ∧ ∀ j, (m.name, j) ∈ ms ↔ (m.name, j) ∈ part := by
  obtain ⟨part, hpart⟩ := forall_canon?_of_canonMembers? h m hm
  refine ⟨part, hpart, fun j => ?_⟩
  rw [mem_canonMembers?_iff h]
  constructor
  · rintro ⟨m', hm', part', hpart', hj⟩
    have hname : m.name = m'.name := Member.fst_of_canon? hpart' hj
    obtain rfl : m = m' := List.inj_on_of_nodup_map hnames hm hm' hname
    obtain rfl := Option.some.inj (hpart.symm.trans hpart')
    exact hj
  · exact fun hj => ⟨m, hm, part, hpart, hj⟩

theorem keys_canonMembers? (h : canonMembers? members r = some ms) :
    (ms.map Prod.fst).Sublist (members.map Member.name) := by
  induction members generalizing ms with
  | nil =>
      obtain rfl : ms = [] := by simpa [canonMembers?] using h.symm
      exact .slnil
  | cons m rest ih =>
      obtain ⟨part, others, hpart, hothers, rfl⟩ := canonMembers?_cons_eq_some_iff.mp h
      have hkeys : (part.map Prod.fst).Sublist [m.name] := by
        rcases m.canon?_eq_some hpart with ⟨_, _, -, -, rfl⟩ | ⟨-, -, rfl⟩ | ⟨-, -, rfl⟩ <;> simp
      rw [List.map_append]
      exact hkeys.append (ih hothers)

/-- The members of an object that a record declares. -/
def known (members : List (Member Format)) (given : List (String × Json)) : Record :=
  given.filter ((members.map Member.name).contains ·.1)

theorem mem_known_iff {given : List (String × Json)} {m : Member Format} (hm : m ∈ members)
    {j : Json} : (m.name, j) ∈ known members given ↔ (m.name, j) ∈ given := by
  have hname : m.name ∈ members.map Member.name := List.mem_map_of_mem hm
  rw [known, List.mem_filter, List.contains_iff_mem]
  exact and_iff_left hname

theorem canon?_record_obj (members : List (Member Format)) (given : List (String × Json)) :
    (record members).canon? (.obj given) =
      if ((known members given).map Prod.fst).Nodup then
        (canonMembers? members (known members given)).map .obj
      else none := by
  have hrecord : (obj given).record? (members.map Member.name) =
      if ((known members given).map Prod.fst).Nodup then some (known members given) else none := rfl
  rw [canon?, hrecord]
  split <;> rfl

theorem canon?_record_obj_eq_some_iff {given : List (String × Json)} {k : Json} :
    (record members).canon? (.obj given) = some k ↔
      ((known members given).map Prod.fst).Nodup ∧
        ∃ written, canonMembers? members (known members given) = some written ∧
          .obj written = k := by
  rw [canon?_record_obj, Option.ite_none_right_eq_some, Option.map_eq_some_iff]

theorem mapM_eq_some_iff {α β : Type} {g : α → Option β} {as : List α} {bs : List β} :
    as.mapM g = some bs ↔ as.map g = bs.map some := by
  induction as generalizing bs with
  | nil => cases bs <;> simp
  | cons a as ih =>
      rw [List.mapM_cons]
      cases bs <;> simp [Option.bind_eq_some_iff, ih]

theorem canon?_list_eq_some_iff {f : Format} {j k : Json} : f.list.canon? j = some k ↔
    ∃ items ks, j = .arr items ∧ k = .arr ks ∧ items.map f.canon? = ks.map some := by
  cases j with
  | arr items =>
      simp only [canon?, asList?, Option.map_eq_some_iff, mapM_eq_some_iff]
      exact ⟨fun ⟨ks, hks, hk⟩ => ⟨items, ks, rfl, hk.symm, hks⟩,
        fun ⟨_, ks, hitems, hk, hks⟩ => ⟨ks, arr.inj hitems ▸ hks, hk.symm⟩⟩
  | _ => simp [canon?, asList?]

/-! ### Declarations -/

/-- The declared members of each record in a format have a property. -/
inductive Every (P : List (Member Format) → Prop) : Format → Prop where
  | text : Every P text
  | truth : Every P truth
  | number : Every P number
  | word (spellings : List String) : Every P (word spellings)
  | table : Every P table
  | list {item : Format} (h : Every P item) : Every P (list item)
  | record {members : List (Member Format)} (h : P members)
      (hmembers : ∀ m ∈ members, Every P m.format) : Every P (record members)

theorem Every.mono {P Q : List (Member Format) → Prop} (hPQ : ∀ members, P members → Q members)
    {f : Format} (h : f.Every P) : f.Every Q := by
  induction h with
  | text => exact .text
  | truth => exact .truth
  | number => exact .number
  | word spellings => exact .word spellings
  | table => exact .table
  | list _ ih => exact .list ih
  | record h _ ih => exact .record (hPQ _ h) ih

section Decision

variable (P : List (Member Format) → Prop) [DecidablePred P]

mutual

/-- Whether the declared members of each record in a format have a property. -/
def every : Format → Bool
  | .text | .truth | .number | .word _ | .table => true
  | .list item => item.every
  | .record members => decide (P members) && everyMember members
termination_by structural f => f

/-- Whether they do in the formats of some members. -/
def everyMember : List (Member Format) → Bool
  | [] => true
  | ⟨_, _, format⟩ :: rest => format.every && everyMember rest
termination_by structural members => members

end

variable {P}

mutual

theorem every_of_eq_true : ∀ f : Format, f.every P = true → f.Every P
  | .text, _ => .text
  | .truth, _ => .truth
  | .number, _ => .number
  | .word spellings, _ => .word spellings
  | .table, _ => .table
  | .list item, h => .list (every_of_eq_true item h)
  | .record members, h => by
      obtain ⟨hP, hmembers⟩ := Bool.and_eq_true_iff.mp h
      exact .record (of_decide_eq_true hP) (every_of_everyMember members hmembers)
termination_by structural f => f

theorem every_of_everyMember : ∀ members : List (Member Format), everyMember P members = true →
    ∀ m ∈ members, m.format.Every P
  | [], _ => nofun
  | ⟨name, presence, format⟩ :: rest, h => by
      obtain ⟨hformat, hrest⟩ := Bool.and_eq_true_iff.mp h
      rw [List.forall_mem_cons]
      exact ⟨every_of_eq_true format hformat, every_of_everyMember rest hrest⟩
termination_by structural members => members

end

theorem everyMember_of_forall {members : List (Member Format)}
    (h : ∀ m ∈ members, m.format.every P = true) : everyMember P members = true := by
  induction members with
  | nil => rfl
  | cons m rest ih =>
      rw [List.forall_mem_cons] at h
      exact Bool.and_eq_true_iff.mpr ⟨h.1, ih h.2⟩

theorem eq_true_of_every {f : Format} (h : f.Every P) : f.every P = true := by
  induction h with
  | text => rfl
  | truth => rfl
  | number => rfl
  | word spellings => rfl
  | table => rfl
  | list _ ih => exact ih
  | record h _ ih => exact Bool.and_eq_true_iff.mpr ⟨decide_eq_true h, everyMember_of_forall ih⟩

instance : DecidablePred (Every P) := fun f =>
  decidable_of_iff (f.every P = true) ⟨every_of_eq_true f, eq_true_of_every⟩

end Decision

/-- No record in a format declares two members of one name. -/
abbrev Distinct (f : Format) : Prop := f.Every fun members => (members.map Member.name).Nodup

/-- The lists that a record may lack have these names. -/
def ListsAmong (names : List String) (members : List (Member Format)) : Prop :=
  ∀ m ∈ members, m.presence = .listOrEmpty → m.name ∈ names

instance (names : List String) : DecidablePred (ListsAmong names) := fun members =>
  inferInstanceAs (Decidable (∀ m ∈ members, m.presence = .listOrEmpty → m.name ∈ names))

end Format

/-! ### Parts -/

namespace Format

/-- A part of a document and the format in which it is read, inside a document that is read in some
format. -/
inductive Reaches : Format → Json → Format → Json → Prop where
  | here (f : Format) (j : Json) : Reaches f j f j
  | item {f f' : Format} {items : List Json} {j v : Json} (hj : j ∈ items)
      (h : Reaches f j f' v) : Reaches (list f) (.arr items) f' v
  | member {members : List (Member Format)} {given : List (String × Json)} {m : Member Format}
      {f' : Format} {j v : Json} (hm : m ∈ members) (hj : (m.name, j) ∈ given)
      (h : Reaches m.format j f' v) : Reaches (record members) (.obj given) f' v

theorem eq_null_of_reaches {f f' : Format} {v : Json} (h : f.Reaches .null f' v) : v = .null := by
  cases h
  rfl

/-- Something holds of each part of a document and the format in which it is read. -/
def Throughout (P : Format → Json → Prop) (f : Format) (j : Json) : Prop :=
  ∀ f' v, f.Reaches j f' v → P f' v

variable {P : Format → Json → Prop}

theorem Throughout.self {f : Format} {j : Json} (h : Throughout P f j) : P f j := h f j (.here f j)

theorem throughout_iff_self {f : Format} {j : Json} (hitems : ∀ items, j ≠ .arr items)
    (hmembers : ∀ given, j ≠ .obj given) : Throughout P f j ↔ P f j := by
  refine ⟨Throughout.self, ?_⟩
  rintro h f' v (_ | _ | _)
  · exact h
  · exact absurd rfl (hitems _)
  · exact absurd rfl (hmembers _)

theorem throughout_table_iff {j : Json} : Throughout P table j ↔ P table j := by
  refine ⟨Throughout.self, ?_⟩
  rintro h f' v ⟨⟩
  exact h

theorem throughout_list_iff {f : Format} {items : List Json} :
    Throughout P (list f) (.arr items) ↔
      P (list f) (.arr items) ∧ ∀ j ∈ items, Throughout P f j := by
  refine ⟨fun h => ⟨h.self, fun j hj f' v hv => h f' v (.item hj hv)⟩, ?_⟩
  rintro ⟨hself, hitems⟩ f' v (_ | ⟨hj, hv⟩)
  · exact hself
  · exact hitems _ hj f' v hv

theorem throughout_record_iff {members : List (Member Format)} {given : List (String × Json)} :
    Throughout P (record members) (.obj given) ↔
      P (record members) (.obj given) ∧
        ∀ m ∈ members, ∀ j, (m.name, j) ∈ given → Throughout P m.format j := by
  refine ⟨fun h => ⟨h.self, fun m hm j hj f' v hv => h f' v (.member hm hj hv)⟩, ?_⟩
  rintro ⟨hself, hmembers⟩ f' v (_ | _ | ⟨hm, hj, hv⟩)
  · exact hself
  · exact hmembers _ hm _ hj f' v hv

end Format

/-! ### No null -/

/-- Somewhere in a document a member of an object is null. -/
inductive HasNullMember : Json → Prop where
  | null {members : List (String × Json)} {name : String} (h : (name, .null) ∈ members) :
    HasNullMember (.obj members)
  | inMember {members : List (String × Json)} {name : String} {j : Json} (hj : (name, j) ∈ members)
    (h : HasNullMember j) : HasNullMember (.obj members)
  | inItem {items : List Json} {j : Json} (hj : j ∈ items) (h : HasNullMember j) :
    HasNullMember (.arr items)

namespace Format

theorem canon?_ne_null {f : Format} {j : Json} : f.canon? j ≠ some .null := by
  cases f <;> simp [canon?, Option.map_eq_some_iff, Option.bind_eq_some_iff, Tags.toJson]

/-- A member of a canonical form holds a canonical form, or an empty list that was left out. -/
theorem exists_canon?_of_mem (h : canonMembers? members r = some ms) {x : String × Json}
    (hx : x ∈ ms) : (∃ m ∈ members, ∃ given, m.format.canon? given = some x.2) ∨ x.2 = .arr [] := by
  obtain ⟨m, hm, part, hpart, hx⟩ := (mem_canonMembers?_iff h x).mp hx
  rcases m.canon?_eq_some hpart with ⟨given, j, -, hj, rfl⟩ | ⟨-, -, rfl⟩ | ⟨-, -, rfl⟩
  · obtain rfl := List.mem_singleton.mp hx
    exact .inl ⟨m, hm, given, hj⟩
  · simp at hx
  · obtain rfl := List.mem_singleton.mp hx
    exact .inr rfl

theorem canon?_not_hasNullMember {f : Format} (hf : f.Distinct) {j k : Json}
    (h : f.canon? j = some k) : ¬ k.HasNullMember := by
  induction hf generalizing j k with
  | text | truth | number | word =>
      obtain ⟨_, -, rfl⟩ := Option.map_eq_some_iff.mp h
      nofun
  | table =>
      obtain ⟨t, -, rfl⟩ := Option.map_eq_some_iff.mp h
      rintro (hnull | ⟨hj, hnull⟩)
      · simp at hnull
      · obtain ⟨e, -, he⟩ := List.mem_map.mp hj
        obtain ⟨-, rfl⟩ := Prod.mk.inj he
        nomatch hnull
  | list hitem ih =>
      obtain ⟨items, ks, rfl, rfl, hks⟩ := canon?_list_eq_some_iff.mp h
      rintro (_ | _ | ⟨hk, hnull⟩)
      have hmem := List.mem_map_of_mem (f := some) hk
      rw [← hks, List.mem_map] at hmem
      obtain ⟨j, -, hj⟩ := hmem
      exact ih hj hnull
  | record hnames hmembers ih =>
      obtain ⟨r, -, hr⟩ := Option.bind_eq_some_iff.mp h
      obtain ⟨ms, hms, rfl⟩ := Option.map_eq_some_iff.mp hr
      rintro (hx | ⟨hx, hnull⟩)
      · rcases exists_canon?_of_mem hms hx with ⟨m, hm, given, hgiven⟩ | hempty
        · exact canon?_ne_null hgiven
        · cases hempty
      · rcases exists_canon?_of_mem hms hx with ⟨m, hm, given, hgiven⟩ | hempty
        · exact ih m hm hgiven hnull
        · obtain rfl := hempty
          nomatch hnull

end Format

end EdgeFirewall.Json
