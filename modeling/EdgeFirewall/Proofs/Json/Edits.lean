import EdgeFirewall.Proofs.Tags
import Mathlib.Logic.Relation

/-! # Edits that readers do not notice

What is read of a document in some format does not depend on the order in which the members of its
objects stand, on members that its records do not declare, or on whether an optional member is null
or absent. Each such change is an edit (`Format.Edit`), at any depth, and however many edits and
reversed edits lead from a document to another one, the two have the same canonical form
(`Format.canon?_eq_of_edits`). Where an array is read as a record the members have no names, and of
a repeated tag the last text counts: so these are left aside (`Format.Orderly`). -/

namespace EdgeFirewall.Json

/-- In one of the two documents the members of some object stand in another order. -/
inductive Reordered : Json → Json → Prop where
  | here {members members' : List (String × Json)} (h : members.Perm members') :
    Reordered (.obj members) (.obj members')
  | inMember {before after : List (String × Json)} {key : String} {j j' : Json}
      (h : Reordered j j') :
    Reordered (.obj (before ++ (key, j) :: after)) (.obj (before ++ (key, j') :: after))
  | inItem {before after : List Json} {j j' : Json} (h : Reordered j j') :
    Reordered (.arr (before ++ j :: after)) (.arr (before ++ j' :: after))

namespace Format

/-- A record is not written as an array, and a table has no name twice. -/
def Orderly : Format → Json → Prop
  | .record _, .arr _ => False
  | .table, .obj entries => (entries.map Prod.fst).Nodup
  | _, _ => True

/-- A change that does not matter to the readers of a format. -/
inductive Edit : Format → Json → Json → Prop where
  | reorder {f : Format} {j j' : Json} (h : Reordered j j') : Edit f j j'
  | insertUnknown {members : List (Member Format)} {before after : List (String × Json)}
      {key : String} (j : Json) (h : ∀ m ∈ members, m.name ≠ key) :
    Edit (record members) (.obj (before ++ after)) (.obj (before ++ (key, j) :: after))
  | insertNull {members : List (Member Format)} {before after : List (String × Json)}
      {m : Member Format} (hm : m ∈ members) (hoptional : m.presence = .optional)
      (habsent : m.name ∉ (before ++ after).map Prod.fst) :
    Edit (record members) (.obj (before ++ after)) (.obj (before ++ (m.name, .null) :: after))
  | inMember {members : List (Member Format)} {before after : List (String × Json)}
      {m : Member Format} {j j' : Json} (hm : m ∈ members) (h : Edit m.format j j') :
    Edit (record members) (.obj (before ++ (m.name, j) :: after))
      (.obj (before ++ (m.name, j') :: after))
  | inItem {f : Format} {before after : List Json} {j j' : Json} (h : Edit f j j') :
    Edit (list f) (.arr (before ++ j :: after)) (.arr (before ++ j' :: after))

end Format

/-! ### What a member contributes -/

namespace Member

variable {m : Member Format} {r r' : Record}

theorem canon?_congr (h : r.lookup m.name = r'.lookup m.name) : m.canon? r = m.canon? r' := by
  simp only [Member.canon?, Presence.canon?, Record.required, Record.optional, h]

theorem canon?_of_lookup {j : Json} (h : r.lookup m.name = some j) (hj : j ≠ .null) :
    m.canon? r = (m.format.canon? j).map fun k => [(m.name, k)] := by
  unfold Member.canon? Presence.canon?
  cases m.presence with
  | required => simp only [Record.required, h, Option.bind_some]
  | optional =>
      simp only [Record.optional, h, Option.map_map]
      rfl
  | listOrEmpty => simp only [h]

theorem canon?_of_absent (hoptional : m.presence = .optional)
    (h : ∀ j, r.lookup m.name = some j → j = .null) : m.canon? r = some [] := by
  unfold Member.canon? Presence.canon?
  rw [hoptional]
  dsimp only
  cases hj : r.lookup m.name with
  | none => simp [Record.optional, hj, member?]
  | some j =>
      obtain rfl := h j hj
      simp [Record.optional, hj, member?]

end Member

namespace Format

/-! ### Records -/

section

variable {members : List (Member Format)} {m : Member Format}
  {given given' before after : List (String × Json)} {key : String} {j j' : Json} {r r' : Record}

/-- Only one member of a record has its name. -/
theorem forall_named_iff (hnames : (members.map Member.name).Nodup) (hm : m ∈ members)
    {p : Member Format → Prop} : (∀ m' ∈ members, m'.name = m.name → p m') ↔ p m := by
  refine ⟨fun h => h m hm rfl, fun h m' hm' hname => ?_⟩
  obtain rfl : m' = m := List.inj_on_of_nodup_map hnames hm' hm hname
  exact h

theorem canonMembers?_congr (h : ∀ m ∈ members, m.canon? r = m.canon? r') :
    canonMembers? members r = canonMembers? members r' := by
  induction members with
  | nil => rfl
  | cons m rest ih =>
      rw [List.forall_mem_cons] at h
      rw [canonMembers?_cons, canonMembers?_cons, h.1, ih h.2]

theorem canon?_record_congr
    (hkeys : ((known members given).map Prod.fst).Nodup ↔
      ((known members given').map Prod.fst).Nodup)
    (h : ((known members given).map Prod.fst).Nodup →
      ∀ m ∈ members, m.canon? (known members given) = m.canon? (known members given')) :
    (record members).canon? (.obj given) = (record members).canon? (.obj given') := by
  rw [canon?_record_obj, canon?_record_obj]
  by_cases hnodup : ((known members given).map Prod.fst).Nodup
  · rw [if_pos hnodup, if_pos (hkeys.mp hnodup), canonMembers?_congr (h hnodup)]
  · rw [if_neg hnodup, if_neg fun h' => hnodup (hkeys.mpr h')]

theorem known_insert (hm : m ∈ members) : known members (before ++ (m.name, j) :: after) =
    known members before ++ (m.name, j) :: known members after := by
  have hname : (members.map Member.name).contains m.name :=
    List.contains_iff_mem.mpr (List.mem_map_of_mem hm)
  simp only [known, List.filter_append, List.filter_cons, hname, if_true]

theorem known_insert_unknown (h : ∀ m ∈ members, m.name ≠ key) :
    known members (before ++ (key, j) :: after) = known members (before ++ after) := by
  have hname : ¬ (members.map Member.name).contains key := by
    rw [List.contains_iff_mem, List.mem_map]
    rintro ⟨m, hm, hkey⟩
    exact h m hm hkey
  simp only [known, List.filter_append, List.filter_cons, hname, Bool.false_eq_true, if_false]

/-- The order of the members of a record does not matter. -/
theorem canon?_record_perm (h : given.Perm given') :
    (record members).canon? (.obj given) = (record members).canon? (.obj given') := by
  have hknown : (known members given).Perm (known members given') := h.filter _
  exact canon?_record_congr (hknown.map Prod.fst).nodup_iff fun hkeys _ _ =>
    Member.canon?_congr (Entries.lookup_perm hknown hkeys)

theorem canon?_record_insertUnknown (h : ∀ m ∈ members, m.name ≠ key) :
    (record members).canon? (.obj (before ++ (key, j) :: after)) =
      (record members).canon? (.obj (before ++ after)) := by
  rw [canon?_record_obj, canon?_record_obj, known_insert_unknown h]

theorem canon?_record_insertNull (hnames : (members.map Member.name).Nodup) (hm : m ∈ members)
    (hoptional : m.presence = .optional) (habsent : m.name ∉ (before ++ after).map Prod.fst) :
    (record members).canon? (.obj (before ++ (m.name, .null) :: after)) =
      (record members).canon? (.obj (before ++ after)) := by
  have hknown : known members (before ++ after) = known members before ++ known members after :=
    List.filter_append ..
  have habsent' : m.name ∉ (known members before ++ known members after).map Prod.fst := by
    rw [← hknown]
    exact fun h => habsent ((List.filter_sublist.map Prod.fst).subset h)
  refine canon?_record_congr ?_ fun hkeys m' hm' => ?_
  · rw [known_insert hm, hknown, List.map_append, List.map_cons, List.nodup_middle,
      List.nodup_cons, ← List.map_append]
    exact and_iff_right habsent'
  · rw [known_insert hm, hknown]
    by_cases hname : m'.name = m.name
    · obtain rfl : m' = m := List.inj_on_of_nodup_map hnames hm' hm hname
      rw [Member.canon?_of_absent hoptional, Member.canon?_of_absent hoptional]
      · simp [Entries.lookup_eq_none_iff.mpr habsent']
      · have hbefore : m'.name ∉ (known members before).map Prod.fst :=
          fun h => habsent' (by simp [h])
        simp [Entries.lookup_append_cons_self hbefore]
    · exact Member.canon?_congr (Entries.lookup_append_cons_of_ne hname)

theorem canon?_record_inMember (hnames : (members.map Member.name).Nodup) (hm : m ∈ members)
    (hj : j ≠ .null) (hj' : j' ≠ .null) (h : m.format.canon? j = m.format.canon? j') :
    (record members).canon? (.obj (before ++ (m.name, j) :: after)) =
      (record members).canon? (.obj (before ++ (m.name, j') :: after)) := by
  refine canon?_record_congr (by simp [known_insert hm]) fun hkeys m' hm' => ?_
  rw [known_insert hm] at hkeys ⊢
  rw [known_insert hm]
  -- Null is left out above: an optional member that is null is not read at all.
  by_cases hname : m'.name = m.name
  · obtain rfl : m' = m := List.inj_on_of_nodup_map hnames hm' hm hname
    rw [List.map_append, List.map_cons, List.nodup_middle, List.nodup_cons, List.mem_append,
      not_or] at hkeys
    rw [Member.canon?_of_lookup (Entries.lookup_append_cons_self hkeys.1.1) hj,
      Member.canon?_of_lookup (Entries.lookup_append_cons_self hkeys.1.1) hj', h]
  · exact Member.canon?_congr (by
      rw [Entries.lookup_append_cons_of_ne hname, Entries.lookup_append_cons_of_ne hname])

end

/-! ### Objects that are no records -/

theorem asSpelling?_obj_eq_some_iff {spellings : List String} {given : List (String × Json)}
    {s : String} : (obj given).asSpelling? spellings = some s ↔
      given = [(s, .null)] ∧ s ∈ spellings := by
  constructor
  · intro h
    unfold asSpelling? at h
    split at h
    · next heq => cases heq
    · next t heq =>
        obtain ⟨ht, hts⟩ := Option.ite_none_right_eq_some.mp h
        obtain rfl := Option.some.inj hts
        exact ⟨obj.inj heq, ht⟩
    · cases h
  · rintro ⟨rfl, hs⟩
    exact if_pos hs

theorem canon?_word_perm {spellings : List String} {given given' : List (String × Json)}
    (h : given.Perm given') :
    (word spellings).canon? (.obj given) = (word spellings).canon? (.obj given') := by
  have hone : ∀ s, given = [(s, .null)] ↔ given' = [(s, .null)] := fun s => by
    rw [← List.perm_singleton, ← List.perm_singleton]
    exact ⟨h.symm.trans, h.trans⟩
  have hspelling : (obj given).asSpelling? spellings = (obj given').asSpelling? spellings :=
    Option.ext fun s => by
      rw [asSpelling?_obj_eq_some_iff, asSpelling?_obj_eq_some_iff, hone]
  rw [canon?, canon?, hspelling]

theorem canon?_word_of_mem {spellings : List String} {given : List (String × Json)} {key : String}
    {j : Json} (h : (key, j) ∈ given) (hj : j ≠ .null) :
    (word spellings).canon? (.obj given) = none := by
  rw [canon?, Option.map_eq_none_iff, Option.eq_none_iff_forall_ne_some]
  intro s hs
  obtain ⟨rfl, -⟩ := asSpelling?_obj_eq_some_iff.mp hs
  simp_all

theorem canon?_table_of_mem {entries : List (String × Json)} {key : String} {j : Json}
    (h : (key, j) ∈ entries) (hj : j.asText? = none) : table.canon? (.obj entries) = none := by
  rw [canon?, Option.map_eq_none_iff, Option.eq_none_iff_forall_ne_some]
  intro t ht
  obtain ⟨es, hes, -⟩ := Tags.ofJson?_eq_some_iff.mp ht
  obtain rfl := obj.inj hes
  obtain ⟨e, -, he⟩ := List.mem_map.mp h
  obtain ⟨-, rfl⟩ := Prod.mk.inj he
  simp [asText?] at hj

theorem canon?_list_inItem {f : Format} {before after : List Json} {j j' : Json}
    (h : f.canon? j = f.canon? j') :
    f.list.canon? (.arr (before ++ j :: after)) = f.list.canon? (.arr (before ++ j' :: after)) := by
  simp only [canon?, asList?, List.mapM_append, List.mapM_cons, h]

/-! ### Orderly parts -/

theorem orderly_record_insert_iff {members : List (Member Format)}
    {before after : List (String × Json)} {key : String} {j : Json} :
    Throughout Orderly (record members) (.obj (before ++ (key, j) :: after)) ↔
      (∀ m ∈ members, m.name = key → Throughout Orderly m.format j) ∧
        Throughout Orderly (record members) (.obj (before ++ after)) := by
  have hmem : ∀ x : String × Json, x ∈ before ++ (key, j) :: after ↔
      x = (key, j) ∨ x ∈ before ++ after := fun x => List.perm_middle.mem_iff.trans List.mem_cons
  rw [throughout_record_iff, throughout_record_iff]
  simp only [Orderly, true_and, hmem]
  constructor
  · intro h
    exact ⟨fun m hm hname => h m hm j (.inl (by rw [hname])), fun m hm v hv => h m hm v (.inr hv)⟩
  · rintro ⟨hkey, hrest⟩ m hm v (hv | hv)
    · obtain ⟨hname, rfl⟩ := Prod.mk.inj hv
      exact hkey m hm hname
    · exact hrest m hm v hv

theorem orderly_list_insert_iff {f : Format} {before after : List Json} {j : Json} :
    Throughout Orderly (list f) (.arr (before ++ j :: after)) ↔
      Throughout Orderly f j ∧ Throughout Orderly (list f) (.arr (before ++ after)) := by
  rw [throughout_list_iff, throughout_list_iff]
  simp only [Orderly, true_and, List.forall_mem_append, List.forall_mem_cons]
  exact and_left_comm

end Format

/-! ### Reordered documents -/

namespace Reordered

variable {j j' : Json}

theorem symm (h : Reordered j j') : Reordered j' j := by
  induction h with
  | here h => exact .here h.symm
  | inMember _ ih => exact .inMember ih
  | inItem _ ih => exact .inItem ih

theorem ne_null (h : Reordered j j') : j ≠ .null := by
  cases h <;> nofun

theorem asText?_eq_none (h : Reordered j j') : j.asText? = none := by
  cases h <;> rfl

open Format

/-- Reordered documents are orderly together. -/
theorem throughout_orderly (h : Reordered j j') {f : Format} (hj : Throughout Orderly f j) :
    Throughout Orderly f j' := by
  induction h generalizing f with
  | here hperm =>
      cases f with
      | record members =>
          rw [throughout_record_iff] at hj ⊢
          exact ⟨trivial, fun m hm v hv => hj.2 m hm v (hperm.mem_iff.mpr hv)⟩
      | table =>
          rw [throughout_table_iff] at hj ⊢
          exact (hperm.map Prod.fst).nodup_iff.mp hj
      | _ =>
          rintro f' v ⟨⟩
          trivial
  | inMember h ih =>
      cases f with
      | record members =>
          rw [orderly_record_insert_iff] at hj ⊢
          exact ⟨fun m hm hname => ih (hj.1 m hm hname), hj.2⟩
      | table =>
          rw [throughout_table_iff] at hj ⊢
          simpa [Orderly] using hj
      | _ =>
          rintro f' v ⟨⟩
          trivial
  | inItem h ih =>
      cases f with
      | list item =>
          rw [orderly_list_insert_iff] at hj ⊢
          exact ⟨ih hj.1, hj.2⟩
      | record members => exact absurd hj.self id
      | _ =>
          rintro f' v ⟨⟩
          trivial

/-- Reordered documents have the same canonical form. -/
theorem canon?_eq {f : Format} (hf : f.Distinct) (h : Reordered j j')
    (hj : Throughout Orderly f j) : f.canon? j = f.canon? j' := by
  induction hf generalizing j j' with
  | text | truth | number => cases h <;> rfl
  | word spellings =>
      cases h with
      | here hperm => exact canon?_word_perm hperm
      | @inMember before after key j j' h =>
          have hmem {v : Json} : (key, v) ∈ before ++ (key, v) :: after := by simp
          rw [canon?_word_of_mem hmem h.ne_null, canon?_word_of_mem hmem h.symm.ne_null]
      | inItem h => rfl
  | table =>
      cases h with
      | here hperm => rw [canon?, canon?, Tags.ofJson?_perm hperm hj.self]
      | @inMember before after key j j' h =>
          have hmem {v : Json} : (key, v) ∈ before ++ (key, v) :: after := by simp
          rw [canon?_table_of_mem hmem h.asText?_eq_none,
            canon?_table_of_mem hmem h.symm.asText?_eq_none]
      | inItem h => rfl
  | list hitem ih =>
      cases h with
      | here hperm | inMember h => rfl
      | inItem h => exact canon?_list_inItem (ih h (orderly_list_insert_iff.mp hj).1)
  | @record members hnames hmembers ih =>
      cases h with
      | here hperm => exact canon?_record_perm hperm
      | @inMember before after key j j' h =>
          -- A member that is not declared is not read, whatever has become of it.
          by_cases hkey : ∃ m ∈ members, m.name = key
          · obtain ⟨m, hm, rfl⟩ := hkey
            have hm' := (orderly_record_insert_iff.mp hj).1 m hm rfl
            exact canon?_record_inMember hnames hm h.ne_null h.symm.ne_null (ih m hm h hm')
          · have hunknown : ∀ m ∈ members, m.name ≠ key := by simpa using hkey
            rw [canon?_record_insertUnknown hunknown, canon?_record_insertUnknown hunknown]
      | inItem h => exact absurd hj.self id

end Reordered

/-! ### Edited documents -/

namespace Format

theorem throughout_orderly_null (f : Format) : Throughout Orderly f .null := by
  rw [throughout_iff_self (by simp) (by simp)]
  cases f <;> trivial

namespace Edit

variable {f : Format} {j j' : Json}

theorem ne_null (h : f.Edit j j') : j ≠ .null ∧ j' ≠ .null := by
  cases h with
  | reorder h => exact ⟨h.ne_null, h.symm.ne_null⟩
  | _ => exact ⟨nofun, nofun⟩

/-- An edited document is orderly if the document was. -/
theorem throughout_orderly_iff (hf : f.Distinct) (h : f.Edit j j') :
    Throughout Orderly f j ↔ Throughout Orderly f j' := by
  induction h with
  | reorder h => exact ⟨h.throughout_orderly, h.symm.throughout_orderly⟩
  | insertUnknown v hunknown =>
      rw [orderly_record_insert_iff, and_iff_right]
      exact fun m hm hname => absurd hname (hunknown m hm)
  | insertNull hm hoptional habsent =>
      rw [orderly_record_insert_iff, and_iff_right]
      exact fun m _ _ => throughout_orderly_null m.format
  | inMember hm h ih =>
      cases hf with
      | record hnames hmembers =>
          rw [orderly_record_insert_iff, orderly_record_insert_iff, forall_named_iff hnames hm,
            forall_named_iff hnames hm, ih (hmembers _ hm)]
  | inItem h ih =>
      cases hf with
      | list hf => rw [orderly_list_insert_iff, orderly_list_insert_iff, ih hf]

theorem canon?_eq (hf : f.Distinct) (h : f.Edit j j') (hj : Throughout Orderly f j) :
    f.canon? j = f.canon? j' := by
  induction h with
  | reorder h => exact h.canon?_eq hf hj
  | insertUnknown v hunknown => exact (canon?_record_insertUnknown hunknown).symm
  | insertNull hm hoptional habsent =>
      cases hf with
      | record hnames hmembers => exact (canon?_record_insertNull hnames hm hoptional habsent).symm
  | inMember hm h ih =>
      cases hf with
      | record hnames hmembers =>
          have hm' := (orderly_record_insert_iff.mp hj).1 _ hm rfl
          exact canon?_record_inMember hnames hm h.ne_null.1 h.ne_null.2 (ih (hmembers _ hm) hm')
  | inItem h ih =>
      cases hf with
      | list hf => exact canon?_list_inItem (ih hf (orderly_list_insert_iff.mp hj).1)

end Edit

/-- Where edits and reversed edits lead from one document to another, the two have the same
canonical form. -/
theorem canon?_eq_of_edits {f : Format} (hf : f.Distinct) {j j' : Json}
    (h : Relation.EqvGen f.Edit j j') (hj : Throughout Orderly f j) :
    f.canon? j = f.canon? j' := by
  have hboth : (Throughout Orderly f j ↔ Throughout Orderly f j') ∧
      (Throughout Orderly f j → f.canon? j = f.canon? j') := by
    clear hj
    -- The documents in between must be orderly too, so that goes through the induction.
    induction h with
    | rel j j' h => exact ⟨h.throughout_orderly_iff hf, h.canon?_eq hf⟩
    | refl j => exact ⟨.rfl, fun _ => rfl⟩
    | symm j j' _ ih => exact ⟨ih.1.symm, fun hj => (ih.2 (ih.1.mpr hj)).symm⟩
    | trans j j' j'' _ _ ih ih' =>
        exact ⟨ih.1.trans ih'.1, fun hj => (ih.2 hj).trans (ih'.2 (ih.1.mp hj))⟩
  exact hboth.2 hj

end Format

end EdgeFirewall.Json
