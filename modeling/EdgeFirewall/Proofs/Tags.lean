import EdgeFirewall.Document.Json
import EdgeFirewall.Proofs.Json.Format

/-! # Tags read from a document

If no tag is repeated, the tags of a list of entries are these entries (`Tags.entries_ofList`), and
the order in which they are read does not matter (`Tags.ofJson?_perm`). -/

namespace EdgeFirewall.Tags

variable {es es' : List (String × String)}

theorem place_perm {name text : String} (h : name ∉ es.map Prod.fst) :
    (place name text es).Perm ((name, text) :: es) := by
  induction es with
  | nil => rfl
  | cons e rest ih =>
      rw [List.map_cons, List.mem_cons, not_or] at h
      unfold place
      split
      · rfl
      · next hge =>
          split
          · exact ((ih h.2).cons e).trans (.swap _ _ _)
          · next hle => exact absurd (String.le_antisymm hle hge) h.1

theorem foldl_insert_perm {t : Tags} (h : ((t.entries ++ es).map Prod.fst).Nodup) :
    (es.foldl (fun t e => t.insert e.1 e.2) t).entries.Perm (t.entries ++ es) := by
  induction es generalizing t with
  | nil => simp
  | cons e rest ih =>
      have hmove : (e :: t.entries ++ rest).Perm (t.entries ++ e :: rest) := List.perm_middle.symm
      have hkeys := (hmove.map Prod.fst).nodup_iff.mpr h
      have hplace : (t.insert e.1 e.2).entries.Perm (e :: t.entries) := by
        rw [List.cons_append, List.map_cons, List.nodup_cons, List.map_append, List.mem_append,
          not_or] at hkeys
        exact place_perm hkeys.1.1
      have hstep := hplace.append_right rest
      exact (ih ((hstep.map Prod.fst).nodup_iff.mpr hkeys)).trans (hstep.trans hmove)

theorem entries_ofList (h : (es.map Prod.fst).Nodup) : (ofList es).entries.Perm es :=
  foldl_insert_perm (t := empty) h

theorem ofList_perm (hes : es.Perm es') (h : (es.map Prod.fst).Nodup) : ofList es = ofList es' := by
  have h' := (hes.map Prod.fst).nodup_iff.mp h
  have hentries : (ofList es).entries.Perm (ofList es').entries :=
    (entries_ofList h).trans (hes.trans (entries_ofList h').symm)
  refine ext (hentries.eq_of_pairwise (fun a b _ _ hab hba => ?_) (ofList es).sorted
    (ofList es').sorted)
  exact absurd (String.lt_trans hab hba) (String.lt_irrefl _)

/-! ### Tags in JSON -/

/-- A table is an object of texts, and what is read of it is the tags that its entries give. -/
theorem ofJson?_eq_some_iff {j : Json} {t : Tags} : ofJson? j = some t ↔
    ∃ es : List (String × String), j = .obj (es.map fun e => (e.1, .str e.2)) ∧ ofList es = t := by
  have hentry : ∀ (m : String × Json) (e : String × String),
      m.2.asText?.map (m.1, ·) = some e ↔ m = (e.1, .str e.2) := by
    rintro ⟨name, v⟩ e
    cases v <;> simp [Json.asText?, Prod.ext_iff]
  have hentries : ∀ (ms : List (String × Json)) (es : List (String × String)),
      ms.mapM (fun m : String × Json => m.2.asText?.map (m.1, ·)) = some es ↔
        ms = es.map fun e => (e.1, .str e.2) := by
    intro ms es
    rw [Json.Format.mapM_eq_some_iff, ← List.forall₂_eq_eq_eq, ← List.forall₂_eq_eq_eq,
      List.forall₂_map_left_iff, List.forall₂_map_right_iff, List.forall₂_map_right_iff]
    simp only [hentry]
  cases j with
  | obj ms => simp [ofJson?, Option.map_eq_some_iff, hentries]
  | _ => simp [ofJson?]

theorem ofJson?_of_perm {ms ms' : List (String × Json)} {t : Tags} (h : ms'.Perm ms)
    (hkeys : (ms.map Prod.fst).Nodup) (ht : ofJson? (.obj ms) = some t) :
    ofJson? (.obj ms') = some t := by
  obtain ⟨es, hes, rfl⟩ := ofJson?_eq_some_iff.mp ht
  obtain rfl := Json.obj.inj hes
  obtain ⟨es', rfl, hes'⟩ : ∃ es' : List (String × String),
      ms' = es'.map (fun e => (e.1, .str e.2)) ∧ es'.Perm es :=
    (congrFun₂ (List.eq_map_comp_perm _) ms' es).mpr h
  rw [List.map_map] at hkeys
  exact ofJson?_eq_some_iff.mpr ⟨es', rfl, (ofList_perm hes'.symm hkeys).symm⟩

/-- If no tag is repeated, the order of the tags does not matter. -/
theorem ofJson?_perm {ms ms' : List (String × Json)} (h : ms.Perm ms')
    (hkeys : (ms.map Prod.fst).Nodup) : ofJson? (.obj ms) = ofJson? (.obj ms') :=
  Option.ext fun _ => ⟨ofJson?_of_perm h.symm hkeys,
    ofJson?_of_perm h ((h.map Prod.fst).nodup_iff.mp hkeys)⟩

end EdgeFirewall.Tags
