import EdgeFirewall.Document.Attributes
import EdgeFirewall.Proofs.Document.Codec
import EdgeFirewall.Proofs.Json.Projection

/-! # Reading documents

What the readers of documents make of JSON that may come from anywhere, in any order and with
anything beside what is declared: edits that do not matter leave what is read as it is
(`Document.read_of_edits`), and what is read is in the document (`Document.read_projects`). -/

namespace EdgeFirewall.Document

open Json Format

/-- Documents with the same canonical form are read alike. -/
theorem read_eq_of_canon?_eq {j j' : Json} (h : format.canon? j = format.canon? j') :
    ofJson? j = ofJson? j' := by
  have hinj : Function.Injective toJson := fun d d' hd =>
    Option.some.inj (by rw [← codec.read_write d, hd, codec.read_write d'])
  rw [← codec.map_write, ← codec.map_write] at h
  exact Option.map_injective hinj h

/-- Edits that do not matter leave the document that is read as it is, and its attributes. -/
theorem read_of_edits {j j' : Json} (hj : format.Throughout Orderly j)
    (h : Relation.EqvGen format.Edit j j') :
    ofJson? j = ofJson? j' ∧ ∀ name group, (ofJson? j).map (·.toAttributes name group) =
      (ofJson? j').map (·.toAttributes name group) := by
  have hread := read_eq_of_canon?_eq (canon?_eq_of_edits distinct_format h hj)
  exact ⟨hread, fun name group => by rw [hread]⟩

/-- A document with tags and settings. -/
def described (tags settings : List (String × Json)) : Json :=
  .obj [("tags", .obj tags), ("properties", .obj [("policySettings", .obj settings)])]

theorem read_of_edits_described :
    let j := described [("env", .str "prod"), ("team", .str "edge")] [("mode", .str "Detection")]
    let j' := Json.obj [("systemData", .obj []),
      ("tags", .obj [("team", .str "edge"), ("env", .str "prod")]),
      ("properties", .obj [("policySettings", .obj [("mode", .str "Detection"),
        ("redirectUrl", .null)])])]
    (ofJson? j).isSome ∧ ofJson? j = ofJson? j' := by
  intro j j'
  have hj : format.Throughout Orderly j := by
    simp [j, described, format, Properties.format, Settings.format, throughout_record_iff,
      throughout_table_iff, throughout_iff_self, Orderly]
  let j₁ := described [("team", .str "edge"), ("env", .str "prod")] [("mode", .str "Detection")]
  let j₂ := described [("team", .str "edge"), ("env", .str "prod")]
    [("mode", .str "Detection"), ("redirectUrl", .null)]
  have hreorder : format.Edit j j₁ := .reorder (@Reordered.inMember [] _ _ _ _ (.here (.swap ..)))
  have hnull : format.Edit j₁ j₂ := by
    refine @Edit.inMember _ [_] [] ⟨"properties", .optional, Properties.format⟩ _ _ (by simp) ?_
    refine @Edit.inMember _ [] [] ⟨"policySettings", .optional, Settings.format⟩ _ _ (by simp) ?_
    exact @Edit.insertNull _ [_] [] ⟨"redirectUrl", .optional, .text⟩ (by simp) rfl (by simp)
  have hunknown : format.Edit j₂ j' := @Edit.insertUnknown _ [] _ "systemData" _ (by decide)
  have hedits := (Relation.EqvGen.rel _ _ hreorder).trans _ _ _
    ((Relation.EqvGen.rel _ _ hnull).trans _ _ _ (.rel _ _ hunknown))
  exact ⟨by decide +kernel, (read_of_edits hj hedits).1⟩

/-- What is read of a document is in the document, and there is nothing to read where a word is not
spelled exactly or a number is not written as a 32-bit integer. -/
theorem read_projects {j : Json} (hj : format.Throughout Orderly j)
    (hwords : format.Throughout Spelled j) :
    (∀ d, ofJson? j = some d → Projects lists format d.toJson j) ∧
      ∀ f v, format.Reaches j f v → Refuses f v → ofJson? j = none := by
  constructor
  · intro d hd
    have hcanon : format.canon? j = some d.toJson := by
      rw [← codec.map_write, hd, Option.map_some]
    exact projects_of_canon? distinct_format every_listsAmong hj hwords hcanon
  · intro f v hv hrefuses
    have hcanon := canon?_eq_none_of_refuses hv hrefuses
    rwa [← codec.map_write, Option.map_eq_none_iff] at hcanon

/-- A document with a rule of a priority. -/
def ruled (priority : Json) : Json :=
  .obj [("kind", .str "policy"), ("etag", .null),
    ("properties", .obj [("customRules", .obj [("rules", .arr [.obj [("action", .str "Block"),
      ("priority", priority), ("ruleType", .str "MatchRule")]])])])]

theorem read_projects_ruled :
    (∃ d, ofJson? (ruled (.int 1)) = some d ∧ Projects lists format d.toJson (ruled (.int 1))) ∧
      ofJson? (ruled .real) = none := by
  have hplain : ∀ priority ∈ [Json.int 1, .real], format.Throughout Orderly (ruled priority) ∧
      format.Throughout Spelled (ruled priority) := by
    simp [ruled, format, Properties.format, RuleList.format, Rule.format, throughout_record_iff,
      throughout_list_iff, throughout_iff_self, Orderly, Spelled]
  have hreaches : format.Reaches (ruled .real) .number .real := by
    refine .member (m := ⟨"properties", .optional, Properties.format⟩) (by simp)
      (List.mem_cons_of_mem _ (List.mem_cons_of_mem _ List.mem_cons_self)) ?_
    refine .member (m := ⟨"customRules", .optional, RuleList.format⟩) (by simp)
      List.mem_cons_self ?_
    refine .member (m := ⟨"rules", .optional, .list Rule.format⟩) (by simp) List.mem_cons_self ?_
    refine .item List.mem_cons_self ?_
    exact .member (m := ⟨"priority", .required, .number⟩) (by simp)
      (List.mem_cons_of_mem _ List.mem_cons_self) (.here _ _)
  have hsome : (ofJson? (ruled (.int 1))).isSome := by decide +kernel
  obtain ⟨d, hd⟩ := Option.isSome_iff_exists.mp hsome
  have hint := hplain (.int 1) (by simp)
  have hreal := hplain .real (by simp)
  exact ⟨⟨d, hd, (read_projects hint.1 hint.2).1 d hd⟩,
    (read_projects hreal.1 hreal.2).2 _ _ hreaches trivial⟩

end EdgeFirewall.Document
