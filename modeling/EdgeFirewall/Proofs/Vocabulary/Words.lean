import EdgeFirewall.Vocabulary.FrontDoor
import Mathlib.Data.List.TakeWhile

/-! # Words and their dotted paths

No spelling of the vocabularies of a firewall policy has a dot (`Dotless`). So a member is its own
last part, with or without a path before it, and a text that spells a member after a path spells it
bare after its last dot (`spelling_of_parseQualified`). -/

namespace EdgeFirewall

namespace Text

theorem afterLast_eq_self_iff {sep : Char} {s : String} :
    afterLast sep s = s ↔ sep ∉ s.toList := by
  have hall : s.toList.reverse.takeWhile (· != sep) = s.toList.reverse ↔ sep ∉ s.toList := by
    rw [List.takeWhile_eq_self_iff]
    simp only [List.mem_reverse, bne_iff_ne]
    exact ⟨fun h hmem => h sep hmem rfl, fun h c hc heq => h (heq ▸ hc)⟩
  rw [← hall, afterLast, ← String.toList_inj, String.toList_ofList]
  exact List.reverse_eq_iff

end Text

namespace Vocabulary

/-- A vocabulary whose spellings have no dots. -/
class Dotless (α : Type) [Vocabulary α] : Prop where
  dot_notMem : ∀ a : α, '.' ∉ (spelling a).toList

instance : Dotless PolicyMode := ⟨fun a => by cases a <;> decide⟩
instance : Dotless RuleType := ⟨fun a => by cases a <;> decide⟩
instance : Dotless ActionType := ⟨fun a => by cases a <;> decide⟩
instance : Dotless MatchVariable := ⟨fun a => by cases a <;> decide⟩
instance : Dotless SelectorVariable := ⟨fun a => by cases a <;> decide⟩
instance : Dotless Operator := ⟨fun a => by cases a <;> decide⟩
instance : Dotless ConditionModifier := ⟨fun a => by cases a <;> decide⟩
instance : Dotless Transform := ⟨fun a => by cases a <;> decide⟩

variable {α : Type} [Vocabulary α]

theorem mem_spellings_iff {s : String} : s ∈ spellings α ↔ ∃ a : α, spelling a = s := by
  rw [spellings, List.mem_map]
  exact ⟨fun ⟨a, _, h⟩ => ⟨a, h⟩, fun ⟨a, h⟩ => ⟨a, mem_all a, h⟩⟩

theorem parse_eq_error_iff {s : String} {e : UnknownVariant} :
    (parse s : Except UnknownVariant α) = .error e ↔
      s ∉ spellings α ∧ e = ⟨typeName α, s, spellings α⟩ := by
  rw [mem_spellings_iff]
  simp only [← ofSpelling?_eq_some_iff]
  unfold parse
  cases ofSpelling? (α := α) s <;> simp [eq_comm]

theorem unqualified_spelling [Dotless α] (a : α) : unqualified (spelling a) = spelling a := by
  unfold unqualified
  split
  · rfl
  · exact Text.afterLast_eq_self_iff.mpr (Dotless.dot_notMem a)

theorem parseQualified_eq_ok_iff {s : String} {a : α} :
    parseQualified s = .ok a ↔ spelling a = unqualified s :=
  parse_eq_ok_iff

theorem parseQualified_spelling [Dotless α] (a : α) : parseQualified (spelling a) = .ok a := by
  rw [parseQualified_eq_ok_iff, unqualified_spelling]

/-- A text that names a member ends in its spelling: one with a space has no path, and no dot. -/
theorem spelling_of_parseQualified [Dotless α] {s : String} {a : α}
    (h : parseQualified s = .ok a) : Text.afterLast '.' s = spelling a := by
  rw [parseQualified_eq_ok_iff, unqualified] at h
  split at h
  · rw [← h]
    exact Text.afterLast_eq_self_iff.mpr (Dotless.dot_notMem a)
  · exact h.symm

end Vocabulary

end EdgeFirewall
