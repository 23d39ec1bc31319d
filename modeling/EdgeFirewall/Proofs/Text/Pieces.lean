import EdgeFirewall.Text.Blank
import EdgeFirewall.Text.Split
import Mathlib.Data.List.DropRight

/-! # Pieces of a text

Cutting a text at a separator and writing pieces one after the other, each behind a separator, undo
each other as long as no piece holds the separator (`split_append_delimited`). Stripping the ends of
a text goes on until something else stands there (`strip_cons`, `rdropWhile_append`). -/

namespace EdgeFirewall.Text

variable {sep : Char} {p : Char → Bool} {c : Char} {s t piece : List Char}

/-! ### Splitting -/

/-- The pieces, each behind a separator. -/
def delimited (sep : Char) (pieces : List (List Char)) : List Char :=
  pieces.flatMap (sep :: ·)

theorem split_of_notMem (h : sep ∉ s) : split sep s = [s] := by
  induction s with
  | nil => rfl
  | cons c s ih =>
      rw [List.mem_cons, not_or] at h
      rw [split, if_neg (Ne.symm h.1), ih h.2]

theorem split_append_cons (h : sep ∉ s) : split sep (s ++ sep :: t) = s :: split sep t := by
  induction s with
  | nil => rw [List.nil_append, split, if_pos rfl]
  | cons c s ih =>
      rw [List.mem_cons, not_or] at h
      rw [List.cons_append, split, if_neg (Ne.symm h.1), ih h.2]

theorem split_append_delimited {pieces : List (List Char)} (h : sep ∉ s)
    (hpieces : ∀ piece ∈ pieces, sep ∉ piece) :
    split sep (s ++ delimited sep pieces) = s :: pieces := by
  induction pieces generalizing s with
  | nil =>
      rw [delimited, List.flatMap_nil, List.append_nil]
      exact split_of_notMem h
  | cons piece pieces ih =>
      rw [List.forall_mem_cons] at hpieces
      rw [delimited, List.flatMap_cons, List.cons_append, split_append_cons h]
      exact congrArg (s :: ·) (ih hpieces.1 hpieces.2)

theorem notMem_of_mem_split (h : piece ∈ split sep s) : sep ∉ piece := by
  induction s generalizing piece with
  | nil =>
      rw [split, List.mem_singleton] at h
      rw [h]
      exact List.not_mem_nil
  | cons c s ih =>
      rw [split] at h
      split at h
      · rcases List.mem_cons.mp h with rfl | h
        · exact List.not_mem_nil
        · exact ih h
      · next hc =>
          cases hs : split sep s with
          | nil => exact absurd hs (split_ne_nil sep s)
          | cons first rest =>
              rw [hs] at h ih
              rcases List.mem_cons.mp h with rfl | h
              · rw [List.mem_cons, not_or]
                exact ⟨Ne.symm hc, ih (List.mem_cons_self ..)⟩
              · exact ih (List.mem_cons_of_mem _ h)

/-! ### Stripping -/

theorem rdropWhile_append (h : t.rdropWhile p ≠ []) :
    (s ++ t).rdropWhile p = s ++ t.rdropWhile p := by
  induction t using List.reverseRecOn with
  | nil => exact absurd (List.rdropWhile_nil p) h
  | append_singleton t c ih =>
      rw [← List.append_assoc]
      by_cases hc : p c = true
      · rw [List.rdropWhile_concat_pos _ _ _ hc] at h ⊢
        rw [ih h, List.rdropWhile_concat_pos _ _ _ hc]
      · rw [List.rdropWhile_concat_neg _ _ _ hc, List.rdropWhile_concat_neg _ _ _ hc,
          List.append_assoc]

theorem rdropWhile_cons (h : p c = false) : (c :: s).rdropWhile p = c :: s.rdropWhile p := by
  induction s using List.reverseRecOn with
  | nil =>
      rw [List.rdropWhile_singleton, h, List.rdropWhile_nil]
      rfl
  | append_singleton s d ih =>
      rw [← List.cons_append]
      by_cases hd : p d = true
      · rw [List.rdropWhile_concat_pos _ _ _ hd, List.rdropWhile_concat_pos _ _ _ hd, ih]
      · rw [List.rdropWhile_concat_neg _ _ _ hd, List.rdropWhile_concat_neg _ _ _ hd,
          List.cons_append]

/-- What stands first and is not stripped stays. -/
theorem strip_cons (h : p c = false) : strip p (c :: s) = c :: s.rdropWhile p := by
  have hfirst : (c :: s).dropWhile p = c :: s := by
    rw [List.dropWhile_cons, h]
    rfl
  calc strip p (c :: s) = ((c :: s).dropWhile p).rdropWhile p := rfl
    _ = c :: s.rdropWhile p := by rw [hfirst, rdropWhile_cons h]

theorem strip_eq_nil_iff : strip p s = [] ↔ ∀ c ∈ s, p c = true := by
  have hends : strip p s = (s.dropWhile p).rdropWhile p := rfl
  rw [hends, List.rdropWhile_eq_nil_iff]
  constructor
  · intro h c hc
    rw [← List.takeWhile_append_dropWhile (l := s), List.mem_append] at hc
    exact hc.elim List.mem_takeWhile_imp (h c)
  · exact fun h c hc => h c ((List.dropWhile_suffix p).subset hc)

theorem rdropWhile_of_notMem (h : sep ∉ s) : s.rdropWhile (· == sep) = s := by
  rw [List.rdropWhile_eq_self_iff]
  intro hne hlast
  rw [beq_iff_eq] at hlast
  exact h (hlast ▸ List.getLast_mem hne)

/-- There is no separator at the end of pieces that hold something else. -/
theorem rdropWhile_delimited {pieces : List (List Char)} (hne : pieces ≠ [])
    (hpieces : ∀ piece ∈ pieces, piece ≠ [] ∧ sep ∉ piece) :
    (s ++ delimited sep pieces).rdropWhile (· == sep) = s ++ delimited sep pieces := by
  obtain ⟨init, last, rfl⟩ := (List.eq_nil_or_concat' pieces).resolve_left hne
  obtain ⟨hlast, hnotMem⟩ := hpieces last (by simp)
  have hstays := rdropWhile_of_notMem hnotMem
  have hsplit :
      s ++ delimited sep (init ++ [last]) = (s ++ delimited sep init ++ [sep]) ++ last := by
    simp [delimited]
  rw [hsplit, rdropWhile_append (by rwa [hstays]), hstays]

end EdgeFirewall.Text
