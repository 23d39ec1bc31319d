import EdgeFirewall.Text.Numeral
import Mathlib.Data.List.Induction
import Mathlib.Data.Nat.Digits.Defs

/-! # Numbers in decimal digits

`Denotes s n` says which number a text stands for, place by place. Reading finds the number of a
text if it is below the limit, and no other (`readNatBelow_eq_some_iff`); and a whole number is
written as a text that stands for it, unless it is negative (`denotes_toString_iff`). -/

namespace EdgeFirewall.Text

variable {s : String} {n m limit : Nat} {digits : List Char}

/-- Decimal digits, at least one, stand for a number: from the right, they are the ones, the tens
and so on. -/
def DigitsDenote (digits : List Char) (n : Nat) : Prop :=
  digits ≠ [] ∧ (∀ c ∈ digits, c.isDigit = true) ∧
    Nat.ofDigits 10 (digits.reverse.map fun c => c.toNat - '0'.toNat) = n

/-- A text stands for a number: it has decimal digits only, possibly after a plus sign. -/
def Denotes (s : String) (n : Nat) : Prop :=
  DigitsDenote s.toList n ∨ ∃ digits, s.toList = '+' :: digits ∧ DigitsDenote digits n

theorem isDecimal_eq_isDigit (c : Char) : isDecimal c = c.isDigit := rfl

theorem decimalValue_eq_ofDigits (digits : List Char) : decimalValue digits =
    Nat.ofDigits 10 (digits.reverse.map fun c => c.toNat - '0'.toNat) := by
  induction digits using List.reverseRecOn with
  | nil => rfl
  | append_singleton digits c ih =>
      rw [List.reverse_append, List.reverse_singleton, List.singleton_append, List.map_cons,
        Nat.ofDigits_cons, ← ih, decimalValue, List.foldl_append]
      simp only [List.foldl_cons, List.foldl_nil]
      exact Nat.add_comm _ _

theorem readDigits_eq_some_iff : readDigits digits = some n ↔ DigitsDenote digits n := by
  unfold readDigits DigitsDenote
  rw [← decimalValue_eq_ofDigits]
  by_cases h : digits = []
  · simp [h]
  · simp [h, isDecimal_eq_isDigit]

theorem not_digitsDenote_plus : ¬ DigitsDenote ('+' :: digits) n := by
  rintro ⟨-, hdigits, -⟩
  exact absurd (hdigits '+' (List.mem_cons_self ..)) (by decide)

theorem readNatBelow_eq_some_iff : readNatBelow limit s = some n ↔ Denotes s n ∧ n < limit := by
  unfold readNatBelow Denotes
  rw [Option.filter_eq_some_iff, decide_eq_true_iff, and_congr_left_iff]
  intro _
  split
  · next digits h =>
      rw [h, readDigits_eq_some_iff]
      simp [not_digitsDenote_plus]
  · next h =>
      rw [readDigits_eq_some_iff]
      constructor
      · exact .inl
      · rintro (hdigits | ⟨digits, hplus, -⟩)
        · exact hdigits
        · exact absurd hplus (h digits)

theorem Denotes.unique (h : Denotes s n) (h' : Denotes s m) : n = m := by
  have hread := readNatBelow_eq_some_iff.mpr ⟨h, show n < n + m + 1 by omega⟩
  have hread' := readNatBelow_eq_some_iff.mpr ⟨h', show m < n + m + 1 by omega⟩
  exact Option.some.inj (hread.symm.trans hread')

theorem digitsDenote_toDigits (n : Nat) : DigitsDenote (Nat.toDigits 10 n) n := by
  refine ⟨Nat.toDigits_ne_nil, fun c hc => Nat.isDigit_of_mem_toDigits (by decide) (by decide) hc, ?_⟩
  rw [← decimalValue_eq_ofDigits]
  exact Nat.ofDigitChars_toDigits (by decide) (by decide)

theorem denotes_repr (n : Nat) : Denotes n.repr n := by
  refine .inl ?_
  rw [Nat.toList_repr]
  exact digitsDenote_toDigits n

theorem not_denotes_minus (s : String) : ¬ Denotes ("-" ++ s) n := by
  have htext : ("-" ++ s).toList = '-' :: s.toList := by
    rw [String.toList_append]
    rfl
  unfold Denotes
  rw [htext]
  rintro (⟨-, hdigits, -⟩ | ⟨digits, hplus, -⟩)
  · exact absurd (hdigits '-' (List.mem_cons_self ..)) (by decide)
  · exact absurd (List.cons.inj hplus).1 (by decide)

/-- A whole number is written as a text that stands for it, unless it is negative. -/
theorem denotes_toString_iff (i : Int) : Denotes (toString i) n ↔ i = n := by
  rw [Int.toString_eq_repr, Int.repr_eq_if]
  split
  · next h =>
      obtain ⟨m, rfl⟩ := Int.eq_ofNat_of_zero_le h
      rw [Int.toNat_natCast, Int.natCast_inj]
      exact ⟨fun hn => (denotes_repr m).unique hn, fun hn => hn ▸ denotes_repr m⟩
  · next h =>
      refine iff_of_false (not_denotes_minus _) ?_
      omega

end EdgeFirewall.Text
