import EdgeFirewall.Text.Base64
import EdgeFirewall.Text.Blank
import Mathlib.Computability.Language

/-! # Which texts are base64 text

Base64 text is described in two ways: as what a regular expression matches (`base64Pattern`), and by
its length, its digits and the padding behind them (`IsPaddedRun`). Both describe what the scan in
groups of four takes (`base64Groups_iff_mem_pattern`, `mem_pattern_iff`). Bytes are written as such
text, three of them as four digits (`base64Encode`), and no blank character stands in it. -/

namespace EdgeFirewall.Text

open scoped Computability

variable {c : Char} {s t rest : List Char}

/-! ### Patterns and runs -/

/-- One digit, `[A-Za-z0-9+/]`. -/
def base64Class : Language Char :=
  {t | ∃ c, t = [c] ∧
    ('A' ≤ c ∧ c ≤ 'Z' ∨ 'a' ≤ c ∧ c ≤ 'z' ∨ '0' ≤ c ∧ c ≤ '9' ∨ c = '+' ∨ c = '/')}

/-- Nothing, or a last group that is padded: `([A-Za-z0-9+/]{2}==|[A-Za-z0-9+/]{3}=)?`. -/
def base64Ending : Language Char :=
  1 + (base64Class ^ 2 * {['=', '=']} + base64Class ^ 3 * {['=']})

/-- All of a text matches `([A-Za-z0-9+/]{4})*([A-Za-z0-9+/]{2}==|[A-Za-z0-9+/]{3}=)?`. -/
def base64Pattern : Language Char :=
  (base64Class ^ 4)∗ * base64Ending

/-- The digits in the order of their values. -/
def base64Alphabet : List Char :=
  "ABCDEFGHIJKLMNOPQRSTUVWXYZabcdefghijklmnopqrstuvwxyz0123456789+/".toList

/-- The length is a multiple of four, and a run of digits has at most two padding signs behind
it. -/
def IsPaddedRun (s : List Char) : Prop :=
  4 ∣ s.length ∧ ∃ digits padding, s = digits ++ padding ∧ (∀ c ∈ digits, c ∈ base64Alphabet) ∧
    padding ∈ [[], ['='], ['=', '=']]

/-! ### Digits -/

theorem mem_class_iff : s ∈ base64Class ↔ ∃ c, s = [c] ∧ isBase64Digit c = true := by
  simp only [isBase64Digit, Bool.or_eq_true, Bool.and_eq_true, decide_eq_true_eq, beq_iff_eq,
    or_assoc]
  exact Iff.rfl

theorem mem_class_pow_iff {n : ℕ} :
    s ∈ base64Class ^ n ↔ s.length = n ∧ ∀ c ∈ s, isBase64Digit c = true := by
  induction n generalizing s with
  | zero =>
      rw [pow_zero, Language.mem_one, List.length_eq_zero_iff]
      exact ⟨fun h => ⟨h, by simp [h]⟩, And.left⟩
  | succ n ih =>
      rw [pow_succ', Language.mem_mul]
      constructor
      · rintro ⟨first, hfirst, others, hothers, rfl⟩
        obtain ⟨c, rfl, hc⟩ := mem_class_iff.mp hfirst
        obtain ⟨rfl, hdigits⟩ := ih.mp hothers
        exact ⟨rfl, List.forall_mem_cons.mpr ⟨hc, hdigits⟩⟩
      · rintro ⟨hlength, hdigits⟩
        obtain ⟨c, others, rfl⟩ := List.exists_cons_of_length_eq_add_one hlength
        obtain ⟨hc, hdigits⟩ := List.forall_mem_cons.mp hdigits
        exact ⟨[c], mem_class_iff.mpr ⟨c, rfl, hc⟩, others,
          ih.mpr ⟨Nat.succ.inj hlength, hdigits⟩, rfl⟩

/-- Groups of four digits are digits whose number is a multiple of four. -/
theorem mem_groups_iff :
    s ∈ (base64Class ^ 4)∗ ↔ 4 ∣ s.length ∧ ∀ c ∈ s, isBase64Digit c = true := by
  rw [Language.kstar_eq_iSup_pow, Language.mem_iSup]
  simp only [← pow_mul, mem_class_pow_iff, exists_and_right]
  exact Iff.rfl

/-- Every digit is an ASCII character, and these can be gone through. -/
theorem isBase64Digit_iff : isBase64Digit c = true ↔ c ∈ base64Alphabet := by
  constructor
  · intro h
    have hascii : c.toNat < 128 := by
      simp only [isBase64Digit, Bool.or_eq_true, Bool.and_eq_true, decide_eq_true_eq, beq_iff_eq,
        Char.le_def, UInt32.le_iff_toNat_le] at h
      have hc : c.toNat = c.val.toNat := rfl
      rcases h with (((⟨-, h⟩ | ⟨-, h⟩) | ⟨-, h⟩) | rfl) | rfl
      · exact Nat.lt_of_le_of_lt h (by decide)
      · exact Nat.lt_of_le_of_lt h (by decide)
      · exact Nat.lt_of_le_of_lt h (by decide)
      · decide
      · decide
    have hall : ∀ n < 128, isBase64Digit (Char.ofNat n) = true →
        Char.ofNat n ∈ base64Alphabet := by decide +kernel
    have hc := hall c.toNat hascii
    rw [Char.ofNat_toNat] at hc
    exact hc h
  · have hall : base64Alphabet.all isBase64Digit = true := by decide +kernel
    exact List.all_eq_true.mp hall c

theorem isBlank_of_isBase64Digit (h : isBase64Digit c = true) : isBlank c = false := by
  have hall : base64Alphabet.all (!isBlank ·) = true := by decide +kernel
  exact Bool.not_eq_true' _ |>.mp (List.all_eq_true.mp hall c (isBase64Digit_iff.mp h))

/-! ### What the scan takes -/

/-- Groups of four digits are passed over. -/
theorem base64Groups_append (h : t ∈ (base64Class ^ 4)∗) :
    base64Groups (t ++ rest) = base64Groups rest := by
  obtain ⟨groups, rfl, hgroups⟩ := Language.mem_kstar.mp h
  clear h
  induction groups with
  | nil => rfl
  | cons group groups ih =>
      rw [List.forall_mem_cons] at hgroups
      obtain ⟨hgroup, hgroups⟩ := hgroups
      obtain ⟨hlength, hdigits⟩ := mem_class_pow_iff.mp hgroup
      obtain ⟨a, b, c, d, rfl⟩ := List.length_eq_four.mp hlength
      simp only [List.forall_mem_cons] at hdigits
      obtain ⟨ha, hb, hc, hd, -⟩ := hdigits
      have hpadding : (d == '=') = false := by
        rw [beq_eq_false_iff_ne]
        rintro rfl
        exact absurd hd (by decide)
      rw [← ih hgroups]
      simp [base64Groups, ha, hb, hc, hd, hpadding]

theorem mem_ending_iff : s ∈ base64Ending ↔ s = [] ∨ ∃ digits padding, s = digits ++ padding ∧
    (∀ c ∈ digits, isBase64Digit c = true) ∧
      (digits.length = 2 ∧ padding = ['=', '='] ∨ digits.length = 3 ∧ padding = ['=']) := by
  rw [base64Ending, Language.mem_add, Language.mem_add, Language.mem_one, Language.mem_mul,
    Language.mem_mul]
  simp only [mem_class_pow_iff]
  constructor
  · rintro (h | ⟨digits, ⟨hlength, hdigits⟩, padding, hpadding, rfl⟩ |
      ⟨digits, ⟨hlength, hdigits⟩, padding, hpadding, rfl⟩)
    · exact .inl h
    · exact .inr ⟨digits, padding, rfl, hdigits, .inl ⟨hlength, hpadding⟩⟩
    · exact .inr ⟨digits, padding, rfl, hdigits, .inr ⟨hlength, hpadding⟩⟩
  · rintro (h | ⟨digits, padding, rfl, hdigits, ⟨hlength, hpadding⟩ | ⟨hlength, hpadding⟩⟩)
    · exact .inl h
    · exact .inr (.inl ⟨digits, ⟨hlength, hdigits⟩, padding, hpadding, rfl⟩)
    · exact .inr (.inr ⟨digits, ⟨hlength, hdigits⟩, padding, hpadding, rfl⟩)

theorem base64Groups_of_mem_ending (h : s ∈ base64Ending) : base64Groups s = true := by
  rcases mem_ending_iff.mp h with rfl | ⟨digits, padding, rfl, hdigits,
    ⟨hlength, rfl⟩ | ⟨hlength, rfl⟩⟩
  · rfl
  · obtain ⟨a, b, rfl⟩ := List.length_eq_two.mp hlength
    simp only [List.forall_mem_cons] at hdigits
    simp [base64Groups, hdigits]
  · obtain ⟨a, b, c, rfl⟩ := List.length_eq_three.mp hlength
    simp only [List.forall_mem_cons] at hdigits
    simp [base64Groups, hdigits]

/-- The scan takes what matches. The induction is on its groups: a full one goes to the front, and
a padded one is the ending. -/
theorem base64Groups_iff_mem_pattern : base64Groups s = true ↔ s ∈ base64Pattern := by
  rw [base64Pattern, Language.mem_mul]
  constructor
  · intro h
    fun_induction base64Groups s with
    | case1 => exact ⟨[], Language.nil_mem_kstar _, [], mem_ending_iff.mpr (.inl rfl), rfl⟩
    | case2 a b c d rest ih =>
        simp only [Bool.and_eq_true, Bool.or_eq_true, List.isEmpty_iff, beq_iff_eq] at h
        obtain ⟨⟨ha, hb⟩, ⟨⟨hc, hd⟩, hrest⟩ | ⟨⟨rfl, rfl⟩, hc⟩⟩ := h
        · obtain ⟨groups, hgroups, ending, hending, rfl⟩ := ih hrest
          refine ⟨a :: b :: c :: d :: groups, mem_groups_iff.mpr ?_, ending, hending, rfl⟩
          obtain ⟨hlength, hdigits⟩ := mem_groups_iff.mp hgroups
          simp only [List.length_cons, List.forall_mem_cons]
          exact ⟨by omega, ha, hb, hc, hd, hdigits⟩
        · refine ⟨[], Language.nil_mem_kstar _, _, mem_ending_iff.mpr (.inr ?_), rfl⟩
          rcases hc with rfl | hc
          · exact ⟨[a, b], _, rfl, by simp [ha, hb], .inl ⟨rfl, rfl⟩⟩
          · exact ⟨[a, b, c], _, rfl, by simp [ha, hb, hc], .inr ⟨rfl, rfl⟩⟩
    | case3 => simp at h
  · rintro ⟨groups, hgroups, ending, hending, rfl⟩
    rw [base64Groups_append hgroups]
    exact base64Groups_of_mem_ending hending

/-! ### The padding behind a run of digits -/

theorem mem_pattern_iff : s ∈ base64Pattern ↔ IsPaddedRun s := by
  rw [base64Pattern, Language.mem_mul]
  simp only [IsPaddedRun, ← isBase64Digit_iff]
  constructor
  · rintro ⟨groups, hgroups, ending, hending, rfl⟩
    obtain ⟨hlength, hdigits⟩ := mem_groups_iff.mp hgroups
    rcases mem_ending_iff.mp hending with rfl | ⟨digits, padding, rfl, hdigits', hpadding⟩
    · exact ⟨by simpa using hlength, groups, [], rfl, hdigits, by simp⟩
    · refine ⟨?_, groups ++ digits, padding, (List.append_assoc ..).symm,
        List.forall_mem_append.mpr ⟨hdigits, hdigits'⟩, ?_⟩
      · obtain ⟨h, rfl⟩ | ⟨h, rfl⟩ := hpadding <;>
          simp only [List.length_append, List.length_cons, List.length_nil] <;> omega
      · obtain ⟨-, rfl⟩ | ⟨-, rfl⟩ := hpadding <;> simp
  · rintro ⟨hlength, digits, padding, rfl, hdigits, hpadding⟩
    -- the digits of the last group are those that do not fill one
    let full := digits.length - digits.length % 4
    have hfull : 4 ∣ (digits.take full).length := by
      rw [List.length_take]
      omega
    have hrest : (digits.drop full).length = digits.length % 4 := by
      rw [List.length_drop]
      omega
    refine ⟨digits.take full, mem_groups_iff.mpr ⟨hfull, fun c hc => hdigits c
      (List.mem_of_mem_take hc)⟩, digits.drop full ++ padding, mem_ending_iff.mpr ?_, ?_⟩
    · rw [List.length_append] at hlength
      have hdrop : ∀ c ∈ digits.drop full, isBase64Digit c = true :=
        fun c hc => hdigits c (List.mem_of_mem_drop hc)
      simp only [List.mem_cons, List.not_mem_nil, or_false] at hpadding
      obtain rfl | rfl | rfl := hpadding <;>
        simp only [List.length_cons, List.length_nil] at hlength
      · rw [List.append_nil, ← List.length_eq_zero_iff]
        exact .inl (by omega)
      · exact .inr ⟨_, _, rfl, hdrop, .inr ⟨by omega, rfl⟩⟩
      · exact .inr ⟨_, _, rfl, hdrop, .inl ⟨by omega, rfl⟩⟩
    · rw [← List.append_assoc, List.take_append_drop]

/-- No blank character stands in base64 text. -/
theorem IsPaddedRun.isBlank_eq_false (h : IsPaddedRun s) (hc : c ∈ s) : isBlank c = false := by
  obtain ⟨-, digits, padding, rfl, hdigits, hpadding⟩ := h
  rcases List.mem_append.mp hc with hc | hc
  · exact isBlank_of_isBase64Digit (isBase64Digit_iff.mpr (hdigits c hc))
  · have hsign : ∀ x ∈ [[], ['='], ['=', '=']], x.all (!isBlank ·) = true := by decide
    exact Bool.not_eq_true' _ |>.mp (List.all_eq_true.mp (hsign padding hpadding) c hc)

theorem isBase64_iff_isPaddedRun {s : String} : isBase64 s = true ↔ IsPaddedRun s.toList :=
  base64Groups_iff_mem_pattern.trans mem_pattern_iff

/-- A text in base64 has no blank characters, so it is blank only if it is empty. -/
theorem isBlankText_of_isBase64 {s : String} (h : isBase64 s = true) :
    isBlankText s = s.isEmpty := by
  rw [Bool.eq_iff_iff, String.isEmpty_iff, ← String.toList_eq_nil_iff, isBlankText,
    List.all_eq_true, List.eq_nil_iff_forall_not_mem]
  have hfilled : ∀ c ∈ s.toList, isBlank c = false :=
    fun c hc => (isBase64_iff_isPaddedRun.mp h).isBlank_eq_false hc
  exact forall₂_congr fun c hc => by simp [hfilled c hc]

/-! ### Encodings -/

/-- The digit whose value is the last six bits of a number. -/
def base64Digit (n : ℕ) : Char :=
  base64Alphabet.get ⟨n % base64Alphabet.length, Nat.mod_lt n (by decide)⟩

/-- The 24 bits of three bytes as four digits. -/
def base64Group (a b c : UInt8) : List Char :=
  let n := a.toNat * 2 ^ 16 + b.toNat * 2 ^ 8 + c.toNat
  [base64Digit (n / 2 ^ 18), base64Digit (n / 2 ^ 12), base64Digit (n / 2 ^ 6), base64Digit n]

/-- Bytes as base64 text. The bits that are missing in the last group are zero, and digits without
a bit of a byte are padding. -/
def base64Encode : List UInt8 → List Char
  | [] => []
  | [a] => (base64Group a 0 0).take 2 ++ ['=', '=']
  | [a, b] => (base64Group a b 0).take 3 ++ ['=']
  | a :: b :: c :: rest => base64Group a b c ++ base64Encode rest

theorem isBase64Digit_base64Digit (n : ℕ) : isBase64Digit (base64Digit n) = true :=
  isBase64Digit_iff.mpr (List.get_mem ..)

theorem base64Groups_base64Encode (bytes : List UInt8) :
    base64Groups (base64Encode bytes) = true := by
  have hgroup : ∀ a b c, ∀ x ∈ base64Group a b c, isBase64Digit x = true := by
    intro a b c
    simp [base64Group, isBase64Digit_base64Digit]
  fun_induction base64Encode bytes with
  | case1 => rfl
  | case2 a =>
      exact base64Groups_of_mem_ending (mem_ending_iff.mpr (.inr ⟨_, _, rfl,
        fun x hx => hgroup _ _ _ x (List.mem_of_mem_take hx), .inl ⟨rfl, rfl⟩⟩))
  | case3 a b =>
      exact base64Groups_of_mem_ending (mem_ending_iff.mpr (.inr ⟨_, _, rfl,
        fun x hx => hgroup _ _ _ x (List.mem_of_mem_take hx), .inr ⟨rfl, rfl⟩⟩))
  | case4 a b c rest ih =>
      have hfull : base64Group a b c ∈ (base64Class ^ 4)∗ :=
        mem_groups_iff.mpr ⟨⟨1, rfl⟩, hgroup a b c⟩
      rw [base64Groups_append hfull, ih]

/-! ### Main statement -/

/-- A text is base64 text exactly if it matches the pattern, which is to say that its length is a
multiple of four and that it is a run of digits with at most two padding signs behind it. So every
encoding is base64 text, and no text with a blank character anywhere is. -/
theorem isBase64_exactly_padded_runs (s : String) (bytes : List UInt8) :
    (isBase64 s = true ↔ s.toList ∈ base64Pattern) ∧
      (isBase64 s = true ↔ 4 ∣ s.length ∧ ∃ digits padding, s.toList = digits ++ padding ∧
        (∀ c ∈ digits, c ∈ base64Alphabet) ∧ padding ∈ [[], ['='], ['=', '=']]) ∧
      isBase64 (String.ofList (base64Encode bytes)) = true ∧
      ∀ c ∈ s.toList, isBlank c = true → isBase64 s = false := by
  refine ⟨base64Groups_iff_mem_pattern, isBase64_iff_isPaddedRun, ?_, fun c hc hblank => ?_⟩
  · rw [isBase64, String.toList_ofList]
    exact base64Groups_base64Encode bytes
  · rw [← Bool.not_eq_true, isBase64_iff_isPaddedRun]
    intro h
    exact absurd (h.isBlank_eq_false hc) (by simp [hblank])

/-- Two bytes, and their encoding with a line break behind it. -/
theorem isBase64_exactly_padded_runs_wrapped :
    '\n' ∈ "Zm8=\n".toList ∧ isBlank '\n' = true ∧ isBase64 "Zm8=\n" = false ∧
      String.ofList (base64Encode [102, 111]) = "Zm8=" ∧ isBase64 "Zm8=" = true := by
  have hencode : String.ofList (base64Encode [102, 111]) = "Zm8=" := by decide +kernel
  obtain ⟨-, -, hencoded, hblank⟩ := isBase64_exactly_padded_runs "Zm8=\n" [102, 111]
  rw [hencode] at hencoded
  exact ⟨by decide, by decide, hblank '\n' (by decide) (by decide), hencode, hencoded⟩

example : base64Encode [102, 111, 111, 98] = "Zm9vYg==".toList := by decide +kernel

end EdgeFirewall.Text
