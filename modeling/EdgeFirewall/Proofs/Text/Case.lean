import EdgeFirewall.Text.AsciiCase
import EdgeFirewall.Proofs.Text.Pieces

/-! # The case of letters

Which properties of a text do not depend on the case of its letters. Those of a character are
settled by the 26 capitals (`forall_toLower`). What is done with a text letter by letter, and does
not tell capitals from small letters, can be done with the text in lower case as well. -/

namespace EdgeFirewall.Text

variable {a b s t : String}

/-! ### Characters -/

/-- What relates each other character to itself, and each capital to its small letter, relates a
character to its lower case. -/
theorem forall_toLower {P : Char → Char → Prop} (hself : ∀ c, c.toLower = c → P c c)
    (hcapital : ∀ n : Fin 26, P (Char.ofNat (65 + n)) (Char.ofNat (97 + n))) (c : Char) :
    P c c.toLower := by
  by_cases hc : 65 ≤ c.toNat ∧ c.toNat ≤ 90
  · have hlower : ∀ n : Fin 26, (Char.ofNat (65 + n)).toLower = Char.ofNat (97 + n) := by decide
    obtain ⟨n, hn⟩ : ∃ n : Fin 26, c = Char.ofNat (65 + n) := by
      refine ⟨⟨c.toNat - 65, by omega⟩, ?_⟩
      have hnat : 65 + (c.toNat - 65) = c.toNat := by omega
      rw [hnat, Char.ofNat_toNat]
    rw [hn, hlower]
    exact hcapital n
  · have hstays : c.toLower = c := by
      unfold Char.toLower
      rw [dif_neg]
      simpa [UInt32.le_iff_toNat_le] using hc
    rw [hstays]
    exact hself c hstays

theorem toLower_toLower (c : Char) : c.toLower.toLower = c.toLower :=
  forall_toLower (P := fun _ d => d.toLower = d) (fun _ h => h) (by decide) c

theorem isBlank_toLower (c : Char) : isBlank c.toLower = isBlank c :=
  forall_toLower (P := fun c d => isBlank d = isBlank c) (fun _ _ => rfl) (by decide) c

theorem toLower_eq_slash_iff (c : Char) : c.toLower = '/' ↔ c = '/' :=
  forall_toLower (P := fun c d => d = '/' ↔ c = '/') (fun _ _ => Iff.rfl) (by decide) c

/-! ### Letter by letter -/

variable {p : Char → Bool} {sep : Char} {f : Char → Char} {l : List Char}

theorem strip_map (hf : ∀ c, p (f c) = p c) : strip p (l.map f) = (strip p l).map f := by
  have hcomp : p ∘ f = p := funext hf
  unfold strip
  simp only [List.dropWhile_map, ← List.map_reverse, hcomp]

theorem split_map (hf : ∀ c, f c = sep ↔ c = sep) :
    split sep (l.map f) = (split sep l).map (List.map f) := by
  induction l with
  | nil => rfl
  | cons c l ih =>
      rw [List.map_cons, split, split, ih]
      simp only [hf c]
      split
      · rfl
      · cases split sep l <;> rfl

/-! ### Texts -/

theorem toList_lowerAscii (s : String) : (lowerAscii s).toList = s.toList.map Char.toLower :=
  String.toList_ofList

theorem lowerAscii_ofList (l : List Char) :
    lowerAscii (String.ofList l) = String.ofList (l.map Char.toLower) := by
  rw [lowerAscii, String.toList_ofList]

theorem lowerAscii_lowerAscii (s : String) : lowerAscii (lowerAscii s) = lowerAscii s := by
  have hcomp : Char.toLower ∘ Char.toLower = Char.toLower := funext toLower_toLower
  rw [lowerAscii, toList_lowerAscii, List.map_map, hcomp, lowerAscii]

theorem eqIgnoringCase_lowerAscii (s t : String) :
    eqIgnoringCase (lowerAscii s) t = eqIgnoringCase s t := by
  rw [eqIgnoringCase, lowerAscii_lowerAscii, eqIgnoringCase]

theorem eqIgnoringCase_iff :
    eqIgnoringCase s t = true ↔ s.toList.map Char.toLower = t.toList.map Char.toLower := by
  unfold eqIgnoringCase lowerAscii
  rw [beq_iff_eq, String.ofList_inj]

end EdgeFirewall.Text
