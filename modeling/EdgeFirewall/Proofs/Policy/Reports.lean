import EdgeFirewall.Proofs.Policy.Constraints
import EdgeFirewall.Proofs.Policy.Violations
import Mathlib.Data.List.Nodup

/-! # Readings report exactly what is violated

A list of violations reports a property if it holds each violation with the property, and no other,
and only one at each path (`Reports`). Every reading reports the violations of its shape: lists of
violations with different paths may be put together without hiding or repeating one
(`Reports.append`), and a violation lies under the path of the value that has it
(`Shape.Violated.under`). -/

namespace EdgeFirewall

variable {α β : Type}

/-! ### Reports -/

/-- A list holds each violation that has a property, and no other, and only one at each path. -/
structure Reports (vs : List Violation) (P : Violation → Prop) : Prop where
  nodup : (vs.map (·.path)).Nodup
  mem_iff : ∀ x, x ∈ vs ↔ P x

namespace Reports

variable {vs ws : List Violation} {P Q : Violation → Prop}

theorem congr (h : Reports vs P) (hPQ : ∀ x, P x ↔ Q x) : Reports vs Q :=
  ⟨h.nodup, fun x => (h.mem_iff x).trans (hPQ x)⟩

theorem perm (h : Reports vs P) (hperm : vs.Perm ws) : Reports ws P :=
  ⟨(hperm.map _).nodup_iff.mp h.nodup, fun x => hperm.mem_iff.symm.trans (h.mem_iff x)⟩

theorem nil (h : ∀ x, ¬ P x) : Reports [] P :=
  ⟨List.nodup_nil, fun x => by simp [h x]⟩

theorem singleton {y : Violation} (h : ∀ x, P x ↔ x = y) : Reports [y] P :=
  ⟨List.nodup_singleton y.path, fun x => by simp [h x]⟩

theorem eq_nil_iff (h : Reports vs P) : vs = [] ↔ ∀ x, ¬ P x := by
  rw [List.eq_nil_iff_forall_not_mem]
  exact forall_congr' fun x => not_congr (h.mem_iff x)

theorem append (hP : Reports vs P) (hQ : Reports ws Q)
    (hne : ∀ x y, P x → Q y → x.path ≠ y.path) : Reports (vs ++ ws) fun x => P x ∨ Q x := by
  constructor
  · rw [List.map_append, List.nodup_append]
    refine ⟨hP.nodup, hQ.nodup, fun p hp q hq => ?_⟩
    obtain ⟨x, hx, rfl⟩ := List.mem_map.mp hp
    obtain ⟨y, hy, rfl⟩ := List.mem_map.mp hq
    exact hne x y ((hP.mem_iff x).mp hx) ((hQ.mem_iff y).mp hy)
  · intro x
    rw [List.mem_append, hP.mem_iff, hQ.mem_iff]

theorem flatMap {ι : Type} {l : List ι} {f : ι → List Violation} {P : ι → Violation → Prop}
    (h : ∀ i ∈ l, Reports (f i) (P i))
    (hne : l.Pairwise fun i j => ∀ x y, P i x → P j y → x.path ≠ y.path) :
    Reports (l.flatMap f) fun x => ∃ i ∈ l, P i x := by
  induction l with
  | nil => exact nil (by simp)
  | cons i rest ih =>
      obtain ⟨hi, hrest⟩ := List.pairwise_cons.mp hne
      have htail := ih (fun j hj => h j (List.mem_cons_of_mem _ hj)) hrest
      have happend := (h i List.mem_cons_self).append htail fun x y hx hy => by
        obtain ⟨j, hj, hP⟩ := hy
        exact hi j hj x y hx hP
      rw [List.flatMap_cons]
      exact happend.congr fun x => by simp

end Reports

/-! ### Violations lie under paths -/

/-- Paths that go on from a path in different ways are different. -/
theorem ne_of_under {p q r : Path} {s t : Step} (hs : p ++ [s] <+: q) (ht : p ++ [t] <+: r)
    (hne : s ≠ t) : q ≠ r := by
  rintro rfl
  have hprefix := List.prefix_of_prefix_length_le hs ht (by simp)
  have heq := hprefix.eq_of_length (by simp)
  exact hne (by simpa using heq)

/-- A path that goes on from a path is another one. -/
theorem ne_of_under_self {p q : Path} {s : Step} (h : p ++ [s] <+: q) : q ≠ p := by
  rintro rfl
  have hlength := h.length_le
  rw [List.length_append, List.length_singleton] at hlength
  omega

theorem Shape.Violated.under {s : Shape} {p : Path} {v : Value} {x : Violation}
    (h : s.Violated p v x) : p <+: x.path := by
  induction h with
  | single | notTexts | notList | tooFew | tooMany | notBlock | both | neither =>
      exact List.prefix_refl _
  | notText | unknown | absent => exact List.prefix_append _ _
  | item _ _ ih | entry _ _ _ ih => exact (List.prefix_append _ _).trans ih

theorem Entry.Violated.under {e : Entry Shape} {p : Path} {a : Attributes} {x : Violation}
    (h : e.Violated p a x) : p ++ [.key e.key] <+: x.path := by
  unfold Entry.Violated at h
  split at h
  · exact Shape.Violated.under h
  · obtain ⟨r, -, rfl⟩ := h
    exact List.prefix_refl _

/-! ### Shapes of single values -/

/-- The reading of a value reports the violations of its shape. -/
def Reading.Reports (read : Reading α) (shape : Shape) : Prop :=
  ∀ ⦃p v⦄, v.Distinct → EdgeFirewall.Reports (read p v).violations (shape.Violated p v)

theorem Shape.violated_single_iff {s : Scalar} {p : Path} {v : Value} {x : Violation} :
    (Shape.single s).Violated p v x ↔ ∃ r, s.Fails v r ∧ x = ⟨p, r⟩ := by
  constructor
  · rintro ⟨h⟩
    exact ⟨_, h, rfl⟩
  · rintro ⟨r, h, rfl⟩
    exact .single h

theorem Scalar.fails_iff_of_kind_ne {s : Scalar} {v : Value} {r : Reason} (h : v.kind ≠ s.kind) :
    s.Fails v r ↔ r = .wrongKind s.kind v.kind := by
  constructor
  · intro hr
    cases hr with
    | wrongKind => rfl
    | _ => exact absurd rfl h
  · rintro rfl
    exact .wrongKind h

namespace Reports

variable {s : Scalar} {p : Path} {v : Value}

theorem of_fails_not (h : ∀ r, ¬ s.Fails v r) : Reports [] ((Shape.single s).Violated p v) := by
  refine nil fun x hx => ?_
  obtain ⟨r, hr, -⟩ := Shape.violated_single_iff.mp hx
  exact h r hr

theorem of_fails_iff {r : Reason} (h : ∀ r', s.Fails v r' ↔ r' = r) :
    Reports [⟨p, r⟩] ((Shape.single s).Violated p v) := by
  refine singleton fun x => ?_
  simp only [Shape.violated_single_iff, h, exists_eq_left]

end Reports

namespace Scalar

theorem fails_text_iff {t : String} {r : Reason} :
    text.Fails (.string t) r ↔ Text.isBlankText t = true ∧ r = .blank := by
  constructor
  · intro h
    cases h with
    | wrongKind h => exact absurd rfl h
    | blankText h => exact ⟨h, rfl⟩
  · rintro ⟨h, rfl⟩
    exact .blankText h

theorem not_fails_truth {b : Bool} {r : Reason} : ¬ truth.Fails (.bool b) r := by
  intro h
  cases h with
  | wrongKind h => exact absurd rfl h

theorem fails_number_iff {least most n : Int} {r : Reason} :
    (number least most).Fails (.int n) r ↔
      ¬ (least ≤ n ∧ n ≤ most) ∧ r = .outOfRange least most n := by
  constructor
  · intro h
    cases h with
    | wrongKind h => exact absurd rfl h
    | outOfRange h => exact ⟨h, rfl⟩
  · rintro ⟨h, rfl⟩
    exact .outOfRange h

theorem fails_statusCode_iff {n : Int} {r : Reason} : statusCode.Fails (.int n) r ↔
    if 0 ≤ n ∧ n ≤ 2147483647 then n ∉ [200, 403, 405, 406, 429] ∧ r = .badStatusCode n
    else r = .outOfRange 0 2147483647 n := by
  constructor
  · intro h
    cases h with
    | wrongKind h => exact absurd rfl h
    | codeOutOfRange h => rw [if_neg h]
    | badStatusCode hrange h =>
        rw [if_pos hrange]
        exact ⟨h, rfl⟩
  · split
    · next hrange =>
        rintro ⟨h, rfl⟩
        exact .badStatusCode hrange h
    · next h =>
        rintro rfl
        exact .codeOutOfRange h

theorem fails_base64_iff {t : String} {r : Reason} : base64.Fails (.string t) r ↔
    if Text.isBlankText t = true then r = .blank
    else Text.isBase64 t = false ∧ r = .notBase64 := by
  constructor
  · intro h
    cases h with
    | wrongKind h => exact absurd rfl h
    | blankBase64 h => rw [if_pos h]
    | notBase64 hfilled h =>
        rw [if_neg (by simp [hfilled])]
        exact ⟨h, rfl⟩
  · split
    · next h =>
        rintro rfl
        exact .blankBase64 h
    · next hfilled =>
        rintro ⟨h, rfl⟩
        exact .notBase64 (eq_false_of_ne_true hfilled) h

theorem fails_word_iff {typeName : String} {spellings : List String} {t : String} {r : Reason} :
    (word typeName spellings).Fails (.string t) r ↔
      unqualified t ∉ spellings ∧ r = .unknownVariant ⟨typeName, unqualified t, spellings⟩ := by
  constructor
  · intro h
    cases h with
    | wrongKind h => exact absurd rfl h
    | unknownVariant h => exact ⟨h, rfl⟩
  · rintro ⟨h, rfl⟩
    exact .unknownVariant h

end Scalar

namespace Reading

open EdgeFirewall.Reports

theorem text_reports : text.Reports (.single .text) := by
  intro p v _
  cases v with
  | string t =>
      rw [text]
      split
      · next h => exact of_fails_iff fun r => by simp [Scalar.fails_text_iff, h]
      · next h => exact of_fails_not fun r => by simp [Scalar.fails_text_iff, h]
  | _ => exact of_fails_iff fun _ => Scalar.fails_iff_of_kind_ne (by simp [Value.kind, Scalar.kind])

theorem truth_reports : truth.Reports (.single .truth) := by
  intro p v _
  cases v with
  | bool b => exact of_fails_not fun _ => Scalar.not_fails_truth
  | _ => exact of_fails_iff fun _ => Scalar.fails_iff_of_kind_ne (by simp [Value.kind, Scalar.kind])

theorem number_reports (least most : Int) :
    (number least most).Reports (.single (.number least most)) := by
  intro p v _
  cases v with
  | int n =>
      rw [number]
      split
      · next h => exact of_fails_not fun r => by simp [Scalar.fails_number_iff, h]
      · next h => exact of_fails_iff fun r => by simp [Scalar.fails_number_iff, h]
  | _ => exact of_fails_iff fun _ => Scalar.fails_iff_of_kind_ne (by simp [Value.kind, Scalar.kind])

theorem statusCode_reports : Policy.statusCode.Reports (.single .statusCode) := by
  intro p v _
  cases v with
  | int n =>
      have hcodes : Policy.blockStatusCodes.contains n = true ↔ n ∈ [200, 403, 405, 406, 429] :=
        List.contains_iff_mem
      by_cases hrange : 0 ≤ n ∧ n ≤ 2147483647
      · have hn : (Int32.ofInt n).toInt = n := Int32.toInt_ofInt_of_le (by omega) (by omega)
        have hread : (Policy.statusCode p (.int n)).violations =
            if Policy.blockStatusCodes.contains n then [] else [⟨p, .badStatusCode n⟩] := by
          have hnumber : number 0 Policy.maxNumber p (.int n) = .ok (Int32.ofInt n) := by
            rw [number_eq_ok_iff, Document.numberValue, hn]
            exact ⟨rfl, hrange⟩
          rw [Policy.statusCode, suchThat, hnumber, Checked.violations_suchThat_ok, hn]
        rw [hread]
        split
        · next h =>
            refine of_fails_not fun r hr => ?_
            rw [Scalar.fails_statusCode_iff, if_pos hrange] at hr
            exact hr.1 (hcodes.mp h)
        · next h =>
            refine of_fails_iff fun r => ?_
            rw [Scalar.fails_statusCode_iff, if_pos hrange, and_iff_right (mt hcodes.mpr h)]
      · have hread : (Policy.statusCode p (.int n)).violations =
            [⟨p, .outOfRange 0 2147483647 n⟩] := by
          have hnumber : number 0 Policy.maxNumber p (.int n) =
              .fail p (.outOfRange 0 2147483647 n) := if_neg hrange
          rw [Policy.statusCode, suchThat, hnumber, Checked.violations_suchThat_fail]
        rw [hread]
        refine of_fails_iff fun r => ?_
        rw [Scalar.fails_statusCode_iff, if_neg hrange]
  | _ => exact of_fails_iff fun _ => Scalar.fails_iff_of_kind_ne (by simp [Value.kind, Scalar.kind])

theorem base64_reports : base64.Reports (.single .base64) := by
  intro p v _
  cases v with
  | string t =>
      rw [base64, suchThat, text]
      split
      · next h => exact of_fails_iff fun r => by simp [Scalar.fails_base64_iff, h]
      · next h =>
          rw [Checked.violations_suchThat_ok]
          split
          · next hcode => exact of_fails_not fun r => by simp [Scalar.fails_base64_iff, h, hcode]
          · next hcode => exact of_fails_iff fun r => by simp [Scalar.fails_base64_iff, h, hcode]
  | _ => exact of_fails_iff fun _ => Scalar.fails_iff_of_kind_ne (by simp [Value.kind, Scalar.kind])

theorem word_reports [Vocabulary α] : (word (α := α)).Reports (Policy.wordShape α) := by
  intro p v _
  cases v with
  | string t =>
      rw [word]
      split
      · next a h =>
          have hmem := Vocabulary.mem_spellings_iff.mpr ⟨a, Vocabulary.parse_eq_ok_iff.mp h⟩
          exact of_fails_not fun r => by simp [Scalar.fails_word_iff, hmem]
      · next e h =>
          obtain ⟨hnotMem, rfl⟩ := Vocabulary.parse_eq_error_iff.mp h
          exact of_fails_iff fun r => by simp [Scalar.fails_word_iff, hnotMem]
  | _ => exact of_fails_iff fun _ => Scalar.fails_iff_of_kind_ne (by simp [Value.kind, Scalar.kind])

end Reading

/-! ### Tables and lists -/

theorem pairwise_zipIdx (as : List α) (n : Nat) :
    (as.zipIdx n).Pairwise fun d e => d.2 < e.2 := by
  rw [← List.pairwise_map (f := Prod.snd), List.zipIdx_map_snd]
  exact List.pairwise_lt_range'

theorem mem_zipIdx_iff {as : List α} {e : α × Nat} : e ∈ as.zipIdx ↔ as[e.2]? = some e.1 := by
  obtain ⟨a, i⟩ := e
  exact List.mk_mem_zipIdx_iff_getElem?

theorem Shape.violated_list_iff {least most : Nat} {item : Shape} {p : Path} {items : List Value}
    {x : Violation} : (Shape.list least most item).Violated p (.list items) x ↔
      (items.length < least ∧ x = ⟨p, .tooFew least items.length⟩ ∨
        most < items.length ∧ x = ⟨p, .tooMany most items.length⟩) ∨
      ∃ e ∈ items.zipIdx, item.Violated (p ++ [.index e.2]) e.1 x := by
  constructor
  · intro h
    cases h with
    | notList h => exact absurd rfl h
    | tooFew h => exact .inl (.inl ⟨h, rfl⟩)
    | tooMany h => exact .inl (.inr ⟨h, rfl⟩)
    | item hi h => exact .inr ⟨(_, _), mem_zipIdx_iff.mpr hi, h⟩
  · rintro ((⟨h, rfl⟩ | ⟨h, rfl⟩) | ⟨e, he, h⟩)
    · exact .tooFew h
    · exact .tooMany h
    · exact .item (mem_zipIdx_iff.mp he) h

theorem Shape.violated_list_iff_of_kind_ne {least most : Nat} {item : Shape} {p : Path} {v : Value}
    {x : Violation} (h : v.kind ≠ .list) :
    (Shape.list least most item).Violated p v x ↔ x = ⟨p, .wrongKind .list v.kind⟩ := by
  constructor
  · intro hx
    cases hx with
    | notList => rfl
    | _ => exact absurd rfl h
  · rintro rfl
    exact .notList h

theorem Shape.violated_texts_iff {p : Path} {a : Attributes} {x : Violation} :
    Shape.texts.Violated p (.map a) x ↔
      ∃ e ∈ a, e.2.kind ≠ .string ∧ x = ⟨p ++ [.key e.1], .wrongKind .string e.2.kind⟩ := by
  constructor
  · intro h
    cases h with
    | notTexts h => exact absurd rfl h
    | notText he h => exact ⟨_, he, h, rfl⟩
  · rintro ⟨e, he, h, rfl⟩
    exact .notText he h

theorem Shape.violated_texts_iff_of_kind_ne {p : Path} {v : Value} {x : Violation}
    (h : v.kind ≠ .map) : Shape.texts.Violated p v x ↔ x = ⟨p, .wrongKind .map v.kind⟩ := by
  constructor
  · intro hx
    cases hx with
    | notTexts => rfl
    | _ => exact absurd rfl h
  · rintro rfl
    exact .notTexts h

namespace Reading

theorem boundsViolations_reports {least most : Nat} (hle : least ≤ most) (p : Path) (count : Nat) :
    EdgeFirewall.Reports (boundsViolations p least most count) fun x =>
      count < least ∧ x = ⟨p, .tooFew least count⟩ ∨
        most < count ∧ x = ⟨p, .tooMany most count⟩ := by
  unfold boundsViolations
  split
  · next h =>
      have hmost : ¬ most < count := by omega
      exact .singleton fun x => by simp [h, hmost]
  · next hleast =>
      split
      · next hmost => exact .singleton fun x => by simp [hleast, hmost]
      · next hmost => exact .nil fun x => by simp [hleast, hmost]

theorem listOf_reports {read : Reading α} {item : Shape} (h : read.Reports item)
    {least most : Nat} (hle : least ≤ most) :
    (listOf least most read).Reports (.list least most item) := by
  intro p v hv
  cases v with
  | list items =>
      have hitems : EdgeFirewall.Reports
          (items.zipIdx.flatMap fun e => (read (p ++ [.index e.2]) e.1).violations)
          fun x => ∃ e ∈ items.zipIdx, item.Violated (p ++ [.index e.2]) e.1 x := by
        refine .flatMap (fun e he => ?_) ((pairwise_zipIdx items 0).imp ?_)
        · exact h (Value.distinct_list.mp hv _ (List.fst_mem_of_mem_zipIdx he))
        · intro d e hlt x y hd he
          refine ne_of_under hd.under he.under fun hstep => ?_
          rw [Step.index.injEq] at hstep
          omega
      have hbounds := boundsViolations_reports hle p items.length
      have hlist : (listOf least most read p (.list items)).violations =
          boundsViolations p least most items.length ++
            items.zipIdx.flatMap fun e => (read (p ++ [.index e.2]) e.1).violations := by
        simp [listOf]
      rw [hlist]
      refine (hbounds.append hitems fun x y hx hy => ?_).congr
        fun x => Shape.violated_list_iff.symm
      have hpath : x.path = p := by
        rcases hx with ⟨-, rfl⟩ | ⟨-, rfl⟩ <;> rfl
      obtain ⟨e, -, he⟩ := hy
      rw [hpath]
      exact (ne_of_under_self he.under).symm
  | _ => exact .singleton fun x => Shape.violated_list_iff_of_kind_ne (by simp [Value.kind])

/-- Texts and their keys are distinct wherever no key is bound twice. -/
theorem tagsOf_reports : Reading.Reports Policy.tagsOf .texts := by
  intro p v hv
  cases v with
  | map a =>
      have hkeys := List.pairwise_map.mp (Value.distinct_map.mp hv).1
      have hentry : ∀ e : String × Value, EdgeFirewall.Reports
          (if e.2.kind = .string then [] else [⟨p ++ [.key e.1], .wrongKind .string e.2.kind⟩])
          fun x => e.2.kind ≠ .string ∧ x = ⟨p ++ [.key e.1], .wrongKind .string e.2.kind⟩ := by
        intro e
        split
        · next h => exact .nil fun x hx => hx.1 h
        · next h => exact .singleton fun x => and_iff_right h
      have hlist : (Policy.tagsOf p (.map a)).violations = a.flatMap fun e =>
          if e.2.kind = .string then [] else [⟨p ++ [.key e.1], .wrongKind .string e.2.kind⟩] := by
        rw [Policy.tagsOf, Checked.violations_map, Checked.violations_collect]
        refine List.flatMap_congr fun e _ => ?_
        obtain ⟨k, w⟩ := e
        cases w <;> rfl
      rw [hlist]
      refine (Reports.flatMap (fun e _ => hentry e) (hkeys.imp ?_)).congr fun x => ?_
      · intro d e hne x y hd he
        rw [hd.2, he.2]
        simp [hne]
      · exact Shape.violated_texts_iff.symm
  | _ => exact .singleton fun x => Shape.violated_texts_iff_of_kind_ne (by simp [Value.kind])

end Reading

/-! ### Entries of blocks -/

/-- What is read from a block reports the violations of an entry. -/
def Block.ReportsEntry (get : Block → Checked α) (e : Entry Shape) : Prop :=
  ∀ ⦃p a⦄, (Value.map a).Distinct → Reports (get ⟨p, a⟩).violations (e.Violated p a)

namespace Block

open Reading

variable {read : Reading α} {shape : Shape} {key : String} {least most : Nat}

/-- An entry is reported if its value is, where it is there, and its absence, where it is not. -/
theorem reportsEntry {get : Block → Checked β} {e : Entry Shape} (h : read.Reports e.shape)
    (hsome : ∀ {p a v}, a.lookup e.key = some v →
      (get ⟨p, a⟩).violations = (read (p ++ [.key e.key]) v).violations)
    (hnone : ∀ {p a}, a.lookup e.key = none → (get ⟨p, a⟩).violations =
      (e.absence.reason?.map fun r => ⟨p ++ [.key e.key], r⟩).toList) : ReportsEntry get e := by
  intro p a ha
  unfold Entry.Violated
  cases hv : a.lookup e.key with
  | some v =>
      rw [hsome hv]
      exact h (ha.of_lookup hv)
  | none =>
      rw [hnone hv]
      cases e.absence.reason? with
      | none => exact .nil fun x => by simp
      | some r => exact .singleton fun x => by simp

theorem required_reports (h : read.Reports shape) :
    ReportsEntry (·.required key read) ⟨key, shape, .missing⟩ :=
  reportsEntry h (fun hv => by simp [required, hv, entryPath])
    (fun hv => by simp [required, hv, entryPath, Absence.reason?])

theorem optional_reports (h : read.Reports shape) :
    ReportsEntry (·.optional key read) ⟨key, shape, .fine⟩ :=
  reportsEntry h (fun hv => by simp [optional, hv, entryPath])
    (fun hv => by simp [optional, hv, Absence.reason?])

theorem withDefault_reports (default : α) (h : read.Reports shape) :
    ReportsEntry (·.withDefault key default read) ⟨key, shape, .fine⟩ :=
  reportsEntry h (fun hv => by simp [withDefault, hv, entryPath])
    (fun hv => by simp [withDefault, hv, Absence.reason?])

theorem list_reports (h : read.Reports shape) :
    ReportsEntry (·.list key 0 most read) ⟨key, .list 0 most shape, .fine⟩ :=
  reportsEntry (listOf_reports h (Nat.zero_le _)) (fun hv => by simp [list, hv, entryPath])
    (fun hv => by simp [list, hv, Reading.listOf, boundsViolations, Absence.reason?])

theorem nonEmptyList_reports (h : read.Reports shape) (hleast : 0 < least) (hle : least ≤ most) :
    ReportsEntry (·.list key least most read) ⟨key, .list least most shape, .tooFew least⟩ :=
  reportsEntry (listOf_reports h hle) (fun hv => by simp [list, hv, entryPath])
    (fun hv => by
      simp [list, hv, Reading.listOf, boundsViolations, hleast, entryPath, Absence.reason?])

theorem blocks_reports {read : Block → Checked α} (h : (reading read).Reports shape) :
    ReportsEntry (·.blocks key most read) ⟨key, .list 0 most shape, .fine⟩ := by
  have hvalues : (Block.listOf most read).Reports (.list 0 most shape) := fun p v hv =>
    (listOf_reports h (Nat.zero_le _) hv).perm (violations_listOf_perm most read p v)
  exact reportsEntry hvalues (fun hv => by simp [blocks, hv, entryPath]) (fun hv => by
    simp [blocks, hv, Block.listOf, boundsViolations, shapeViolations, ofItems, Absence.reason?])

end Block

/-! ### Blocks -/

/-- What is violated of a choice between two entries of a block. -/
def ChoiceViolated (choice : Option (String × String)) (p : Path) (a : Attributes)
    (x : Violation) : Prop :=
  ∃ k l, choice = some (k, l) ∧
    ((a.lookup k).isSome = true ∧ (a.lookup l).isSome = true ∧ x = ⟨p, .twoTargets⟩ ∨
      a.lookup k = none ∧ a.lookup l = none ∧ x = ⟨p, .noTarget⟩)

theorem choiceViolated_some_iff {k l : String} {p : Path} {a : Attributes} {x : Violation} :
    ChoiceViolated (some (k, l)) p a x ↔
      (a.lookup k).isSome = true ∧ (a.lookup l).isSome = true ∧ x = ⟨p, .twoTargets⟩ ∨
        a.lookup k = none ∧ a.lookup l = none ∧ x = ⟨p, .noTarget⟩ := by
  constructor
  · rintro ⟨_, _, ⟨⟩, h⟩
    exact h
  · intro h
    exact ⟨k, l, rfl, h⟩

theorem ChoiceViolated.path_eq {choice : Option (String × String)} {p : Path} {a : Attributes}
    {x : Violation} (h : ChoiceViolated choice p a x) : x.path = p := by
  obtain ⟨k, l, -, ⟨-, -, rfl⟩ | ⟨-, -, rfl⟩⟩ := h <;> rfl

theorem Shape.violated_block_iff {entries : List (Entry Shape)} {choice : Option (String × String)}
    {p : Path} {a : Attributes} {x : Violation} :
    (Shape.block entries choice).Violated p (.map a) x ↔
      ((∃ d ∈ a, d.1 ∉ entries.map (·.key) ∧ x = ⟨p ++ [.key d.1], .unknownAttribute⟩) ∨
        ∃ e ∈ entries, e.Violated p a x) ∨ ChoiceViolated choice p a x := by
  constructor
  · intro h
    cases h with
    | notBlock h => exact absurd rfl h
    | unknown hd h =>
        refine .inl (.inl ⟨_, hd, fun hmem => ?_, rfl⟩)
        obtain ⟨e, he, hkey⟩ := List.mem_map.mp hmem
        exact h e he hkey
    | absent he hv h => exact .inl (.inr ⟨_, he, by rw [Entry.Violated, hv]; exact ⟨_, h, rfl⟩⟩)
    | entry he hv h => exact .inl (.inr ⟨_, he, by rw [Entry.Violated, hv]; exact h⟩)
    | both hk hl => exact .inr ⟨_, _, rfl, .inl ⟨hk, hl, rfl⟩⟩
    | neither hk hl => exact .inr ⟨_, _, rfl, .inr ⟨hk, hl, rfl⟩⟩
  · rintro ((⟨d, hd, hnew, rfl⟩ | ⟨e, he, h⟩) | ⟨k, l, rfl, ⟨hk, hl, rfl⟩ | ⟨hk, hl, rfl⟩⟩)
    · exact .unknown hd fun e he hkey => hnew (List.mem_map.mpr ⟨e, he, hkey⟩)
    · unfold Entry.Violated at h
      split at h
      · next hv => exact .entry he hv h
      · next hv =>
          obtain ⟨r, hr, rfl⟩ := h
          exact .absent he hv hr
    · exact .both hk hl
    · exact .neither hk hl

namespace Reports

theorem unknownEntries {p : Path} {a : Attributes} (ha : (a.map (·.1)).Nodup)
    (known : List String) : Reports (Block.unknownEntries ⟨p, a⟩ known) fun x =>
      ∃ d ∈ a, d.1 ∉ known ∧ x = ⟨p ++ [.key d.1], .unknownAttribute⟩ := by
  constructor
  · rw [Block.unknownEntries, List.map_map]
    refine List.pairwise_map.mpr (((List.pairwise_map.mp ha).filter _).imp fun hne heq => hne ?_)
    simpa [Block.entryPath] using heq
  · intro x
    simp only [Block.unknownEntries, Block.entryPath, List.mem_map, List.mem_filter,
      Bool.not_eq_true', List.contains_eq_mem, decide_eq_false_iff_not, and_assoc, eq_comm (a := x)]

/-- The violations of entries with distinct keys, entry after entry. -/
theorem entries {es : List (Entry Shape)} {p : Path} {a : Attributes}
    {vss : List (List Violation)} (hkeys : (es.map (·.key)).Nodup)
    (h : List.Forall₂ (fun e vs => Reports vs (e.Violated p a)) es vss) :
    Reports vss.flatten fun x => ∃ e ∈ es, e.Violated p a x := by
  induction h with
  | nil => exact .nil (by simp)
  | @cons e vs rest vss hvs _ ih =>
      rw [List.map_cons, List.nodup_cons] at hkeys
      rw [List.flatten_cons]
      refine (hvs.append (ih hkeys.2) fun x y hx hy => ?_).congr fun x => by simp
      obtain ⟨d, hd, hy⟩ := hy
      refine ne_of_under hx.under hy.under fun hstep => ?_
      rw [Step.key.injEq] at hstep
      exact hkeys.1 (List.mem_map.mpr ⟨d, hd, hstep.symm⟩)

/-- The violations of a block: of its unknown entries, its known ones, and its choice. -/
theorem block {es : List (Entry Shape)} {choice : Option (String × String)} {p : Path}
    {a : Attributes} {vss : List (List Violation)} {cs : List Violation}
    (hkeys : (es.map (·.key)).Nodup) (ha : (Value.map a).Distinct)
    (hvss : List.Forall₂ (fun e vs => Reports vs (e.Violated p a)) es vss)
    (hcs : Reports cs (ChoiceViolated choice p a)) :
    Reports (Block.unknownEntries ⟨p, a⟩ (es.map (·.key)) ++ vss.flatten ++ cs)
      ((Shape.block es choice).Violated p (.map a)) := by
  have hunknown := unknownEntries (p := p) (Value.distinct_map.mp ha).1 (es.map (·.key))
  have hentries := entries hkeys hvss
  refine ((hunknown.append hentries fun x y hx hy => ?_).append hcs fun x y hx hy => ?_).congr
    fun x => Shape.violated_block_iff.symm
  · obtain ⟨d, -, hnew, rfl⟩ := hx
    obtain ⟨e, he, hy⟩ := hy
    refine ne_of_under (List.prefix_refl _) hy.under fun hstep => ?_
    rw [Step.key.injEq] at hstep
    exact hnew (List.mem_map.mpr ⟨e, he, hstep.symm⟩)
  · rw [hy.path_eq]
    rcases hx with ⟨d, -, -, rfl⟩ | ⟨e, -, hx⟩
    · exact ne_of_under_self (List.prefix_refl _)
    · exact ne_of_under_self hx.under

/-- The violations of a block without a choice. -/
theorem plainBlock {es : List (Entry Shape)} {p : Path} {a : Attributes}
    {vss : List (List Violation)} (hkeys : (es.map (·.key)).Nodup) (ha : (Value.map a).Distinct)
    (hvss : List.Forall₂ (fun e vs => Reports vs (e.Violated p a)) es vss) :
    Reports (Block.unknownEntries ⟨p, a⟩ (es.map (·.key)) ++ vss.flatten)
      ((Shape.block es none).Violated p (.map a)) := by
  have hnone : Reports [] (ChoiceViolated none p a) := .nil fun x => by simp [ChoiceViolated]
  have hblock := block hkeys ha hvss hnone
  rwa [List.append_nil] at hblock

end Reports

theorem Block.reading_reports {read : Block → Checked α} {es : List (Entry Shape)}
    {choice : Option (String × String)}
    (h : ∀ ⦃p a⦄, (Value.map a).Distinct →
      Reports (read ⟨p, a⟩).violations ((Shape.block es choice).Violated p (.map a))) :
    (Block.reading read).Reports (.block es choice) := by
  intro p v hv
  cases v with
  | map a => exact h hv
  | _ =>
      refine .singleton fun x => ⟨fun hx => ?_, ?_⟩
      · cases hx with
        | notBlock => rfl
      · rintro rfl
        exact .notBlock (by simp [Value.kind])

end EdgeFirewall
