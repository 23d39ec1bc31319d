import EdgeFirewall.Attribute.Schema
import EdgeFirewall.Proofs.Attribute.Maps
import Mathlib.Data.List.Nodup

/-! # Values that have a type

When a type accepts a value, type by type. For maps whose keys are distinct, a block accepts
exactly those in which every declared field fits and no other key stands
(`AttributeType.accepts_block_iff`), and a resource schema those in which every declared field
fits (`ResourceSchema.check_eq_ok_iff`). -/

namespace EdgeFirewall

variable {τ : Type} {check : Value → Except TypeError Unit} {v : Value} {a : Attributes}

/-! ### Lists and maps of values -/

theorem firstProblem_eq_ok_iff {es : List TypeError} : firstProblem es = .ok () ↔ es = [] := by
  cases es <;> simp [firstProblem]

theorem checkItems_eq_ok_iff {index : Nat} {items : List Value} :
    checkItems check index items = .ok () ↔ ∀ v ∈ items, check v = .ok () := by
  induction items generalizing index with
  | nil => simp [checkItems]
  | cons v rest ih =>
      rw [List.forall_mem_cons, checkItems]
      split
      · next h => simp [h, ih]
      · next h => simp [h]

theorem checkEntries_eq_ok_iff :
    checkEntries check a = .ok () ↔ ∀ e ∈ a, check e.2 = .ok () := by
  induction a with
  | nil => simp [checkEntries]
  | cons e rest ih =>
      obtain ⟨k, v⟩ := e
      rw [List.forall_mem_cons, checkEntries]
      split
      · next h => simp [h, ih]
      · next h => simp [h]

/-! ### Fields -/

namespace Attributes

/-- What stands under a key, if anything does, has a property. -/
def IfGiven (a : Attributes) (key : String) (P : Value → Prop) : Prop :=
  ∀ v, a.lookup key = some v → P v

/-- Something stands under a key, and has a property. -/
def Has (a : Attributes) (key : String) (P : Value → Prop) : Prop :=
  ∃ v, a.lookup key = some v ∧ P v

end Attributes

/-- A value has a type. -/
def AttributeType.Accepts (type : AttributeType) (v : Value) : Prop :=
  type.check v = .ok ()

namespace Field

/-- The first of some fields that has a name. -/
def named? (fields : List (Field τ)) (name : String) : Option (Field τ) :=
  fields.find? (·.name == name)

theorem mem_of_named? {fields : List (Field τ)} {name : String} {f : Field τ}
    (h : named? fields name = some f) : f ∈ fields ∧ f.name = name :=
  ⟨List.mem_of_find?_eq_some h, by simpa using List.find?_some h⟩

theorem named?_eq_none_iff {fields : List (Field τ)} {name : String} :
    named? fields name = none ↔ name ∉ fields.map (·.name) := by
  rw [named?, List.find?_eq_none, List.mem_map]
  simp

/-- If no two fields share a name, the first of a name is the one that has it. -/
theorem named?_eq_some_iff {fields : List (Field τ)} (hnames : (fields.map (·.name)).Nodup)
    {name : String} {f : Field τ} : named? fields name = some f ↔ f ∈ fields ∧ f.name = name := by
  refine ⟨mem_of_named?, fun ⟨hf, hname⟩ => ?_⟩
  cases hg : named? fields name with
  | none => exact absurd (List.mem_map.mpr ⟨f, hf, hname⟩) (named?_eq_none_iff.mp hg)
  | some g =>
      obtain ⟨hmem, hsame⟩ := mem_of_named? hg
      rw [List.inj_on_of_nodup_map hnames hmem hf (hsame.trans hname.symm)]

/-- A list has a number of items that a field allows. -/
def InBounds (f : Field τ) (v : Value) : Prop :=
  ∀ items, v = .list items →
    (∀ n, f.minItems = some n → n ≤ items.length) ∧ ∀ n, f.maxItems = some n → items.length ≤ n

theorem boundsError_eq_none_iff {f : Field τ} : f.boundsError v = none ↔ f.InBounds v := by
  cases v with
  | list items =>
      simp only [boundsError, InBounds, Value.list.injEq, forall_eq']
      constructor
      · intro h
        split at h
        · cases h
        · cases h
        · next hleast hmost =>
            rw [Option.filter_eq_none_iff] at hleast hmost
            exact ⟨fun n hn => by simpa using hleast n hn, fun n hn => by simpa using hmost n hn⟩
      · rintro ⟨hleast, hmost⟩
        have hnotLess : f.minItems.filter (items.length < ·) = none :=
          Option.filter_eq_none_iff.mpr fun n hn => by simpa using hleast n hn
        have hnotMore : f.maxItems.filter (· < items.length) = none :=
          Option.filter_eq_none_iff.mpr fun n hn => by simpa using hmost n hn
        rw [hnotLess, hnotMore]
  | _ => simp [boundsError, InBounds]

theorem checkWith_eq_ok_iff {f : Field τ} :
    f.checkWith check v = .ok () ↔ f.InBounds v ∧ check v = .ok () := by
  rw [← boundsError_eq_none_iff, checkWith]
  cases f.boundsError v with
  | some e => simp
  | none => cases check v <;> simp [Except.mapError]

/-- A map has a fitting value under the name of a field, or none if it may be left out. -/
def Fits (f : AttributeField) (a : Attributes) : Prop :=
  match a.lookup f.name with
  | some v => f.InBounds v ∧ f.type.Accepts v
  | none => f.required = true → f.default.isSome = true

end Field

/-! ### Blocks -/

section blocks

variable {fields : List AttributeField}

theorem missingFields_eq_nil_iff :
    missingFields (AttributeType.requirements fields) a = [] ↔
      ∀ f ∈ fields, a.lookup f.name = none → f.required = true → f.default.isSome = true := by
  rw [AttributeType.requirements_eq_map, missingFields, List.map_eq_nil_iff,
    List.filter_eq_nil_iff, List.forall_mem_map]
  refine forall₂_congr fun f _ => ?_
  simp only [Field.requirement]
  cases a.lookup f.name <;> simp [Option.isSome_iff_ne_none]

/-- An entry is checked against the first field of its name. -/
theorem entryProblem_requirements (closed : Bool) (e : String × Value) :
    entryProblem (AttributeType.requirements fields) closed e =
      match Field.named? fields e.1 with
      | some f =>
        match f.checkWith f.type.check e.2 with
        | .ok _ => none
        | .error problem => some problem
      | none => if closed then some (.unknown e.1) else none := by
  have hfound : (AttributeType.requirements fields).find? (·.name == e.1) =
      (Field.named? fields e.1).map fun f => f.requirement f.type.check := by
    rw [AttributeType.requirements_eq_map, List.find?_map]
    rfl
  rw [entryProblem, hfound]
  cases Field.named? fields e.1 <;> rfl

theorem entryProblem_eq_none_iff_named {closed : Bool} {e : String × Value} :
    entryProblem (AttributeType.requirements fields) closed e = none ↔
      (closed = true → e.1 ∈ fields.map (·.name)) ∧
        ∀ f, Field.named? fields e.1 = some f → f.InBounds e.2 ∧ f.type.Accepts e.2 := by
  rw [entryProblem_requirements]
  cases hf : Field.named? fields e.1 with
  | none =>
      have hnew := Field.named?_eq_none_iff.mp hf
      cases closed <;> simp [hnew]
  | some f =>
      obtain ⟨hmem, hname⟩ := Field.mem_of_named? hf
      have hknown : e.1 ∈ fields.map (·.name) := List.mem_map.mpr ⟨f, hmem, hname⟩
      simp only [Option.some.injEq, forall_eq']
      rw [and_iff_right fun _ => hknown, AttributeType.Accepts, ← Field.checkWith_eq_ok_iff]
      cases f.checkWith f.type.check e.2 <;> simp

theorem entryProblem_eq_none_iff (hnames : (fields.map (·.name)).Nodup) {closed : Bool}
    {e : String × Value} :
    entryProblem (AttributeType.requirements fields) closed e = none ↔
      (closed = true → e.1 ∈ fields.map (·.name)) ∧
        ∀ f ∈ fields, f.name = e.1 → f.InBounds e.2 ∧ f.type.Accepts e.2 := by
  simp only [entryProblem_eq_none_iff_named, Field.named?_eq_some_iff hnames, and_imp]

/-- The problems of a map are those of its fields, and of its other keys if they are refused. -/
theorem problems_eq_nil_iff (hnames : (fields.map (·.name)).Nodup) (ha : (a.map (·.1)).Nodup)
    {closed : Bool} :
    missingFields (AttributeType.requirements fields) a = [] ∧
        entryProblems (AttributeType.requirements fields) closed a = [] ↔
      (closed = true → ∀ e ∈ a, e.1 ∈ fields.map (·.name)) ∧ ∀ f ∈ fields, f.Fits a := by
  rw [missingFields_eq_nil_iff, entryProblems, List.filterMap_eq_nil_iff]
  constructor
  · rintro ⟨hmissing, hentries⟩
    refine ⟨fun hclosed e he => ((entryProblem_eq_none_iff hnames).mp (hentries e he)).1 hclosed,
      fun f hf => ?_⟩
    unfold Field.Fits
    cases hv : a.lookup f.name with
    | none => exact hmissing f hf hv
    | some v =>
        have hentry := hentries _ (Entries.mem_of_lookup hv)
        exact ((entryProblem_eq_none_iff hnames).mp hentry).2 f hf rfl
  · rintro ⟨hknown, hfits⟩
    refine ⟨fun f hf hv => ?_, fun e he => (entryProblem_eq_none_iff hnames).mpr
      ⟨fun hclosed => hknown hclosed e he, fun f hf hname => ?_⟩⟩
    · have hfit := hfits f hf
      rw [Field.Fits, hv] at hfit
      exact hfit
    · have hfit := hfits f hf
      rw [Field.Fits, hname, (Entries.lookup_eq_some_iff ha).mpr he] at hfit
      exact hfit

/-- A block accepts the maps in which its fields fit and nothing else stands. -/
theorem AttributeType.accepts_block_iff (hnames : (fields.map (·.name)).Nodup)
    (ha : (a.map (·.1)).Nodup) :
    (AttributeType.block fields).Accepts (.map a) ↔
      (∀ e ∈ a, e.1 ∈ fields.map (·.name)) ∧ ∀ f ∈ fields, f.Fits a := by
  rw [AttributeType.Accepts, AttributeType.check, firstProblem_eq_ok_iff, List.append_eq_nil_iff,
    problems_eq_nil_iff hnames ha]
  simp

end blocks

/-! ### Resource schemas -/

namespace ResourceSchema

theorem insertField_perm {f : AttributeField} {fs : List AttributeField}
    (h : f.name ∉ fs.map (·.name)) : (insertField f fs).Perm (f :: fs) := by
  induction fs with
  | nil => exact .refl _
  | cons g rest ih =>
      rw [List.map_cons, List.mem_cons, not_or] at h
      unfold insertField
      split
      · exact .refl _
      · next hge =>
          split
          · exact ((ih h.2).cons g).trans (.swap f g rest)
          · next hle => exact absurd (String.le_antisymm hle hge) h.1

/-- Fields with distinct names are all kept. -/
theorem fields_ofFields_perm (resourceType : String) {fields : List AttributeField}
    (hnames : (fields.map (·.name)).Nodup) : (ofFields resourceType fields).fields.Perm fields := by
  suffices h : ∀ fs : List AttributeField, ((fs ++ fields).map (·.name)).Nodup →
      (fields.foldl (fun fs f => insertField f fs) fs).Perm (fs ++ fields) from h [] hnames
  clear hnames
  induction fields with
  | nil => simp
  | cons f rest ih =>
      intro fs hfs
      have hmoved : (f :: fs ++ rest).Perm (fs ++ f :: rest) := List.perm_middle.symm
      have hnew : f.name ∉ fs.map (·.name) := by
        have hnodup := (hmoved.map (·.name)).nodup_iff.mpr hfs
        rw [List.cons_append, List.map_cons, List.nodup_cons, List.map_append] at hnodup
        exact fun hmem => hnodup.1 (List.mem_append_left _ hmem)
      have hinsert := insertField_perm hnew
      rw [List.foldl_cons]
      refine (ih _ ?_).trans ((hinsert.append_right rest).trans hmoved)
      exact (((hinsert.append_right rest).trans hmoved).map _).nodup_iff.mpr hfs

theorem check_eq_ok_iff_problems {s : ResourceSchema} : s.check a = .ok () ↔
    missingFields s.requirements a = [] ∧ entryProblems s.requirements false a = [] := by
  have hproblems : s.check a = .ok () ↔ s.problems a = [] := by
    rw [check]
    cases s.problems a <;> simp
  have hsort : (missingFields s.requirements a).mergeSort (fun e f => e.message ≤ f.message) = [] ↔
      missingFields s.requirements a = [] := by
    rw [← List.length_eq_zero_iff, List.length_mergeSort, List.length_eq_zero_iff]
  rw [hproblems, problems, List.append_eq_nil_iff, hsort]

/-- A schema accepts the maps in which its fields fit, whatever else they hold. -/
theorem check_eq_ok_iff {s : ResourceSchema} (hnames : (s.fields.map (·.name)).Nodup)
    (ha : (a.map (·.1)).Nodup) : s.check a = .ok () ↔ ∀ f ∈ s.fields, f.Fits a := by
  rw [check_eq_ok_iff_problems, requirements, problems_eq_nil_iff hnames ha]
  simp

end ResourceSchema

/-! ### Types of single values -/

namespace AttributeType

attribute [local simp] Accepts check

theorem accepts_string_iff : string.Accepts v ↔ ∃ s, v = .string s := by
  cases v <;> simp

theorem accepts_int_iff : int.Accepts v ↔ ∃ n, v = .int n := by
  cases v <;> simp

theorem accepts_bool_iff : bool.Accepts v ↔ ∃ b, v = .bool b := by
  cases v <;> simp

theorem accepts_oneOf_iff {variants : List String} :
    (oneOf variants).Accepts v ↔ ∃ s, v = .string s ∧ namesVariant variants s = true := by
  cases v <;> simp

theorem accepts_custom_iff {name : String} {base : AttributeType}
    {test : Value → Except String Unit} :
    (custom name base test).Accepts v ↔ base.Accepts v ∧ test v = .ok () := by
  rw [Accepts, check, Accepts]
  cases base.check v with
  | ok _ => cases test v <;> simp [Except.mapError]
  | error e => simp

theorem accepts_list_iff {inner : AttributeType} :
    (list inner).Accepts v ↔ ∃ items, v = .list items ∧ ∀ w ∈ items, inner.Accepts w := by
  cases v <;> simp [checkItems_eq_ok_iff]

theorem accepts_map_iff {inner : AttributeType} : (map inner).Accepts v ↔
    ∃ entries, v = .map entries ∧ ∀ e ∈ entries, inner.Accepts e.2 := by
  cases v <;> simp [checkEntries_eq_ok_iff]

theorem accepts_nonNegativeInt_iff :
    nonNegativeInt.Accepts v ↔ ∃ n, v = .int n ∧ 0 ≤ n := by
  cases v with
  | int n => by_cases h : 0 ≤ n <;> simp [nonNegativeInt, h, Except.mapError]
  | _ => simp [nonNegativeInt]

theorem accepts_nonEmptyString_iff :
    nonEmptyString.Accepts v ↔ ∃ s, v = .string s ∧ Text.isBlankText s = false := by
  cases v with
  | string s => cases h : Text.isBlankText s <;> simp [nonEmptyString, h, Except.mapError]
  | _ => simp [nonEmptyString]

end AttributeType

/-! ### Common fields -/

/-- A list with a bounded number of items that have a type. -/
def AttributeType.AcceptsItems (type : AttributeType) (least most : Nat) (v : Value) : Prop :=
  ∃ items, v = .list items ∧ (least ≤ items.length ∧ items.length ≤ most) ∧
    ∀ w ∈ items, type.Accepts w

namespace Field

open AttributeType

variable {key : String} {type : AttributeType} {default : Option Value}
  {description : Option String} {forceNew computed : Bool} {least most : Nat}

theorem fits_required_iff :
    Fits { name := key, type, required := true, description, forceNew, computed } a ↔
      a.Has key type.Accepts := by
  unfold Fits Attributes.Has
  cases hv : a.lookup key with
  | none => simp
  | some v => simp [InBounds]

theorem fits_optional_iff :
    Fits { name := key, type, default, description, forceNew, computed } a ↔
      a.IfGiven key type.Accepts := by
  unfold Fits Attributes.IfGiven
  cases hv : a.lookup key with
  | none => simp
  | some v => simp [InBounds]

theorem fits_list_iff :
    Fits { name := key, type := .list type, default, description, maxItems := some most,
           forceNew, computed } a ↔ a.IfGiven key (type.AcceptsItems 0 most) := by
  unfold Fits Attributes.IfGiven
  cases hv : a.lookup key with
  | none => simp
  | some v => cases v <;> simp [InBounds, accepts_list_iff, AcceptsItems]

theorem fits_nonEmptyList_iff :
    Fits { name := key, type := .list type, required := true, description,
           minItems := some least, maxItems := some most, forceNew, computed } a ↔
      a.Has key (type.AcceptsItems least most) := by
  unfold Fits Attributes.Has
  cases hv : a.lookup key with
  | none => simp
  | some v => cases v <;> simp [InBounds, accepts_list_iff, AcceptsItems]

end Field

end EdgeFirewall
