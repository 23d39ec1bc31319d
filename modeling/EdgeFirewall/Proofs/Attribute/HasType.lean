import EdgeFirewall.Proofs.Attribute.Typing

/-! # Values of a type

What it means that a value has an attribute type, said without the check: values of each kind,
words, values that a test takes, lists and maps item by item, and blocks field by field (`HasType`).
The fields of a block and those of a resource schema ask for the same (`Field.AllFit`), only that a
block has no other keys. The check of a type accepts the values that have it, and the check of a
schema the maps that its fields fit, whatever else is in them (`check_iff_hasType`). -/

namespace EdgeFirewall

mutual

/-- A value has a type. -/
inductive AttributeType.HasType : AttributeType → Value → Prop where
  | string (s : String) : AttributeType.HasType .string (.string s)
  | int (n : Int) : AttributeType.HasType .int (.int n)
  | bool (b : Bool) : AttributeType.HasType .bool (.bool b)
  | oneOf {variants : List String} {s : String}
      (named : s ∈ variants ∨ Text.afterLast '.' s ∈ variants) :
      AttributeType.HasType (.oneOf variants) (.string s)
  | custom {name : String} {base : AttributeType} {test : Value → Except String Unit} {v : Value}
      (based : AttributeType.HasType base v) (passed : test v = .ok ()) :
      AttributeType.HasType (.custom name base test) v
  | list {inner : AttributeType} {items : List Value}
      (each : ∀ v ∈ items, AttributeType.HasType inner v) :
      AttributeType.HasType (.list inner) (.list items)
  | map {inner : AttributeType} {entries : Attributes}
      (each : ∀ e ∈ entries, AttributeType.HasType inner e.2) :
      AttributeType.HasType (.map inner) (.map entries)
  | block {fields : List AttributeField} {a : Attributes} (fit : Field.AllFit true fields a) :
      AttributeType.HasType (.block fields) (.map a)

/-- A map has what some fields ask for and, if they are `closed`, nothing else. Of two fields with
one name the first says what may stand there. -/
inductive Field.AllFit : (closed : Bool) → List AttributeField → Attributes → Prop where
  | intro {closed : Bool} {fields : List AttributeField} {a : Attributes}
      (given : ∀ f ∈ fields, f.required = true → f.default = none → f.name ∈ a.map (·.1))
      (known : closed = true → ∀ e ∈ a, e.1 ∈ fields.map (·.name))
      (inBounds : ∀ e ∈ a, ∀ f, Field.named? fields e.1 = some f → f.InBounds e.2)
      (typed : ∀ e ∈ a, ∀ f, Field.named? fields e.1 = some f → f.type.HasType e.2) :
      Field.AllFit closed fields a

end

/-- The entries of a map that a schema declares. -/
def ResourceSchema.declared (s : ResourceSchema) (a : Attributes) : Attributes :=
  a.filter fun e => s.fields.any (·.name == e.1)

/-! ### Checking a type -/

variable {fields : List AttributeField} {a : Attributes} {closed : Bool}

/-- Induction over types: of a block, there is the hypothesis for the type of each field. -/
@[elab_as_elim]
theorem AttributeType.induction {P : AttributeType → Prop} (string : P .string) (int : P .int)
    (bool : P .bool) (oneOf : ∀ variants, P (.oneOf variants))
    (custom : ∀ name base test, P base → P (.custom name base test))
    (list : ∀ inner, P inner → P (.list inner)) (map : ∀ inner, P inner → P (.map inner))
    (block : ∀ fields : List AttributeField, (∀ f ∈ fields, P f.type) → P (.block fields))
    (t : AttributeType) : P t :=
  @AttributeType.rec P (fun fields => ∀ f ∈ fields, P f.type) (fun f => P f.type)
    string int bool oneOf custom list map block (by simp)
    (fun _ _ hf hfields => List.forall_mem_cons.mpr ⟨hf, hfields⟩)
    (fun _ _ _ _ _ _ _ _ _ htype => htype) t

theorem Field.required_given_iff {f : AttributeField} :
    (a.lookup f.name = none → f.required = true → f.default.isSome = true) ↔
      (f.required = true → f.default = none → f.name ∈ a.map (·.1)) := by
  constructor
  · intro h hrequired hdefault
    by_contra habsent
    have hsome := h (Entries.lookup_eq_none_iff.mpr habsent) hrequired
    simp [hdefault] at hsome
  · intro h habsent hrequired
    rw [Option.isSome_iff_ne_none]
    exact fun hdefault => Entries.lookup_eq_none_iff.mp habsent (h hrequired hdefault)

/-- There is no problem with a map exactly if the fields fit, given that their types are checked
rightly. -/
theorem problems_eq_nil_iff_allFit
    (htypes : ∀ f ∈ fields, ∀ v, f.type.Accepts v ↔ f.type.HasType v) :
    missingFields (AttributeType.requirements fields) a = [] ∧
        entryProblems (AttributeType.requirements fields) closed a = [] ↔
      Field.AllFit closed fields a := by
  simp only [missingFields_eq_nil_iff, Field.required_given_iff, entryProblems,
    List.filterMap_eq_nil_iff, entryProblem_eq_none_iff_named]
  constructor
  · rintro ⟨hgiven, hentries⟩
    refine .intro hgiven (fun hclosed e he => (hentries e he).1 hclosed)
      (fun e he f hf => ((hentries e he).2 f hf).1) ?_
    intro e he f hf
    have haccepts := ((hentries e he).2 f hf).2
    exact (htypes f (Field.mem_of_named? hf).1 e.2).mp haccepts
  · rintro ⟨hgiven, hknown, hbounds, htyped⟩
    refine ⟨hgiven, fun e he => ⟨fun hclosed => hknown hclosed e he, ?_⟩⟩
    intro f hf
    have haccepts := (htypes f (Field.mem_of_named? hf).1 e.2).mpr (htyped e he f hf)
    exact ⟨hbounds e he f hf, haccepts⟩

theorem namesVariant_eq_true_iff {variants : List String} {s : String} :
    namesVariant variants s = true ↔ s ∈ variants ∨ Text.afterLast '.' s ∈ variants := by
  rw [namesVariant, List.any_eq_true]
  constructor
  · rintro ⟨variant, hmem, hnamed⟩
    rw [Bool.or_eq_true, beq_iff_eq, beq_iff_eq] at hnamed
    rcases hnamed with rfl | rfl
    · exact .inr hmem
    · exact .inl hmem
  · rintro (hmem | hmem)
    · exact ⟨s, hmem, by simp⟩
    · exact ⟨_, hmem, by simp⟩

namespace AttributeType

/-- The check of a type accepts the values that have the type. -/
theorem accepts_iff_hasType (t : AttributeType) (v : Value) : t.Accepts v ↔ t.HasType v := by
  induction t using AttributeType.induction generalizing v with
  | string =>
      rw [accepts_string_iff]
      constructor
      · rintro ⟨s, rfl⟩
        exact .string s
      · rintro ⟨⟩
        exact ⟨_, rfl⟩
  | int =>
      rw [accepts_int_iff]
      constructor
      · rintro ⟨n, rfl⟩
        exact .int n
      · rintro ⟨⟩
        exact ⟨_, rfl⟩
  | bool =>
      rw [accepts_bool_iff]
      constructor
      · rintro ⟨b, rfl⟩
        exact .bool b
      · rintro ⟨⟩
        exact ⟨_, rfl⟩
  | oneOf variants =>
      rw [accepts_oneOf_iff]
      constructor
      · rintro ⟨s, rfl, hnamed⟩
        exact .oneOf (namesVariant_eq_true_iff.mp hnamed)
      · rintro ⟨⟩
        next s hnamed => exact ⟨s, rfl, namesVariant_eq_true_iff.mpr hnamed⟩
  | custom name base test ih =>
      rw [accepts_custom_iff, ih]
      constructor
      · rintro ⟨hbased, hpassed⟩
        exact .custom hbased hpassed
      · rintro ⟨⟩
        next hbased hpassed => exact ⟨hbased, hpassed⟩
  | list inner ih =>
      rw [accepts_list_iff]
      constructor
      · rintro ⟨items, rfl, heach⟩
        exact .list fun w hw => (ih w).mp (heach w hw)
      · rintro ⟨⟩
        next items heach => exact ⟨items, rfl, fun w hw => (ih w).mpr (heach w hw)⟩
  | map inner ih =>
      rw [accepts_map_iff]
      constructor
      · rintro ⟨entries, rfl, heach⟩
        exact .map fun e he => (ih e.2).mp (heach e he)
      · rintro ⟨⟩
        next entries heach => exact ⟨entries, rfl, fun e he => (ih e.2).mpr (heach e he)⟩
  | block fields ih =>
      cases v with
      | map a =>
          rw [Accepts, check, firstProblem_eq_ok_iff, List.append_eq_nil_iff,
            problems_eq_nil_iff_allFit ih]
          constructor
          · exact .block
          · rintro ⟨⟩
            assumption
      | _ => exact ⟨fun h => by simp [Accepts, check] at h, nofun⟩

end AttributeType

/-! ### Checking a schema -/

namespace ResourceSchema

variable {s : ResourceSchema}

theorem check_eq_ok_iff_allFit : s.check a = .ok () ↔ Field.AllFit false s.fields a := by
  rw [check_eq_ok_iff_problems, requirements]
  exact problems_eq_nil_iff_allFit fun f _ => f.type.accepts_iff_hasType

theorem any_named_iff {name : String} :
    s.fields.any (·.name == name) = true ↔ name ∈ s.fields.map (·.name) := by
  simp

theorem missingFields_declared :
    missingFields s.requirements (s.declared a) = missingFields s.requirements a := by
  unfold missingFields
  congr 1
  refine List.filter_congr fun r hr => ?_
  rw [requirements, AttributeType.requirements_eq_map, List.mem_map] at hr
  obtain ⟨f, hf, rfl⟩ := hr
  have hdeclared : ∀ v : Value, s.fields.any (·.name == (f.name, v).1) = true :=
    fun v => any_named_iff.mpr (List.mem_map_of_mem hf)
  change (f.required && f.default.isNone && ((s.declared a).lookup f.name).isNone) = _
  rw [declared, Entries.lookup_filter hdeclared]
  rfl

theorem entryProblems_declared :
    entryProblems s.requirements false (s.declared a) = entryProblems s.requirements false a := by
  unfold entryProblems declared
  rw [List.filterMap_filter]
  refine List.filterMap_congr fun e _ => ?_
  split
  · rfl
  · next hnew =>
      have hnamed := Field.named?_eq_none_iff.mpr (mt any_named_iff.mpr hnew)
      rw [requirements, entryProblem_requirements, hnamed]
      rfl

/-- What a schema does not declare does not count. -/
theorem check_declared : s.check (s.declared a) = s.check a := by
  unfold check problems
  rw [missingFields_declared, entryProblems_declared]

end ResourceSchema

/-- The check of a type decides whether a value has the type. The check of a schema decides whether
its fields fit a map, and finds the same in all maps with the same declared entries. -/
theorem check_iff_hasType :
    (∀ (t : AttributeType) (v : Value), t.check v = .ok () ↔ t.HasType v) ∧
    (∀ (s : ResourceSchema) (a : Attributes),
      s.check a = .ok () ↔ Field.AllFit false s.fields a) ∧
    ∀ (s : ResourceSchema) (a b : Attributes), s.declared a = s.declared b →
      s.check a = s.check b := by
  refine ⟨AttributeType.accepts_iff_hasType, fun _ _ => ResourceSchema.check_eq_ok_iff_allFit, ?_⟩
  intro s a b h
  calc s.check a
      = s.check (s.declared a) := ResourceSchema.check_declared.symm
    _ = s.check (s.declared b) := by rw [h]
    _ = s.check b := ResourceSchema.check_declared

/-- A schema of named lists of rules, at most two each. -/
def ruleListSchema : ResourceSchema :=
  .ofFields "rule_list" [
    { name := "rules", maxItems := some 2,
      type := .list (.block [
        { name := "rule_id", type := .nonEmptyString, required := true },
        { name := "action", type := .oneOf ["Allow", "Block"] }]) },
    { name := "name", type := .nonEmptyString, required := true }]

/-- A list of one rule. -/
def blockingRules : Attributes :=
  [("name", .string "bots"),
   ("rules", .list [.map [("action", .string "Action.Block"), ("rule_id", .string "300")]])]

/-- A note on a list of rules, which its schema does not declare, makes no difference. -/
theorem check_iff_hasType_blockingRules :
    ruleListSchema.declared (("note", .int 1) :: blockingRules) =
        ruleListSchema.declared blockingRules ∧
      ruleListSchema.check (("note", .int 1) :: blockingRules) =
        ruleListSchema.check blockingRules ∧
      Field.AllFit false ruleListSchema.fields blockingRules ∧
      AttributeType.HasType (.block ruleListSchema.fields) (.map blockingRules) ∧
      ¬ AttributeType.HasType (.block ruleListSchema.fields)
        (.map (("note", .int 1) :: blockingRules)) := by
  obtain ⟨htypes, hmaps, hsame⟩ := check_iff_hasType
  have hdeclared : ruleListSchema.declared (("note", .int 1) :: blockingRules) =
      ruleListSchema.declared blockingRules := by decide +kernel
  refine ⟨hdeclared, hsame _ _ _ hdeclared, (hmaps _ _).mp (by decide +kernel),
    (htypes _ _).mp (by decide +kernel), ?_⟩
  intro htype
  have hrefused := (htypes _ _).mpr htype
  revert hrefused
  decide +kernel

end EdgeFirewall
