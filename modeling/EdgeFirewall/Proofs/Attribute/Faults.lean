import EdgeFirewall.Proofs.Attribute.HasType

/-! # Faults of values

A type error is a way into a value, from the outside in, and what is wrong at its end. `HasFault`
says that the way leads somewhere, in the value and in the type alike, and that the value there has
the fault. A value with a fault does not have its type (`HasFault.not_hasType`), whatever reports
it; an error that the check of a type reports is such a fault, and the check of a schema accounts
for all that is wrong with a map, once (`check_error_hasFault`). -/

namespace EdgeFirewall

/-- The kind that the values of a type have. That of a custom type is up to its base. -/
def AttributeType.kind? : AttributeType → Option Kind
  | .string | .oneOf _ => some .string
  | .int => some .int
  | .bool => some .bool
  | .custom _ _ _ => none
  | .list _ => some .list
  | .map _ | .block _ => some .map

mutual

/-- A type error is true of a value. -/
inductive AttributeType.HasFault : AttributeType → Value → TypeError → Prop where
  | mismatch {t : AttributeType} {v : Value} {k : Kind} (expected : t.kind? = some k)
      (other : v.kind ≠ k) : AttributeType.HasFault t v (.mismatch t.name v.kind)
  | notVariant {variants : List String} {s : String}
      (unnamed : ¬ (s ∈ variants ∨ Text.afterLast '.' s ∈ variants)) :
      AttributeType.HasFault (.oneOf variants) (.string s) (.notVariant s variants)
  | inBase {name : String} {base : AttributeType} {test : Value → Except String Unit} {v : Value}
      {e : TypeError} (fault : AttributeType.HasFault base v e) :
      AttributeType.HasFault (.custom name base test) v e
  | refused {name reason : String} {base : AttributeType} {test : Value → Except String Unit}
      {v : Value} (based : base.HasType v) (failed : test v = .error reason) :
      AttributeType.HasFault (.custom name base test) v (.refused reason)
  | inItem {inner : AttributeType} {items : List Value} {i : Nat} {v : Value} {e : TypeError}
      (stands : items[i]? = some v) (earlier : ∀ w ∈ items.take i, inner.HasType w)
      (fault : AttributeType.HasFault inner v e) :
      AttributeType.HasFault (.list inner) (.list items) (.inItem i e)
  | inEntry {inner : AttributeType} {entries : Attributes} {key : String} {v : Value}
      {e : TypeError} (stands : (key, v) ∈ entries) (fault : AttributeType.HasFault inner v e) :
      AttributeType.HasFault (.map inner) (.map entries) (.inEntry key e)
  | inBlock {fields : List AttributeField} {a : Attributes} {e : TypeError}
      (fault : Field.AnyFault true fields a e) :
      AttributeType.HasFault (.block fields) (.map a) e

/-- A type error is true of a map that some fields should fit, `closed` or not. -/
inductive Field.AnyFault :
    (closed : Bool) → List AttributeField → Attributes → TypeError → Prop where
  | missing {closed : Bool} {fields : List AttributeField} {a : Attributes} {f : AttributeField}
      (declared : f ∈ fields) (required : f.required = true) (plain : f.default = none)
      (absent : f.name ∉ a.map (·.1)) : Field.AnyFault closed fields a (.missing f.name)
  | unknown {fields : List AttributeField} {a : Attributes} {key : String} {v : Value}
      (stands : (key, v) ∈ a) (undeclared : key ∉ fields.map (·.name)) :
      Field.AnyFault true fields a (.unknown key)
  | tooFew {closed : Bool} {fields : List AttributeField} {a : Attributes} {key : String}
      {f : AttributeField} {items : List Value} {least : Nat}
      (declared : Field.named? fields key = some f) (stands : (key, .list items) ∈ a)
      (bound : f.minItems = some least) (fewer : items.length < least) :
      Field.AnyFault closed fields a (.tooFew key items.length least)
  | tooMany {closed : Bool} {fields : List AttributeField} {a : Attributes} {key : String}
      {f : AttributeField} {items : List Value} {most : Nat}
      (declared : Field.named? fields key = some f) (stands : (key, .list items) ∈ a)
      (bound : f.maxItems = some most) (more : most < items.length) :
      Field.AnyFault closed fields a (.tooMany key items.length most)
  | inAttribute {closed : Bool} {fields : List AttributeField} {a : Attributes} {key : String}
      {f : AttributeField} {v : Value} {e : TypeError}
      (declared : Field.named? fields key = some f) (stands : (key, v) ∈ a)
      (fault : AttributeType.HasFault f.type v e) :
      Field.AnyFault closed fields a (.inAttribute key e)

end

/-- The attribute of a map that an error is about, if it is about one. -/
def TypeError.attribute? : TypeError → Option String
  | .missing name | .unknown name | .tooFew name _ _ | .tooMany name _ _ | .inAttribute name _ =>
    some name
  | .mismatch _ _ | .notVariant _ _ | .refused _ | .inItem _ _ | .inEntry _ _ => none

/-- Some errors account for what is wrong with a map: each of them is true of it, no two are about
the same attribute, and none is left out. -/
structure ResourceSchema.Accounts (s : ResourceSchema) (a : Attributes) (es : List TypeError) :
    Prop where
  faults : ∀ e ∈ es, Field.AnyFault false s.fields a e
  once : (es.map TypeError.attribute?).Nodup
  missing : ∀ f ∈ s.fields, f.required = true → f.default = none → f.name ∉ a.map (·.1) →
    .missing f.name ∈ es
  illTyped : ∀ f ∈ s.fields, ∀ v, (f.name, v) ∈ a → ¬ (f.InBounds v ∧ f.type.HasType v) →
    some f.name ∈ es.map TypeError.attribute?

/-! ### A value with a fault does not have its type -/

theorem AttributeType.HasType.kind_eq {t : AttributeType} {v : Value} {k : Kind} (h : t.HasType v)
    (hk : t.kind? = some k) : v.kind = k := by
  cases h <;> simp_all [kind?, Value.kind]

theorem AttributeType.HasFault.not_hasType {t : AttributeType} {v : Value} {e : TypeError}
    (hfault : t.HasFault v e) : ¬ t.HasType v := by
  -- Faults of values and faults of maps contain each other: the induction is over both at once.
  refine @AttributeType.HasFault.rec (fun t v _ _ => ¬ t.HasType v)
    (fun closed fields a _ _ => ¬ Field.AllFit closed fields a)
    ?mismatch ?notVariant ?inBase ?refused ?inItem ?inEntry ?inBlock
    ?missing ?unknown ?tooFew ?tooMany ?inAttribute t v e hfault
  case mismatch =>
    intro t v k hkind hother htype
    exact hother (htype.kind_eq hkind)
  case notVariant =>
    rintro variants s hunnamed ⟨⟩
    next hnamed => exact hunnamed hnamed
  case inBase =>
    rintro name base test v e _ hbase ⟨⟩
    next hbased _ => exact hbase hbased
  case refused =>
    rintro name reason base test v _ hfailed ⟨⟩
    next hpassed => simp [hfailed] at hpassed
  case inItem =>
    rintro inner items i v e hv _ _ hitem ⟨⟩
    next heach => exact hitem (heach v (List.mem_of_getElem? hv))
  case inEntry =>
    rintro inner entries key v e hv _ hentry ⟨⟩
    next heach => exact hentry (heach _ hv)
  case inBlock =>
    rintro fields a e _ hblock ⟨⟩
    next hfit => exact hblock hfit
  case missing =>
    rintro closed fields a f hf hrequired hplain habsent ⟨hgiven, _, _, _⟩
    exact habsent (hgiven f hf hrequired hplain)
  case unknown =>
    rintro fields a key v hv hundeclared ⟨_, hknown, _, _⟩
    exact hundeclared (hknown rfl _ hv)
  case tooFew =>
    rintro closed fields a key f items least hf hitems hbound hfewer ⟨_, _, hbounds, _⟩
    have hleast := (hbounds _ hitems f hf items rfl).1 least hbound
    omega
  case tooMany =>
    rintro closed fields a key f items most hf hitems hbound hmore ⟨_, _, hbounds, _⟩
    have hmost := (hbounds _ hitems f hf items rfl).2 most hbound
    omega
  case inAttribute =>
    rintro closed fields a key f v e hf hv _ hvalue ⟨_, _, _, htyped⟩
    exact hvalue (htyped _ hv f hf)

/-! ### What the check of a type reports -/

section checks

variable {check : Value → Except TypeError Unit} {fields : List AttributeField} {a : Attributes}
  {closed : Bool} {v : Value} {e : TypeError}

/-- The check of the items of a list stops at the first that it refuses. -/
theorem checkItems_eq_error {index : Nat} {items : List Value}
    (h : checkItems check index items = .error e) :
    ∃ i v inner, items[i]? = some v ∧ (∀ w ∈ items.take i, check w = .ok ()) ∧
      check v = .error inner ∧ e = .inItem (index + i) inner := by
  induction items generalizing index with
  | nil => cases h
  | cons v rest ih =>
      rw [checkItems] at h
      split at h
      · next hv =>
          obtain ⟨i, w, inner, hw, hearlier, hinner, rfl⟩ := ih h
          refine ⟨i + 1, w, inner, hw, List.forall_mem_cons.mpr ⟨hv, hearlier⟩, hinner, ?_⟩
          rw [Nat.add_right_comm, Nat.add_assoc]
      · next inner hv =>
          cases h
          exact ⟨0, v, inner, rfl, by simp, hv, rfl⟩

theorem checkEntries_eq_error (h : checkEntries check a = .error e) :
    ∃ key v inner, (key, v) ∈ a ∧ check v = .error inner ∧ e = .inEntry key inner := by
  induction a with
  | nil => cases h
  | cons entry rest ih =>
      obtain ⟨key, v⟩ := entry
      rw [checkEntries] at h
      split at h
      · obtain ⟨key', w, inner, hw, hinner, he⟩ := ih h
        exact ⟨key', w, inner, List.mem_cons_of_mem _ hw, hinner, he⟩
      · next inner hv =>
          cases h
          exact ⟨key, v, inner, List.mem_cons_self, hv, rfl⟩

theorem firstProblem_eq_error {es : List TypeError} (h : firstProblem es = .error e) : e ∈ es := by
  cases es with
  | nil => cases h
  | cons first rest =>
      cases h
      exact List.mem_cons_self

theorem Field.boundsError_eq_some {τ : Type} {f : Field τ} (h : f.boundsError v = some e) :
    ∃ items, v = .list items ∧
      ((∃ least, f.minItems = some least ∧ items.length < least ∧
          e = .tooFew f.name items.length least) ∨
        ∃ most, f.maxItems = some most ∧ most < items.length ∧
          e = .tooMany f.name items.length most) := by
  cases v with
  | list items =>
      refine ⟨items, rfl, ?_⟩
      rw [boundsError] at h
      split at h
      · next least hleast =>
          obtain ⟨hbound, hfewer⟩ := Option.filter_eq_some_iff.mp hleast
          exact .inl ⟨least, hbound, by simpa using hfewer, (Option.some.inj h).symm⟩
      · next most _ hmost =>
          obtain ⟨hbound, hmore⟩ := Option.filter_eq_some_iff.mp hmost
          exact .inr ⟨most, hbound, by simpa using hmore, (Option.some.inj h).symm⟩
      · cases h
  | _ => cases h

theorem Field.checkWith_eq_error {τ : Type} {f : Field τ} (h : f.checkWith check v = .error e) :
    f.boundsError v = some e ∨ ∃ inner, check v = .error inner ∧ e = .inAttribute f.name inner := by
  rw [checkWith] at h
  split at h
  · next problem hproblem =>
      cases h
      exact .inl hproblem
  · cases hv : check v with
    | ok _ =>
        rw [hv] at h
        cases h
    | error inner =>
        rw [hv] at h
        cases h
        exact .inr ⟨inner, rfl, rfl⟩

theorem mem_missingFields_iff : e ∈ missingFields (AttributeType.requirements fields) a ↔
    ∃ f ∈ fields, (f.required = true ∧ f.default = none ∧ f.name ∉ a.map (·.1)) ∧
      e = .missing f.name := by
  rw [missingFields, AttributeType.requirements_eq_map, List.filter_map, List.map_map, List.mem_map]
  refine exists_congr fun f => ?_
  have hmandatory : ((f.required && f.default.isNone) && (a.lookup f.name).isNone) = true ↔
      f.required = true ∧ f.default = none ∧ f.name ∉ a.map (·.1) := by
    rw [Bool.and_eq_true, Bool.and_eq_true, Option.isNone_iff_eq_none, Option.isNone_iff_eq_none,
      Entries.lookup_eq_none_iff, and_assoc]
  rw [List.mem_filter, and_assoc, ← hmandatory]
  exact and_congr_right fun _ => and_congr_right fun _ => eq_comm

/-- A problem with an entry is about its key: the key is not declared, or its field refuses what
stands there. -/
theorem entryProblem_eq_some {entry : String × Value}
    (h : entryProblem (AttributeType.requirements fields) closed entry = some e) :
    (closed = true ∧ entry.1 ∉ fields.map (·.name) ∧ e = .unknown entry.1) ∨
      ∃ f, Field.named? fields entry.1 = some f ∧ f.checkWith f.type.check entry.2 = .error e := by
  rw [entryProblem_requirements] at h
  split at h
  · next f hf =>
      split at h
      · cases h
      · next problem hproblem =>
          cases h
          exact .inr ⟨f, hf, hproblem⟩
  · next hnone =>
      cases closed with
      | false => cases h
      | true => exact .inl ⟨rfl, Field.named?_eq_none_iff.mp hnone, (Option.some.inj h).symm⟩

/-- What is reported of a map is a fault of it, given that this holds of what is reported of the
values of its fields. -/
theorem anyFault_of_mem_problems
    (htypes : ∀ f ∈ fields, ∀ v e, f.type.check v = .error e → f.type.HasFault v e)
    (h : e ∈ missingFields (AttributeType.requirements fields) a ++
      entryProblems (AttributeType.requirements fields) closed a) :
    Field.AnyFault closed fields a e := by
  rcases List.mem_append.mp h with hmissing | hentry
  · obtain ⟨f, hf, ⟨hrequired, hplain, habsent⟩, rfl⟩ := mem_missingFields_iff.mp hmissing
    exact .missing hf hrequired hplain habsent
  · obtain ⟨⟨key, v⟩, hv, hproblem⟩ := List.mem_filterMap.mp hentry
    rcases entryProblem_eq_some hproblem with ⟨rfl, hundeclared, rfl⟩ | ⟨f, hf, hcheck⟩
    · exact .unknown hv hundeclared
    · obtain ⟨hmem, rfl⟩ := Field.mem_of_named? hf
      rcases Field.checkWith_eq_error hcheck with hbounds | ⟨inner, hinner, rfl⟩
      · obtain ⟨items, rfl, ⟨least, hbound, hfewer, rfl⟩ | ⟨most, hbound, hmore, rfl⟩⟩ :=
          Field.boundsError_eq_some hbounds
        · exact .tooFew hf hv hbound hfewer
        · exact .tooMany hf hv hbound hmore
      · exact .inAttribute hf hv (htypes f hmem _ _ hinner)

end checks

/-- A value of another kind is refused for its kind. -/
theorem AttributeType.HasFault.of_kind_ne {t : AttributeType} {v : Value} {k : Kind}
    {e : TypeError} (hkind : t.kind? = some k) (hother : v.kind ≠ k) (h : t.check v = .error e) :
    t.HasFault v e := by
  have hrefused : t.check v = .error (.mismatch t.name v.kind) := by
    cases t <;> cases v <;> simp_all [kind?, Value.kind, check]
  rw [hrefused] at h
  cases h
  exact .mismatch hkind hother

/-- What the check of a type reports of a value is a fault of it. -/
theorem AttributeType.hasFault_of_check {t : AttributeType} {v : Value} {e : TypeError}
    (h : t.check v = .error e) : t.HasFault v e := by
  -- In each case the value has the kind of the type, and the error is about what it holds, or it
  -- has another kind.
  induction t using AttributeType.induction generalizing v e with
  | string => cases v with
    | string s => cases h
    | _ => exact .of_kind_ne rfl (by simp [Value.kind]) h
  | int => cases v with
    | int n => cases h
    | _ => exact .of_kind_ne rfl (by simp [Value.kind]) h
  | bool => cases v with
    | bool b => cases h
    | _ => exact .of_kind_ne rfl (by simp [Value.kind]) h
  | oneOf variants => cases v with
    | string s =>
        rw [check] at h
        split at h
        · cases h
        · next hunnamed =>
            cases h
            exact .notVariant (mt namesVariant_eq_true_iff.mpr hunnamed)
    | _ => exact .of_kind_ne rfl (by simp [Value.kind]) h
  | custom name base test ih =>
      rw [check] at h
      split at h
      · next hbase =>
          cases htest : test v with
          | ok _ =>
              rw [htest] at h
              cases h
          | error reason =>
              rw [htest] at h
              cases h
              exact .refused ((accepts_iff_hasType base v).mp hbase) htest
      · next problem hbase =>
          cases h
          exact .inBase (ih hbase)
  | list inner ih => cases v with
    | list items =>
        obtain ⟨i, v, problem, hv, hearlier, hproblem, rfl⟩ := checkItems_eq_error h
        rw [Nat.zero_add]
        exact .inItem hv (fun w hw => (accepts_iff_hasType inner w).mp (hearlier w hw))
          (ih hproblem)
    | _ => exact .of_kind_ne rfl (by simp [Value.kind]) h
  | map inner ih => cases v with
    | map entries =>
        obtain ⟨key, v, problem, hv, hproblem, rfl⟩ := checkEntries_eq_error h
        exact .inEntry hv (ih hproblem)
    | _ => exact .of_kind_ne rfl (by simp [Value.kind]) h
  | block fields ih => cases v with
    | map entries =>
        rw [check] at h
        have hmem := firstProblem_eq_error h
        exact .inBlock (anyFault_of_mem_problems (fun f hf v e => ih f hf) hmem)
    | _ => exact .of_kind_ne rfl (by simp [Value.kind]) h

/-! ### What the check of a schema reports -/

namespace ResourceSchema

variable {s : ResourceSchema} {a : Attributes} {e : TypeError}

theorem problems_perm : (s.problems a).Perm
    (missingFields s.requirements a ++ entryProblems s.requirements false a) :=
  (List.mergeSort_perm _ _).append_right _

theorem check_eq_error_problems (h : s.problems a ≠ []) : s.check a = .error (s.problems a) := by
  rw [check]
  cases hes : s.problems a with
  | nil => exact absurd hes h
  | cons => rfl

theorem anyFault_of_mem (h : e ∈ s.problems a) : Field.AnyFault false s.fields a e :=
  anyFault_of_mem_problems (fun _ _ _ _ => AttributeType.hasFault_of_check)
    (problems_perm.mem_iff.mp h)

theorem missing_mem_problems {f : AttributeField} (hf : f ∈ s.fields)
    (hrequired : f.required = true) (hplain : f.default = none) (habsent : f.name ∉ a.map (·.1)) :
    .missing f.name ∈ s.problems a :=
  problems_perm.mem_iff.mpr (List.mem_append_left _
    (mem_missingFields_iff.mpr ⟨f, hf, ⟨hrequired, hplain, habsent⟩, rfl⟩))

/-- The error about an entry is about its key. -/
theorem attribute?_entryProblem {fields : List AttributeField} {closed : Bool}
    {entry : String × Value}
    (h : entryProblem (AttributeType.requirements fields) closed entry = some e) :
    e.attribute? = some entry.1 := by
  rcases entryProblem_eq_some h with ⟨_, _, rfl⟩ | ⟨f, hf, hcheck⟩
  · rfl
  · rw [← (Field.mem_of_named? hf).2]
    rcases Field.checkWith_eq_error hcheck with hbounds | ⟨inner, _, rfl⟩
    · obtain ⟨_, _, ⟨_, _, _, rfl⟩ | ⟨_, _, _, rfl⟩⟩ := Field.boundsError_eq_some hbounds
      · rfl
      · rfl
    · rfl

theorem illTyped_mem_problems (hnames : (s.fields.map (·.name)).Nodup) {f : AttributeField}
    {v : Value} (hf : f ∈ s.fields) (hv : (f.name, v) ∈ a)
    (hwrong : ¬ (f.InBounds v ∧ f.type.HasType v)) :
    some f.name ∈ (s.problems a).map TypeError.attribute? := by
  have hproblem : entryProblem s.requirements false (f.name, v) ≠ none := by
    intro hnone
    have hfits := ((entryProblem_eq_none_iff hnames).mp hnone).2 f hf rfl
    exact hwrong ⟨hfits.1, (f.type.accepts_iff_hasType v).mp hfits.2⟩
  obtain ⟨e, he⟩ := Option.ne_none_iff_exists'.mp hproblem
  have hmem : e ∈ s.problems a :=
    problems_perm.mem_iff.mpr (List.mem_append_right _ (List.mem_filterMap.mpr ⟨_, hv, he⟩))
  exact List.mem_map.mpr ⟨e, hmem, attribute?_entryProblem he⟩

theorem attributes_missingFields_nodup (hnames : (s.fields.map (·.name)).Nodup) :
    ((missingFields s.requirements a).map TypeError.attribute?).Nodup := by
  rw [missingFields, requirements, AttributeType.requirements_eq_map, List.filter_map, List.map_map,
    List.map_map]
  have hall : (s.fields.map fun f => some f.name).Nodup := by
    have hsome := hnames.map fun _ _ => Option.some.inj
    rwa [List.map_map] at hsome
  exact hall.sublist (List.filter_sublist.map _)

theorem attributes_entryProblems_sublist {closed : Bool} :
    ((entryProblems s.requirements closed a).map TypeError.attribute?).Sublist
      (a.map fun entry => some entry.1) := by
  induction a with
  | nil => exact .slnil
  | cons entry rest ih =>
      rw [entryProblems, List.filterMap_cons, List.map_cons]
      split
      · exact ih.cons _
      · next e he =>
          rw [List.map_cons, attribute?_entryProblem he]
          exact ih.cons_cons _

/-- No attribute is reported twice: an attribute that is missing has no entry. -/
theorem attributes_problems_nodup (hnames : (s.fields.map (·.name)).Nodup)
    (hkeys : (a.map (·.1)).Nodup) : ((s.problems a).map TypeError.attribute?).Nodup := by
  have hperm := (problems_perm (s := s) (a := a)).map TypeError.attribute?
  rw [hperm.nodup_iff, List.map_append, List.nodup_append]
  have hentries : (a.map fun entry => some entry.1).Nodup := by
    have hsome := hkeys.map fun _ _ => Option.some.inj
    rwa [List.map_map] at hsome
  refine ⟨attributes_missingFields_nodup hnames,
    hentries.sublist attributes_entryProblems_sublist, ?_⟩
  intro missed hmissed reported hreported
  obtain ⟨_, he, rfl⟩ := List.mem_map.mp hmissed
  obtain ⟨f, _, ⟨_, _, habsent⟩, rfl⟩ := mem_missingFields_iff.mp he
  obtain ⟨entry, hentry, rfl⟩ := List.mem_map.mp (attributes_entryProblems_sublist.mem hreported)
  intro hsame
  exact habsent (List.mem_map.mpr ⟨entry, hentry, (Option.some.inj hsame).symm⟩)

theorem accounts_problems (hnames : (s.fields.map (·.name)).Nodup)
    (hkeys : (a.map (·.1)).Nodup) : s.Accounts a (s.problems a) where
  faults _ he := anyFault_of_mem he
  once := attributes_problems_nodup hnames hkeys
  missing _ hf hrequired hplain habsent := missing_mem_problems hf hrequired hplain habsent
  illTyped _ hf _ hv hwrong := illTyped_mem_problems hnames hf hv hwrong

end ResourceSchema

/-- An error that the check of a type reports of a value leads to a fault of it, and a value with a
fault does not have the type. If the fields of a schema and the keys of a map are distinct, the
check of the schema accounts for what is wrong with the map. -/
theorem check_error_hasFault :
    (∀ (t : AttributeType) (v : Value) (e : TypeError), t.check v = .error e → t.HasFault v e) ∧
    (∀ (t : AttributeType) (v : Value) (e : TypeError), t.HasFault v e → ¬ t.HasType v) ∧
    ∀ (s : ResourceSchema) (a : Attributes), (s.fields.map (·.name)).Nodup →
      (a.map (·.1)).Nodup →
      (s.check a = .ok () ∧ s.Accounts a []) ∨
        ∃ es, es ≠ [] ∧ s.check a = .error es ∧ s.Accounts a es := by
  refine ⟨fun _ _ _ => AttributeType.hasFault_of_check,
    fun _ _ _ => AttributeType.HasFault.not_hasType, ?_⟩
  intro s a hnames hkeys
  have haccounts := ResourceSchema.accounts_problems hnames hkeys
  by_cases hes : s.problems a = []
  · have hok : s.check a = .ok () := by rw [ResourceSchema.check, hes]
    rw [hes] at haccounts
    exact .inl ⟨hok, haccounts⟩
  · exact .inr ⟨_, hes, ResourceSchema.check_eq_error_problems hes, haccounts⟩

/-- A list without a name, the second rule of which has no identifier. -/
def nameless : Attributes :=
  [("rules", .list [.map [("rule_id", .string "300")], .map [("action", .string "Allow")]])]

/-- Both problems of a list without a name are reported, the one inside a rule with the way to it,
which the check of the type of the attribute leads to as well. -/
theorem check_error_hasFault_nameless :
    ∃ es, ruleListSchema.check nameless = .error es ∧ ruleListSchema.Accounts nameless es ∧
      es = [.missing "name", .inAttribute "rules" (.inItem 1 (.missing "rule_id"))] ∧
      AttributeType.HasFault (.block ruleListSchema.fields) (.map (nameless.drop 1))
        (.missing "name") ∧
      ¬ AttributeType.HasType (.block ruleListSchema.fields) (.map (nameless.drop 1)) := by
  obtain ⟨hfaults, hwrong, hmaps⟩ := check_error_hasFault
  have hnames : (ruleListSchema.fields.map (·.name)).Nodup := by decide +kernel
  have hkeys : (nameless.map (·.1)).Nodup := by decide +kernel
  have hproblems : ruleListSchema.check nameless =
      .error [.missing "name", .inAttribute "rules" (.inItem 1 (.missing "rule_id"))] := by
    decide +kernel
  have hfault : AttributeType.HasFault (.block ruleListSchema.fields) (.map (nameless.drop 1))
      (.missing "name") := hfaults _ _ _ (by decide +kernel)
  rcases hmaps ruleListSchema nameless hnames hkeys with ⟨hok, _⟩ | ⟨es, _, hes, haccounts⟩
  · rw [hproblems] at hok
    cases hok
  · rw [hproblems] at hes
    cases hes
    exact ⟨_, hproblems, haccounts, rfl, hfault, hwrong _ _ _ hfault⟩

end EdgeFirewall
