import EdgeFirewall.Proofs.Policy.Reports

/-! # Every violated constraint is reported

The reading of each block of a policy reports the violations of its shape, and the reading of the
policy those of its entries. What is left are the names of rules: as they are gone through, the names
seen are those of earlier rules whose heads can be read (`Rule.repeatedNames_reports`). A reading
that gives no policy has a violation to tell why (`Checked.IsExplained`), so the violations in the
end are exactly those of the constraints, one at each path (`violations_ofAttributes`). -/

namespace EdgeFirewall

/-! ### The blocks of a policy -/

namespace Policy

open Block Reading

theorem Target.countViolations_reports (p : Path) (a : Attributes) :
    Reports (countViolations ⟨p, a⟩)
      (ChoiceViolated (some ("match_variable", "selector")) p a) := by
  refine Reports.congr ?_ fun x => choiceViolated_some_iff.symm
  unfold countViolations
  cases a.lookup "match_variable" <;> cases a.lookup "selector"
  · exact .singleton fun x => by simp
  · exact .nil fun x => by simp
  · exact .nil fun x => by simp
  · exact .singleton fun x => by simp

theorem Condition.ofBlock_reports : (Block.reading ofBlock).Reports shape := by
  refine reading_reports fun p a ha => ?_
  refine (Reports.block (by decide) ha
    (.cons (optional_reports word_reports ha) <| .cons (optional_reports word_reports ha) <|
      .cons (required_reports word_reports ha) <| .cons (withDefault_reports .is word_reports ha) <|
      .cons (nonEmptyList_reports text_reports (by decide) (by decide) ha) <|
      .cons (list_reports word_reports ha) .nil) (Target.countViolations_reports p a)).perm ?_
  rw [violations_ofBlock, Target.violations_ofBlock, List.perm_iff_count]
  intro x
  simp only [List.count_append, List.flatten_cons, List.flatten_nil, List.count_nil, List.map_cons,
    List.map_nil, keys, maxValues, maxTransforms]
  omega

theorem Rule.ofBlock_reports : (Block.reading ofBlock).Reports shape := by
  refine reading_reports fun p a ha => ?_
  refine (Reports.plainBlock (by decide) ha
    (.cons (required_reports text_reports ha) <|
      .cons (withDefault_reports (.ofInt defaultPriority) (number_reports _ _) ha) <|
      .cons (withDefault_reports true truth_reports ha) <|
      .cons (required_reports (word_reports (α := RuleType)) ha) <|
      .cons (withDefault_reports (.ofInt defaultRateLimitMinutes) (number_reports _ _) ha) <|
      .cons (withDefault_reports (.ofInt defaultRateLimitThreshold) (number_reports _ _) ha) <|
      .cons (required_reports (word_reports (α := ActionType)) ha) <|
      .cons (optional_reports base64_reports ha) <|
      .cons (blocks_reports Condition.ofBlock_reports ha) .nil)).perm (.of_eq ?_)
  simp [violations_ofBlock, keys, nameOf, priorityOf, ruleTypeOf, rateLimitMinutesOf,
    rateLimitThresholdOf, actionOf, maxNumber, maxRateLimitMinutes, maxConditions]

theorem RuleOverride.ofBlock_reports : (Block.reading ofBlock).Reports shape := by
  refine reading_reports fun p a ha => ?_
  refine (Reports.plainBlock (by decide) ha
    (.cons (required_reports text_reports ha) <|
      .cons (withDefault_reports false truth_reports ha) <|
      .cons (required_reports word_reports ha) .nil)).perm (.of_eq ?_)
  simp [violations_ofBlock]

theorem GroupOverride.ofBlock_reports : (Block.reading ofBlock).Reports shape := by
  refine reading_reports fun p a ha => ?_
  refine (Reports.plainBlock (by decide) ha
    (.cons (required_reports text_reports ha) <|
      .cons (blocks_reports RuleOverride.ofBlock_reports ha) .nil)).perm (.of_eq ?_)
  simp [violations_ofBlock, maxRuleOverrides]

theorem RuleSet.ofBlock_reports : (Block.reading ofBlock).Reports shape := by
  refine reading_reports fun p a ha => ?_
  refine (Reports.plainBlock (by decide) ha
    (.cons (required_reports text_reports ha) <| .cons (required_reports text_reports ha) <|
      .cons (blocks_reports GroupOverride.ofBlock_reports ha) .nil)).perm (.of_eq ?_)
  simp [violations_ofBlock, maxGroupOverrides]

/-! ### Names of rules -/

namespace Rule

/-- The heads that are read are those in which nothing is violated. -/
theorem headName?_eq_some_iff_hasHead {p : Path} {a : Attributes} {name : String}
    (ha : (Value.map a).Distinct) : headName? ⟨p, a⟩ = some name ↔ HasHead p a name := by
  have hname : (nameOf ⟨p, a⟩).violations = [] ↔ _ :=
    (required_reports text_reports ha).eq_nil_iff
  have hpriority : (priorityOf ⟨p, a⟩).violations = [] ↔ _ :=
    (withDefault_reports _ (number_reports _ _) ha).eq_nil_iff
  have htype : (ruleTypeOf ⟨p, a⟩).violations = [] ↔ _ :=
    (required_reports word_reports ha).eq_nil_iff
  have hminutes : (rateLimitMinutesOf ⟨p, a⟩).violations = [] ↔ _ :=
    (withDefault_reports _ (number_reports _ _) ha).eq_nil_iff
  have hthreshold : (rateLimitThresholdOf ⟨p, a⟩).violations = [] ↔ _ :=
    (withDefault_reports _ (number_reports _ _) ha).eq_nil_iff
  have haction : (actionOf ⟨p, a⟩).violations = [] ↔ _ :=
    (required_reports word_reports ha).eq_nil_iff
  rw [headName?_eq_some_iff, hname, hpriority, htype, hminutes, hthreshold, haction]
  simp [HasHead, entries, headKeys, maxNumber, maxRateLimitMinutes]

/-- Nothing is violated at the name of a rule that has a head. -/
theorem path_ne_of_hasHead {p : Path} {r : Attributes} {name : String} (h : HasHead p r name)
    {x : Violation} (hx : shape.Violated p (.map r) x) : x.path ≠ p ++ [.key "name"] := by
  intro hpath
  rcases Shape.violated_block_iff.mp hx with (⟨d, -, hnew, rfl⟩ | ⟨e, he, hx⟩) | ⟨_, _, hnone, -⟩
  · have hkey : d.1 = "name" := by simpa using hpath
    rw [hkey] at hnew
    exact hnew (by decide)
  · have hkey : e.key = "name" := by
      by_contra hne
      exact ne_of_under hx.under (List.prefix_refl _) (mt Step.key.inj hne) hpath
    exact h.2 e he (by rw [hkey]; decide) x hx
  · cases hnone

/-- The block that an item of a list is, if it is one. -/
def blockAt? (p : Path) : Value × Nat → Option Block
  | (.map a, i) => some ⟨p ++ [.index i], a⟩
  | _ => none

/-- The name of an item of a list of rules, if it is a block that has one. -/
def nameAt? (p : Path) : Value × Nat → Option String
  | (.map a, i) => headName? ⟨p ++ [.index i], a⟩
  | _ => none

/-- What is reported of an item with a name that is not the first. -/
def repeatedAt (p : Path) (i : Nat) (name : String) : Violation :=
  ⟨p ++ [.index i] ++ [.key "name"], .duplicateRule name⟩

/-- The violations of items that have a seen name, or the name of an earlier item. -/
def RepeatsIn (p : Path) (seen : List String) (es : List (Value × Nat)) (x : Violation) : Prop :=
  ∃ e ∈ es, ∃ name, nameAt? p e = some name ∧
    (name ∈ seen ∨ ∃ d ∈ es, d.2 < e.2 ∧ nameAt? p d = some name) ∧ x = repeatedAt p e.2 name

section

variable {p : Path} {seen : List String} {e : Value × Nat} {es : List (Value × Nat)}

theorem repeatsIn_cons_seen_iff {name : String} (h : name ∈ seen) {x : Violation} :
    RepeatsIn p (name :: seen) es x ↔ RepeatsIn p seen es x := by
  have hmem : ∀ n, n ∈ name :: seen ↔ n ∈ seen := fun n => by
    rw [List.mem_cons, or_iff_right_of_imp]
    rintro rfl
    exact h
  simp only [RepeatsIn, hmem]

/-- The items after the first see its name, too. -/
theorem repeatsIn_cons_iff (hlt : ∀ d ∈ es, e.2 < d.2) {x : Violation} :
    RepeatsIn p seen (e :: es) x ↔
      (∃ name, nameAt? p e = some name ∧ name ∈ seen ∧ x = repeatedAt p e.2 name) ∨
        RepeatsIn p ((nameAt? p e).toList ++ seen) es x := by
  constructor
  · rintro ⟨f, hf, name, hname, hearlier, rfl⟩
    rcases List.mem_cons.mp hf with rfl | hf
    · refine .inl ⟨name, hname, hearlier.resolve_right ?_, rfl⟩
      rintro ⟨d, hd, hbefore, -⟩
      rcases List.mem_cons.mp hd with rfl | hd
      · exact Nat.lt_irrefl _ hbefore
      · exact Nat.lt_asymm hbefore (hlt d hd)
    · refine .inr ⟨f, hf, name, hname, ?_, rfl⟩
      rcases hearlier with hseen | ⟨d, hd, hbefore, hd'⟩
      · exact .inl (List.mem_append_right _ hseen)
      · rcases List.mem_cons.mp hd with rfl | hd
        · exact .inl (by simp [hd'])
        · exact .inr ⟨d, hd, hbefore, hd'⟩
  · rintro (⟨name, hname, hseen, rfl⟩ | ⟨f, hf, name, hname, hearlier, rfl⟩)
    · exact ⟨e, List.mem_cons_self, name, hname, .inl hseen, rfl⟩
    · refine ⟨f, List.mem_cons_of_mem _ hf, name, hname, ?_, rfl⟩
      rcases hearlier with hmem | ⟨d, hd, hbefore, hd'⟩
      · rcases List.mem_append.mp hmem with hfirst | hseen
        · exact .inr ⟨e, List.mem_cons_self, hlt f hf, by simpa using hfirst⟩
        · exact .inl hseen
      · exact .inr ⟨d, List.mem_cons_of_mem _ hd, hbefore, hd'⟩

theorem repeatedNames_cons (p : Path) (seen : List String) (e : Value × Nat)
    (es : List (Value × Nat)) : repeatedNames seen ((e :: es).filterMap (blockAt? p)) =
      match nameAt? p e with
      | none => repeatedNames seen (es.filterMap (blockAt? p))
      | some name =>
        if seen.contains name then
          repeatedAt p e.2 name :: repeatedNames seen (es.filterMap (blockAt? p))
        else repeatedNames (name :: seen) (es.filterMap (blockAt? p)) := by
  obtain ⟨v, i⟩ := e
  cases v with
  | map a =>
      have hname : nameAt? p (.map a, i) = (ofBlock ⟨p ++ [.index i], a⟩).value?.map (·.name) := rfl
      rw [hname, List.filterMap_cons_some (by rfl), repeatedNames]
      cases (ofBlock ⟨p ++ [.index i], a⟩).value? <;> rfl
  | _ => rfl

/-- Going through items in order reports the names that are repeated among them. -/
theorem repeatedNames_reports (hes : es.Pairwise fun d e => d.2 < e.2) :
    Reports (repeatedNames seen (es.filterMap (blockAt? p))) (RepeatsIn p seen es) := by
  induction es generalizing seen with
  | nil => exact .nil fun x => by simp [RepeatsIn]
  | cons e es ih =>
      obtain ⟨hlt, hes⟩ := List.pairwise_cons.mp hes
      rw [repeatedNames_cons]
      split
      · next hname =>
          refine (ih hes).congr fun x => ?_
          simp [repeatsIn_cons_iff hlt, hname]
      · next name hname =>
          split
          · next hseen =>
              have hmem : name ∈ seen := List.contains_iff_mem.mp hseen
              have hfirst : Reports [repeatedAt p e.2 name] (· = repeatedAt p e.2 name) :=
                .singleton fun x => .rfl
              refine (hfirst.append (ih hes) fun x y hx hy => ?_).congr fun x => ?_
              · obtain ⟨d, hd, name', -, -, rfl⟩ := hy
                rw [hx, repeatedAt, repeatedAt]
                intro heq
                simp only [List.append_assoc, List.append_cancel_left_eq, List.cons_append,
                  List.nil_append, List.cons.injEq, Step.index.injEq, and_true] at heq
                exact Nat.ne_of_lt (hlt d hd) heq
              · simp [repeatsIn_cons_iff hlt, hname, hmem, repeatsIn_cons_seen_iff hmem]
          · next hnew =>
              have hnotMem : name ∉ seen := mt List.contains_iff_mem.mpr hnew
              refine (ih hes).congr fun x => ?_
              simp [repeatsIn_cons_iff hlt, hname, hnotMem]

end

end Rule

/-! ### The whole policy -/

section

variable {a : Attributes}

theorem hasRule_iff {items : List Value} (ha : (Value.map a).Distinct)
    (h : a.lookup "custom_rule" = some (.list items)) {i : Nat} {name : String} :
    HasRule a i name ↔ ∃ e ∈ items.zipIdx, e.2 = i ∧
      Rule.nameAt? [.key "custom_rule"] e = some name := by
  constructor
  · rintro ⟨_, r, hitems, hi, hhead⟩
    obtain rfl : items = _ := by simpa using h.symm.trans hitems
    have hr := Value.distinct_list.mp (ha.of_lookup h) _ (List.mem_of_getElem? hi)
    exact ⟨(.map r, i), mem_zipIdx_iff.mpr hi, rfl,
      (Rule.headName?_eq_some_iff_hasHead hr).mpr hhead⟩
  · rintro ⟨⟨v, i⟩, he, rfl, hname⟩
    cases v with
    | map r =>
        have hi := mem_zipIdx_iff.mp he
        have hr := Value.distinct_list.mp (ha.of_lookup h) _ (List.mem_of_getElem? hi)
        exact ⟨items, r, h, hi, (Rule.headName?_eq_some_iff_hasHead hr).mp hname⟩
    | _ => simp [Rule.nameAt?] at hname

/-- The names of the rules of a policy are reported where they are repeated. -/
theorem repeatedNames_nested_reports (ha : (Value.map a).Distinct) :
    Reports (Rule.repeatedNames [] (Block.nested ⟨[], a⟩ "custom_rule")) (RepeatsName a) := by
  unfold Block.nested
  split
  · next items hitems =>
      have hreports : Reports _ (Rule.RepeatsIn [.key "custom_rule"] [] items.zipIdx) :=
        Rule.repeatedNames_reports (pairwise_zipIdx items 0)
      refine Reports.congr hreports fun x => ?_
      constructor
      · rintro ⟨e, he, name, hname, hearlier, rfl⟩
        obtain ⟨d, hd, hlt, hd'⟩ := hearlier.resolve_left List.not_mem_nil
        exact ⟨d.2, e.2, name, hlt, (hasRule_iff ha hitems).mpr ⟨d, hd, rfl, hd'⟩,
          (hasRule_iff ha hitems).mpr ⟨e, he, rfl, hname⟩, rfl⟩
      · rintro ⟨i, j, name, hlt, hi, hj, rfl⟩
        obtain ⟨d, hd, rfl, hd'⟩ := (hasRule_iff ha hitems).mp hi
        obtain ⟨e, he, rfl, hname⟩ := (hasRule_iff ha hitems).mp hj
        exact ⟨e, he, name, hname, .inr ⟨d, hd, hlt, hd'⟩, rfl⟩
  · next hnone =>
      refine .nil fun x hx => ?_
      obtain ⟨_, _, _, _, ⟨items, _, hitems, -⟩, -⟩ := hx
      exact hnone items hitems

/-- Nothing else is violated at the name of a rule that has a head. -/
theorem path_ne_of_hasRule {j : Nat} {name : String} (h : HasRule a j name) {e : Entry Shape}
    (he : e ∈ entries) {x : Violation} (hx : e.Violated [] a x) :
    x.path ≠ [.key "custom_rule", .index j, .key "name"] := by
  obtain ⟨items, r, hitems, hj, hlookup, hhead⟩ := h
  intro hpath
  have hkey : e.key = "custom_rule" := by
    by_contra hne
    exact ne_of_under hx.under ⟨_, rfl⟩ (mt Step.key.inj hne) hpath
  have hentry : e = ⟨"custom_rule", .list 0 100 Rule.shape, .fine⟩ := by
    simp only [entries, List.mem_cons, List.not_mem_nil, or_false] at he
    rcases he with rfl | rfl | rfl | rfl | rfl | rfl | rfl | rfl | rfl | rfl | rfl <;>
      simp at hkey ⊢
  rw [hentry, Entry.Violated, hitems] at hx
  rcases Shape.violated_list_iff.mp hx with (⟨-, rfl⟩ | ⟨-, rfl⟩) | ⟨⟨v, i⟩, hi, hx⟩
  · simp at hpath
  · simp at hpath
  · have hindex : i = j := by
      by_contra hne
      exact ne_of_under hx.under ⟨[.key "name"], rfl⟩ (mt Step.index.inj hne) hpath
    have hv : some (Value.map r) = some v := by
      rw [← hj, ← hindex]
      exact mem_zipIdx_iff.mp hi
    rw [← Option.some.inj hv, hindex] at hx
    exact Rule.path_ne_of_hasHead ⟨hlookup, hhead⟩ hx hpath

/-- The reading of a policy reports what is violated. -/
theorem ofBlock_reports (ha : (Value.map a).Distinct) :
    Reports (ofBlock ⟨[], a⟩).violations (Violates a) := by
  have hentries : Reports _ fun x => ∃ e ∈ entries, e.Violated [] a x :=
    Reports.entries (by decide)
      (.cons (required_reports text_reports ha) <| .cons (required_reports text_reports ha) <|
        .cons (withDefault_reports true truth_reports ha) <|
        .cons (required_reports (word_reports (α := PolicyMode)) ha) <|
        .cons (optional_reports text_reports ha) <|
        .cons (optional_reports statusCode_reports ha) <|
        .cons (optional_reports base64_reports ha) <|
        .cons (blocks_reports Rule.ofBlock_reports ha) <|
        .cons (blocks_reports RuleSet.ofBlock_reports ha) <|
        .cons (list_reports text_reports ha) <|
        .cons (withDefault_reports .empty tagsOf_reports ha) .nil)
  have hall := hentries.append (repeatedNames_nested_reports ha) fun x y hx hy => by
    obtain ⟨e, he, hx⟩ := hx
    obtain ⟨_, j, name, -, -, hj, rfl⟩ := hy
    exact path_ne_of_hasRule hj he hx
  refine hall.perm (List.perm_iff_count.mpr fun x => ?_)
  rw [violations_ofBlock, rulesOf, Checked.violations_seqLeft,
    Checked.violations_ofViolations]
  simp only [List.count_append, List.flatten_cons, List.flatten_nil, List.count_nil, maxRules,
    maxRuleSets, maxEndpoints]
  omega

/-- The path of a violation starts with the key of an entry. -/
theorem Violates.path_text_ne {x : Violation} (h : Violates a x) : x.path.text ≠ "" := by
  have htext : ∀ {key : String} {rest : Path}, key ≠ "" → Path.text (.key key :: rest) ≠ "" := by
    intro key rest hne heq
    exact hne (String.append_eq_empty_iff.mp heq).1
  rcases h with ⟨e, he, hx⟩ | ⟨_, _, _, -, -, -, rfl⟩
  · obtain ⟨rest, hrest⟩ := hx.under
    have hkeys : ∀ e ∈ entries, e.key ≠ "" := by decide
    rw [← hrest]
    exact htext (hkeys e he)
  · exact htext (by decide)

end

/-- There is a policy exactly when an attribute map violates nothing. Otherwise the violations are
exactly those of the constraints that it violates, one at each path; none of them fails to say where,
and that a map could not be decoded is never all that is said. -/
theorem violations_ofAttributes {a : Attributes} (ha : (Value.map a).Distinct) :
    ((∃ p, ofAttributes a = .ok p) ↔ ∀ x, ¬ Violates a x) ∧
      ∀ vs, ofAttributes a = .error vs → (vs.map (·.path)).Nodup ∧
        (∀ x, x ∈ vs ↔ Violates a x) ∧ (∀ x ∈ vs, x.path.text ≠ "") ∧
        vs ≠ [⟨[], .undecodable⟩] := by
  have hreports := ofBlock_reports ha
  constructor
  · rw [← hreports.eq_nil_iff]
    exact exists_ofAttributes_iff
  · intro vs hvs
    obtain ⟨rfl, -⟩ := Checked.conclude_eq_error_iff.mp hvs
    have htext : ∀ x ∈ (ofBlock ⟨[], a⟩).violations, x.path.text ≠ "" := fun x hx =>
      ((hreports.mem_iff x).mp hx).path_text_ne
    refine ⟨hreports.nodup, hreports.mem_iff, htext, fun hfallback => ?_⟩
    rw [hfallback] at htext
    exact htext _ List.mem_cons_self rfl

/-- Attributes with faults on every level: a condition without targets or values, an item that is no
rule, and a rule that has an unknown key and the name of an earlier rule. -/
def faultyAttributes : Attributes := [
  ("custom_rule", .list [
    .map [
      ("action", .string "Block"),
      ("match_condition", .list [.map [
        ("match_value", .list []),
        ("operator", .string "Any")]]),
      ("name", .string "agents"),
      ("rule_type", .string "MatchRule")],
    .int 1,
    .map [
      ("action", .string "Log"),
      ("color", .string "red"),
      ("name", .string "agents"),
      ("rule_type", .string "MatchRule")]]),
  ("mode", .string "Prevention"),
  ("name", .string " "),
  ("resource_group_name", .string "web")]

/-- The faults, in the order in which they are found. -/
def faults : List Violation := [
  ⟨[.key "name"], .blank⟩,
  ⟨[.key "custom_rule", .index 1], .wrongKind .map .int⟩,
  ⟨[.key "custom_rule", .index 0, .key "match_condition", .index 0], .noTarget⟩,
  ⟨[.key "custom_rule", .index 0, .key "match_condition", .index 0, .key "match_value"],
    .tooFew 1 0⟩,
  ⟨[.key "custom_rule", .index 2, .key "color"], .unknownAttribute⟩,
  ⟨[.key "custom_rule", .index 2, .key "name"], .duplicateRule "agents"⟩]

theorem violations_ofAttributes_faulty :
    (Value.map faultyAttributes).Distinct ∧ ofAttributes faultyAttributes = .error faults ∧
      (∀ x, x ∈ faults ↔ Violates faultyAttributes x) ∧ (faults.map (·.path)).Nodup := by
  have hdistinct : (Value.map faultyAttributes).Distinct := by simp [faultyAttributes]
  have hfaults : ofAttributes faultyAttributes = .error faults := by decide +kernel
  obtain ⟨hnodup, hreported, -, -⟩ := (violations_ofAttributes hdistinct).2 faults hfaults
  exact ⟨hdistinct, hfaults, hreported, hnodup⟩

end Policy

end EdgeFirewall
