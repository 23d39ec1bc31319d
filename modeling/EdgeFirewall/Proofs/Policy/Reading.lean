import EdgeFirewall.Policy.Attributes

/-! # When readings succeed

What it means that a reading gives a value, combinator by combinator: each part gives its own
value, a list is within its bounds, its items are read one by one, and every item of a list of
blocks is a block. The violations of rule names come down to the names alone
(`Rule.repeatedNames_eq_nil_iff`). -/

namespace EdgeFirewall

variable {α β : Type}

namespace Checked

theorem ofViolations_seqRight_eq_ok_iff {vs : List Violation} {x : Checked α} {a : α} :
    ofViolations vs *> x = ok a ↔ vs = [] ∧ x = ok a := by
  obtain ⟨value?, ws⟩ := x
  cases value? <;> simp [seqRight_eq, eq_ok_iff, and_left_comm]

theorem seqLeft_ofViolations_eq_ok_iff {vs : List Violation} {x : Checked α} {a : α} :
    x <* ofViolations vs = ok a ↔ x = ok a ∧ vs = [] := by
  obtain ⟨value?, ws⟩ := x
  cases value? <;> simp [seqLeft_eq, eq_ok_iff, and_assoc]

/-- A value put together from others is one exactly when they are, the first of them outermost. -/
theorem exists_seq_eq_ok_iff {f : Checked (α → β)} {x : Checked α} {Q : β → Prop} :
    (∃ b, f <*> x = ok b ∧ Q b) ↔ ∃ g, f = ok g ∧ ∃ a, x = ok a ∧ Q (g a) := by
  simp only [seq_eq_ok_iff]
  grind

theorem exists_map_eq_ok_iff {f : α → β} {x : Checked α} {Q : β → Prop} :
    (∃ b, f <$> x = ok b ∧ Q b) ↔ ∃ a, x = ok a ∧ Q (f a) := by
  simp only [map_eq_ok_iff]
  grind

theorem eq_ok_iff_exists {x : Checked α} {a : α} : x = ok a ↔ ∃ b, x = ok b ∧ b = a := by
  simp

/-- No item is left out of a list that is read without violations. -/
theorem collect_cons_eq_ok_iff {f : α → Checked β} [∀ a, (f a).IsExplained] {a : α} {as : List α}
    {bs : List β} : collect f (a :: as) = ok bs ↔
      ∃ b rest, f a = ok b ∧ collect f as = ok rest ∧ bs = b :: rest := by
  constructor
  · intro h
    obtain ⟨hvalue, hnil⟩ := eq_ok_iff.mp h
    rw [violations_collect, List.flatMap_cons, List.append_eq_nil_iff] at hnil
    obtain ⟨b, hb⟩ := violations_eq_nil_iff.mp hnil.1
    have hread : (f a).value? = some b := (eq_ok_iff.mp hb).1
    have hbs := Option.some.inj hvalue
    rw [List.filterMap_cons, hread] at hbs
    exact ⟨b, _, hb, eq_ok_iff.mpr ⟨rfl, hnil.2⟩, hbs.symm⟩
  · rintro ⟨b, rest, hb, hrest, rfl⟩
    obtain ⟨hvalue, hnil⟩ := eq_ok_iff.mp hrest
    obtain ⟨hread, hclean⟩ := eq_ok_iff.mp hb
    refine eq_ok_iff.mpr ⟨congrArg some ?_, ?_⟩
    · rw [List.filterMap_cons, hread]
      exact congrArg (b :: ·) (Option.some.inj hvalue)
    · rw [violations_collect, List.flatMap_cons, hclean]
      exact hnil

theorem collect_nil_eq_ok_iff {f : α → Checked β} {bs : List β} :
    collect f [] = ok bs ↔ bs = [] := by
  simp [collect, ok, eq_comm]

theorem collect_map {γ : Type} (f : α → Checked β) (g : γ → α) (cs : List γ) :
    collect f (cs.map g) = collect (fun c => f (g c)) cs := by
  rw [collect, collect, List.filterMap_map, List.flatMap_map]
  rfl

/-- A fact about each item and what it is read as is a fact about the lists. -/
theorem map_eq_map_of_collect {γ : Type} {f : α → Checked β} [∀ a, (f a).IsExplained] {F : α → γ}
    {w : β → γ} (h : ∀ a b, f a = ok b → F a = w b) {as : List α} {bs : List β}
    (hbs : collect f as = ok bs) : as.map F = bs.map w := by
  induction as generalizing bs with
  | nil =>
      rw [collect_nil_eq_ok_iff.mp hbs]
      rfl
  | cons a rest ih =>
      obtain ⟨b, bs', hb, hrest, rfl⟩ := collect_cons_eq_ok_iff.mp hbs
      rw [List.map_cons, List.map_cons, h a b hb, ih hrest]

/-- What is found in each item, and in what it is read as, is found in the lists. -/
theorem filterMap_eq_map_of_collect {γ : Type} {f : α → Checked β} [∀ a, (f a).IsExplained]
    {F : α → Option γ} {w : β → γ} (h : ∀ a b, f a = ok b → F a = some (w b)) {as : List α}
    {bs : List β} (hbs : collect f as = ok bs) : as.filterMap F = bs.map w := by
  have hmap : as.map F = bs.map fun b => some (w b) := map_eq_map_of_collect h hbs
  calc as.filterMap F
      = (as.map F).filterMap id := by rw [List.filterMap_map]; rfl
    _ = bs.map w := by rw [hmap, List.filterMap_map]; exact congrFun List.filterMap_eq_map _

/-- If what each item was read as can be read again, so can the list. -/
theorem collect_zipIdx_of_collect {γ : Type} {f : α → Checked β} [∀ a, (f a).IsExplained]
    {g : γ × Nat → Checked β} [∀ e, (g e).IsExplained] {w : β → γ}
    (h : ∀ a b, f a = ok b → ∀ i, g (w b, i) = ok b) {as : List α} {bs : List β}
    (hbs : collect f as = ok bs) (n : Nat) : collect g ((bs.map w).zipIdx n) = ok bs := by
  induction as generalizing bs n with
  | nil =>
      rw [collect_nil_eq_ok_iff.mp hbs]
      rfl
  | cons a rest ih =>
      obtain ⟨b, bs', hb, hrest, rfl⟩ := collect_cons_eq_ok_iff.mp hbs
      rw [List.map_cons, List.zipIdx_cons, collect_cons_eq_ok_iff]
      exact ⟨b, bs', h a b hb n, ih hrest (n + 1), rfl⟩

theorem length_of_collect {f : α → Checked β} [∀ a, (f a).IsExplained] {as : List α} {bs : List β}
    (hbs : collect f as = ok bs) : bs.length = as.length := by
  have h := map_eq_map_of_collect (F := fun _ => ()) (w := fun _ => ()) (fun _ _ _ => rfl) hbs
  simpa using (congrArg List.length h).symm

end Checked

/-! ### Lists -/

theorem map_zipIdx_fst (f : α → β) (as : List α) (n : Nat) :
    (as.zipIdx n).map (fun e => f e.1) = as.map f := by
  calc (as.zipIdx n).map (fun e => f e.1)
      = ((as.zipIdx n).map Prod.fst).map f := by rw [List.map_map]; rfl
    _ = as.map f := by rw [List.zipIdx_map_fst]

namespace Reading

theorem boundsViolations_eq_nil_iff {path : Path} {least most count : Nat} :
    boundsViolations path least most count = [] ↔ least ≤ count ∧ count ≤ most := by
  unfold boundsViolations
  split
  · simp; omega
  · split <;> simp <;> omega

/-- The violation of what is no list counts, though an empty list stands in for it. -/
theorem noList_ne_ok {path : Path} {v : Value} {xs : List α} : noList path v ≠ .ok xs := by
  simp [noList, Checked.orElse_eq_ok_iff]

theorem listOf_eq_ok_iff {least most : Nat} {read : Reading α} {path : Path} {v : Value}
    {xs : List α} :
    listOf least most read path v = .ok xs ↔
      ∃ items, v = .list items ∧ (least ≤ items.length ∧ items.length ≤ most) ∧
        Checked.collect (fun (v, i) => read (path ++ [.index i]) v) items.zipIdx = .ok xs := by
  cases v with
  | list items =>
      rw [listOf, Checked.ofViolations_seqRight_eq_ok_iff, boundsViolations_eq_nil_iff]
      simp
  | _ => simp [listOf, noList_ne_ok]

end Reading

namespace Block

/-- A default stands in for an absent entry alone, if there is to be no violation. -/
theorem readOr_eq_ok_iff {b : Block} {key : String} {default a : α} {read : Reading α}
    [∀ path v, (read path v).IsExplained] :
    b.readOr key default read = .ok a ↔ b.withDefault key default read = .ok a :=
  Checked.orElse_eq_ok_iff

theorem shapeViolations_eq_nil_iff {path : Path} {items : List Value} :
    shapeViolations path items = [] ↔ ∃ maps : List Attributes, items = maps.map .map := by
  unfold shapeViolations
  rw [List.filterMap_eq_nil_iff]
  constructor
  · intro h
    refine ⟨items.filterMap Value.asMap?, ?_⟩
    have hmap : ∀ v ∈ items, ∃ a, v = .map a := by
      intro v hv
      obtain ⟨i, hi, rfl⟩ := List.mem_iff_getElem.mp hv
      have := h (items[i], i) (by simp [List.mem_zipIdx_iff_getElem?])
      cases hv : items[i] <;> simp_all
    clear h
    induction items with
    | nil => rfl
    | cons v rest ih =>
        obtain ⟨a, rfl⟩ := hmap v (by simp)
        have hrest := ih fun w hw => hmap w (List.mem_cons_of_mem _ hw)
        simpa [Value.asMap?] using hrest
  · rintro ⟨maps, rfl⟩ ⟨v, i⟩ hv
    have hmem := List.fst_mem_of_mem_zipIdx hv
    obtain ⟨a, -, rfl⟩ := List.mem_map.mp hmem
    rfl

theorem ofItems_map (path : Path) (maps : List Attributes) :
    ofItems path (maps.map .map) = maps.zipIdx.map fun e => ⟨path ++ [.index e.2], e.1⟩ := by
  rw [ofItems, List.zipIdx_map, List.filterMap_map]
  exact congrFun List.filterMap_eq_map _

theorem listOf_eq_ok_iff {most : Nat} {read : Block → Checked α} {path : Path} {v : Value}
    {xs : List α} :
    listOf most read path v = .ok xs ↔
      ∃ maps : List Attributes, v = .list (maps.map .map) ∧ maps.length ≤ most ∧
        Checked.collect (fun e => read ⟨path ++ [.index e.2], e.1⟩) maps.zipIdx = .ok xs := by
  cases v with
  | list items =>
      rw [listOf, Checked.ofViolations_seqRight_eq_ok_iff, Reading.boundsViolations_eq_nil_iff,
        Checked.ofViolations_seqRight_eq_ok_iff, shapeViolations_eq_nil_iff]
      constructor
      · rintro ⟨⟨-, hmost⟩, ⟨maps, rfl⟩, hxs⟩
        rw [ofItems_map, Checked.collect_map] at hxs
        exact ⟨maps, rfl, by simpa using hmost, hxs⟩
      · rintro ⟨maps, hmaps, hmost, hxs⟩
        obtain rfl := Value.list.inj hmaps
        rw [ofItems_map, Checked.collect_map]
        exact ⟨⟨Nat.zero_le _, by simpa using hmost⟩, ⟨maps, rfl⟩, hxs⟩
  | _ => simp [listOf, Reading.noList_ne_ok]

/-- A list of blocks is read block by block. -/
theorem collect_nested {b : Block} {key : String} {most : Nat} {read : Block → Checked α}
    {xs : List α} (h : b.blocks key most read = .ok xs) :
    Checked.collect read (b.nested key) = .ok xs := by
  obtain ⟨maps, hmaps, -, hxs⟩ := listOf_eq_ok_iff.mp h
  unfold nested
  cases hv : b.entries.lookup key with
  | none =>
      rw [hv, Option.getD_none, Value.list.injEq] at hmaps
      rw [List.map_eq_nil_iff.mp hmaps.symm] at hxs
      exact hxs
  | some v =>
      rw [hv, Option.getD_some] at hmaps
      subst hmaps
      simp only [ofItems_map, Checked.collect_map]
      exact hxs

end Block

/-! ### Blocks of a policy, attribute by attribute -/

namespace Policy

open Reading Checked

theorem Target.ofBlock_eq_ok_iff {b : Block} {t : Target} :
    Target.ofBlock b = .ok t ↔
      match t with
      | .whole v => b.required "match_variable" word = .ok v ∧ b.entries.lookup "selector" = none
      | .keyed s => b.required "selector" word = .ok s ∧
        b.entries.lookup "match_variable" = none := by
  unfold Target.ofBlock Block.required
  cases hv : b.entries.lookup "match_variable" <;> cases hs : b.entries.lookup "selector"
  · cases t <;> simp
  · cases t <;> simp [map_eq_ok_iff]
  · cases t <;> simp [map_eq_ok_iff]
  · cases t <;> simp [seqRight_eq, seq_eq_ok_iff]

theorem Condition.ofBlock_eq_ok_iff {b : Block} {c : Condition} :
    Condition.ofBlock b = .ok c ↔ b.unknownEntries keys = [] ∧ Target.ofBlock b = .ok c.target ∧
      b.required "operator" word = .ok c.operator ∧
      b.withDefault "condition" .is word = .ok c.modifier ∧
      b.list "match_value" 1 maxValues text = .ok c.values ∧
      b.list "transforms" 0 maxTransforms word = .ok c.transforms := by
  rw [ofBlock, ofViolations_seqRight_eq_ok_iff, eq_ok_iff_exists]
  simp only [exists_seq_eq_ok_iff, exists_map_eq_ok_iff]
  constructor
  · rintro ⟨hu, _, h1, _, h2, _, h3, _, h4, _, h5, rfl⟩
    exact ⟨hu, h1, h2, h3, h4, h5⟩
  · rintro ⟨hu, h1, h2, h3, h4, h5⟩
    exact ⟨hu, _, h1, _, h2, _, h3, _, h4, _, h5, rfl⟩

theorem Rule.ofBlock_eq_ok_iff {b : Block} {r : Rule} :
    Rule.ofBlock b = .ok r ↔ b.unknownEntries keys = [] ∧ nameOf b = .ok r.name ∧
      priorityOf b = .ok r.priority ∧ b.withDefault "enabled" true truth = .ok r.enabled ∧
      ruleTypeOf b = .ok r.ruleType ∧ rateLimitMinutesOf b = .ok r.rateLimitMinutes ∧
      rateLimitThresholdOf b = .ok r.rateLimitThreshold ∧ actionOf b = .ok r.action ∧
      b.optional "custom_block_response_body" base64 = .ok r.blockBody ∧
      b.blocks "match_condition" maxConditions Condition.ofBlock = .ok r.conditions := by
  rw [ofBlock, ofViolations_seqRight_eq_ok_iff, eq_ok_iff_exists]
  simp only [exists_seq_eq_ok_iff, exists_map_eq_ok_iff, Block.readOr_eq_ok_iff]
  constructor
  · rintro ⟨hu, _, h1, _, h2, _, h3, _, h4, _, h5, _, h6, _, h7, _, h8, _, h9, rfl⟩
    exact ⟨hu, h1, h2, h3, h4, h5, h6, h7, h8, h9⟩
  · rintro ⟨hu, h1, h2, h3, h4, h5, h6, h7, h8, h9⟩
    exact ⟨hu, _, h1, _, h2, _, h3, _, h4, _, h5, _, h6, _, h7, _, h8, _, h9, rfl⟩

theorem RuleOverride.ofBlock_eq_ok_iff {b : Block} {r : RuleOverride} :
    RuleOverride.ofBlock b = .ok r ↔ b.unknownEntries ["rule_id", "enabled", "action"] = [] ∧
      b.required "rule_id" text = .ok r.ruleId ∧
      b.withDefault "enabled" false truth = .ok r.enabled ∧
      b.required "action" word = .ok r.action := by
  rw [ofBlock, ofViolations_seqRight_eq_ok_iff, eq_ok_iff_exists]
  simp only [exists_seq_eq_ok_iff, exists_map_eq_ok_iff, Block.readOr_eq_ok_iff]
  constructor
  · rintro ⟨hu, _, h1, _, h2, _, h3, rfl⟩
    exact ⟨hu, h1, h2, h3⟩
  · rintro ⟨hu, h1, h2, h3⟩
    exact ⟨hu, _, h1, _, h2, _, h3, rfl⟩

theorem GroupOverride.ofBlock_eq_ok_iff {b : Block} {g : GroupOverride} :
    GroupOverride.ofBlock b = .ok g ↔ b.unknownEntries ["rule_group_name", "rule"] = [] ∧
      b.required "rule_group_name" text = .ok g.group ∧
      b.blocks "rule" maxRuleOverrides RuleOverride.ofBlock = .ok g.rules := by
  rw [ofBlock, ofViolations_seqRight_eq_ok_iff, eq_ok_iff_exists]
  simp only [exists_seq_eq_ok_iff, exists_map_eq_ok_iff]
  constructor
  · rintro ⟨hu, _, h1, _, h2, rfl⟩
    exact ⟨hu, h1, h2⟩
  · rintro ⟨hu, h1, h2⟩
    exact ⟨hu, _, h1, _, h2, rfl⟩

theorem RuleSet.ofBlock_eq_ok_iff {b : Block} {s : RuleSet} :
    RuleSet.ofBlock b = .ok s ↔ b.unknownEntries ["type", "version", "override"] = [] ∧
      b.required "type" text = .ok s.type ∧ b.required "version" text = .ok s.version ∧
      b.blocks "override" maxGroupOverrides GroupOverride.ofBlock = .ok s.overrides := by
  rw [ofBlock, ofViolations_seqRight_eq_ok_iff, eq_ok_iff_exists]
  simp only [exists_seq_eq_ok_iff, exists_map_eq_ok_iff]
  constructor
  · rintro ⟨hu, _, h1, _, h2, _, h3, rfl⟩
    exact ⟨hu, h1, h2, h3⟩
  · rintro ⟨hu, h1, h2, h3⟩
    exact ⟨hu, _, h1, _, h2, _, h3, rfl⟩

/-- Reads the custom rules of a policy, whose names must differ. -/
def rulesOf (b : Block) : Checked (List Rule) :=
  b.blocks "custom_rule" maxRules Rule.ofBlock <*
    ofViolations (Rule.repeatedNames [] (b.nested "custom_rule"))

instance (b : Block) : (rulesOf b).IsExplained :=
  inferInstanceAs (b.blocks _ _ _ <* ofViolations _).IsExplained

theorem ofBlock_eq_ok_iff {b : Block} {p : Policy} :
    ofBlock b = .ok p ↔ b.required "name" text = .ok p.name ∧
      b.required "resource_group_name" text = .ok p.resourceGroup ∧
      b.withDefault "enabled" true truth = .ok p.enabled ∧ b.required "mode" word = .ok p.mode ∧
      b.optional "redirect_url" text = .ok p.redirectUrl ∧
      b.optional "custom_block_response_status_code" statusCode = .ok p.blockStatusCode ∧
      b.optional "custom_block_response_body" base64 = .ok p.blockBody ∧
      rulesOf b = .ok p.rules ∧
      b.blocks "managed_rule" maxRuleSets RuleSet.ofBlock = .ok p.ruleSets ∧
      b.list "frontend_endpoint_ids" 0 maxEndpoints text = .ok p.endpoints ∧
      b.withDefault "tags" .empty tagsOf = .ok p.tags := by
  rw [ofBlock, eq_ok_iff_exists]
  simp only [exists_seq_eq_ok_iff, exists_map_eq_ok_iff, Block.readOr_eq_ok_iff]
  constructor
  · rintro ⟨_, h1, _, h2, _, h3, _, h4, _, h5, _, h6, _, h7, _, h8, _, h9, _, h10, _, h11, rfl⟩
    exact ⟨h1, h2, h3, h4, h5, h6, h7, h8, h9, h10, h11⟩
  · rintro ⟨h1, h2, h3, h4, h5, h6, h7, h8, h9, h10, h11⟩
    exact ⟨_, h1, _, h2, _, h3, _, h4, _, h5, _, h6, _, h7, _, h8, _, h9, _, h10, _, h11, rfl⟩

/-! ### Names of rules -/

namespace Rule

/-- The name of a rule that is read, in spite of violations or without. -/
def headName? (b : Block) : Option String :=
  (ofBlock b).value?.map (·.name)

theorem headName?_of_ofBlock {b : Block} {r : Rule} (h : ofBlock b = .ok r) :
    headName? b = some r.name := by
  rw [headName?, h, value?_ok, Option.map_some]

/-- No name is repeated exactly when the names that can be read differ, from each other and from
the seen ones. -/
theorem repeatedNames_eq_nil_iff {seen : List String} {bs : List Block} :
    repeatedNames seen bs = [] ↔
      (bs.filterMap headName?).Nodup ∧ ∀ n ∈ bs.filterMap headName?, n ∉ seen := by
  induction bs generalizing seen with
  | nil => simp [repeatedNames]
  | cons b rest ih =>
      unfold repeatedNames
      cases hb : (ofBlock b).value? with
      | none =>
          rw [List.filterMap_cons_none (by rw [headName?, hb]; rfl)]
          exact ih
      | some r =>
          have hname : headName? b = some r.name := by rw [headName?, hb]; rfl
          rw [List.filterMap_cons_some hname, List.nodup_cons, List.forall_mem_cons]
          by_cases hseen : r.name ∈ seen
          · simp [hseen]
          · have hrest := @ih (r.name :: seen)
            simp only [List.mem_cons, not_or] at hrest
            simp only [List.contains_eq_mem, hseen, decide_false, Bool.false_eq_true, if_false,
              hrest, not_false_eq_true, true_and]
            constructor
            · rintro ⟨hnodup, hnew⟩
              exact ⟨⟨fun hmem => (hnew r.name hmem).1 rfl, hnodup⟩, fun n hn => (hnew n hn).2⟩
            · rintro ⟨⟨hfresh, hnodup⟩, hnew⟩
              exact ⟨hnodup, fun n hn => ⟨fun heq => hfresh (heq ▸ hn), hnew n hn⟩⟩

theorem filterMap_headName?_of_collect {bs : List Block} {rs : List Rule}
    (h : Checked.collect ofBlock bs = .ok rs) : bs.filterMap headName? = rs.map (·.name) :=
  filterMap_eq_map_of_collect (fun _ _ hr => headName?_of_ofBlock hr) h

end Rule

theorem rulesOf_eq_ok_iff {b : Block} {rs : List Rule} :
    rulesOf b = .ok rs ↔
      b.blocks "custom_rule" maxRules Rule.ofBlock = .ok rs ∧ (rs.map (·.name)).Nodup := by
  rw [rulesOf, seqLeft_ofViolations_eq_ok_iff]
  refine and_congr_right fun h => ?_
  rw [Rule.repeatedNames_eq_nil_iff, Rule.filterMap_headName?_of_collect (Block.collect_nested h)]
  simp

/-! ### Attribute maps -/

theorem ofAttributes_eq_ok_iff {a : Attributes} {p : Policy} :
    ofAttributes a = .ok p ↔ ofBlock ⟨[], a⟩ = .ok p :=
  conclude_eq_ok_iff

theorem exists_ofAttributes_iff {a : Attributes} :
    (∃ p, ofAttributes a = .ok p) ↔ (ofBlock ⟨[], a⟩).violations = [] := by
  rw [violations_eq_nil_iff]
  exact exists_congr fun _ => ofAttributes_eq_ok_iff

theorem exists_of_isOk {a : Attributes} (h : (ofAttributes a).isOk = true) :
    ∃ p, ofAttributes a = .ok p := by
  cases ha : ofAttributes a with
  | ok p => exact ⟨p, rfl⟩
  | error vs =>
      rw [ha] at h
      exact absurd h Bool.false_ne_true

end Policy

end EdgeFirewall
