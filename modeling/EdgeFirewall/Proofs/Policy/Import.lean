import EdgeFirewall.Proofs.Policy.NormalForm
import EdgeFirewall.Proofs.Policy.SchemaAgreement

/-! # Documents that can be imported

The service may hold policies that nobody could have declared: a description of a policy turns any
document with a mode into attributes, and the reading of a policy is strict. What a document must be
like for its attributes to be those of a policy is said member by member (`Document.Importable`).
A reading admits what has the property that it checks, and nothing else (`Reading.Admits`); this
passes from items to lists and from entries to blocks, up to the whole document
(`exists_ofAttributes_iff_importable`). -/

namespace EdgeFirewall

namespace Document

/-! ### What an importable document has -/

structure Condition.Importable (c : Condition) : Prop where
  valueCount : 1 ≤ c.values.length ∧ c.values.length ≤ 100
  values : ∀ s ∈ c.values, IsFilled s
  transformCount : (c.transforms.getD []).length ≤ 5

structure Rule.Importable (r : Rule) : Prop where
  name : ∃ s, r.name = some s ∧ IsFilled s
  priority : 0 ≤ r.priority.toInt
  minutes : ∀ n, r.rateLimitMinutes = some n → 0 ≤ n.toInt ∧ n.toInt ≤ 5
  threshold : ∀ n, r.rateLimitThreshold = some n → 0 ≤ n.toInt
  blockBody : ∀ s, r.blockBody = some s → IsBody s
  conditionCount : r.conditions.length ≤ 100
  conditions : ∀ c ∈ r.conditions, c.Importable

structure RuleOverride.Importable (r : RuleOverride) : Prop where
  ruleId : IsFilled r.ruleId
  action : ∃ a, r.action = some a

structure GroupOverride.Importable (g : GroupOverride) : Prop where
  group : IsFilled g.group
  ruleCount : (g.rules.getD []).length ≤ 1000
  rules : ∀ r ∈ g.rules.getD [], r.Importable

structure RuleSet.Importable (s : RuleSet) : Prop where
  type : IsFilled s.type
  version : IsFilled s.version
  overrideCount : (s.overrides.getD []).length ≤ 100
  overrides : ∀ g ∈ s.overrides.getD [], g.Importable

structure Settings.Importable (s : Settings) : Prop where
  redirectUrl : ∀ url, s.redirectUrl = some url → IsFilled url
  blockStatusCode : ∀ n, s.blockStatusCode = some n → n.toInt ∈ [200, 403, 405, 406, 429]
  blockBody : ∀ body, s.blockBody = some body → IsBody body

structure Properties.Importable (p : Properties) : Prop where
  settings : ∀ s, p.settings = some s → s.Importable
  ruleCount : p.ruleList.length ≤ 100
  ruleNames : (p.ruleList.map (·.name)).Nodup
  rules : ∀ r ∈ p.ruleList, r.Importable
  ruleSetCount : p.ruleSetList.length ≤ 100
  ruleSets : ∀ s ∈ p.ruleSetList, s.Importable
  /-- A link without an identifier links nothing, and does not count. -/
  linkCount : (p.endpointLinks.getD []).countP (·.id.isSome) ≤ 1000
  links : ∀ link ∈ p.endpointLinks.getD [], ∀ id, link.id = some id → IsFilled id

end Document

/-- What a document must be like for its attributes to be those of a policy. -/
def Document.Importable (d : Document) : Prop :=
  ∀ p, d.properties = some p → p.Importable

/-! ### What readings admit -/

variable {α β : Type}

/-- What was written is read without fault exactly if it has a property. -/
def Reading.Admits (read : Reading α) (write : β → Value) (P : β → Prop) : Prop :=
  ∀ path y, (read path (write y)).violations = [] ↔ P y

/-- A block that was written is read without fault exactly if it has a property. -/
def Block.Admits (read : Block → Checked α) (write : β → Attributes) (P : β → Prop) : Prop :=
  ∀ path y, (read ⟨path, write y⟩).violations = [] ↔ P y

namespace Reading

open Document

theorem text_admits : text.Admits .string IsFilled := by
  intro path s
  rw [Checked.violations_eq_nil_iff]
  simp only [text_eq_ok_iff, Value.string.injEq]
  constructor
  · rintro ⟨x, rfl, hfilled⟩
    exact hfilled
  · intro hfilled
    exact ⟨s, rfl, hfilled⟩

theorem truth_admits : truth.Admits .bool fun _ => True :=
  fun _ _ => iff_true_intro rfl

theorem word_admits [Vocabulary α] [Vocabulary.Dotless α] :
    (word (α := α)).Admits (wordValue (α := α)) fun _ => True := by
  intro path a
  rw [word_wordValue]
  simp

theorem number_admits {least most : Int} :
    (number least most).Admits numberValue fun n => least ≤ n.toInt ∧ n.toInt ≤ most := by
  intro path n
  simp [violations_number_eq_nil_iff, numberValue]

/-- Every number of a document is small enough. -/
theorem numeral_admits : (number 0 Policy.maxNumber).Admits numberValue fun n => 0 ≤ n.toInt := by
  intro path n
  rw [number_admits]
  have hmost := n.toInt_le
  exact and_iff_left hmost

theorem statusCode_admits :
    Policy.statusCode.Admits numberValue fun n => n.toInt ∈ [200, 403, 405, 406, 429] := by
  intro path n
  rw [Checked.violations_eq_nil_iff]
  constructor
  · rintro ⟨x, hx⟩
    rw [← (number_undoes 0 Policy.maxNumber).suchThat _ _ hx]
    exact statusCode_ensures hx
  · intro hcode
    have hcodes : ∀ n ∈ Policy.blockStatusCodes, 0 ≤ n := by decide
    have hnumeral := (numeral_admits path n).mpr (hcodes _ hcode)
    obtain ⟨x, hx⟩ := Checked.violations_eq_nil_iff.mp hnumeral
    obtain rfl := number_undoes _ _ hx
    exact ⟨x, suchThat_eq_ok_iff.mpr ⟨hx, List.contains_iff_mem.mpr hcode⟩⟩

/-- A text in base64 is blank only if it is empty. -/
theorem base64_admits : base64.Admits .string IsBody := by
  intro path s
  rw [Checked.violations_eq_nil_iff]
  constructor
  · rintro ⟨x, hx⟩
    rw [← text_undoes.suchThat _ _ hx]
    exact base64_ensures hx
  · rintro ⟨hne, hbase64⟩
    have hblank := Text.isBlankText_of_isBase64 hbase64
    rw [Bool.eq_false_iff.mpr (mt String.isEmpty_iff.mp hne)] at hblank
    exact ⟨s, suchThat_eq_ok_iff.mpr ⟨text_eq_ok_iff.mpr ⟨rfl, hblank⟩, hbase64⟩⟩

theorem tagsOf_admits : Reading.Admits Policy.tagsOf (fun t => .map (tagAttributes t))
    fun _ => True := by
  intro path t
  rw [Checked.violations_eq_nil_iff]
  simp only [Policy.tagsOf_eq_ok_iff]
  exact iff_true_intro ⟨_, t.entries, rfl, rfl⟩

/-- A list is admitted if its length is, and each item. -/
theorem Admits.listOf {read : Reading α} {write : β → Value} {P : β → Prop}
    (h : read.Admits write P) (least most : Nat) :
    (Reading.listOf least most read).Admits (fun ys : List β => .list (ys.map write)) fun ys =>
      (least ≤ ys.length ∧ ys.length ≤ most) ∧ ∀ y ∈ ys, P y := by
  intro path ys
  rw [Reading.listOf, Checked.violations_seqRight, List.append_eq_nil_iff,
    Checked.violations_ofViolations, boundsViolations_eq_nil_iff, List.length_map,
    Checked.violations_collect, List.flatMap_eq_nil_iff, List.zipIdx_map, List.forall_mem_map]
  refine and_congr_right fun _ => ?_
  calc (∀ e ∈ ys.zipIdx, (read (path ++ [.index e.2]) (write e.1)).violations = [])
      ↔ ∀ e ∈ ys.zipIdx, P e.1 := forall₂_congr fun e _ => h _ e.1
    _ ↔ ∀ y ∈ ys, P y := forall_mem_zipIdx_iff

end Reading

namespace Block

theorem Admits.listOf {read : Block → Checked α} {write : β → Attributes} {P : β → Prop}
    (h : Block.Admits read write P) (most : Nat) :
    (Block.listOf most read).Admits (fun ys : List β => .list (ys.map fun y => .map (write y)))
      fun ys => ys.length ≤ most ∧ ∀ y ∈ ys, P y := by
  intro path ys
  have hvalue : (Block.reading read).Admits (fun y => .map (write y)) P := h
  have hperm := violations_listOf_perm most read path (.list (ys.map fun y => .map (write y)))
  rw [← List.perm_nil, ← hperm.congr_left, List.perm_nil, hvalue.listOf 0 most path ys]
  simp

variable {b : Block} {key : String} {read : Reading α} {write : β → Value} {P : β → Prop} {y : β}

theorem required_admits (h : read.Admits write P) (hv : b.entries.lookup key = some (write y)) :
    (b.required key read).violations = [] ↔ P y := by
  rw [required, hv]
  exact h _ y

theorem withDefault_admits {default : α} (h : read.Admits write P)
    (hv : b.entries.lookup key = some (write y)) :
    (b.withDefault key default read).violations = [] ↔ P y := by
  rw [withDefault, hv]
  exact h _ y

theorem optional_admits {o : Option β} (h : read.Admits write P)
    (hv : b.entries.lookup key = o.map write) :
    (b.optional key read).violations = [] ↔ ∀ y, o = some y → P y := by
  rw [optional, hv]
  cases o with
  | none => simp
  | some y => simpa using h _ y

theorem list_admits {least most : Nat} {ys : List β} (h : read.Admits write P)
    (hv : b.entries.lookup key = some (.list (ys.map write))) :
    (b.list key least most read).violations = [] ↔
      (least ≤ ys.length ∧ ys.length ≤ most) ∧ ∀ y ∈ ys, P y := by
  rw [list, hv]
  exact h.listOf least most _ ys

theorem blocks_admits {read : Block → Checked α} {write : β → Attributes} {most : Nat}
    {ys : List β} (h : Block.Admits read write P)
    (hv : b.entries.lookup key = some (.list (ys.map fun y => .map (write y)))) :
    (b.blocks key most read).violations = [] ↔ ys.length ≤ most ∧ ∀ y ∈ ys, P y := by
  rw [blocks, hv]
  exact h.listOf most _ ys

end Block

/-! ### The blocks of a document -/

namespace Policy

open Reading Block Document

theorem Target.ofBlock_admits :
    Block.Admits Target.ofBlock Document.Condition.toAttributes fun _ => True := by
  intro path d
  rw [violations_ofBlock, List.append_eq_nil_iff, List.append_eq_nil_iff,
    optional_admits word_admits d.lookup_matchVariable,
    optional_admits word_admits d.lookup_selector, countViolations_eq_nil_iff,
    d.lookup_matchVariable, d.lookup_selector]
  cases d.ownSelector? <;> simp

theorem Condition.ofBlock_admits : Block.Admits Condition.ofBlock
    Document.Condition.toAttributes Document.Condition.Importable := by
  intro path d
  have hkeys : Block.unknownEntries ⟨path, d.toAttributes⟩ keys = [] := by
    rw [unknownEntries_eq_nil_iff]
    unfold Document.Condition.toAttributes
    cases d.ownSelector? <;> simp [Attributes.entry?, keys]
  have hvalues : d.toAttributes.lookup "match_value" = some (.list (d.values.map .string)) := rfl
  have hmodifier : d.toAttributes.lookup "condition" = some (wordValue d.effectiveModifier) := rfl
  rw [violations_ofBlock, hkeys]
  simp only [List.append_eq_nil_iff, List.nil_append, and_assoc]
  rw [Target.ofBlock_admits, required_admits word_admits d.lookup_operator,
    withDefault_admits word_admits hmodifier, list_admits text_admits hvalues,
    list_admits word_admits d.lookup_transforms]
  constructor
  · rintro ⟨-, -, -, ⟨hcount, hfilled⟩, ⟨-, hfew⟩, -⟩
    exact ⟨hcount, hfilled, hfew⟩
  · rintro ⟨hcount, hfilled, hfew⟩
    exact ⟨trivial, trivial, trivial, ⟨hcount, hfilled⟩, ⟨Nat.zero_le _, hfew⟩, fun _ _ => trivial⟩

/-- A default counts as a number that a rule may have. -/
theorem forall_getD_iff {o : Option Int32} {P : Int32 → Prop} {default : Int32} (h : P default) :
    P (o.getD default) ↔ ∀ n, o = some n → P n := by
  cases o <;> simp [h]

theorem Rule.isFilled_getD_iff {name : Option String} :
    IsFilled (name.getD "") ↔ ∃ s, name = some s ∧ IsFilled s := by
  cases name <;> simp [IsFilled, Text.isBlankText]

theorem Rule.ofBlock_admits :
    Block.Admits Rule.ofBlock Document.Rule.toAttributes Document.Rule.Importable := by
  intro path d
  have hkeys : Block.unknownEntries ⟨path, d.toAttributes⟩ keys = [] := by
    rw [unknownEntries_eq_nil_iff]
    unfold Document.Rule.toAttributes
    cases d.blockBody <;> simp [Attributes.entry?, keys]
  -- Only the body may be absent. Without it, what stands under the other keys can be read off.
  have lookup_other : ∀ key, key ≠ "custom_block_response_body" → d.toAttributes.lookup key =
      ({ d with blockBody := none } : Document.Rule).toAttributes.lookup key :=
    fun _ => d.lookup_other
  have hname : (nameOf ⟨path, d.toAttributes⟩).violations = [] ↔ _ :=
    (required_admits text_admits (lookup_other _ (by decide))).trans isFilled_getD_iff
  have hpriority : (priorityOf ⟨path, d.toAttributes⟩).violations = [] ↔ _ :=
    withDefault_admits numeral_admits (lookup_other _ (by decide))
  have henabled :
      (Block.withDefault ⟨path, d.toAttributes⟩ "enabled" true truth).violations = [] ↔ _ :=
    withDefault_admits truth_admits (lookup_other _ (by decide))
  have htype : (ruleTypeOf ⟨path, d.toAttributes⟩).violations = [] ↔ _ :=
    required_admits word_admits (lookup_other _ (by decide))
  have hminutes : (rateLimitMinutesOf ⟨path, d.toAttributes⟩).violations = [] ↔ _ :=
    (withDefault_admits number_admits d.lookup_minutes).trans
      (forall_getD_iff (P := fun n => 0 ≤ n.toInt ∧ n.toInt ≤ 5) (by decide))
  have hthreshold : (rateLimitThresholdOf ⟨path, d.toAttributes⟩).violations = [] ↔ _ :=
    (withDefault_admits numeral_admits d.lookup_threshold).trans
      (forall_getD_iff (P := fun n => 0 ≤ n.toInt) (by decide))
  have haction : (actionOf ⟨path, d.toAttributes⟩).violations = [] ↔ _ :=
    required_admits word_admits (lookup_other _ (by decide))
  have hconditions : (Block.blocks ⟨path, d.toAttributes⟩ "match_condition" maxConditions
      Condition.ofBlock).violations = [] ↔ _ :=
    blocks_admits Condition.ofBlock_admits (lookup_other _ (by decide))
  rw [violations_ofBlock, hkeys]
  simp only [List.append_eq_nil_iff, List.nil_append, and_assoc]
  rw [hname, hpriority, henabled, htype, hminutes, hthreshold, haction,
    optional_admits base64_admits d.lookup_body, hconditions]
  constructor
  · rintro ⟨hn, hp, -, -, hm, hth, -, hb, hcount, hc⟩
    exact ⟨hn, hp, hm, hth, hb, hcount, hc⟩
  · rintro ⟨hn, hp, hm, hth, hb, hcount, hc⟩
    exact ⟨hn, hp, trivial, trivial, hm, hth, trivial, hb, hcount, hc⟩

theorem RuleOverride.ofBlock_admits : Block.Admits RuleOverride.ofBlock
    Document.RuleOverride.toAttributes Document.RuleOverride.Importable := by
  intro path d
  obtain ⟨ruleId, state, action⟩ := d
  rw [violations_ofBlock]
  cases action with
  | none =>
      have hmissing : ¬ (⟨ruleId, state, none⟩ : Document.RuleOverride).Importable := by
        rintro ⟨-, _, haction⟩
        cases haction
      refine iff_of_false ?_ hmissing
      simp [Document.RuleOverride.toAttributes, Attributes.entry?, required, List.lookup_cons]
  | some action =>
      rw [List.append_eq_nil_iff, List.append_eq_nil_iff, List.append_eq_nil_iff,
        required_admits text_admits rfl, withDefault_admits truth_admits rfl,
        required_admits word_admits rfl]
      constructor
      · rintro ⟨⟨⟨-, hid⟩, -⟩, -⟩
        exact ⟨hid, action, rfl⟩
      · rintro ⟨hid, -⟩
        exact ⟨⟨⟨rfl, hid⟩, trivial⟩, trivial⟩

theorem GroupOverride.ofBlock_admits : Block.Admits GroupOverride.ofBlock
    Document.GroupOverride.toAttributes Document.GroupOverride.Importable := by
  intro path d
  rw [violations_ofBlock, List.append_eq_nil_iff, List.append_eq_nil_iff,
    required_admits text_admits rfl, blocks_admits RuleOverride.ofBlock_admits rfl]
  constructor
  · rintro ⟨⟨-, hgroup⟩, hcount, hrules⟩
    exact ⟨hgroup, hcount, hrules⟩
  · rintro ⟨hgroup, hcount, hrules⟩
    exact ⟨⟨rfl, hgroup⟩, hcount, hrules⟩

theorem RuleSet.ofBlock_admits : Block.Admits RuleSet.ofBlock
    Document.RuleSet.toAttributes Document.RuleSet.Importable := by
  intro path d
  rw [violations_ofBlock, List.append_eq_nil_iff, List.append_eq_nil_iff, List.append_eq_nil_iff,
    required_admits text_admits rfl, required_admits text_admits rfl,
    blocks_admits GroupOverride.ofBlock_admits rfl]
  constructor
  · rintro ⟨⟨⟨-, htype⟩, hversion⟩, hcount, hoverrides⟩
    exact ⟨htype, hversion, hcount, hoverrides⟩
  · rintro ⟨htype, hversion, hcount, hoverrides⟩
    exact ⟨⟨⟨rfl, htype⟩, hversion⟩, hcount, hoverrides⟩

/-! ### The whole document -/

/-- Rules are read with the names that they have in the document. -/
theorem names_of_blocks {b : Block} {most : Nat} {rs : List Rule} {ds : List Document.Rule}
    (hv : b.entries.lookup "custom_rule" = some (.list (ds.map fun d => .map d.toAttributes)))
    (h : b.blocks "custom_rule" most Rule.ofBlock = .ok rs) :
    (rs.map (·.name)).map some = ds.map (·.name) := by
  have hdocuments : rs.map Rule.toDocument = ds.map (·.normalForm MatchVariable.isKeyed) :=
    blocks_undoes Rule.toDocument_of_ofBlock hv h
  have hnames := congrArg (List.map Document.Rule.name) hdocuments
  rw [List.map_map, List.map_map] at hnames
  rw [List.map_map]
  exact hnames

theorem rulesOf_admits {b : Block} {ds : List Document.Rule}
    (hv : b.entries.lookup "custom_rule" = some (.list (ds.map fun d => .map d.toAttributes))) :
    (rulesOf b).violations = [] ↔
      ds.length ≤ 100 ∧ (ds.map (·.name)).Nodup ∧ ∀ d ∈ ds, d.Importable := by
  have hblocks : (b.blocks "custom_rule" maxRules Rule.ofBlock).violations = [] ↔ _ :=
    blocks_admits Rule.ofBlock_admits hv
  have hnodup : ∀ rs : List Rule, b.blocks "custom_rule" maxRules Rule.ofBlock = .ok rs →
      ((rs.map (·.name)).Nodup ↔ (ds.map (·.name)).Nodup) := by
    intro rs hrs
    rw [← names_of_blocks hv hrs, List.nodup_map_iff fun _ _ => Option.some.inj]
  rw [Checked.violations_eq_nil_iff]
  constructor
  · rintro ⟨rs, hrs⟩
    obtain ⟨hread, hnames⟩ := rulesOf_eq_ok_iff.mp hrs
    obtain ⟨hcount, hrules⟩ := hblocks.mp (Checked.violations_eq_nil_iff.mpr ⟨rs, hread⟩)
    exact ⟨hcount, (hnodup rs hread).mp hnames, hrules⟩
  · rintro ⟨hcount, hnames, hrules⟩
    obtain ⟨rs, hread⟩ := Checked.violations_eq_nil_iff.mp (hblocks.mpr ⟨hcount, hrules⟩)
    exact ⟨rs, rulesOf_eq_ok_iff.mpr ⟨hread, (hnodup rs hread).mpr hnames⟩⟩

/-- The identifiers of links are admitted exactly if there are few of them, and each is filled. -/
theorem endpointIds_admits {b : Block} {links : List EndpointLink}
    (hv : b.entries.lookup "frontend_endpoint_ids" =
      some (.list ((endpointIds links).map .string))) :
    (b.list "frontend_endpoint_ids" 0 maxEndpoints text).violations = [] ↔
      links.countP (·.id.isSome) ≤ 1000 ∧
        ∀ link ∈ links, ∀ id, link.id = some id → IsFilled id := by
  rw [list_admits text_admits hv]
  have hcount : (endpointIds links).length = links.countP (·.id.isSome) :=
    List.length_filterMap_eq_countP
  have hfilled : (∀ id ∈ endpointIds links, IsFilled id) ↔
      ∀ link ∈ links, ∀ id, link.id = some id → IsFilled id := by
    simp only [endpointIds, List.mem_filterMap]
    constructor
    · intro h link hlink id hid
      exact h id ⟨link, hlink, hid⟩
    · rintro h id ⟨link, hlink, hid⟩
      exact h link hlink id hid
  rw [hcount, hfilled]
  exact and_congr_left' (and_iff_right (Nat.zero_le _))

/-- Nothing is wrong with the attributes of an importable document, and only with its. -/
theorem violations_ofBlock_eq_nil_iff {d : Document} {properties : Properties}
    {settings : Document.Settings} {mode : PolicyMode} {name group : String} {path : Path}
    (hproperties : d.properties = some properties) (hsettings : properties.settings = some settings)
    (hname : IsFilled name) (hgroup : IsFilled group) :
    (ofBlock ⟨path, d.attributesIn mode name group⟩).violations = [] ↔ properties.Importable := by
  have lookup_other : ∀ key, key ∉ optionalKeys →
      (d.attributesIn mode name group).lookup key = _ :=
    fun _ => lookup_attributesIn_other hproperties hsettings
  rw [violations_ofBlock]
  simp only [List.append_eq_nil_iff, and_assoc]
  rw [required_admits text_admits (lookup_other "name" (by decide)),
    required_admits text_admits (lookup_other "resource_group_name" (by decide)),
    withDefault_admits truth_admits (lookup_other "enabled" (by decide)),
    required_admits word_admits (lookup_other "mode" (by decide)),
    optional_admits text_admits (lookup_attributesIn_redirectUrl hproperties hsettings),
    optional_admits statusCode_admits (lookup_attributesIn_statusCode hproperties hsettings),
    optional_admits base64_admits (lookup_attributesIn_body hproperties hsettings),
    rulesOf_admits (lookup_other "custom_rule" (by decide)),
    blocks_admits RuleSet.ofBlock_admits (lookup_other "managed_rule" (by decide)),
    endpointIds_admits (lookup_other "frontend_endpoint_ids" (by decide)),
    withDefault_admits tagsOf_admits (lookup_other "tags" (by decide))]
  constructor
  · rintro ⟨-, -, -, -, hurl, hcode, hbody, ⟨hruleCount, hnames, hrules⟩, ⟨hsetCount, hsets⟩,
      ⟨hlinkCount, hlinks⟩, -⟩
    refine ⟨fun s hs => ?_, hruleCount, hnames, hrules, hsetCount, hsets, hlinkCount, hlinks⟩
    obtain rfl := Option.some.inj (hsettings.symm.trans hs)
    exact ⟨hurl, hcode, hbody⟩
  · rintro ⟨hset, hruleCount, hnames, hrules, hsetCount, hsets, hlinkCount, hlinks⟩
    obtain ⟨hurl, hcode, hbody⟩ := hset settings hsettings
    exact ⟨hname, hgroup, trivial, trivial, hurl, hcode, hbody, ⟨hruleCount, hnames, hrules⟩,
      ⟨hsetCount, hsets⟩, ⟨hlinkCount, hlinks⟩, trivial⟩

/-- The attributes of a document with a mode are those of a policy exactly if the document is
importable. -/
theorem exists_ofAttributes_iff_importable {d : Document} {mode : PolicyMode} {name group : String}
    (hmode : d.mode? = some mode) (hname : IsFilled name) (hgroup : IsFilled group) :
    (∃ m, d.toAttributes name group = .ok m ∧ ∃ p, ofAttributes m = .ok p) ↔ d.Importable := by
  obtain ⟨settings, hsettings, -⟩ := Option.bind_eq_some_iff.mp hmode
  obtain ⟨properties, hproperties, hgiven⟩ := Option.bind_eq_some_iff.mp hsettings
  have hm : d.toAttributes name group = .ok (d.attributesIn mode name group) := by
    rw [Document.toAttributes, hmode]
  have hread : (∃ p, ofAttributes (d.attributesIn mode name group) = .ok p) ↔
      properties.Importable := by
    rw [exists_ofAttributes_iff]
    exact violations_ofBlock_eq_nil_iff hproperties hgiven hname hgroup
  constructor
  · rintro ⟨m, hm', hp⟩ p' hp'
    obtain rfl := Except.ok.inj (hm.symm.trans hm')
    obtain rfl := Option.some.inj (hproperties.symm.trans hp')
    exact hread.mp hp
  · intro himportable
    exact ⟨_, hm, hread.mpr (himportable properties hproperties)⟩

theorem exists_ofAttributes_iff_importable_body_selector :
    bodySelectorDocument.mode? = some .detection ∧ IsFilled "edge" ∧ IsFilled "web" ∧
      (∃ m, bodySelectorDocument.toAttributes "edge" "web" = .ok m ∧ ∃ p, ofAttributes m = .ok p) ∧
      bodySelectorDocument.Importable := by
  have hmode : bodySelectorDocument.mode? = some .detection := rfl
  have hname : IsFilled "edge" := rfl
  have hgroup : IsFilled "web" := rfl
  have hvalid : (ofAttributes
      (bodySelectorDocument.attributesIn .detection "edge" "web")).isOk = true := by
    decide +kernel
  have hread : ∃ m, bodySelectorDocument.toAttributes "edge" "web" = .ok m ∧
      ∃ p, ofAttributes m = .ok p := ⟨_, rfl, exists_of_isOk hvalid⟩
  have himportable := (exists_ofAttributes_iff_importable hmode hname hgroup).mp hread
  exact ⟨hmode, hname, hgroup, hread, himportable⟩

end Policy

end EdgeFirewall
