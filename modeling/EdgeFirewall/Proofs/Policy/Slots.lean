import EdgeFirewall.Policy.Document
import EdgeFirewall.Proofs.Policy.Canonical

/-! # The canonical form of policies

Each block of a policy by its slots, in the order of their keys: which entries are words, and what
stands where an entry is absent. For each block, what is read from it, written as a document and
then as attributes, is its canonical form, and that is read as the same again
(`Condition.ofBlock_canonical` up to `ofBlock_canonical`). -/

namespace EdgeFirewall.Policy

open Reading Slot Document

/-! ### The slots of each block -/

def Condition.slots : List (Slot Form) := [
  { key := "condition", form := .word, default := some (.string "Is") },
  { key := "match_value", form := .items .plain },
  { key := "match_variable", form := .word },
  { key := "operator", form := .word },
  { key := "selector", form := .word },
  { key := "transforms", form := .items .word, default := some (.list []) }]

def Rule.slots : List (Slot Form) := [
  { key := "action", form := .word },
  { key := "custom_block_response_body", form := .plain },
  { key := "enabled", form := .plain, default := some (.bool true) },
  { key := "match_condition", form := .items (.block Condition.slots),
    default := some (.list []) },
  { key := "name", form := .plain },
  { key := "priority", form := .plain, default := some (.int 1) },
  { key := "rate_limit_duration_in_minutes", form := .plain, default := some (.int 1) },
  { key := "rate_limit_threshold", form := .plain, default := some (.int 10) },
  { key := "rule_type", form := .word }]

def RuleOverride.slots : List (Slot Form) := [
  { key := "action", form := .word },
  { key := "enabled", form := .plain, default := some (.bool false) },
  { key := "rule_id", form := .plain }]

def GroupOverride.slots : List (Slot Form) := [
  { key := "rule", form := .items (.block RuleOverride.slots), default := some (.list []) },
  { key := "rule_group_name", form := .plain }]

def RuleSet.slots : List (Slot Form) := [
  { key := "override", form := .items (.block GroupOverride.slots), default := some (.list []) },
  { key := "type", form := .plain },
  { key := "version", form := .plain }]

def slots : List (Slot Form) := [
  { key := "custom_block_response_body", form := .plain },
  { key := "custom_block_response_status_code", form := .plain },
  { key := "custom_rule", form := .items (.block Rule.slots), default := some (.list []) },
  { key := "enabled", form := .plain, default := some (.bool true) },
  { key := "frontend_endpoint_ids", form := .items .plain, default := some (.list []) },
  { key := "managed_rule", form := .items (.block RuleSet.slots), default := some (.list []) },
  { key := "mode", form := .word },
  { key := "name", form := .plain },
  { key := "redirect_url", form := .plain },
  { key := "resource_group_name", form := .plain },
  { key := "tags", form := .table, default := some (.map []) }]

/-- The canonical form of an attribute map of a policy. -/
def canonical (a : Attributes) : Attributes :=
  Form.fill slots a

/-- Whether an attribute map of a policy is written canonically. -/
def IsCanonical (a : Attributes) : Prop :=
  (Form.block slots).IsCanonical (.map a)

/-! ### Conditions -/

theorem toAttributes_toDocument_whole {c : Condition} {v : MatchVariable}
    (h : c.target = .whole v) : c.toDocument.toAttributes =
      [("condition", wordValue c.modifier), ("match_value", .list (c.values.map .string)),
        ("match_variable", wordValue v), ("operator", wordValue c.operator),
        ("transforms", .list (c.transforms.map wordValue))] := by
  simp [Document.Condition.toAttributes, Condition.toDocument, h, Target.matchVariable,
    Document.Condition.ownSelector?, Document.Condition.effectiveModifier, Attributes.entry?]

theorem toAttributes_toDocument_keyed {c : Condition} {s : SelectorVariable}
    (h : c.target = .keyed s) : c.toDocument.toAttributes =
      [("condition", wordValue c.modifier), ("match_value", .list (c.values.map .string)),
        ("operator", wordValue c.operator), ("selector", wordValue s),
        ("transforms", .list (c.transforms.map wordValue))] := by
  have hs : Vocabulary.ofSpelling? s.spelling = some s := Vocabulary.ofSpelling?_spelling s
  simp [Document.Condition.toAttributes, Condition.toDocument, h, Target.matchVariable, hs,
    Document.Condition.ownSelector?, Document.Condition.effectiveModifier, Attributes.entry?,
    Option.filter]

namespace Condition

theorem reads_modifier : Reads ⟨"condition", .word, some (.string "Is")⟩
    (·.withDefault "condition" ConditionModifier.is word) fun m => some (wordValue m) :=
  reads_withDefault word_canonical ConditionModifier.is fun path => word_wordValue path _

theorem fill_slots {b : Block} {c : Condition} (h : ofBlock b = .ok c) :
    Form.fill slots b.entries = c.toDocument.toAttributes := by
  obtain ⟨-, htarget, hoperator, hmodifier, hvalues, htransforms⟩ := ofBlock_eq_ok_iff.mp h
  have hop := (reads_required word_canonical).value hoperator
  have hmod := reads_modifier.value hmodifier
  have hval := (reads_nonEmptyList text_canonical (by decide) _).value hvalues
  have htr := (reads_list word_canonical _).value htransforms
  rw [Target.ofBlock_eq_ok_iff] at htarget
  cases ht : c.target with
  | whole v =>
      rw [ht] at htarget
      have hvar := (reads_required word_canonical).value htarget.1
      have hsel : value? ⟨"selector", .word, none⟩ b.entries = none := value?_of_none htarget.2
      rw [toAttributes_toDocument_whole ht]
      simp only [slots, Form.fill_cons, Form.fill_nil, hmod, hval, hvar, hop, hsel, htr]
      rfl
  | keyed s =>
      rw [ht] at htarget
      have hsel := (reads_required word_canonical).value htarget.1
      have hvar : value? ⟨"match_variable", .word, none⟩ b.entries = none :=
        value?_of_none htarget.2
      rw [toAttributes_toDocument_keyed ht]
      simp only [slots, Form.fill_cons, Form.fill_nil, hmod, hval, hvar, hop, hsel, htr]
      rfl

/-- Both targets are read again: the slot of the other one stays empty. -/
theorem target_fill {b : Block} {t : Target} (h : Target.ofBlock b = .ok t) (path : Path) :
    Target.ofBlock ⟨path, Form.fill slots b.entries⟩ = .ok t := by
  have hd : (slots.map (·.key)).Nodup := by decide
  rw [Target.ofBlock_eq_ok_iff] at h ⊢
  cases t with
  | whole v =>
      refine ⟨(reads_required word_canonical).fill (by simp [slots]) hd h.1 path, ?_⟩
      rw [Form.lookup_fill (s := ⟨"selector", .word, none⟩) (by simp [slots]) hd]
      exact value?_of_none h.2
  | keyed s =>
      refine ⟨(reads_required word_canonical).fill (by simp [slots]) hd h.1 path, ?_⟩
      rw [Form.lookup_fill (s := ⟨"match_variable", .word, none⟩) (by simp [slots]) hd]
      exact value?_of_none h.2

theorem ofBlock_canonical :
    Block.Canonical ofBlock slots fun c => c.toDocument.toAttributes := by
  refine ⟨fill_slots, fun {b c} h path => ?_⟩
  rw [← fill_slots h]
  obtain ⟨-, htarget, hoperator, hmodifier, hvalues, htransforms⟩ := ofBlock_eq_ok_iff.mp h
  have hd : (slots.map (·.key)).Nodup := by decide
  exact ofBlock_eq_ok_iff.mpr ⟨Block.unknownEntries_fill (by decide) _ _,
    target_fill htarget path,
    (reads_required word_canonical).fill (by simp [slots]) hd hoperator path,
    reads_modifier.fill (by simp [slots]) hd hmodifier path,
    (reads_nonEmptyList text_canonical (by decide) _).fill (by simp [slots]) hd hvalues path,
    (reads_list word_canonical _).fill (by simp [slots]) hd htransforms path⟩

end Condition

/-! ### Custom rules -/

namespace Rule

theorem toAttributes_toDocument (r : Rule) : r.toDocument.toAttributes =
    [("action", wordValue r.action)] ++
    Attributes.entry? "custom_block_response_body" .string r.blockBody ++
    [("enabled", .bool r.enabled),
      ("match_condition", .list (r.conditions.map fun c => .map c.toDocument.toAttributes)),
      ("name", .string r.name), ("priority", numberValue r.priority),
      ("rate_limit_duration_in_minutes", numberValue r.rateLimitMinutes),
      ("rate_limit_threshold", numberValue r.rateLimitThreshold),
      ("rule_type", wordValue r.ruleType)] := by
  simp [Document.Rule.toAttributes, toDocument, enabledValue, numberValue, Function.comp_def]

theorem reads_enabled : Reads ⟨"enabled", .plain, some (.bool true)⟩
    (·.withDefault "enabled" true truth) fun b => some (.bool b) :=
  reads_withDefault truth_canonical _ fun _ => rfl

theorem reads_priority : Reads ⟨"priority", .plain, some (.int 1)⟩ priorityOf
    fun n => some (numberValue n) :=
  reads_numberWithDefault (d := defaultPriority) (by decide) (by decide)

theorem reads_rateLimitMinutes :
    Reads ⟨"rate_limit_duration_in_minutes", .plain, some (.int 1)⟩ rateLimitMinutesOf
      fun n => some (numberValue n) :=
  reads_numberWithDefault (d := defaultRateLimitMinutes) (by decide) (by decide)

theorem reads_rateLimitThreshold :
    Reads ⟨"rate_limit_threshold", .plain, some (.int 10)⟩ rateLimitThresholdOf
      fun n => some (numberValue n) :=
  reads_numberWithDefault (d := defaultRateLimitThreshold) (by decide) (by decide)

theorem fill_slots {b : Block} {r : Rule} (h : ofBlock b = .ok r) :
    Form.fill slots b.entries = r.toDocument.toAttributes := by
  obtain ⟨-, hname, hpriority, henabled, htype, hminutes, hthreshold, haction, hbody,
    hconditions⟩ := ofBlock_eq_ok_iff.mp h
  have h1 := (reads_required word_canonical).value haction
  have h2 := (reads_optional (text_canonical.suchThat _ _)).value hbody
  have h3 := reads_enabled.value henabled
  have h4 := (reads_blocks Condition.ofBlock_canonical _).value hconditions
  have h5 := (reads_required text_canonical).value hname
  have h6 := reads_priority.value hpriority
  have h7 := reads_rateLimitMinutes.value hminutes
  have h8 := reads_rateLimitThreshold.value hthreshold
  have h9 := (reads_required word_canonical).value htype
  simp only [slots, Form.fill_cons, Form.fill_nil, h1, h2, h3, h4, h5, h6, h7, h8, h9,
    toAttributes_toDocument]
  cases r.blockBody <;> rfl

theorem ofBlock_canonical :
    Block.Canonical ofBlock slots fun r => r.toDocument.toAttributes := by
  refine ⟨fill_slots, fun {b r} h path => ?_⟩
  rw [← fill_slots h]
  obtain ⟨-, hname, hpriority, henabled, htype, hminutes, hthreshold, haction, hbody,
    hconditions⟩ := ofBlock_eq_ok_iff.mp h
  have hd : (slots.map (·.key)).Nodup := by decide
  exact ofBlock_eq_ok_iff.mpr ⟨Block.unknownEntries_fill (by decide) _ _,
    (reads_required text_canonical).fill (by simp [slots]) hd hname path,
    reads_priority.fill (by simp [slots]) hd hpriority path,
    reads_enabled.fill (by simp [slots]) hd henabled path,
    (reads_required word_canonical).fill (by simp [slots]) hd htype path,
    reads_rateLimitMinutes.fill (by simp [slots]) hd hminutes path,
    reads_rateLimitThreshold.fill (by simp [slots]) hd hthreshold path,
    (reads_required word_canonical).fill (by simp [slots]) hd haction path,
    (reads_optional (text_canonical.suchThat _ _)).fill (by simp [slots]) hd hbody path,
    (reads_blocks Condition.ofBlock_canonical _).fill (by simp [slots]) hd hconditions path⟩

end Rule

/-! ### Managed rules -/

namespace RuleOverride

theorem reads_enabled : Reads ⟨"enabled", .plain, some (.bool false)⟩
    (·.withDefault "enabled" false truth) fun b => some (.bool b) :=
  reads_withDefault truth_canonical _ fun _ => rfl

theorem fill_slots {b : Block} {r : RuleOverride} (h : ofBlock b = .ok r) :
    Form.fill slots b.entries = r.toDocument.toAttributes := by
  obtain ⟨-, hid, henabled, haction⟩ := ofBlock_eq_ok_iff.mp h
  have h1 := (reads_required word_canonical).value haction
  have h2 := reads_enabled.value henabled
  have h3 := (reads_required text_canonical).value hid
  simp only [slots, Form.fill_cons, Form.fill_nil, h1, h2, h3]
  cases r with
  | mk ruleId enabled action => cases enabled <;> rfl

theorem ofBlock_canonical :
    Block.Canonical ofBlock slots fun r => r.toDocument.toAttributes := by
  refine ⟨fill_slots, fun {b r} h path => ?_⟩
  rw [← fill_slots h]
  obtain ⟨-, hid, henabled, haction⟩ := ofBlock_eq_ok_iff.mp h
  have hd : (slots.map (·.key)).Nodup := by decide
  exact ofBlock_eq_ok_iff.mpr ⟨Block.unknownEntries_fill (by decide) _ _,
    (reads_required text_canonical).fill (by simp [slots]) hd hid path,
    reads_enabled.fill (by simp [slots]) hd henabled path,
    (reads_required word_canonical).fill (by simp [slots]) hd haction path⟩

end RuleOverride

namespace GroupOverride

theorem toAttributes_toDocument (g : GroupOverride) : g.toDocument.toAttributes =
    [("rule", .list (g.rules.map fun r => .map r.toDocument.toAttributes)),
      ("rule_group_name", .string g.group)] := by
  simp [Document.GroupOverride.toAttributes, toDocument, Function.comp_def]

theorem fill_slots {b : Block} {g : GroupOverride} (h : ofBlock b = .ok g) :
    Form.fill slots b.entries = g.toDocument.toAttributes := by
  obtain ⟨-, hgroup, hrules⟩ := ofBlock_eq_ok_iff.mp h
  have h1 := (reads_blocks RuleOverride.ofBlock_canonical _).value hrules
  have h2 := (reads_required text_canonical).value hgroup
  rw [toAttributes_toDocument]
  simp only [slots, Form.fill_cons, Form.fill_nil, h1, h2]
  rfl

theorem ofBlock_canonical :
    Block.Canonical ofBlock slots fun g => g.toDocument.toAttributes := by
  refine ⟨fill_slots, fun {b g} h path => ?_⟩
  rw [← fill_slots h]
  obtain ⟨-, hgroup, hrules⟩ := ofBlock_eq_ok_iff.mp h
  have hd : (slots.map (·.key)).Nodup := by decide
  exact ofBlock_eq_ok_iff.mpr ⟨Block.unknownEntries_fill (by decide) _ _,
    (reads_required text_canonical).fill (by simp [slots]) hd hgroup path,
    (reads_blocks RuleOverride.ofBlock_canonical _).fill (by simp [slots]) hd hrules path⟩

end GroupOverride

/-- A list that is left out when it is empty is empty when it is absent. -/
@[simp] theorem getD_nonEmpty? {α : Type} (as : List α) : (nonEmpty? as).getD [] = as := by
  cases as <;> rfl

namespace RuleSet

theorem toAttributes_toDocument (s : RuleSet) : s.toDocument.toAttributes =
    [("override", .list (s.overrides.map fun g => .map g.toDocument.toAttributes)),
      ("type", .string s.type), ("version", .string s.version)] := by
  simp [Document.RuleSet.toAttributes, toDocument, Function.comp_def]

theorem fill_slots {b : Block} {s : RuleSet} (h : ofBlock b = .ok s) :
    Form.fill slots b.entries = s.toDocument.toAttributes := by
  obtain ⟨-, htype, hversion, hoverrides⟩ := ofBlock_eq_ok_iff.mp h
  have h1 := (reads_blocks GroupOverride.ofBlock_canonical _).value hoverrides
  have h2 := (reads_required text_canonical).value htype
  have h3 := (reads_required text_canonical).value hversion
  rw [toAttributes_toDocument]
  simp only [slots, Form.fill_cons, Form.fill_nil, h1, h2, h3]
  rfl

theorem ofBlock_canonical :
    Block.Canonical ofBlock slots fun s => s.toDocument.toAttributes := by
  refine ⟨fill_slots, fun {b s} h path => ?_⟩
  rw [← fill_slots h]
  obtain ⟨-, htype, hversion, hoverrides⟩ := ofBlock_eq_ok_iff.mp h
  have hd : (slots.map (·.key)).Nodup := by decide
  exact ofBlock_eq_ok_iff.mpr ⟨Block.unknownEntries_fill (by decide) _ _,
    (reads_required text_canonical).fill (by simp [slots]) hd htype path,
    (reads_required text_canonical).fill (by simp [slots]) hd hversion path,
    (reads_blocks GroupOverride.ofBlock_canonical _).fill (by simp [slots]) hd hoverrides path⟩

end RuleSet

/-! ### Tags -/

/-- Putting a tag in its place is binding its name. -/
theorem map_place (name text : String) (es : List (String × String)) :
    (Tags.place name text es).map (fun e => (e.1, Value.string e.2)) =
      Attributes.set name (.string text) (es.map fun e => (e.1, .string e.2)) := by
  induction es with
  | nil => rfl
  | cons e rest ih =>
      unfold Tags.place
      simp only [List.map_cons, Attributes.set]
      split
      · rfl
      · split
        · rw [List.map_cons, ih]
        · rfl

theorem tagAttributes_ofList (es : List (String × String)) :
    tagAttributes (Tags.ofList es) = Attributes.ofList (es.map fun e => (e.1, .string e.2)) := by
  suffices h : ∀ t : Tags, tagAttributes (es.foldl (fun t e => t.insert e.1 e.2) t) =
      (es.map fun e => (e.1, Value.string e.2)).foldl (fun a e => Attributes.set e.1 e.2 a)
        (tagAttributes t) from h .empty
  induction es with
  | nil => exact fun _ => rfl
  | cons e rest ih =>
      intro t
      rw [List.foldl_cons, ih, List.map_cons, List.foldl_cons]
      congr 1
      exact map_place e.1 e.2 t.entries

theorem tagsOf_eq_ok_iff {path : Path} {v : Value} {t : Tags} :
    tagsOf path v = .ok t ↔ ∃ es : List (String × String),
      v = .map (es.map fun e => (e.1, .string e.2)) ∧ Tags.ofList es = t := by
  cases v with
  | map entries =>
      rw [tagsOf, Checked.map_eq_ok_iff]
      refine exists_congr fun es => and_congr ?_ Iff.rfl
      rw [Value.map.injEq]
      induction entries generalizing es with
      | nil => simp [Checked.collect_nil_eq_ok_iff]
      | cons d rest ih =>
          rw [Checked.collect_cons_eq_ok_iff, eq_comm (b := es.map _), List.map_eq_cons_iff]
          refine exists_congr fun e => exists_congr fun tail => ?_
          rw [ih]
          constructor
          · rintro ⟨he, hrest, rfl⟩
            obtain ⟨key, value⟩ := d
            cases value with
            | string s =>
                obtain rfl := Checked.ok_inj.mp he
                exact ⟨rfl, rfl, hrest.symm⟩
            | _ => simp [tagOf] at he
          · rintro ⟨rfl, rfl, hrest⟩
            exact ⟨rfl, hrest.symm, rfl⟩
  | _ => simp [tagsOf]

theorem tagsOf_canonical : Reading.Canonical tagsOf .table fun t => .map (tagAttributes t) := by
  constructor
  · intro path v t h
    obtain ⟨es, rfl, rfl⟩ := tagsOf_eq_ok_iff.mp h
    rw [Form.canon_table, tagAttributes_ofList]
  · intro path v t _ path'
    exact tagsOf_eq_ok_iff.mpr ⟨t.entries, rfl, Tags.ofList_entries t⟩

/-! ### Policies -/

theorem mode?_toDocument (p : Policy) : p.toDocument.mode? = some p.mode := rfl

theorem attributesIn_toDocument (p : Policy) (mode : PolicyMode) (name group : String) :
    p.toDocument.attributesIn mode name group =
      Attributes.entry? "custom_block_response_body" .string p.blockBody ++
      Attributes.entry? "custom_block_response_status_code" numberValue p.blockStatusCode ++
      [("custom_rule", .list (p.rules.map fun r => .map r.toDocument.toAttributes)),
        ("enabled", .bool p.enabled),
        ("frontend_endpoint_ids", .list (p.endpoints.map .string)),
        ("managed_rule", .list (p.ruleSets.map fun s => .map s.toDocument.toAttributes)),
        ("mode", wordValue mode), ("name", .string name)] ++
      Attributes.entry? "redirect_url" .string p.redirectUrl ++
      [("resource_group_name", .string group), ("tags", .map (tagAttributes p.tags))] := by
  have hlinks : Document.endpointIds (p.endpoints.map fun id => ⟨some id⟩) = p.endpoints := by
    rw [Document.endpointIds, List.filterMap_map]
    exact List.filterMap_some
  have hrules : (((nonEmpty? (p.rules.map Rule.toDocument)).map fun rules =>
      (⟨some rules⟩ : Document.RuleList)).bind Document.RuleList.rules).getD [] =
        p.rules.map Rule.toDocument := by
    cases p.rules <;> rfl
  have hsets : (((nonEmpty? (p.ruleSets.map RuleSet.toDocument)).map fun sets =>
      (⟨some sets⟩ : Document.RuleSetList)).bind Document.RuleSetList.ruleSets).getD [] =
        p.ruleSets.map RuleSet.toDocument := by
    cases p.ruleSets <;> rfl
  have henabled : Document.enabledValue true (some (.ofBool p.enabled)) = .bool p.enabled := by
    cases p.enabled <;> rfl
  simp only [Document.attributesIn, toDocument, settings, Option.getD_some, hlinks, hrules, hsets,
    henabled, List.map_map, Function.comp_def]

theorem reads_rules : Reads ⟨"custom_rule", .items (.block Rule.slots), some (.list [])⟩ rulesOf
    fun rs => some (.list (rs.map fun r => .map r.toDocument.toAttributes)) := by
  have hrules : Reads ⟨"custom_rule", .items (.block Rule.slots), some (.list [])⟩
      (·.blocks "custom_rule" maxRules Rule.ofBlock) _ :=
    reads_blocks Rule.ofBlock_canonical maxRules
  constructor
  · intro b rs h
    exact hrules.value (rulesOf_eq_ok_iff.mp h).1
  · intro b rs h b' hb'
    obtain ⟨hread, hnames⟩ := rulesOf_eq_ok_iff.mp h
    exact rulesOf_eq_ok_iff.mpr ⟨hrules.reread hread b' hb', hnames⟩

theorem reads_tags : Reads ⟨"tags", .table, some (.map [])⟩
    (·.withDefault "tags" .empty tagsOf) fun t => some (.map (tagAttributes t)) :=
  reads_withDefault tagsOf_canonical Tags.empty fun _ => rfl

theorem reads_statusCode : Reads ⟨"custom_block_response_status_code", .plain, none⟩
    (·.optional "custom_block_response_status_code" statusCode) (Option.map numberValue) :=
  reads_optional ((number_canonical _ _).suchThat _ _)

theorem canonical_eq_of_ofBlock {b : Block} {p : Policy} (h : ofBlock b = .ok p) :
    canonical b.entries = p.toDocument.attributesIn p.mode p.name p.resourceGroup := by
  obtain ⟨hname, hgroup, henabled, hmode, hredirect, hcode, hbody, hrules, hsets, hendpoints,
    htags⟩ := ofBlock_eq_ok_iff.mp h
  have h1 := (reads_optional (text_canonical.suchThat _ _)).value hbody
  have h2 := reads_statusCode.value hcode
  have h3 := reads_rules.value hrules
  have h4 := Rule.reads_enabled.value henabled
  have h5 := (reads_list text_canonical _).value hendpoints
  have h6 := (reads_blocks RuleSet.ofBlock_canonical _).value hsets
  have h7 := (reads_required word_canonical).value hmode
  have h8 := (reads_required text_canonical).value hname
  have h9 := (reads_optional text_canonical).value hredirect
  have h10 := (reads_required text_canonical).value hgroup
  have h11 := reads_tags.value htags
  rw [attributesIn_toDocument]
  simp only [canonical, slots, Form.fill_cons, Form.fill_nil, h1, h2, h3, h4, h5, h6, h7, h8, h9,
    h10, h11]
  cases p.blockBody <;> cases p.blockStatusCode <;> cases p.redirectUrl <;> rfl

theorem ofBlock_canonical {b : Block} {p : Policy} (h : ofBlock b = .ok p) (path : Path) :
    ofBlock ⟨path, canonical b.entries⟩ = .ok p := by
  obtain ⟨hname, hgroup, henabled, hmode, hredirect, hcode, hbody, hrules, hsets, hendpoints,
    htags⟩ := ofBlock_eq_ok_iff.mp h
  have hd : (slots.map (·.key)).Nodup := by decide
  exact ofBlock_eq_ok_iff.mpr ⟨
    (reads_required text_canonical).fill (by simp [slots]) hd hname path,
    (reads_required text_canonical).fill (by simp [slots]) hd hgroup path,
    Rule.reads_enabled.fill (by simp [slots]) hd henabled path,
    (reads_required word_canonical).fill (by simp [slots]) hd hmode path,
    (reads_optional text_canonical).fill (by simp [slots]) hd hredirect path,
    reads_statusCode.fill (by simp [slots]) hd hcode path,
    (reads_optional (text_canonical.suchThat _ _)).fill (by simp [slots]) hd hbody path,
    reads_rules.fill (by simp [slots]) hd hrules path,
    (reads_blocks RuleSet.ofBlock_canonical _).fill (by simp [slots]) hd hsets path,
    (reads_list text_canonical _).fill (by simp [slots]) hd hendpoints path,
    reads_tags.fill (by simp [slots]) hd htags path⟩

end EdgeFirewall.Policy
