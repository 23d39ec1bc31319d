import EdgeFirewall.Policy.Block

/-! # Policies from attributes

`Policy.ofAttributes` reads a declared policy from an attribute map. It checks every constraint
and reports every violation: those of one map in the order of its attributes, those of a list
before those of its items. Reading goes on after a violation -- an item that cannot be read is left
out, and a default may stand in for a value -- but what is read then does not count. Keys that the
outermost map has beyond the known ones are the host's affair; in nested blocks they are
violations. -/

namespace EdgeFirewall.Policy

open Reading

/-! ### Conditions -/

/-- Reads what a condition inspects: exactly one of a variable and a selector. -/
def Target.ofBlock (b : Block) : Checked Target :=
  match b.entries.lookup "match_variable", b.entries.lookup "selector" with
  | some v, none => .whole <$> word (b.entryPath "match_variable") v
  | none, some s => .keyed <$> word (b.entryPath "selector") s
  | some v, some s =>
    (word (b.entryPath "match_variable") v : Checked MatchVariable) *>
      ((word (b.entryPath "selector") s : Checked SelectorVariable) *> .fail b.path .twoTargets)
  | none, none => .fail b.path .noTarget

/-- The keys of a condition. -/
def Condition.keys : List String :=
  ["match_variable", "selector", "operator", "condition", "match_value", "transforms"]

/-- Reads a condition. -/
def Condition.ofBlock (b : Block) : Checked Condition :=
  Checked.ofViolations (b.unknownEntries keys) *>
    (Condition.mk
      <$> Target.ofBlock b
      <*> b.required "operator" word
      <*> b.withDefault "condition" .is word
      <*> b.list "match_value" 1 maxValues text
      <*> b.list "transforms" 0 maxTransforms word)

/-! ### Custom rules -/

namespace Rule

/-- The keys of a custom rule. -/
def keys : List String :=
  ["name", "priority", "enabled", "rule_type", "rate_limit_duration_in_minutes",
    "rate_limit_threshold", "action", "custom_block_response_body", "match_condition"]

/-- Reads the name of a rule. -/
def nameOf (b : Block) : Checked String :=
  b.required "name" text

/-- Reads the priority of a rule. -/
def priorityOf (b : Block) : Checked Int32 :=
  b.withDefault "priority" (Int32.ofInt defaultPriority) (number 0 maxNumber)

/-- Reads the type of a rule. -/
def ruleTypeOf (b : Block) : Checked RuleType :=
  b.required "rule_type" word

/-- Reads the time over which a rule counts requests. -/
def rateLimitMinutesOf (b : Block) : Checked Int32 :=
  b.withDefault "rate_limit_duration_in_minutes" (Int32.ofInt defaultRateLimitMinutes)
    (number 0 maxRateLimitMinutes)

/-- Reads the number of requests above which a rule acts. -/
def rateLimitThresholdOf (b : Block) : Checked Int32 :=
  b.withDefault "rate_limit_threshold" (Int32.ofInt defaultRateLimitThreshold)
    (number 0 maxNumber)

/-- Reads the action of a rule. -/
def actionOf (b : Block) : Checked ActionType :=
  b.required "action" word

/-- Reads a custom rule. -/
def ofBlock (b : Block) : Checked Rule :=
  Checked.ofViolations (b.unknownEntries keys) *>
    (Rule.mk
      <$> nameOf b
      <*> priorityOf b
      <*> b.readOr "enabled" true truth
      <*> ruleTypeOf b
      <*> rateLimitMinutesOf b
      <*> rateLimitThresholdOf b
      <*> actionOf b
      <*> b.optional "custom_block_response_body" base64
      <*> b.blocks "match_condition" maxConditions Condition.ofBlock)

/-- One violation for each rule that is read, in spite of violations or without, and whose name is
among the seen ones or that of an earlier such rule. -/
def repeatedNames (seen : List String) : List Block → List Violation
  | [] => []
  | b :: rest =>
    match (ofBlock b).value? with
    | none => repeatedNames seen rest
    | some r =>
      if seen.contains r.name then
        ⟨b.entryPath "name", .duplicateRule r.name⟩ :: repeatedNames seen rest
      else repeatedNames (r.name :: seen) rest

end Rule

/-! ### Managed rules -/

/-- Reads a changed rule. -/
def RuleOverride.ofBlock (b : Block) : Checked RuleOverride :=
  Checked.ofViolations (b.unknownEntries ["rule_id", "enabled", "action"]) *>
    (RuleOverride.mk
      <$> b.required "rule_id" text
      <*> b.readOr "enabled" false truth
      <*> b.required "action" word)

/-- Reads the changed rules of a group. -/
def GroupOverride.ofBlock (b : Block) : Checked GroupOverride :=
  Checked.ofViolations (b.unknownEntries ["rule_group_name", "rule"]) *>
    (GroupOverride.mk
      <$> b.required "rule_group_name" text
      <*> b.blocks "rule" maxRuleOverrides RuleOverride.ofBlock)

/-- Reads a managed rule set. -/
def RuleSet.ofBlock (b : Block) : Checked RuleSet :=
  Checked.ofViolations (b.unknownEntries ["type", "version", "override"]) *>
    (RuleSet.mk
      <$> b.required "type" text
      <*> b.required "version" text
      <*> b.blocks "override" maxGroupOverrides GroupOverride.ofBlock)

/-! ### Policies -/

/-- Reads a status code for blocked requests. -/
def statusCode : Reading Int32 :=
  (number 0 maxNumber).suchThat (fun n => blockStatusCodes.contains n.toInt)
    fun n => .badStatusCode n.toInt

/-- Reads a tag of the tags at a path. -/
def tagOf (path : Path) : String × Value → Checked (String × String)
  | (k, .string s) => .ok (k, s)
  | (k, v) => .fail (path ++ [.key k]) (.wrongKind .string v.kind)

/-- Reads tags; those that are no texts are left out. -/
def tagsOf : Reading Tags
  | path, .map entries => Tags.ofList <$> Checked.collect (tagOf path) entries
  | path, v => .fail path (.wrongKind .map v.kind)

/-- Reads a policy from the outermost block. -/
def ofBlock (b : Block) : Checked Policy :=
  Policy.mk
    <$> b.required "name" text
    <*> b.required "resource_group_name" text
    <*> b.readOr "enabled" true truth
    <*> b.required "mode" word
    <*> b.optional "redirect_url" text
    <*> b.optional "custom_block_response_status_code" statusCode
    <*> b.optional "custom_block_response_body" base64
    <*> (b.blocks "custom_rule" maxRules Rule.ofBlock <*
      Checked.ofViolations (Rule.repeatedNames [] (b.nested "custom_rule")))
    <*> b.blocks "managed_rule" maxRuleSets RuleSet.ofBlock
    <*> b.list "frontend_endpoint_ids" 0 maxEndpoints text
    <*> b.readOr "tags" .empty tagsOf

/-- Reads a policy from an attribute map, or gives all the violations. -/
def ofAttributes (a : Attributes) : Except (List Violation) Policy :=
  (ofBlock ⟨[], a⟩).conclude

/-! ### Nothing is missing without a violation -/

instance (path : Path) (v : Value) : (number 0 maxNumber path v).IsExplained :=
  number_isExplained path v (by decide) (by decide)

instance (path : Path) (v : Value) : (number 0 maxRateLimitMinutes path v).IsExplained :=
  number_isExplained path v (by decide) (by decide)

instance (b : Block) : (Target.ofBlock b).IsExplained := by
  unfold Target.ofBlock
  split <;> infer_instance

instance (b : Block) : (Condition.ofBlock b).IsExplained :=
  inferInstanceAs
    (Checked.ofViolations _ *> (Condition.mk <$> _ <*> _ <*> _ <*> _ <*> _)).IsExplained

instance (b : Block) : (Rule.ofBlock b).IsExplained := by
  unfold Rule.ofBlock Rule.nameOf Rule.priorityOf Rule.ruleTypeOf Rule.rateLimitMinutesOf
    Rule.rateLimitThresholdOf Rule.actionOf
  infer_instance

instance (b : Block) : (RuleOverride.ofBlock b).IsExplained := by
  unfold RuleOverride.ofBlock
  infer_instance

instance (b : Block) : (GroupOverride.ofBlock b).IsExplained := by
  unfold GroupOverride.ofBlock
  infer_instance

instance (b : Block) : (RuleSet.ofBlock b).IsExplained := by
  unfold RuleSet.ofBlock
  infer_instance

instance (path : Path) (v : Value) : (statusCode path v).IsExplained :=
  inferInstanceAs ((number 0 maxNumber).suchThat _ _ path v).IsExplained

instance (path : Path) (e : String × Value) : (tagOf path e).IsExplained := by
  obtain ⟨k, v⟩ := e
  cases v with
  | string s => exact inferInstanceAs (Checked.ok (k, s)).IsExplained
  | _ => exact inferInstanceAs (Checked.fail _ _).IsExplained

instance (path : Path) (v : Value) : (tagsOf path v).IsExplained := by
  cases v with
  | map entries => exact inferInstanceAs (Tags.ofList <$> Checked.collect _ entries).IsExplained
  | _ => exact inferInstanceAs (Checked.fail _ _).IsExplained

instance (b : Block) : (ofBlock b).IsExplained := by
  unfold ofBlock
  infer_instance

end EdgeFirewall.Policy
