import EdgeFirewall.Attribute.Value
import EdgeFirewall.Document.Basic
import EdgeFirewall.Policy.Basic
import EdgeFirewall.Service.Error

/-! # Attributes of policy documents

`Document.toAttributes` gives the attribute map of a policy that the service describes. The map is
canonical: every list and the tags are there, an optional text or number only if the document has
it, and a default where the document leaves a setting open. -/

namespace EdgeFirewall.Document

/-- The state of a rule as a truth value, with a default. -/
def enabledValue (default : Bool) (state : Option EnabledState) : Value :=
  .bool ((state.map EnabledState.isEnabled).getD default)

/-- A word of a vocabulary as a value. -/
def wordValue {α : Type} [Vocabulary α] (a : α) : Value :=
  .string (Vocabulary.spelling a)

/-- A 32-bit number as a value. -/
def numberValue (n : Int32) : Value := .int n.toInt

namespace Condition

/-- The selector of a condition, if it spells the variable that the condition inspects. -/
def ownSelector? (c : Condition) : Option SelectorVariable :=
  (c.selector.bind Vocabulary.ofSpelling?).filter fun s =>
    SelectorVariable.matchVariable s == c.matchVariable

/-- The modifier of a condition. Where the document has none, its negation tells it. -/
def effectiveModifier (c : Condition) : ConditionModifier :=
  c.modifier.getD (.ofNegated (c.negate.getD false))

/-- The attributes of a condition. -/
def toAttributes (c : Condition) : Attributes :=
  let selector := c.ownSelector?
  let whole := if selector.isNone then some c.matchVariable else none
  [("condition", wordValue c.effectiveModifier),
    ("match_value", .list (c.values.map .string))] ++
  Attributes.entry? "match_variable" wordValue whole ++
  [("operator", wordValue c.operator)] ++
  Attributes.entry? "selector" wordValue selector ++
  [("transforms", .list ((c.transforms.getD []).map wordValue))]

end Condition

/-- The attributes of a custom rule. -/
def Rule.toAttributes (r : Rule) : Attributes :=
  [("action", wordValue r.action)] ++
  Attributes.entry? "custom_block_response_body" .string r.blockBody ++
  [("enabled", enabledValue true r.enabledState),
    ("match_condition", .list (r.conditions.map (.map ·.toAttributes))),
    ("name", .string (r.name.getD "")),
    ("priority", numberValue r.priority),
    ("rate_limit_duration_in_minutes",
      .int ((r.rateLimitMinutes.map Int32.toInt).getD Policy.defaultRateLimitMinutes)),
    ("rate_limit_threshold",
      .int ((r.rateLimitThreshold.map Int32.toInt).getD Policy.defaultRateLimitThreshold)),
    ("rule_type", wordValue r.ruleType)]

/-- The attributes of a changed rule. -/
def RuleOverride.toAttributes (r : RuleOverride) : Attributes :=
  Attributes.entry? "action" wordValue r.action ++
  [("enabled", enabledValue false r.enabledState), ("rule_id", .string r.ruleId)]

/-- The attributes of the changed rules of a group. -/
def GroupOverride.toAttributes (g : GroupOverride) : Attributes :=
  [("rule", .list ((g.rules.getD []).map (.map ·.toAttributes))),
    ("rule_group_name", .string g.group)]

/-- The attributes of a managed rule set. -/
def RuleSet.toAttributes (s : RuleSet) : Attributes :=
  [("override", .list ((s.overrides.getD []).map (.map ·.toAttributes))),
    ("type", .string s.type), ("version", .string s.version)]

/-- The identifiers of the endpoints that are linked by one. -/
def endpointIds (links : List EndpointLink) : List String :=
  links.filterMap EndpointLink.id

/-- The attributes of tags. -/
def tagAttributes (t : Tags) : Attributes :=
  t.entries.map fun e => (e.1, .string e.2)

/-- The attributes of a policy in the given mode. Its name and its group are those of its
identifier, whatever the document says. -/
def attributesIn (d : Document) (mode : PolicyMode) (name group : String) : Attributes :=
  let properties := d.properties.getD {}
  let settings := properties.settings.getD {}
  let rules := (properties.customRules.bind RuleList.rules).getD []
  let ruleSets := (properties.managedRules.bind RuleSetList.ruleSets).getD []
  Attributes.entry? "custom_block_response_body" .string settings.blockBody ++
  Attributes.entry? "custom_block_response_status_code" numberValue settings.blockStatusCode ++
  [("custom_rule", .list (rules.map (.map ·.toAttributes))),
    ("enabled", enabledValue true settings.enabledState),
    ("frontend_endpoint_ids",
      .list ((endpointIds (properties.endpointLinks.getD [])).map .string)),
    ("managed_rule", .list (ruleSets.map (.map ·.toAttributes))),
    ("mode", wordValue mode),
    ("name", .string name)] ++
  Attributes.entry? "redirect_url" .string settings.redirectUrl ++
  [("resource_group_name", .string group),
    ("tags", .map (tagAttributes (d.tags.getD .empty)))]

/-- The mode of a policy document. -/
def mode? (d : Document) : Option PolicyMode :=
  (d.properties.bind Properties.settings).bind Settings.mode

/-- The attributes of a policy document. A document without a mode describes no policy. -/
def toAttributes (d : Document) (name group : String) : Except ServiceError Attributes :=
  match d.mode? with
  | some mode => .ok (d.attributesIn mode name group)
  | none => .error (.noMode name)

end EdgeFirewall.Document
