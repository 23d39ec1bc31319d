import EdgeFirewall.Attribute.Schema
import EdgeFirewall.Policy.Basic
import EdgeFirewall.Text.Base64
import EdgeFirewall.Vocabulary.Basic

/-! # The schema of firewall policies

What a host may check of a declared policy before it is read. The schema knows the type of every
attribute; that a condition has exactly one target, and that rules have distinct names, shows only
when the policy is read. -/

namespace EdgeFirewall.Policy

/-- The name of the resource type. -/
def resourceType : String := "frontdoor_firewall_policy"

namespace Schema

/-- The members of a vocabulary. -/
def wordType (α : Type) [Vocabulary α] : AttributeType :=
  .oneOf (Vocabulary.spellings α)

/-- The status codes for blocked requests. -/
def statusCodeType : AttributeType :=
  .custom "BlockResponseStatusCode" .int fun
    | .int n =>
      if blockStatusCodes.contains n then .ok ()
      else
        .error ("Status code must be one of [" ++
          ", ".intercalate (blockStatusCodes.map toString) ++ s!"], got {n}")
    | _ => .error "Expected integer"

/-- Texts in base64 that are not empty. -/
def base64Type : AttributeType :=
  .custom "Base64String" .string fun
    | .string s =>
      if !s.isEmpty && Text.isBase64 s then .ok () else .error "Value must be base64 encoded"
    | _ => .error "Expected string"

/-- Rate-limit durations. -/
def rateLimitMinutesType : AttributeType :=
  .custom "RateLimitDuration" .int fun
    | .int n =>
      if 0 ≤ n ∧ n ≤ maxRateLimitMinutes then .ok ()
      else .error s!"Duration must be between 0 and {maxRateLimitMinutes} minutes, got {n}"
    | _ => .error "Expected integer"

/-- The block of a condition. -/
def conditionBlock : AttributeType := .block [
  { name := "match_variable", type := wordType MatchVariable,
    description := some "Request component to inspect. Conflicts with selector." },
  { name := "selector", type := wordType SelectorVariable,
    description := some "Keyed request component to inspect. Conflicts with match_variable." },
  { name := "operator", type := wordType Operator, required := true },
  { name := "condition", type := wordType ConditionModifier,
    default := some (.string (ConditionModifier.spelling .is)) },
  { name := "match_value", type := .list .nonEmptyString, required := true,
    minItems := some 1, maxItems := some maxValues },
  { name := "transforms", type := .list (wordType Transform), maxItems := some maxTransforms }]

/-- The block of a custom rule. -/
def ruleBlock : AttributeType := .block [
  { name := "name", type := .nonEmptyString, required := true },
  { name := "priority", type := .nonNegativeInt, default := some (.int defaultPriority) },
  { name := "enabled", type := .bool, default := some (.bool true) },
  { name := "rule_type", type := wordType RuleType, required := true },
  { name := "rate_limit_duration_in_minutes", type := rateLimitMinutesType,
    default := some (.int defaultRateLimitMinutes) },
  { name := "rate_limit_threshold", type := .nonNegativeInt,
    default := some (.int defaultRateLimitThreshold) },
  { name := "action", type := wordType ActionType, required := true },
  { name := "custom_block_response_body", type := base64Type },
  { name := "match_condition", type := .list conditionBlock, maxItems := some maxConditions }]

/-- The block of a changed rule. -/
def ruleOverrideBlock : AttributeType := .block [
  { name := "rule_id", type := .nonEmptyString, required := true },
  { name := "enabled", type := .bool, default := some (.bool false) },
  { name := "action", type := wordType ActionType, required := true }]

/-- The block of the changed rules of a group. -/
def groupOverrideBlock : AttributeType := .block [
  { name := "rule_group_name", type := .nonEmptyString, required := true },
  { name := "rule", type := .list ruleOverrideBlock, maxItems := some maxRuleOverrides }]

/-- The block of a managed rule set. -/
def ruleSetBlock : AttributeType := .block [
  { name := "type", type := .nonEmptyString, required := true },
  { name := "version", type := .nonEmptyString, required := true },
  { name := "override", type := .list groupOverrideBlock, maxItems := some maxGroupOverrides }]

end Schema

open Schema in
/-- The schema of firewall policies. -/
def schema : ResourceSchema :=
  { ResourceSchema.ofFields resourceType [
      { name := "name", type := .nonEmptyString, required := true, forceNew := true },
      { name := "resource_group_name", type := .nonEmptyString, required := true,
        forceNew := true },
      { name := "id", type := .string, computed := true },
      { name := "enabled", type := .bool, default := some (.bool true) },
      { name := "mode", type := wordType PolicyMode, required := true },
      { name := "redirect_url", type := .nonEmptyString },
      { name := "custom_block_response_status_code", type := statusCodeType },
      { name := "custom_block_response_body", type := base64Type },
      { name := "custom_rule", type := .list ruleBlock, maxItems := some maxRules },
      { name := "managed_rule", type := .list ruleSetBlock, maxItems := some maxRuleSets },
      { name := "frontend_endpoint_ids", type := .list .nonEmptyString,
        maxItems := some maxEndpoints },
      { name := "tags", type := .map .string }] with
    description := some "Azure Front Door web application firewall policy" }

end EdgeFirewall.Policy
