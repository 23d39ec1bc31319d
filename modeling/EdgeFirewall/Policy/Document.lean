import EdgeFirewall.Document.Basic
import EdgeFirewall.Policy.Basic

/-! # Documents of declared policies

`Policy.toDocument` gives the document that asks the service for a policy. Empty lists of rules,
rule sets and group overrides are left out: the service does not take them. -/

namespace EdgeFirewall.Policy

/-- The list in a document, left out if it is empty. -/
def nonEmpty? {α : Type} : List α → Option (List α)
  | [] => none
  | a :: rest => some (a :: rest)

/-- The document of a condition. -/
def Condition.toDocument (c : Condition) : Document.Condition where
  matchVariable := c.target.matchVariable
  selector := match c.target with
    | .keyed s => some s.spelling
    | .whole _ => none
  operator := c.operator
  negate := some c.modifier.isNegated
  modifier := some c.modifier
  values := c.values
  transforms := some c.transforms

/-- The document of a custom rule. -/
def Rule.toDocument (r : Rule) : Document.Rule where
  name := some r.name
  priority := r.priority
  enabledState := some (.ofBool r.enabled)
  ruleType := r.ruleType
  rateLimitMinutes := some r.rateLimitMinutes
  rateLimitThreshold := some r.rateLimitThreshold
  conditions := r.conditions.map Condition.toDocument
  action := r.action
  blockBody := r.blockBody

/-- The document of a changed rule. -/
def RuleOverride.toDocument (r : RuleOverride) : Document.RuleOverride where
  ruleId := r.ruleId
  enabledState := some (.ofBool r.enabled)
  action := some r.action

/-- The document of the changed rules of a group. -/
def GroupOverride.toDocument (g : GroupOverride) : Document.GroupOverride where
  group := g.group
  rules := some (g.rules.map RuleOverride.toDocument)

/-- The document of a managed rule set. -/
def RuleSet.toDocument (s : RuleSet) : Document.RuleSet where
  type := s.type
  version := s.version
  overrides := nonEmpty? (s.overrides.map GroupOverride.toDocument)

/-- The settings of a policy. -/
def settings (p : Policy) : Document.Settings where
  enabledState := some (.ofBool p.enabled)
  mode := some p.mode
  redirectUrl := p.redirectUrl
  blockStatusCode := p.blockStatusCode
  blockBody := p.blockBody

/-- The document that asks for a policy. -/
def toDocument (p : Policy) : Document where
  location := some Document.globalLocation
  tags := some p.tags
  properties := some {
    settings := some p.settings
    customRules := (nonEmpty? (p.rules.map Rule.toDocument)).map fun rules => ⟨some rules⟩
    managedRules := (nonEmpty? (p.ruleSets.map RuleSet.toDocument)).map fun sets => ⟨some sets⟩
    endpointLinks := some (p.endpoints.map fun id => ⟨some id⟩) }

end EdgeFirewall.Policy
