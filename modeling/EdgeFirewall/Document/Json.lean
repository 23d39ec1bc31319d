import EdgeFirewall.Document.Basic
import EdgeFirewall.Json.Reader
import EdgeFirewall.Json.Record

/-! # Policy documents in JSON

`Document.toJson` writes a document, leaving out what it does not have; `Document.ofJson?` reads
one, and `Document.ofText?` reads one from its text. Reading skips undeclared members, takes null
for an absent optional member, and refuses a word that is not spelled exactly and a number that is
not written as a 32-bit integer. -/

namespace EdgeFirewall

namespace Json

variable {α : Type} [Vocabulary α]

/-- Writes a member of a vocabulary by its spelling. -/
def ofWord (a : α) : Json := .str (Vocabulary.spelling a)

/-- Reads a member of a vocabulary: its exact spelling, or an object that gives the spelling the
value null. -/
def asWord? : Json → Option α
  | .str s => Vocabulary.ofSpelling? s
  | .obj [(s, .null)] => Vocabulary.ofSpelling? s
  | _ => none

/-- Writes a list of texts. -/
def ofTexts (texts : List String) : Json := .arr (texts.map .str)

end Json

namespace Tags

/-- Writes tags as an object. -/
def toJson (t : Tags) : Json := .obj (t.entries.map fun e => (e.1, .str e.2))

/-- Reads tags from an object; of a repeated tag the last text counts. -/
def ofJson? : Json → Option Tags
  | .obj members =>
    (members.mapM fun (m : String × Json) => m.2.asText?.map (m.1, ·)).map ofList
  | _ => none

end Tags

namespace Document

open Json

/-! ### Writing -/

/-- Writes the settings. -/
def Settings.toJson (s : Settings) : Json := .obj <|
  member? "enabledState" ofWord s.enabledState ++
  member? "mode" ofWord s.mode ++
  member? "redirectUrl" .str s.redirectUrl ++
  member? "customBlockResponseStatusCode" (fun n => .int n.toInt) s.blockStatusCode ++
  member? "customBlockResponseBody" .str s.blockBody

/-- Writes a condition. -/
def Condition.toJson (c : Condition) : Json := .obj <|
  [("matchVariable", ofWord c.matchVariable)] ++
  member? "selector" .str c.selector ++
  [("operator", ofWord c.operator)] ++
  member? "negateCondition" .bool c.negate ++
  member? "conditionModifier" ofWord c.modifier ++
  [("matchValue", ofTexts c.values)] ++
  member? "transforms" (fun ts => .arr (ts.map ofWord)) c.transforms

/-- Writes a custom rule. -/
def Rule.toJson (r : Rule) : Json := .obj <|
  member? "name" .str r.name ++
  [("priority", .int r.priority.toInt)] ++
  member? "enabledState" ofWord r.enabledState ++
  [("ruleType", ofWord r.ruleType)] ++
  member? "rateLimitDurationInMinutes" (fun n => .int n.toInt) r.rateLimitMinutes ++
  member? "rateLimitThreshold" (fun n => .int n.toInt) r.rateLimitThreshold ++
  [("matchConditions", .arr (r.conditions.map Condition.toJson)),
    ("action", ofWord r.action)] ++
  member? "customBlockResponseBody" .str r.blockBody

/-- Writes the custom rules. -/
def RuleList.toJson (l : RuleList) : Json :=
  .obj (member? "rules" (fun rs => .arr (rs.map Rule.toJson)) l.rules)

/-- Writes a changed rule. -/
def RuleOverride.toJson (r : RuleOverride) : Json := .obj <|
  [("ruleId", .str r.ruleId)] ++
  member? "enabledState" ofWord r.enabledState ++
  member? "action" ofWord r.action

/-- Writes the changed rules of a group. -/
def GroupOverride.toJson (g : GroupOverride) : Json := .obj <|
  [("ruleGroupName", .str g.group)] ++
  member? "rules" (fun rs => .arr (rs.map RuleOverride.toJson)) g.rules

/-- Writes a managed rule set. -/
def RuleSet.toJson (s : RuleSet) : Json := .obj <|
  [("ruleSetType", .str s.type), ("ruleSetVersion", .str s.version)] ++
  member? "ruleGroupOverrides" (fun gs => .arr (gs.map GroupOverride.toJson)) s.overrides

/-- Writes the managed rule sets. -/
def RuleSetList.toJson (l : RuleSetList) : Json :=
  .obj (member? "managedRuleSets" (fun ss => .arr (ss.map RuleSet.toJson)) l.ruleSets)

/-- Writes an endpoint link. -/
def EndpointLink.toJson (l : EndpointLink) : Json :=
  .obj (member? "id" .str l.id)

/-- Writes the properties. -/
def Properties.toJson (p : Properties) : Json := .obj <|
  member? "policySettings" Settings.toJson p.settings ++
  member? "customRules" RuleList.toJson p.customRules ++
  member? "managedRules" RuleSetList.toJson p.managedRules ++
  member? "frontendEndpointLinks" (fun ls => .arr (ls.map EndpointLink.toJson)) p.endpointLinks ++
  member? "provisioningState" .str p.provisioningState ++
  member? "resourceState" .str p.resourceState

/-- Writes a document. -/
def toJson (d : Document) : Json := .obj <|
  member? "id" .str d.id ++
  member? "name" .str d.name ++
  member? "type" .str d.type ++
  member? "location" .str d.location ++
  member? "tags" Tags.toJson d.tags ++
  member? "etag" .str d.etag ++
  member? "properties" Properties.toJson d.properties

/-! ### Reading -/

/-- Reads the settings. -/
def Settings.ofJson? (j : Json) : Option Settings := do
  let r ← j.record? ["enabledState", "mode", "redirectUrl", "customBlockResponseStatusCode",
    "customBlockResponseBody"]
  return {
    enabledState := ← r.optional "enabledState" asWord?
    mode := ← r.optional "mode" asWord?
    redirectUrl := ← r.optional "redirectUrl" asText?
    blockStatusCode := ← r.optional "customBlockResponseStatusCode" asInt32?
    blockBody := ← r.optional "customBlockResponseBody" asText? }

/-- Reads a condition. -/
def Condition.ofJson? (j : Json) : Option Condition := do
  let r ← j.record? ["matchVariable", "selector", "operator", "negateCondition",
    "conditionModifier", "matchValue", "transforms"]
  return {
    matchVariable := ← r.required "matchVariable" asWord?
    selector := ← r.optional "selector" asText?
    operator := ← r.required "operator" asWord?
    negate := ← r.optional "negateCondition" asBool?
    modifier := ← r.optional "conditionModifier" asWord?
    values := ← r.listOrEmpty "matchValue" asText?
    transforms := ← r.optional "transforms" (asList? asWord?) }

/-- Reads a custom rule. -/
def Rule.ofJson? (j : Json) : Option Rule := do
  let r ← j.record? ["name", "priority", "enabledState", "ruleType", "rateLimitDurationInMinutes",
    "rateLimitThreshold", "matchConditions", "action", "customBlockResponseBody"]
  return {
    name := ← r.optional "name" asText?
    priority := ← r.required "priority" asInt32?
    enabledState := ← r.optional "enabledState" asWord?
    ruleType := ← r.required "ruleType" asWord?
    rateLimitMinutes := ← r.optional "rateLimitDurationInMinutes" asInt32?
    rateLimitThreshold := ← r.optional "rateLimitThreshold" asInt32?
    conditions := ← r.listOrEmpty "matchConditions" Condition.ofJson?
    action := ← r.required "action" asWord?
    blockBody := ← r.optional "customBlockResponseBody" asText? }

/-- Reads the custom rules. -/
def RuleList.ofJson? (j : Json) : Option RuleList := do
  let r ← j.record? ["rules"]
  return { rules := ← r.optional "rules" (asList? Rule.ofJson?) }

/-- Reads a changed rule. -/
def RuleOverride.ofJson? (j : Json) : Option RuleOverride := do
  let r ← j.record? ["ruleId", "enabledState", "action"]
  return {
    ruleId := ← r.required "ruleId" asText?
    enabledState := ← r.optional "enabledState" asWord?
    action := ← r.optional "action" asWord? }

/-- Reads the changed rules of a group. -/
def GroupOverride.ofJson? (j : Json) : Option GroupOverride := do
  let r ← j.record? ["ruleGroupName", "rules"]
  return {
    group := ← r.required "ruleGroupName" asText?
    rules := ← r.optional "rules" (asList? RuleOverride.ofJson?) }

/-- Reads a managed rule set. -/
def RuleSet.ofJson? (j : Json) : Option RuleSet := do
  let r ← j.record? ["ruleSetType", "ruleSetVersion", "ruleGroupOverrides"]
  return {
    type := ← r.required "ruleSetType" asText?
    version := ← r.required "ruleSetVersion" asText?
    overrides := ← r.optional "ruleGroupOverrides" (asList? GroupOverride.ofJson?) }

/-- Reads the managed rule sets. -/
def RuleSetList.ofJson? (j : Json) : Option RuleSetList := do
  let r ← j.record? ["managedRuleSets"]
  return { ruleSets := ← r.optional "managedRuleSets" (asList? RuleSet.ofJson?) }

/-- Reads an endpoint link. -/
def EndpointLink.ofJson? (j : Json) : Option EndpointLink := do
  let r ← j.record? ["id"]
  return { id := ← r.optional "id" asText? }

/-- Reads the properties. -/
def Properties.ofJson? (j : Json) : Option Properties := do
  let r ← j.record? ["policySettings", "customRules", "managedRules", "frontendEndpointLinks",
    "provisioningState", "resourceState"]
  return {
    settings := ← r.optional "policySettings" Settings.ofJson?
    customRules := ← r.optional "customRules" RuleList.ofJson?
    managedRules := ← r.optional "managedRules" RuleSetList.ofJson?
    endpointLinks := ← r.optional "frontendEndpointLinks" (asList? EndpointLink.ofJson?)
    provisioningState := ← r.optional "provisioningState" asText?
    resourceState := ← r.optional "resourceState" asText? }

/-- Reads a document. -/
def ofJson? (j : Json) : Option Document := do
  let r ← j.record? ["id", "name", "type", "location", "tags", "etag", "properties"]
  return {
    id := ← r.optional "id" asText?
    name := ← r.optional "name" asText?
    type := ← r.optional "type" asText?
    location := ← r.optional "location" asText?
    tags := ← r.optional "tags" Tags.ofJson?
    etag := ← r.optional "etag" asText?
    properties := ← r.optional "properties" Properties.ofJson? }

/-- Reads a document from JSON text. -/
def ofText? (s : String) : Option Document :=
  (Json.ofText? s).bind ofJson?

end Document

end EdgeFirewall
