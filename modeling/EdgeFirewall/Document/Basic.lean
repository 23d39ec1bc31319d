import EdgeFirewall.Tags
import EdgeFirewall.Vocabulary.FrontDoor

/-! # Policy documents

The form in which a firewall policy travels between a client and the management service. Nearly
every member may be left out, so an absent member, an empty list and a default are three
different things here; what they mean is decided where a document is read. -/

namespace EdgeFirewall

namespace Document

/-- The settings that hold for a policy as a whole. -/
structure Settings where
  enabledState : Option EnabledState := none
  mode : Option PolicyMode := none
  redirectUrl : Option String := none
  blockStatusCode : Option Int32 := none
  /-- In base64. -/
  blockBody : Option String := none
  deriving DecidableEq

/-- A condition of a custom rule. -/
structure Condition where
  matchVariable : MatchVariable
  selector : Option String := none
  operator : Operator
  negate : Option Bool := none
  /-- The modifier the condition was written with. The service does not keep it. -/
  modifier : Option ConditionModifier := none
  values : List String := []
  transforms : Option (List Transform) := none
  deriving DecidableEq

/-- A custom rule. -/
structure Rule where
  name : Option String := none
  priority : Int32
  enabledState : Option EnabledState := none
  ruleType : RuleType
  rateLimitMinutes : Option Int32 := none
  rateLimitThreshold : Option Int32 := none
  conditions : List Condition := []
  action : ActionType
  /-- In base64. -/
  blockBody : Option String := none
  deriving DecidableEq

/-- The custom rules of a policy. -/
structure RuleList where
  rules : Option (List Rule) := none
  deriving DecidableEq

/-- A changed rule of a managed rule group. -/
structure RuleOverride where
  ruleId : String
  enabledState : Option EnabledState := none
  action : Option ActionType := none
  deriving DecidableEq

/-- The changed rules of one managed rule group. -/
structure GroupOverride where
  group : String
  rules : Option (List RuleOverride) := none
  deriving DecidableEq

/-- A managed rule set in use. -/
structure RuleSet where
  type : String
  version : String
  overrides : Option (List GroupOverride) := none
  deriving DecidableEq

/-- The managed rule sets of a policy. -/
structure RuleSetList where
  ruleSets : Option (List RuleSet) := none
  deriving DecidableEq

/-- A frontend endpoint that uses the policy. -/
structure EndpointLink where
  id : Option String := none
  deriving DecidableEq

/-- What a policy does, and in which state the service holds it. -/
structure Properties where
  settings : Option Settings := none
  customRules : Option RuleList := none
  managedRules : Option RuleSetList := none
  endpointLinks : Option (List EndpointLink) := none
  /-- Set by the service. -/
  provisioningState : Option String := none
  /-- Set by the service. -/
  resourceState : Option String := none
  deriving DecidableEq

end Document

/-- A firewall policy as a document of the management service. -/
structure Document where
  id : Option String := none
  name : Option String := none
  type : Option String := none
  location : Option String := none
  tags : Option Tags := none
  etag : Option String := none
  properties : Option Document.Properties := none
  deriving DecidableEq

namespace Document

/-- The version of the management interface that documents follow. -/
def apiVersion : String := "2019-04-01"

/-- The location of every policy: firewall policies are global. -/
def globalLocation : String := "Global"

end Document

end EdgeFirewall
