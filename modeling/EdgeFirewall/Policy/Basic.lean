import EdgeFirewall.Tags
import EdgeFirewall.Vocabulary.FrontDoor

/-! # Declared policies

A firewall policy as its owner declares it: every default filled in, every list present. -/

namespace EdgeFirewall

namespace Policy

/-- What a condition inspects: a part of the request, or the entry of such a part. -/
inductive Target where
  | whole (v : MatchVariable)
  | keyed (s : SelectorVariable)
  deriving DecidableEq, Repr

/-- The part of the request that a target lies in. -/
def Target.matchVariable : Target → MatchVariable
  | .whole v => v
  | .keyed s => s.matchVariable

/-- A condition of a custom rule. -/
structure Condition where
  target : Target
  operator : Operator
  modifier : ConditionModifier
  values : List String
  transforms : List Transform
  deriving DecidableEq

/-- A custom rule. -/
structure Rule where
  name : String
  priority : Int32
  enabled : Bool
  ruleType : RuleType
  rateLimitMinutes : Int32
  rateLimitThreshold : Int32
  action : ActionType
  /-- In base64. -/
  blockBody : Option String
  conditions : List Condition
  deriving DecidableEq

/-- A changed rule of a managed rule group. -/
structure RuleOverride where
  ruleId : String
  enabled : Bool
  action : ActionType
  deriving DecidableEq

/-- The changed rules of one managed rule group. -/
structure GroupOverride where
  group : String
  rules : List RuleOverride
  deriving DecidableEq

/-- A managed rule set in use. -/
structure RuleSet where
  type : String
  version : String
  overrides : List GroupOverride
  deriving DecidableEq

end Policy

/-- A firewall policy. -/
structure Policy where
  name : String
  resourceGroup : String
  enabled : Bool
  mode : PolicyMode
  redirectUrl : Option String
  blockStatusCode : Option Int32
  /-- In base64. -/
  blockBody : Option String
  rules : List Policy.Rule
  ruleSets : List Policy.RuleSet
  endpoints : List String
  tags : Tags
  deriving DecidableEq

namespace Policy

/-! ### Limits and defaults -/

def maxRules : Nat := 100
def maxConditions : Nat := 100
def maxValues : Nat := 100
def maxTransforms : Nat := 5
def maxRuleSets : Nat := 100
def maxGroupOverrides : Nat := 100
def maxRuleOverrides : Nat := 1000
def maxEndpoints : Nat := 1000

/-- Greatest value of the numbers of a policy, that of a signed 32-bit number. -/
def maxNumber : Int := 2147483647

/-- Greatest rate-limit duration, in minutes. -/
def maxRateLimitMinutes : Int := 5

def defaultPriority : Int := 1
def defaultRateLimitMinutes : Int := 1
def defaultRateLimitThreshold : Int := 10

/-- The status codes with which a policy may answer a blocked request. -/
def blockStatusCodes : List Int := [200, 403, 405, 406, 429]

end Policy

end EdgeFirewall
