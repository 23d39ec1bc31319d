import EdgeFirewall.Vocabulary.Basic

/-! # The vocabularies of a firewall policy

The nine closed vocabularies that occur in declared policies and in the documents of the
management service, with their exact spellings. -/

namespace EdgeFirewall

/-- Whether a policy blocks matching requests or only logs them. -/
inductive PolicyMode where
  | prevention
  | detection
  deriving DecidableEq, Repr

/-- The spelling of each member. -/
def PolicyMode.spelling : PolicyMode → String
  | .prevention => "Prevention"
  | .detection => "Detection"

instance : Vocabulary PolicyMode where
  typeName := "PolicyMode"
  all := [.prevention, .detection]
  spelling := PolicyMode.spelling
  mem_all a := by cases a <;> simp
  spelling_injective a b := by cases a <;> cases b <;> simp [PolicyMode.spelling]

/-- Whether a policy, a rule or an override is in force. -/
inductive EnabledState where
  | enabled
  | disabled
  deriving DecidableEq, Repr

/-- The spelling of each member. -/
def EnabledState.spelling : EnabledState → String
  | .enabled => "Enabled"
  | .disabled => "Disabled"

instance : Vocabulary EnabledState where
  typeName := "EnabledState"
  all := [.enabled, .disabled]
  spelling := EnabledState.spelling
  mem_all a := by cases a <;> simp
  spelling_injective a b := by cases a <;> cases b <;> simp [EnabledState.spelling]

/-- What a custom rule counts. -/
inductive RuleType where
  | matchRule
  | rateLimitRule
  deriving DecidableEq, Repr

/-- The spelling of each member. -/
def RuleType.spelling : RuleType → String
  | .matchRule => "MatchRule"
  | .rateLimitRule => "RateLimitRule"

instance : Vocabulary RuleType where
  typeName := "RuleType"
  all := [.matchRule, .rateLimitRule]
  spelling := RuleType.spelling
  mem_all a := by cases a <;> simp
  spelling_injective a b := by cases a <;> cases b <;> simp [RuleType.spelling]

/-- What happens to a request that a rule matches. -/
inductive ActionType where
  | allow
  | block
  | log
  | redirect
  deriving DecidableEq, Repr

/-- The spelling of each member. -/
def ActionType.spelling : ActionType → String
  | .allow => "Allow"
  | .block => "Block"
  | .log => "Log"
  | .redirect => "Redirect"

instance : Vocabulary ActionType where
  typeName := "ActionType"
  all := [.allow, .block, .log, .redirect]
  spelling := ActionType.spelling
  mem_all a := by cases a <;> simp
  spelling_injective a b := by cases a <;> cases b <;> simp [ActionType.spelling]

/-- The part of a request that a condition inspects. -/
inductive MatchVariable where
  | cookies
  | postArgs
  | queryString
  | remoteAddr
  | requestBody
  | requestHeader
  | requestMethod
  | requestUri
  deriving DecidableEq, Repr

/-- The spelling of each member. -/
def MatchVariable.spelling : MatchVariable → String
  | .cookies => "Cookies"
  | .postArgs => "PostArgs"
  | .queryString => "QueryString"
  | .remoteAddr => "RemoteAddr"
  | .requestBody => "RequestBody"
  | .requestHeader => "RequestHeader"
  | .requestMethod => "RequestMethod"
  | .requestUri => "RequestUri"

instance : Vocabulary MatchVariable where
  typeName := "MatchVariable"
  all := [.cookies, .postArgs, .queryString, .remoteAddr, .requestBody, .requestHeader,
    .requestMethod, .requestUri]
  spelling := MatchVariable.spelling
  mem_all a := by cases a <;> simp
  spelling_injective a b := by cases a <;> cases b <;> simp [MatchVariable.spelling]

/-- The parts of a request that hold keyed entries. -/
inductive SelectorVariable where
  | cookies
  | postArgs
  | queryString
  | requestHeader
  deriving DecidableEq, Repr

/-- The spelling of each member. -/
def SelectorVariable.spelling : SelectorVariable → String
  | .cookies => "Cookies"
  | .postArgs => "PostArgs"
  | .queryString => "QueryString"
  | .requestHeader => "RequestHeader"

instance : Vocabulary SelectorVariable where
  typeName := "SelectorVariable"
  all := [.cookies, .postArgs, .queryString, .requestHeader]
  spelling := SelectorVariable.spelling
  mem_all a := by cases a <;> simp
  spelling_injective a b := by cases a <;> cases b <;> simp [SelectorVariable.spelling]

/-- How a condition compares the inspected part with its values. -/
inductive Operator where
  | any
  | beginsWith
  | contains
  | endsWith
  | equal
  | geoMatch
  | greaterThan
  | greaterThanOrEqual
  | ipMatch
  | lessThan
  | lessThanOrEqual
  | regEx
  deriving DecidableEq, Repr

/-- The spelling of each member. -/
def Operator.spelling : Operator → String
  | .any => "Any"
  | .beginsWith => "BeginsWith"
  | .contains => "Contains"
  | .endsWith => "EndsWith"
  | .equal => "Equal"
  | .geoMatch => "GeoMatch"
  | .greaterThan => "GreaterThan"
  | .greaterThanOrEqual => "GreaterThanOrEqual"
  | .ipMatch => "IPMatch"
  | .lessThan => "LessThan"
  | .lessThanOrEqual => "LessThanOrEqual"
  | .regEx => "RegEx"

instance : Vocabulary Operator where
  typeName := "Operator"
  all := [.any, .beginsWith, .contains, .endsWith, .equal, .geoMatch, .greaterThan,
    .greaterThanOrEqual, .ipMatch, .lessThan, .lessThanOrEqual, .regEx]
  spelling := Operator.spelling
  mem_all a := by cases a <;> simp
  spelling_injective a b := by cases a <;> cases b <;> simp [Operator.spelling]

/-- What a condition makes of the result of its operator. -/
inductive ConditionModifier where
  | is
  | isNot
  | contains
  | notContains
  deriving DecidableEq, Repr

/-- The spelling of each member. -/
def ConditionModifier.spelling : ConditionModifier → String
  | .is => "Is"
  | .isNot => "Is Not"
  | .contains => "Contains"
  | .notContains => "Not Contains"

instance : Vocabulary ConditionModifier where
  typeName := "ConditionModifier"
  all := [.is, .isNot, .contains, .notContains]
  spelling := ConditionModifier.spelling
  mem_all a := by cases a <;> simp
  spelling_injective a b := by cases a <;> cases b <;> simp [ConditionModifier.spelling]

/-- A change made to the inspected part before it is compared. -/
inductive Transform where
  | lowercase
  | removeNulls
  | trim
  | uppercase
  | urlDecode
  | urlEncode
  deriving DecidableEq, Repr

/-- The spelling of each member. -/
def Transform.spelling : Transform → String
  | .lowercase => "Lowercase"
  | .removeNulls => "RemoveNulls"
  | .trim => "Trim"
  | .uppercase => "Uppercase"
  | .urlDecode => "UrlDecode"
  | .urlEncode => "UrlEncode"

instance : Vocabulary Transform where
  typeName := "Transform"
  all := [.lowercase, .removeNulls, .trim, .uppercase, .urlDecode, .urlEncode]
  spelling := Transform.spelling
  mem_all a := by cases a <;> simp
  spelling_injective a b := by cases a <;> cases b <;> simp [Transform.spelling]

/-! ### Readings of the members -/

/-- Whether a state means that a rule is in force. -/
def EnabledState.isEnabled : EnabledState → Bool
  | .enabled => true
  | .disabled => false

/-- The state that says whether a rule is in force. -/
def EnabledState.ofBool : Bool → EnabledState
  | true => .enabled
  | false => .disabled

@[simp] theorem EnabledState.isEnabled_ofBool (b : Bool) : (ofBool b).isEnabled = b := by
  cases b <;> rfl

@[simp] theorem EnabledState.ofBool_isEnabled (s : EnabledState) : ofBool s.isEnabled = s := by
  cases s <;> rfl

/-- The part of a request whose entries a selector picks from. -/
def SelectorVariable.matchVariable : SelectorVariable → MatchVariable
  | .cookies => .cookies
  | .postArgs => .postArgs
  | .queryString => .queryString
  | .requestHeader => .requestHeader

theorem SelectorVariable.spelling_matchVariable (s : SelectorVariable) :
    s.matchVariable.spelling = s.spelling := by
  cases s <;> rfl

/-- Whether a modifier inverts the result of the operator. -/
def ConditionModifier.isNegated : ConditionModifier → Bool
  | .isNot | .notContains => true
  | .is | .contains => false

/-- The plain modifier that inverts or keeps the result. -/
def ConditionModifier.ofNegated : Bool → ConditionModifier
  | true => .isNot
  | false => .is

@[simp] theorem ConditionModifier.isNegated_ofNegated (b : Bool) :
    (ofNegated b).isNegated = b := by
  cases b <;> rfl

end EdgeFirewall
