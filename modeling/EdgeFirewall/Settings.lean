import EdgeFirewall.Attribute.Value
import EdgeFirewall.Text.Blank
import EdgeFirewall.Text.Numeral
import EdgeFirewall.Text.Quoted
import EdgeFirewall.Text.Split

/-! # Provider settings

A provider is set up from the attributes of its block in the configuration. What the block leaves
open is looked up in the environment, and what the environment leaves open has a default or is an
error. `Settings.resolve` reports the first offending setting in a fixed order. -/

namespace EdgeFirewall

/-- How often and how many times to ask after a long-running operation. -/
structure PollSettings where
  /-- Milliseconds between two polls, unless the service asks for another delay. -/
  interval : Nat := 10000
  maxAttempts : Nat := 360
  deriving DecidableEq, Repr

/-- A setting: its attribute and the environment variable that stands in for it. -/
structure Setting where
  key : String
  variableName : String
  deriving DecidableEq, Repr

namespace Setting

def subscription : Setting := ⟨"subscription_id", "ARM_SUBSCRIPTION_ID"⟩
def token : Setting := ⟨"access_token", "ARM_ACCESS_TOKEN"⟩
def endpoint : Setting := ⟨"endpoint", "ARM_ENDPOINT"⟩
def pollInterval : Setting := ⟨"poll_interval_seconds", "ARM_POLL_INTERVAL_SECONDS"⟩
def pollAttempts : Setting := ⟨"poll_max_attempts", "ARM_POLL_MAX_ATTEMPTS"⟩
def operationTimeout : Setting := ⟨"operation_timeout_seconds", "ARM_OPERATION_TIMEOUT_SECONDS"⟩

end Setting

/-- Why settings cannot be resolved. -/
inductive SettingsError where
  | missing (setting : Setting)
  | notAtLeast (setting : Setting) (least : Nat) (raw : String)
  | tooLarge (setting : Setting) (number : Nat)
  deriving DecidableEq, Repr

namespace SettingsError

/-- The setting that an error is about. -/
def setting : SettingsError → Setting
  | .missing s | .notAtLeast s _ _ | .tooLarge s _ => s

/-- The wording of an error. -/
def message : SettingsError → String
  | .missing s => s!"provider setting '{s.key}' is required (or set {s.variableName})"
  | .notAtLeast s least raw =>
    s!"provider setting '{s.key}' is invalid: expected an integer of at least {least}, got '{raw}'"
  | .tooLarge s number => s!"provider setting '{s.key}' is invalid: {number} is too large"

end SettingsError

/-- The settings of a provider. -/
structure Settings where
  subscription : String
  token : String
  endpoint : String
  poll : PollSettings
  /-- Seconds after which a call is given up. -/
  timeout : Option Nat
  deriving DecidableEq, Repr

namespace Settings

/-- The public endpoint of the management service. -/
def defaultEndpoint : String := "https://management.azure.com"

/-- The limit of the numbers that settings may have. -/
def numberLimit : Nat := UInt64.size

/-- The limit of the number of polls. -/
def attemptsLimit : Nat := UInt32.size

/-- The environment: the values of its variables. -/
abbrev Environment := String → Option String

/-- The text of a setting without the blanks around it; a blank one is not set. -/
def text? (a : Attributes) (env : Environment) (s : Setting) : Option String :=
  ((((a.lookup s.key).bind Value.asString?).or (env s.variableName)).map Text.trim).filter
    fun t => !t.isEmpty

/-- The text of a setting that must be set. -/
def required (a : Attributes) (env : Environment) (s : Setting) : Except SettingsError String :=
  match text? a env s with
  | some t => .ok t
  | none => .error (.missing s)

/-- What is given for a numeric setting: an integer attribute, or else a text. -/
def numeral? (a : Attributes) (env : Environment) (s : Setting) : Option String :=
  match (a.lookup s.key).bind Value.asInt? with
  | some n => some (toString n)
  | none => text? a env s

/-- The number of a setting, if it is set. -/
def number? (a : Attributes) (env : Environment) (s : Setting) (least : Nat) :
    Except SettingsError (Option Nat) :=
  match numeral? a env s with
  | none => .ok none
  | some raw =>
    match (Text.readNatBelow numberLimit raw).filter (least ≤ ·) with
    | some n => .ok (some n)
    | none => .error (.notAtLeast s least raw)

/-- The number of polls, if it is set. -/
def attempts? (a : Attributes) (env : Environment) : Except SettingsError (Option Nat) := do
  match ← number? a env .pollAttempts 1 with
  | none => return none
  | some n => if n < attemptsLimit then return some n else throw (.tooLarge .pollAttempts n)

/-- The settings that attributes and environment give. -/
def resolve (a : Attributes) (env : Environment) : Except SettingsError Settings := do
  let defaults : PollSettings := {}
  let interval ← number? a env .pollInterval 0
  let attempts ← attempts? a env
  let subscription ← required a env .subscription
  let token ← required a env .token
  let timeout ← number? a env .operationTimeout 1
  return {
    subscription, token
    endpoint := (text? a env .endpoint).getD defaultEndpoint
    poll := {
      interval := (interval.map (1000 * ·)).getD defaults.interval
      maxAttempts := attempts.getD defaults.maxAttempts }
    timeout }

/-- The text of a number of milliseconds: in seconds from one second on, with no more decimals
than needed. No time at all is given in nanoseconds. -/
def durationText (milliseconds : Nat) : String :=
  let seconds := milliseconds / 1000
  let rest := milliseconds % 1000
  if milliseconds = 0 then "0ns"
  else if seconds = 0 then s!"{rest}ms"
  else if rest = 0 then s!"{seconds}s"
  else
    let decimals := String.ofList ((toString (1000 + rest)).toList.drop 1)
    Text.dropTrailing '0' (s!"{seconds}." ++ decimals) ++ "s"

/-- A description of settings that does not tell the token. -/
def describe (s : Settings) : String :=
  let timeout := match s.timeout with
    | some n => "Some(" ++ durationText (1000 * n) ++ ")"
    | none => "None"
  "AzurermSettings \x7b subscription_id: " ++ Text.quoted s.subscription ++
    ", access_token: " ++ Text.quoted "<redacted>" ++
    ", endpoint: " ++ Text.quoted s.endpoint ++
    ", poll: PollSettings \x7b interval: " ++ durationText s.poll.interval ++
    ", max_attempts: " ++ toString s.poll.maxAttempts ++
    " \x7d, operation_timeout: " ++ timeout ++ " \x7d"

end Settings

end EdgeFirewall
