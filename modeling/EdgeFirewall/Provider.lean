import EdgeFirewall.Lifecycle.Basic
import EdgeFirewall.Policy.Schema
import EdgeFirewall.Resource
import EdgeFirewall.Service.HttpClient

/-! # The provider

What a host talks to. The provider checks the type of a resource, gives each call a context of its
own, and puts errors into words. -/

namespace EdgeFirewall

/-- What lies behind a provider error. -/
inductive ProviderCause where
  | policy (e : PolicyError)
  | settings (e : SettingsError)
  /-- An error of another origin, known by its text. -/
  | other (text : String)
  deriving DecidableEq

/-- An error that a host gets. -/
structure ProviderError where
  message : String
  resource : Option ResourceKey := none
  cause : Option ProviderCause := none
  deriving DecidableEq

namespace ProviderError

/-- The text of an error: its wording after the resource it is about. -/
def text (e : ProviderError) : String :=
  match e.resource with
  | some key => s!"[{key.type}.{key.name}] {e.message}"
  | none => e.message

/-- The settings error that lies behind an error. -/
def settingsCause? (e : ProviderError) : Option SettingsError :=
  match e.cause with
  | some (.settings s) => some s
  | _ => none

end ProviderError

/-- How a call of a provider ends if it gives no result. -/
inductive CallFailure where
  | error (e : ProviderError)
  /-- The deadline of the call would lie beyond the latest time, and the call breaks off. -/
  | noDeadline
  deriving DecidableEq

/-- What a provider works on: clients for its calls, and the clock they run on. -/
structure Backend (σ η : Type) where
  connect : Context → Client σ η
  clock : σ → Clock

namespace Endpoint

/-- The management service as a backend. -/
def backend (e : Endpoint) (subscription : String) :
    Backend Http.Session (Option Poller) where
  connect := e.client subscription
  clock := Http.Session.clock

end Endpoint

/-- A provider for the policies of a subscription. -/
structure Provider where
  subscription : String
  /-- The token by which its calls are cancelled. -/
  token : Token
  /-- Milliseconds after which a call is given up. -/
  timeout : Option Nat := none
  deriving DecidableEq, Repr

namespace Provider

/-- The name of the provider. -/
def name : String := "azurerm"

/-- The resource types that the provider serves. -/
def resourceTypes : List ResourceType :=
  [{ name := Policy.resourceType, schema := Policy.schema }]

/-- The provider with a token of its own, and its endpoint, that settings describe. -/
def ofSettings (serial : Nat) (wording : Wording) (s : Settings) : Provider × Endpoint :=
  ({ subscription := s.subscription, token := .own serial, timeout := s.timeout.map (1000 * ·) },
    Endpoint.ofUrl s.endpoint s.token s.poll wording)

/-- The provider and its endpoint that attributes and environment describe. -/
def ofAttributes (serial : Nat) (wording : Wording) (a : Attributes)
    (env : Settings.Environment) : Except ProviderError (Provider × Endpoint) :=
  match Settings.resolve a env with
  | .ok s => .ok (ofSettings serial wording s)
  | .error e =>
    .error {
      message := "Invalid azurerm provider configuration: " ++ e.message
      cause := some (.settings e) }

/-- Cancels the calls of a provider, those in progress and those to come. -/
def cancel (p : Provider) (c : Clock) : Clock :=
  c.cancel p.token

/-- The context of a call that starts now. -/
def context? (p : Provider) (c : Clock) : Option Context :=
  Context.within? p.token.child c p.timeout

/-- The error for a resource of a type that the provider does not serve. -/
def unknownType (key : ResourceKey) : CallFailure :=
  .error { message := s!"Unknown resource type: {key.type}", resource := some key }

/-- The error for a resource whose policy is at fault. -/
def policyFailure (key : ResourceKey) (e : PolicyError) : CallFailure :=
  .error { message := e.message, resource := some key, cause := some (.policy e) }

/-- The state of a resource whose policy is in place. -/
def stateOf (key : ResourceKey) (s : PolicyState) : ResourceState :=
  (ResourceState.present key s.attributes).withIdentifier s.id

variable {σ η α : Type}

/-- Runs work for a resource of the known type, with a client in a context of its own. -/
def run (p : Provider) (b : Backend σ η) (key : ResourceKey)
    (work : Client σ η → StateM σ (Except PolicyError α)) :
    StateM σ (Except CallFailure (Except PolicyError α)) := fun s =>
  if key.type = Policy.resourceType then
    match p.context? (b.clock s) with
    | none => (.error .noDeadline, s)
    | some ctx =>
      let (result, s) := work (b.connect ctx) s
      (.ok result, s)
  else (.error (unknownType key), s)

/-- The state in which work has left a policy, or the error. -/
def conclude (key : ResourceKey) :
    Except CallFailure (Except PolicyError PolicyState) → Except CallFailure ResourceState
  | .error f => .error f
  | .ok (.error e) => .error (policyFailure key e)
  | .ok (.ok s) => .ok (stateOf key s)

/-- Reads a resource. Without an identifier it does not exist. -/
def read (p : Provider) (b : Backend σ η) (key : ResourceKey) (identifier : Option String) :
    StateM σ (Except CallFailure ResourceState) := do
  match identifier with
  | none =>
    if key.type = Policy.resourceType then return .ok (.absent key)
    else return .error (unknownType key)
  | some identifier =>
    match ← p.run b key fun c => Lifecycle.read c identifier with
    | .ok (.error e) =>
      if e.isNotFound then return .ok (.absent key) else return .error (policyFailure key e)
    | result => return conclude key result

/-- Creates a resource. -/
def create (p : Provider) (b : Backend σ η) (r : Resource) :
    StateM σ (Except CallFailure ResourceState) := do
  return conclude r.key
    (← p.run b r.key fun c => Lifecycle.create c p.subscription r.attributes)

/-- Updates a resource. -/
def update (p : Provider) (b : Backend σ η) (key : ResourceKey) (identifier : String)
    (target : Resource) : StateM σ (Except CallFailure ResourceState) := do
  return conclude key (← p.run b key fun c => Lifecycle.update c identifier target.attributes)

/-- Deletes a resource. -/
def delete (p : Provider) (b : Backend σ η) (key : ResourceKey) (identifier : String) :
    StateM σ (Except CallFailure Unit) := do
  match ← p.run b key fun c => Lifecycle.delete c identifier with
  | .error f => return .error f
  | .ok (.error e) => return .error (policyFailure key e)
  | .ok (.ok _) => return .ok ()

end Provider

/-- A call of a host. -/
inductive HostCall where
  | create (r : Resource)
  | read (key : ResourceKey) (identifier : Option String)
  | update (key : ResourceKey) (identifier : String) (target : Resource)
  | delete (key : ResourceKey) (identifier : String)
  deriving DecidableEq

/-- What a host gets for a call: the state of the resource, unless it was deleted. -/
abbrev HostAnswer := Except CallFailure (Option ResourceState)

namespace Provider

variable {σ η : Type}

/-- Answers a call of a host. -/
def handle (p : Provider) (b : Backend σ η) : HostCall → StateM σ HostAnswer
  | .create r => return (← p.create b r).map some
  | .read key identifier => return (← p.read b key identifier).map some
  | .update key identifier target => return (← p.update b key identifier target).map some
  | .delete key identifier => return (← p.delete b key identifier).map fun _ => none

/-- Answers calls of a host one after the other. -/
def handleAll (p : Provider) (b : Backend σ η) : List HostCall → StateM σ (List HostAnswer)
  | [] => return []
  | call :: rest => return (← p.handle b call) :: (← p.handleAll b rest)

end Provider

end EdgeFirewall
