import EdgeFirewall.Proofs.Lifecycle.Requests
import EdgeFirewall.Proofs.Policy.Slots
import EdgeFirewall.Service.Store
import Mathlib.Logic.Function.Basic

/-! # Registries of policies

What a host may expect of a provider, without documents and without a service: a registry holds,
under a resource group and a name that are compared ignoring case, the identifier and the canonical
attributes of each policy in place. `Registry.answer` gives the answer to a call of a host and the
registry after it, `Registry.answers` the answers to calls one after the other. It shares with the
provider what attributes declare a policy and which policy an identifier names, but none of the
steps that a call is made of. -/

namespace EdgeFirewall

/-- The resource that a call of a host is about. -/
def HostCall.key : HostCall → ResourceKey
  | .create r => r.key
  | .read key _ => key
  | .update key _ _ => key
  | .delete key _ => key

/-- The policies in place. -/
abbrev Registry := StoreKey → Option PolicyState

namespace Registry

variable (f : Folding) (m : Registry) (subscription : String)

/-- Attributes of a policy with its name and its group spelled as given. -/
def respelled (a : Attributes) (address : Policy.Address) : Attributes :=
  (a.set "name" (.string address.name)).set "resource_group_name" (.string address.group)

/-- The state of a policy that has just been put in place. -/
def placed (p : Policy) (a : Attributes) : PolicyState where
  id := (Policy.resourceId subscription p.resourceGroup p.name).text
  attributes := Policy.canonical a

/-- A policy that is declared with the name or the group of another. -/
def displaced (address : Policy.Address) (vs : List Violation) : PolicyError :=
  .invalid address.name address.group vs

/-- A name that is not the one in the identifier. -/
def newName (address : Policy.Address) (p : Policy) : Violation :=
  ⟨[.key "name"], .replaced address.name p.name⟩

/-- A group that is not the one in the identifier. -/
def newGroup (address : Policy.Address) (p : Policy) : Violation :=
  ⟨[.key "resource_group_name"], .replaced address.group p.resourceGroup⟩

/-- Creates a policy, which must not be there. -/
def create (a : Attributes) : Except PolicyError PolicyState × Registry :=
  match Policy.ofAttributes a with
  | .error vs => (.error (.undeclared a vs), m)
  | .ok p =>
    match m (.of f p.resourceGroup p.name) with
    | some s => (.error (.alreadyExists s.id), m)
    | none =>
      let s := placed subscription p a
      (.ok s, Function.update m (.of f p.resourceGroup p.name) (some s))

/-- Changes a policy, which must be there and stays where it is. -/
def update (identifier : String) (a : Attributes) : Except PolicyError PolicyState × Registry :=
  match Policy.Address.parse identifier with
  | .error e => (.error (.invalidId e), m)
  | .ok address =>
    match Policy.ofAttributes a with
    | .error vs => (.error (.undeclared a vs), m)
    | .ok p =>
      let sameName := Text.lowerAscii p.name = Text.lowerAscii address.name
      let sameGroup := Text.lowerAscii p.resourceGroup = Text.lowerAscii address.group
      if sameName ∧ sameGroup then
        match m (.of f address.group address.name) with
        | none => (.error (.notFound address.name address.group), m)
        | some _ =>
          let s := placed subscription p a
          (.ok s, Function.update m (.of f address.group address.name) (some s))
      else if sameName then (.error (displaced address [newGroup address p]), m)
      else if sameGroup then (.error (displaced address [newName address p]), m)
      else (.error (displaced address [newName address p, newGroup address p]), m)

/-- The policy with an identifier, spelled as the identifier spells it, if it is there. -/
def find? (identifier : String) : Except PolicyError (Option PolicyState) :=
  match Policy.Address.parse identifier with
  | .error e => .error (.invalidId e)
  | .ok address =>
    .ok ((m (.of f address.group address.name)).map fun s =>
      { s with attributes := respelled s.attributes address })

/-- Removes the policy with an identifier, if it is there. -/
def delete (identifier : String) : Except PolicyError Unit × Registry :=
  match Policy.Address.parse identifier with
  | .error e => (.error (.invalidId e), m)
  | .ok address => (.ok (), Function.update m (.of f address.group address.name) none)

/-! ### Calls of a host -/

/-- The answer that a resource is in place. -/
def present (key : ResourceKey) (s : PolicyState) : HostAnswer :=
  .ok (some { key, identifier := some s.id, attributes := s.attributes, isPresent := true })

/-- The answer that a resource does not exist. -/
def absent (key : ResourceKey) : HostAnswer :=
  .ok (some { key, identifier := none, attributes := [], isPresent := false })

/-- The answer to a call that leaves a policy in place. -/
def concluded (key : ResourceKey) : Except PolicyError PolicyState → HostAnswer
  | .ok s => present key s
  | .error e => .error (HostCall.failure key e)

/-- The answer to a call for a resource of the known type, and the registry after it. -/
def answerKnown : HostCall → HostAnswer × Registry
  | .create r =>
    let (result, m) := m.create f subscription r.attributes
    (concluded r.key result, m)
  | .read key none => (absent key, m)
  | .read key (some identifier) =>
    match m.find? f identifier with
    | .error e => (.error (HostCall.failure key e), m)
    | .ok none => (absent key, m)
    | .ok (some s) => (present key s, m)
  | .update key identifier target =>
    let (result, m) := m.update f subscription identifier target.attributes
    (concluded key result, m)
  | .delete key identifier =>
    match m.delete f identifier with
    | (.error e, m) => (.error (HostCall.failure key e), m)
    | (.ok _, m) => (.ok none, m)

/-- The answer to a call, and the registry after it. -/
def answer (call : HostCall) : HostAnswer × Registry :=
  if call.key.type = "frontdoor_firewall_policy" then m.answerKnown f subscription call
  else
    (.error (.error {
      message := s!"Unknown resource type: {call.key.type}"
      resource := some call.key }), m)

/-- The answers to calls one after the other. -/
def answers (m : Registry) : List HostCall → List HostAnswer
  | [] => []
  | call :: rest =>
    let (first, m) := m.answer f subscription call
    first :: answers m rest

end Registry

end EdgeFirewall
