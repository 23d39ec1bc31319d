import EdgeFirewall.Document.Attributes
import EdgeFirewall.Lifecycle.Error
import EdgeFirewall.Policy.Attributes
import EdgeFirewall.Policy.Document
import EdgeFirewall.Service.Client

/-! # The life of a firewall policy

Creating, reading, updating and deleting one policy through a client. Creation refuses a policy
that exists, and an update refuses one that does not: neither overwrites what it has not looked
at. After a change the policy is read back, and what the service says is the result. -/

namespace EdgeFirewall

/-- A policy as the service holds it: its identifier and its canonical attributes. -/
structure PolicyState where
  id : String
  attributes : Attributes
  deriving DecidableEq

namespace Lifecycle

variable {σ η : Type}

/-- The text of an attribute; empty if it has none. -/
def attributeText (a : Attributes) (key : String) : String :=
  ((a.lookup key).bind Value.asString?).getD ""

/-- Reads the policy that attributes declare. -/
def declared (a : Attributes) : Except PolicyError Policy :=
  match Policy.ofAttributes a with
  | .ok p => .ok p
  | .error vs =>
    .error (.invalid (attributeText a "name") (attributeText a "resource_group_name") vs)

/-- The state of a policy that its document describes. -/
def stateOf (d : Document) (id name group : String) : Except PolicyError PolicyState :=
  match d.toAttributes name group with
  | .ok attributes => .ok { id, attributes }
  | .error e => .error (.remote .retrieve name group e)

/-- Puts a policy, waits until it is in place, and reads it back. -/
def apply (c : Client σ η) (p : Policy) : StateM σ (Except PolicyError PolicyState) := do
  match ← c.put p.resourceGroup p.name p.toDocument with
  | .error e => return .error (.remote .createOrUpdate p.name p.resourceGroup e)
  | .ok operation =>
    match ← c.wait operation with
    | .error e => return .error (.remote .waitForCreateOrUpdate p.name p.resourceGroup e)
    | .ok _ =>
      match ← c.get p.resourceGroup p.name with
      | .error e =>
        if e.isNotFound then return .error (.notFoundAfterCreate p.name p.resourceGroup)
        else return .error (.remote .retrieve p.name p.resourceGroup e)
      | .ok d =>
        match d.id with
        | none => return .error (.notFoundAfterCreate p.name p.resourceGroup)
        | some id => return stateOf d id p.name p.resourceGroup

/-- Creates a policy, which must not exist yet. -/
def create (c : Client σ η) (subscription : String) (a : Attributes) :
    StateM σ (Except PolicyError PolicyState) := do
  match declared a with
  | .error e => return .error e
  | .ok p =>
    match ← c.get p.resourceGroup p.name with
    | .ok d =>
      let ownId := (Policy.resourceId subscription p.resourceGroup p.name).text
      return .error (.alreadyExists (d.id.getD ownId))
    | .error e =>
      if e.isNotFound then apply c p
      else return .error (.remote .checkExisting p.name p.resourceGroup e)

/-- The changes of name and group that an update asks for; there is none that keeps the policy in
place. -/
def replacements (address : Policy.Address) (p : Policy) : List Violation :=
  (if Text.eqIgnoringCase p.name address.name then []
    else [⟨[.key "name"], .replaced address.name p.name⟩]) ++
  (if Text.eqIgnoringCase p.resourceGroup address.group then []
    else [⟨[.key "resource_group_name"], .replaced address.group p.resourceGroup⟩])

/-- Updates the policy with an identifier, which must exist. Its name and its group stay. -/
def update (c : Client σ η) (identifier : String) (a : Attributes) :
    StateM σ (Except PolicyError PolicyState) := do
  match Policy.Address.parse identifier with
  | .error e => return .error (.invalidId e)
  | .ok address =>
    match declared a with
    | .error e => return .error e
    | .ok p =>
      match replacements address p with
      | v :: vs => return .error (.invalid address.name address.group (v :: vs))
      | [] =>
        match ← c.get address.group address.name with
        | .error e =>
          if e.isNotFound then return .error (.notFound address.name address.group)
          else return .error (.remote .retrieve address.name address.group e)
        | .ok _ => apply c p

/-- Puts a policy whether it exists or not. -/
def createOrUpdate (c : Client σ η) (a : Attributes) :
    StateM σ (Except PolicyError PolicyState) := do
  match declared a with
  | .error e => return .error e
  | .ok p => apply c p

/-- Reads the policy with an identifier. -/
def read (c : Client σ η) (identifier : String) : StateM σ (Except PolicyError PolicyState) := do
  match Policy.Address.parse identifier with
  | .error e => return .error (.invalidId e)
  | .ok address =>
    match ← c.get address.group address.name with
    | .error e =>
      if e.isNotFound then return .error (.notFound address.name address.group)
      else return .error (.remote .retrieve address.name address.group e)
    | .ok d => return stateOf d (d.id.getD identifier) address.name address.group

/-- Deletes the policy with an identifier. That it does not exist is success. -/
def delete (c : Client σ η) (identifier : String) : StateM σ (Except PolicyError Unit) := do
  match Policy.Address.parse identifier with
  | .error e => return .error (.invalidId e)
  | .ok address =>
    match ← c.delete address.group address.name with
    | .error e =>
      if e.isNotFound then return .ok ()
      else return .error (.remote .delete address.name address.group e)
    | .ok operation =>
      match ← c.wait operation with
      | .error e =>
        if e.isNotFound then return .ok ()
        else return .error (.remote .waitForDelete address.name address.group e)
      | .ok _ => return .ok ()

end Lifecycle

end EdgeFirewall
