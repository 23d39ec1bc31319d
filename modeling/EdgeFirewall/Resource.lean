import EdgeFirewall.Attribute.Schema

/-! # Resources

What a host declares and what it gets back: a resource has a type and a name in the configuration
and attributes; its state says whether it exists and under which identifier the remote side knows
it. -/

namespace EdgeFirewall

/-- A resource in the configuration: its type and the name it has there. -/
structure ResourceKey where
  type : String
  name : String
  deriving DecidableEq, Repr

/-- A resource as it is declared. -/
structure Resource where
  key : ResourceKey
  attributes : Attributes := []
  deriving DecidableEq

namespace Resource

/-- Declares one more attribute. -/
def withAttribute (r : Resource) (name : String) (value : Value) : Resource :=
  { r with attributes := r.attributes.set name value }

/-- Declares more attributes. -/
def withAttributes (r : Resource) (a : Attributes) : Resource :=
  { r with attributes := r.attributes.extend a }

end Resource

/-- A resource as it is. -/
structure ResourceState where
  key : ResourceKey
  /-- How the remote side identifies the resource. -/
  identifier : Option String := none
  attributes : Attributes := []
  isPresent : Bool
  deriving DecidableEq

namespace ResourceState

/-- The state of a resource that does not exist. -/
def absent (key : ResourceKey) : ResourceState where
  key
  isPresent := false

/-- The state of a resource that exists. -/
def present (key : ResourceKey) (attributes : Attributes) : ResourceState where
  key
  attributes
  isPresent := true

/-- The state with an identifier. -/
def withIdentifier (s : ResourceState) (identifier : String) : ResourceState :=
  { s with identifier := some identifier }

end ResourceState

/-- A type of resources that a provider serves. A type without attributes need not give a
schema. -/
structure ResourceType where
  name : String
  schema : ResourceSchema := { resourceType := name }

end EdgeFirewall
