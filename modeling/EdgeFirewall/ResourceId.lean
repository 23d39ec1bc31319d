import EdgeFirewall.Text.AsciiCase
import EdgeFirewall.Text.Blank
import EdgeFirewall.Text.Split

/-! # Resource identifiers

An identifier names a resource of the management service by pairs of a key and a value:
`/subscriptions/s/resourceGroups/g/providers/p/type/name`. The first pair with each of the three
keys shown gives the subscription, the resource group and the provider; the other pairs are the
path. Keys are compared ignoring case. `ResourceId.text` writes an identifier, `ResourceId.parse`
reads one. -/

namespace EdgeFirewall

/-- Why a text is no resource identifier, or an identifier does not name what is asked for. -/
inductive ResourceIdError where
  | empty
  | notAbsolute (text : String)
  | oddSegments (text : String)
  | missingSubscription (text : String)
  | missingGroup (text : String)
  | missingKey (text key : String)
  deriving DecidableEq, Repr

/-- The wording of an error. -/
def ResourceIdError.message : ResourceIdError → String
  | .empty => "resource ID is empty"
  | .notAbsolute text => s!"resource ID '{text}' must start with '/'"
  | .oddSegments text => s!"resource ID '{text}' has an odd number of segments"
  | .missingSubscription text => s!"resource ID '{text}' has no subscription"
  | .missingGroup text => s!"resource ID '{text}' has no resource group"
  | .missingKey text key => s!"resource ID '{text}' has no '{key}' segment"

/-- The identifier of a resource. -/
structure ResourceId where
  subscription : String
  group : String
  provider : Option String := none
  /-- The pairs of resource types and names, from the outside in. -/
  path : List (String × String) := []
  deriving DecidableEq, Repr

namespace ResourceId

/-- The text of an identifier. -/
def text (id : ResourceId) : String :=
  s!"/subscriptions/{id.subscription}/resourceGroups/{id.group}" ++
    (match id.provider with
      | some p => "/providers/" ++ p
      | none => "") ++
    String.join (id.path.map fun e => "/" ++ e.1 ++ "/" ++ e.2)

/-- Adds a pair at the end of the path. -/
def child (id : ResourceId) (key value : String) : ResourceId :=
  { id with path := id.path ++ [(key, value)] }

/-- The value of the first pair of the path with the given key. -/
def get? (id : ResourceId) (key : String) : Option String :=
  (id.path.find? fun e => Text.eqIgnoringCase e.1 key).map (·.2)

/-- The value of the first pair of the path with the given key, which must be there. -/
def require (id : ResourceId) (key : String) : Except ResourceIdError String :=
  match id.get? key with
  | some value => .ok value
  | none => .error (.missingKey id.text key)

/-! ### Reading -/

/-- Pairs up segments, unless one is empty or left over. -/
def pairs? : List (List Char) → Option (List (String × String))
  | [] => some []
  | key :: value :: rest =>
    if key.isEmpty || value.isEmpty then none
    else (pairs? rest).map ((String.ofList key, String.ofList value) :: ·)
  | [_] => none

/-- The value of the first pair with a key, and the other pairs. -/
def extract (key : String) : List (String × String) → Option (String × List (String × String))
  | [] => none
  | e :: rest =>
    if Text.eqIgnoringCase e.1 key then some (e.2, rest)
    else (extract key rest).map fun r => (r.1, e :: r.2)

/-- A text without the slashes at either end. -/
def stripSlashes (s : List Char) : List Char :=
  Text.strip (· == '/') s

/-- The identifier that pairs make up; errors quote the text they come from. -/
def ofPairs (source : String) (pairs : List (String × String)) :
    Except ResourceIdError ResourceId :=
  match extract "subscriptions" pairs with
  | none => .error (.missingSubscription source)
  | some (subscription, pairs) =>
    match extract "resourceGroups" pairs with
    | none => .error (.missingGroup source)
    | some (group, pairs) =>
      match extract "providers" pairs with
      | none => .ok { subscription, group, path := pairs }
      | some (provider, pairs) =>
        .ok { subscription, group, provider := some provider, path := pairs }

/-- Reads an identifier; blanks around it and slashes at its ends do not count. -/
def parse (s : String) : Except ResourceIdError ResourceId :=
  match Text.trimChars s.toList with
  | [] => .error .empty
  | '/' :: rest =>
    match pairs? (Text.split '/' (stripSlashes rest)) with
    | some pairs => ofPairs s pairs
    | none => .error (.oddSegments s)
  | _ => .error (.notAbsolute s)

end ResourceId

/-! ### Identifiers of firewall policies -/

namespace Policy

/-- The provider of firewall policies. -/
def providerName : String := "Microsoft.Network"

/-- The key of a firewall policy in the path of an identifier. -/
def idKey : String := "FrontDoorWebApplicationFirewallPolicies"

/-- The identifier of a firewall policy. -/
def resourceId (subscription group name : String) : ResourceId :=
  ResourceId.child { subscription, group, provider := some providerName } idKey name

/-- Where a firewall policy is found: its resource group and its name. -/
structure Address where
  group : String
  name : String
  deriving DecidableEq, Repr

/-- Reads the address of a policy from its identifier. -/
def Address.parse (s : String) : Except ResourceIdError Address := do
  let id ← ResourceId.parse s
  let name ← id.require idKey
  return { group := id.group, name }

end Policy

end EdgeFirewall
