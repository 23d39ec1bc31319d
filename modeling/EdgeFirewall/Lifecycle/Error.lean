import EdgeFirewall.Policy.Violation
import EdgeFirewall.ResourceId
import EdgeFirewall.Service.Error

/-! # Lifecycle errors

Why a step in the life of a firewall policy failed: a fault in what was asked for, or a call to
the service that failed, with what the call was made for. -/

namespace EdgeFirewall

/-- What a call to the service was made for. -/
inductive Operation where
  | checkExisting
  | createOrUpdate
  | waitForCreateOrUpdate
  | retrieve
  | delete
  | waitForDelete
  deriving DecidableEq, Repr

/-- The wording of an operation. -/
def Operation.text : Operation → String
  | .checkExisting => "checking for presence of existing"
  | .createOrUpdate => "creating or updating"
  | .waitForCreateOrUpdate => "waiting for creation or update of"
  | .retrieve => "retrieving"
  | .delete => "deleting"
  | .waitForDelete => "waiting for deletion of"

/-- Why a step in the life of a policy failed. -/
inductive PolicyError where
  /-- The declared policy violates constraints. -/
  | invalid (name group : String) (violations : List Violation)
  | remote (operation : Operation) (name group : String) (source : ServiceError)
  /-- The policy is not there, or has no identifier, right after it was put. -/
  | notFoundAfterCreate (name group : String)
  | notFound (name group : String)
  | alreadyExists (id : String)
  | invalidId (source : ResourceIdError)
  deriving DecidableEq

namespace PolicyError

/-- Whether the policy does not exist. -/
def isNotFound : PolicyError → Bool
  | .notFound .. => true
  | .remote _ _ _ source => source.isNotFound
  | _ => false

/-- A policy with its resource group, as messages name it. -/
def policyText (name group : String) : String :=
  "Front Door Firewall Policy " ++ Text.quoted name ++
    " (Resource Group " ++ Text.quoted group ++ ")"

/-- The wording of an error. -/
def message : PolicyError → String
  | .invalid name group violations =>
    "invalid configuration for " ++ policyText name group ++ ": " ++
      "; ".intercalate (violations.map Violation.message)
  | .remote operation name group source =>
    "Error " ++ operation.text ++ " " ++ policyText name group ++ ": " ++ source.message
  | .notFoundAfterCreate name group =>
    "Cannot read " ++ policyText name group ++ " ID after creation"
  | .notFound name group => policyText name group ++ " was not found"
  | .alreadyExists id =>
    "a Front Door Firewall Policy with ID " ++ Text.quoted id ++
      " already exists and must be imported to be managed"
  | .invalidId source => "invalid Front Door Firewall Policy ID: " ++ source.message

end PolicyError

end EdgeFirewall
