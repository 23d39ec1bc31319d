import EdgeFirewall.Document.Json
import EdgeFirewall.ResourceId
import EdgeFirewall.Service.Client
import EdgeFirewall.Service.Poll

/-! # The client over HTTP

The four calls of a client, made as HTTP requests for the policies of one subscription. -/

namespace EdgeFirewall

open Http

namespace Endpoint

/-- The URL of a policy. -/
def policyUrl (e : Endpoint) (subscription group name : String) : String :=
  e.resourceUrl (Policy.resourceId subscription group name).text Document.apiVersion

/-- Gets a policy. -/
def getPolicy (e : Endpoint) (subscription : String) (ctx : Context) (group name : String) :
    StateM Session (Except ServiceError Document) := do
  match ← e.sendExpecting ctx .get (e.policyUrl subscription group name) none [200] with
  | .error err => return .error err
  | .ok r =>
    match Document.ofText? r.body with
    | some d => return .ok d
    | none => return .error (.unreadable (e.wording .policy r.body))

/-- Starts to put a policy. -/
def putPolicy (e : Endpoint) (subscription : String) (ctx : Context) (group name : String)
    (d : Document) : StateM Session (Except ServiceError (Option Poller)) := do
  match ← e.sendExpecting ctx .put (e.policyUrl subscription group name) (some d.toJson)
      [200, 201, 202] with
  | .error err => return .error err
  | .ok r => return .ok (Poller.ofResponse? e.poll r)

/-- Starts to delete a policy. -/
def deletePolicy (e : Endpoint) (subscription : String) (ctx : Context) (group name : String) :
    StateM Session (Except ServiceError (Option Poller)) := do
  match ← e.sendExpecting ctx .delete (e.policyUrl subscription group name) none
      [200, 202, 204] with
  | .error err => return .error err
  | .ok r => return .ok (Poller.ofResponse? e.poll r)

/-- Waits for an operation; one with nothing to ask after is done. -/
def waitForOperation (e : Endpoint) (ctx : Context) :
    Option Poller → StateM Session (Except ServiceError Unit)
  | none => return .ok ()
  | some p => do return (← e.wait ctx p).1

/-- The client for the policies of a subscription. -/
def client (e : Endpoint) (subscription : String) (ctx : Context) :
    Client Session (Option Poller) where
  get := e.getPolicy subscription ctx
  put := e.putPolicy subscription ctx
  delete := e.deletePolicy subscription ctx
  wait := e.waitForOperation ctx

end Endpoint

end EdgeFirewall
