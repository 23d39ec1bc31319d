import EdgeFirewall.Service.Http
import EdgeFirewall.Settings

/-! # Long-running operations

The service answers a change before it is done and says where to ask after it: a status document,
or a location that answers 202 until the change is done. `Poll.classify` tells what an answer to
such a question means, and `Endpoint.wait` asks until an answer is final. -/

namespace EdgeFirewall

open Http

/-- What a body is read as. -/
inductive Payload where
  | policy
  | operationStatus
  deriving DecidableEq, Repr

/-- How the JSON library words why a body cannot be read. -/
abbrev Wording := Payload → String → String

/-- The management endpoint, how to show who asks, and how to poll. -/
structure Endpoint where
  base : String
  token : String
  poll : PollSettings
  wording : Wording

namespace Endpoint

/-- The endpoint at a URL, written without slashes at its end. -/
def ofUrl (url token : String) (poll : PollSettings) (wording : Wording) : Endpoint where
  base := Text.dropTrailing '/' url
  token
  poll
  wording

/-- The URL of a resource path at the endpoint. -/
def resourceUrl (e : Endpoint) (path apiVersion : String) : String :=
  e.base ++ path ++ "?api-version=" ++ apiVersion

/-- Sends a request to a URL. -/
def send (e : Endpoint) (ctx : Context) (method : Method) (url : String) (body : Option Json) :
    StateM Session (Except ServiceError Response) :=
  Session.send ctx (.authorized e.token method url body)

/-- Sends a request whose answer must have one of the expected statuses. -/
def sendExpecting (e : Endpoint) (ctx : Context) (method : Method) (url : String)
    (body : Option Json) (expected : List Nat) : StateM Session (Except ServiceError Response) := do
  match ← e.send ctx method url body with
  | .error err => return .error err
  | .ok r =>
    if expected.contains r.status then return .ok r else return .error (.ofStatus r.status r.body)

end Endpoint

/-- Where to ask after an operation. -/
inductive PollTarget where
  | statusDocument (url : String)
  | location (url : String)
  deriving DecidableEq, Repr

/-- The URL of a target. -/
def PollTarget.url : PollTarget → String
  | .statusDocument url | .location url => url

/-- What an answer says about an operation that has not failed. -/
inductive Progress where
  | done
  /-- Not done; the service may ask for a delay, in milliseconds. -/
  | pending (delay : Option Nat)
  deriving DecidableEq, Repr

/-- A document about the status of an operation. -/
structure OperationStatus where
  status : String
  error : Option ErrorDetail
  deriving DecidableEq, Repr

/-- Reads a status document. -/
def OperationStatus.ofBody? (body : String) : Option OperationStatus := do
  let r ← (← Json.ofText? body).record? ["status", "error"]
  return {
    status := ← r.required "status" Json.asText?
    error := ← r.optional "error" ErrorDetail.ofJson? }

namespace Poll

/-- The delay that an answer asks for: a number of seconds, given in milliseconds. -/
def retryAfter? (r : Response) : Option Nat :=
  ((r.header? "retry-after").bind fun t => Text.readNatBelow Settings.numberLimit (Text.trim t)).map
    (1000 * ·)

/-- What the status document in an answer says. -/
def classifyStatus (wording : Wording) (r : Response) : Except ServiceError Progress :=
  if r.status < 200 || 300 ≤ r.status then .error (.ofStatus r.status r.body)
  else
    match OperationStatus.ofBody? r.body with
    | none => .error (.unreadable (wording .operationStatus r.body))
    | some o =>
      if o.status = "Succeeded" then .ok .done
      else if o.status = "Failed" || o.status = "Canceled" || o.status = "Cancelled" then
        .error (.operationFailed o.status
          ((o.error.bind ErrorDetail.message).getD "no error details returned"))
      else .ok (.pending (retryAfter? r))

/-- What the status of an answer from a location says. -/
def classifyLocation (r : Response) : Except ServiceError Progress :=
  if r.status = 202 then .ok (.pending (retryAfter? r))
  else if r.status = 200 || r.status = 201 || r.status = 204 then .ok .done
  else .error (.ofStatus r.status r.body)

/-- What an answer of a target says about the operation. -/
def classify (wording : Wording) : PollTarget → Response → Except ServiceError Progress
  | .statusDocument _ => classifyStatus wording
  | .location _ => classifyLocation

end Poll

/-- An operation that is being asked after. -/
structure Poller where
  target : PollTarget
  /-- Milliseconds to wait before the next question. -/
  nextDelay : Nat
  deriving DecidableEq, Repr

/-- How to ask after the operation that an answer has started; there is nothing to ask after
unless the answer says where. A status document goes before a location. -/
def Poller.ofResponse? (poll : PollSettings) (r : Response) : Option Poller :=
  let target? : Option PollTarget := match r.header? "azure-asyncoperation" with
    | some url => some (.statusDocument url)
    | none => if r.status = 202 then (r.header? "location").map .location else none
  target?.map fun t => ⟨t, (Poll.retryAfter? r).getD poll.interval⟩

namespace Endpoint

/-- Asks once after an operation. -/
def ask (e : Endpoint) (ctx : Context) (target : PollTarget) :
    StateM Session (Except ServiceError Progress) := do
  match ← e.send ctx .get target.url none with
  | .error err => return .error err
  | .ok r => return Poll.classify e.wording target r

/-- Asks after an operation a number of times, until it is done or has failed. Gives the poller
as it is left, so that a later wait goes on with the delay that is due. -/
def waitFor (e : Endpoint) (ctx : Context) :
    Nat → Poller → StateM Session (Except ServiceError Unit × Poller)
  | 0, p => return (.error (.timedOut e.poll.maxAttempts), p)
  | attempts + 1, p => do
    match ← Session.sleep ctx p.nextDelay with
    | .error err => return (.error err, p)
    | .ok _ =>
      match ← e.ask ctx p.target with
      | .error err => return (.error err, p)
      | .ok .done => return (.ok (), p)
      | .ok (.pending delay) =>
        e.waitFor ctx attempts { p with nextDelay := delay.getD e.poll.interval }

/-- Waits for an operation, as long as the poll settings allow. -/
def wait (e : Endpoint) (ctx : Context) (p : Poller) :
    StateM Session (Except ServiceError Unit × Poller) :=
  e.waitFor ctx e.poll.maxAttempts p

end Endpoint

end EdgeFirewall
