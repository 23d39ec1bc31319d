import EdgeFirewall.Json.Record
import EdgeFirewall.Json.Reader
import EdgeFirewall.Text.Blank
import EdgeFirewall.Text.Quoted

/-! # Service errors

What can go wrong in a call to the management service. Only an answer with status 404 is an
error of the sort `isNotFound`. What the HTTP library says of a failed exchange, and the JSON
library of a text that it cannot read, are the reasons of such errors. -/

namespace EdgeFirewall

/-- Why a call to the management service failed. -/
inductive ServiceError where
  /-- No answer came, or it broke off. -/
  | connection (reason : String)
  /-- The service answered 404. -/
  | notFound (detail : String)
  /-- The service answered with a status that the call does not expect. -/
  | status (number : Nat) (code detail : String)
  /-- A long-running operation ended without success. -/
  | operationFailed (ending detail : String)
  /-- A long-running operation did not end within the allowed number of polls. -/
  | timedOut (attempts : Nat)
  | cancelled
  | deadlineExceeded
  /-- The body of an answer could not be read. -/
  | unreadable (reason : String)
  /-- A policy came without a mode. -/
  | noMode (policy : String)
  /-- The answer is not what the call was made for. -/
  | unexpected (detail : String)
  deriving DecidableEq, Repr

namespace ServiceError

/-- Whether the service said that the resource does not exist. -/
def isNotFound : ServiceError → Bool
  | .notFound _ => true
  | _ => false

/-- The wording of an error. -/
def message : ServiceError → String
  | .connection reason => s!"HTTP request failed: {reason}"
  | .notFound detail => s!"resource not found: {detail}"
  | .status number code detail => s!"unexpected status {number} ({code}): {detail}"
  | .operationFailed ending detail =>
    s!"long-running operation ended with status {ending}: {detail}"
  | .timedOut attempts => s!"long-running operation still running after {attempts} polls"
  | .cancelled => "operation cancelled"
  | .deadlineExceeded => "operation deadline exceeded"
  | .unreadable reason => s!"invalid payload: {reason}"
  | .noMode policy =>
    "unexpected response: Front Door Firewall Policy " ++ Text.quoted policy ++
      " has no policy mode"
  | .unexpected detail => s!"unexpected response: {detail}"

end ServiceError

/-- What the service says about an error. -/
structure ErrorDetail where
  code : Option String := none
  message : Option String := none
  deriving DecidableEq, Repr

namespace ErrorDetail

/-- Reads an error detail. -/
def ofJson? (j : Json) : Option ErrorDetail := do
  let r ← j.record? ["code", "message"]
  return {
    code := ← r.optional "code" Json.asText?
    message := ← r.optional "message" Json.asText? }

/-- Reads the body of an error answer; one that cannot be read says nothing. -/
def ofBody (body : String) : ErrorDetail :=
  let detail? : Option (Option ErrorDetail) := do
    let r ← (← Json.ofText? body).record? ["error"]
    r.optional "error" ofJson?
  (detail?.getD none).getD {}

end ErrorDetail

/-- The error that an answer with an unexpected status stands for. Without a readable detail the
body itself is the detail. -/
def ServiceError.ofStatus (status : Nat) (body : String) : ServiceError :=
  let error := ErrorDetail.ofBody body
  let code := error.code.getD "Unknown"
  let detail := error.message.getD (Text.trim body)
  if status = 404 then .notFound s!"{code}: {detail}" else .status status code detail

end EdgeFirewall
