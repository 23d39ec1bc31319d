import EdgeFirewall.Json.Basic
import EdgeFirewall.Service.Context
import EdgeFirewall.Text.AsciiCase

/-! # HTTP exchanges

Requests and answers, and a session in which they are exchanged. What comes of a request is up to
the web (`Web`): that is the HTTP library, which refuses requests that it cannot write down,
resolves hosts, keeps connections and follows redirects, with everything that lies behind it. The
session has the clock and the log of the requests that were handed to the library. -/

namespace EdgeFirewall

namespace Http

/-- The methods in use. -/
inductive Method where
  | get
  | put
  | delete
  deriving DecidableEq, Repr

/-- The name of a method. -/
def Method.name : Method → String
  | .get => "GET"
  | .put => "PUT"
  | .delete => "DELETE"

/-- A request. -/
structure Request where
  method : Method
  url : String
  headers : List (String × String) := []
  body : Option Json := none

/-- The program that a request says it comes from. -/
def userAgent : String := "azwaf/0.1.0"

/-- A request in the name of the holder of an access token. A body is JSON. -/
def Request.authorized (accessToken : String) (method : Method) (url : String)
    (body : Option Json) : Request where
  method
  url
  headers := [("user-agent", userAgent), ("authorization", "Bearer " ++ accessToken)] ++
    (body.map fun _ => ("content-type", "application/json")).toList
  body

/-- An answer. Bytes of a header value that are not ASCII stand as characters that are not. -/
structure Response where
  status : Nat
  headers : List (String × String) := []
  body : String := ""
  deriving DecidableEq, Repr

namespace Response

/-- Whether a character may stand in a header value that is text: visible ASCII, space and tab. -/
def isTextChar (c : Char) : Bool :=
  c == '\t' || (0x20 ≤ c.toNat && c.toNat ≤ 0x7E)

/-- The value of the first header with a name, if it is text. -/
def header? (r : Response) (name : String) : Option String :=
  ((r.headers.find? fun h => Text.eqIgnoringCase h.1 name).map (·.2)).filter fun value =>
    value.toList.all isTextChar

end Response

/-- What comes of a request. -/
inductive Reply where
  | answer (r : Response)
  /-- An answer breaks off in its body, after its status and its headers. -/
  | broken (status : Nat) (headers : List (String × String)) (reason : String)
  /-- There is no answer. -/
  | failure (reason : String)
  deriving DecidableEq, Repr

/-- What comes of a request after other requests. -/
abbrev Web := List Request → Request → Reply

/-- The web that gives some replies in turn, whatever is asked for, and then only the status 500. -/
def Web.ofList (replies : List Reply) : Web := fun past _ =>
  replies.getD past.length (.answer { status := 500, body := "script exhausted" })

/-- A request with the time at which it was sent. -/
structure Sent where
  request : Request
  time : Nat

/-- The web and what was asked of it. -/
structure Session where
  clock : Clock := {}
  web : Web
  /-- The requests sent so far, the first one first. -/
  sent : List Sent := []

namespace Session

/-- The requests sent so far. -/
def past (s : Session) : List Request :=
  s.sent.map (·.request)

/-- Sends a request and takes what comes of it. -/
def exchange (r : Request) : StateM Session (Except ServiceError Response) := fun s =>
  let after := { s with sent := s.sent ++ [⟨r, s.clock.now⟩] }
  match s.web s.past r with
  | .answer response => (.ok response, after)
  | .broken _ _ reason | .failure reason => (.error (.connection reason), after)

/-- Sends a request in a context. -/
def send (ctx : Context) (r : Request) : StateM Session (Except ServiceError Response) :=
  ctx.run Session.clock (exchange r)

/-- Lets time pass in a context. -/
def sleep (ctx : Context) (duration : Nat) : StateM Session (Except ServiceError Unit) := fun s =>
  let (result, clock) := ctx.sleep duration s.clock
  (result, { s with clock })

end Session

end Http

end EdgeFirewall
