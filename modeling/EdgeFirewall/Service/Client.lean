import EdgeFirewall.Document.Basic
import EdgeFirewall.Service.Error

/-! # Clients of the management service

What managing firewall policies needs of the service: to get a policy, to put one, to delete one,
and to wait for the operation that a put or a delete starts. A client may be anything that answers
these four calls and keeps some state; `Client.logged` notes each call of another client. -/

namespace EdgeFirewall

/-- A client with state `σ`, whose long-running operations are known by handles `η`. -/
structure Client (σ η : Type) where
  get : (group name : String) → StateM σ (Except ServiceError Document)
  put : (group name : String) → Document → StateM σ (Except ServiceError η)
  delete : (group name : String) → StateM σ (Except ServiceError η)
  wait : η → StateM σ (Except ServiceError Unit)

/-- A call of a client. -/
inductive Call where
  | get (group name : String)
  | put (group name : String) (document : Document)
  | delete (group name : String)
  | wait
  deriving DecidableEq

/-- A call together with how it ended: the document it gave, if any, or the error. -/
structure CallRecord where
  call : Call
  result : Except ServiceError (Option Document)

namespace Client

variable {σ η : Type}

/-- Runs a call of a client and notes how it ended. -/
def noting {α : Type} (call : Call) (document? : α → Option Document)
    (run : StateM σ (Except ServiceError α)) :
    StateM (σ × List CallRecord) (Except ServiceError α) := fun (s, log) =>
  let (result, s) := run s
  (result, s, log ++ [⟨call, result.map document?⟩])

/-- The client that answers like `c` and keeps a log of its calls. -/
def logged (c : Client σ η) : Client (σ × List CallRecord) η where
  get group name := noting (.get group name) some (c.get group name)
  put group name document := noting (.put group name document) (fun _ => none)
    (c.put group name document)
  delete group name := noting (.delete group name) (fun _ => none) (c.delete group name)
  wait operation := noting .wait (fun _ => none) (c.wait operation)

end Client

end EdgeFirewall
