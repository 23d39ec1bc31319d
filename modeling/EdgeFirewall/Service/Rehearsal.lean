import EdgeFirewall.Service.Client
import EdgeFirewall.Service.Context
import EdgeFirewall.Service.Store

/-! # Rehearsals

A service in memory, on which the life of policies can be rehearsed. It keeps what is put, by names
that it compares in its own way, and its calls take no time and succeed, unless a plan says
otherwise: each call takes the next outcome that is planned for its kind. -/

namespace EdgeFirewall

/-- What is planned for one call. -/
structure Outcome where
  /-- How long the call takes, in milliseconds. -/
  delay : Option Nat := none
  /-- How the call fails. -/
  error : Option ServiceError := none
  /-- What a get is answered with, instead of the stored policy. -/
  document : Option Document := none
  /-- A put gives the policy no identifier. -/
  omitId : Bool := false
  /-- A put does not store the policy. -/
  lose : Bool := false

/-- The outcomes planned for the calls of each kind. -/
structure Plan where
  get : List Outcome := []
  put : List Outcome := []
  delete : List Outcome := []
  wait : List Outcome := []

/-- A rehearsal: the policies in place, the time, the calls so far and the plan for the next. -/
structure Rehearsal where
  clock : Clock := {}
  store : Store := {}
  calls : List Call := []
  plan : Plan := {}

namespace Rehearsal

/-- Notes a call and takes the outcome planned for it. -/
def begin (call : Call) (r : Rehearsal) : Outcome × Rehearsal :=
  let r := { r with calls := r.calls ++ [call] }
  let next (outcomes : List Outcome) : Outcome := outcomes.headD {}
  match call with
  | .get .. => (next r.plan.get, { r with plan := { r.plan with get := r.plan.get.tail } })
  | .put .. => (next r.plan.put, { r with plan := { r.plan with put := r.plan.put.tail } })
  | .delete .. =>
    (next r.plan.delete, { r with plan := { r.plan with delete := r.plan.delete.tail } })
  | .wait => (next r.plan.wait, { r with plan := { r.plan with wait := r.plan.wait.tail } })

/-- Lets the time pass that a call takes. -/
def pause (ctx : Context) : Option Nat → StateM Rehearsal (Except ServiceError Unit)
  | none => return .ok ()
  | some duration => fun r =>
    let (result, clock) := ctx.sleep duration r.clock
    (result, { r with clock })

/-- Makes a call: its delay passes, then it fails as planned or does its work. -/
def perform {α : Type} (ctx : Context) (call : Call)
    (work : Outcome → StateM Rehearsal (Except ServiceError α)) :
    StateM Rehearsal (Except ServiceError α) := do
  let outcome ← begin call
  match ← pause ctx outcome.delay with
  | .error e => return .error e
  | .ok _ =>
    ctx.run Rehearsal.clock <|
      match outcome.error with
      | some e => return .error e
      | none => work outcome

/-- The error for a policy that is not in place. -/
def absent (group name : String) : ServiceError :=
  .notFound s!"ResourceNotFound: {group}/{name}"

/-- Looks a policy up, unless another answer is planned. -/
def fetch (f : Folding) (group name : String) (outcome : Outcome) :
    StateM Rehearsal (Except ServiceError Document) := fun r =>
  match outcome.document.or (r.store.get? (.of f group name)) with
  | some d => (.ok d, r)
  | none => (.error (absent group name), r)

/-- Puts a policy in place. -/
def keep (f : Folding) (subscription group name : String) (d : Document) (outcome : Outcome) :
    StateM Rehearsal (Except ServiceError Unit) := fun r =>
  let kept := d.stored subscription group name
  let kept := if outcome.omitId then { kept with id := d.id } else kept
  if outcome.lose then (.ok (), r)
  else (.ok (), { r with store := r.store.insert (.of f group name) kept })

/-- Removes a policy. -/
def remove (f : Folding) (group name : String) (_ : Outcome) :
    StateM Rehearsal (Except ServiceError Unit) := fun r =>
  match r.store.get? (.of f group name) with
  | some _ => (.ok (), { r with store := r.store.erase (.of f group name) })
  | none => (.error (absent group name), r)

/-- The client of a rehearsal, for the policies of a subscription. -/
def client (f : Folding) (subscription : String) (ctx : Context) : Client Rehearsal Unit where
  get group name := perform ctx (.get group name) (fetch f group name)
  put group name d := perform ctx (.put group name d) (keep f subscription group name d)
  delete group name := perform ctx (.delete group name) (remove f group name)
  wait _ := perform ctx .wait fun _ => return .ok ()

end Rehearsal

end EdgeFirewall
