import EdgeFirewall.Document.Attributes
import EdgeFirewall.Service.Client
import EdgeFirewall.Service.Store
import Mathlib.Logic.Function.Basic

/-! # Clients that keep policies

How stateful work is taken apart, and the laws of a client whose service keeps what is put, gives
what it keeps and removes what is deleted (`Client.Keeps`). -/

namespace EdgeFirewall

variable {σ η : Type}

/-! ### Stateful work -/

theorem bind_apply {α β : Type} (x : StateM σ α) (f : α → StateM σ β) (s : σ) :
    (x >>= f) s = f (x s).1 (x s).2 := rfl

theorem pure_apply {α : Type} (x : α) (s : σ) : (pure x : StateM σ α) s = (x, s) := rfl

/-! ### The laws of a service that keeps policies -/

/-- A document as its owner puts it, without what the service sets. -/
def Document.asPut (d : Document) : Document where
  location := d.location
  tags := d.tags
  properties := some {
    d.properties.getD {} with
    provisioningState := none
    resourceState := none }

/-- A client of a service that keeps policies: `Holds s m` says that the service holds the documents
`m` in state `s`. What is put is kept under its group and name, whose case does not count, with an
identifier made from them; what is not there is not found; waiting succeeds. -/
structure Client.Keeps (c : Client σ η) (f : Folding) (subscription : String)
    (Holds : σ → (StoreKey → Option Document) → Prop) : Prop where
  get_some : ∀ {s m d} (group name), Holds s m → m (.of f group name) = some d →
    ∃ s', c.get group name s = (.ok d, s') ∧ Holds s' m
  get_none : ∀ {s m} (group name), Holds s m → m (.of f group name) = none →
    ∃ e s', c.get group name s = (.error e, s') ∧ e.isNotFound = true ∧ Holds s' m
  put : ∀ {s m} (group name) (d : Document), Holds s m →
    ∃ operation s' d', c.put group name d s = (.ok operation, s') ∧ d'.asPut = d.asPut ∧
      d'.id = some (Policy.resourceId subscription group name).text ∧
      Holds s' (Function.update m (.of f group name) (some d'))
  delete_some : ∀ {s m d} (group name), Holds s m → m (.of f group name) = some d →
    ∃ operation s', c.delete group name s = (.ok operation, s') ∧
      Holds s' (Function.update m (.of f group name) none)
  delete_none : ∀ {s m} (group name), Holds s m → m (.of f group name) = none →
    ∃ e s', c.delete group name s = (.error e, s') ∧ e.isNotFound = true ∧ Holds s' m
  wait : ∀ {s m} (operation), Holds s m →
    ∃ s', c.wait operation s = (.ok (), s') ∧ Holds s' m

end EdgeFirewall
