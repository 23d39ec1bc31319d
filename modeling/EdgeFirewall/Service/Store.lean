import EdgeFirewall.Document.Basic
import EdgeFirewall.ResourceId

/-! # A store of policy documents

Policies by resource group and name, which are compared ignoring case. What counts as the case of
a letter beyond ASCII is up to whoever keeps the store (`Folding`). -/

namespace EdgeFirewall

/-- A form of texts in which the case of letters does not show: of ASCII letters, at least. -/
structure Folding where
  fold : String → String
  fold_eq_of_eqIgnoringCase : ∀ s t, Text.eqIgnoringCase s t = true → fold s = fold t

/-- The case of ASCII letters alone does not show. -/
def Folding.ascii : Folding where
  fold := Text.lowerAscii
  fold_eq_of_eqIgnoringCase _ _ h := eq_of_beq h

/-- The key of a policy: its resource group and its name without regard to case. -/
structure StoreKey where
  group : String
  name : String
  deriving DecidableEq, Repr

/-- The key of the policy with a name in a group. -/
def StoreKey.of (f : Folding) (group name : String) : StoreKey :=
  ⟨f.fold group, f.fold name⟩

/-- The policies that a service holds. -/
structure Store where
  policies : List (StoreKey × Document) := []

namespace Store

/-- The policy under a key. -/
def get? (s : Store) (key : StoreKey) : Option Document :=
  s.policies.lookup key

/-- Removes the policy under a key. -/
def erase (s : Store) (key : StoreKey) : Store :=
  ⟨s.policies.filter fun e => e.1 != key⟩

/-- Puts a policy under a key. -/
def insert (s : Store) (key : StoreKey) (d : Document) : Store :=
  ⟨(key, d) :: (s.erase key).policies⟩

@[simp] theorem get?_empty (key : StoreKey) : get? {} key = none := rfl

theorem get?_insert_self (s : Store) (key : StoreKey) (d : Document) :
    (s.insert key d).get? key = some d := by
  simp [insert, get?]

theorem lookup_filter_ne {ps : List (StoreKey × Document)} {key k : StoreKey} :
    (ps.filter fun e => e.1 != key).lookup k = if k = key then none else ps.lookup k := by
  induction ps with
  | nil => simp
  | cons e rest ih =>
    obtain ⟨j, d⟩ := e
    by_cases hj : j = key
    · subst hj
      rw [List.filter_cons_of_neg (by simp), ih]
      by_cases hk : k = j
      · simp [hk]
      · have : (k == j) = false := by simpa using hk
        simp [hk, List.lookup_cons, this]
    · rw [List.filter_cons_of_pos (by simpa using hj), List.lookup_cons, List.lookup_cons, ih]
      by_cases hk : k = j
      · subst hk
        simp [hj]
      · have : (k == j) = false := by simpa using hk
        simp [this]

theorem get?_erase (s : Store) (key k : StoreKey) :
    (s.erase key).get? k = if k = key then none else s.get? k :=
  lookup_filter_ne

theorem get?_insert (s : Store) (key k : StoreKey) (d : Document) :
    (s.insert key d).get? k = if k = key then some d else s.get? k := by
  by_cases h : k = key
  · subst h
    simp [get?_insert_self]
  · have : (k == key) = false := by simpa using h
    simp only [insert, get?, List.lookup_cons, this, h, if_false]
    simpa [h, get?] using get?_erase s key k

end Store

/-- The document that the service keeps of a policy that was put: with its name, its identifier
and the news that it is in place. -/
def Document.stored (d : Document) (subscription group name : String) : Document :=
  { d with
    name := some name
    id := some (Policy.resourceId subscription group name).text
    properties := some { d.properties.getD {} with provisioningState := some "Succeeded" } }

end EdgeFirewall
