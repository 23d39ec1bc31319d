import EdgeFirewall.Provider

/-! # What a step checks before it calls the service

When attributes declare a policy, when an update leaves the policy where it is, and what is said
when it does not (`Policy.Displaced`). The least that attributes have to say is `declaring`. -/

namespace EdgeFirewall

/-- The text that is given for an attribute, or else an empty one. -/
def Attributes.given (a : Attributes) (key : String) : String :=
  match a.lookup key with
  | some (.string s) => s
  | _ => ""

/-- Attributes that do not declare a policy. -/
def PolicyError.undeclared (a : Attributes) (vs : List Violation) : PolicyError :=
  .invalid (a.given "name") (a.given "resource_group_name") vs

/-- What is wrong with a policy for an identifier that names another one: its name or its group is
not that of the identifier, whatever the case of ASCII letters. -/
inductive Policy.Displaced (address : Policy.Address) (p : Policy) : List Violation → Prop
  | name (hname : Text.lowerAscii p.name ≠ Text.lowerAscii address.name)
      (hgroup : Text.lowerAscii p.resourceGroup = Text.lowerAscii address.group) :
      Displaced address p [⟨[.key "name"], .replaced address.name p.name⟩]
  | group (hname : Text.lowerAscii p.name = Text.lowerAscii address.name)
      (hgroup : Text.lowerAscii p.resourceGroup ≠ Text.lowerAscii address.group) :
      Displaced address p [⟨[.key "resource_group_name"], .replaced address.group p.resourceGroup⟩]
  | both (hname : Text.lowerAscii p.name ≠ Text.lowerAscii address.name)
      (hgroup : Text.lowerAscii p.resourceGroup ≠ Text.lowerAscii address.group) :
      Displaced address p
        [⟨[.key "name"], .replaced address.name p.name⟩,
          ⟨[.key "resource_group_name"], .replaced address.group p.resourceGroup⟩]

/-- What a host is told of a call that fails for a resource. -/
def HostCall.failure (key : ResourceKey) (e : PolicyError) : CallFailure :=
  .error { message := e.message, resource := some key, cause := some (.policy e) }

namespace Lifecycle

variable {a : Attributes} {p : Policy} {e : PolicyError} {address : Policy.Address}

theorem declared_eq_ok_iff : declared a = .ok p ↔ Policy.ofAttributes a = .ok p := by
  unfold declared
  cases Policy.ofAttributes a <;> simp

theorem attributeText_eq_given (a : Attributes) (key : String) :
    attributeText a key = a.given key := by
  unfold attributeText Attributes.given
  cases a.lookup key with
  | none => rfl
  | some v => cases v <;> rfl

theorem declared_of_violations {vs : List Violation} (h : Policy.ofAttributes a = .error vs) :
    declared a = .error (.undeclared a vs) := by
  unfold declared
  rw [h, attributeText_eq_given, attributeText_eq_given]
  rfl

theorem ofAttributes_ne_ok (h : declared a = .error e) : Policy.ofAttributes a ≠ .ok p := by
  intro hp
  rw [declared_eq_ok_iff.mpr hp] at h
  exact absurd h (by simp)

/-- A creation that is refused for its attributes asks for nothing. -/
theorem create_of_error {σ η : Type} {c : Client σ η} {subscription : String}
    (h : declared a = .error e) : create c subscription a = pure (.error e) := by
  unfold create
  rw [h]

theorem replacements_eq_nil_iff : replacements address p = [] ↔
    Text.eqIgnoringCase p.name address.name = true ∧
      Text.eqIgnoringCase p.resourceGroup address.group = true := by
  unfold replacements
  rw [List.append_eq_nil_iff]
  refine and_congr ?_ ?_
  · split <;> simp_all
  · split <;> simp_all

/-- The replacements are what is wrong with a policy for an identifier. -/
theorem displaced_iff {vs : List Violation} :
    p.Displaced address vs ↔ replacements address p = vs ∧ vs ≠ [] := by
  simp only [replacements, Text.eqIgnoringCase, beq_iff_eq]
  constructor
  · intro h
    cases h with
    | name h h' => simp [h, h']
    | group h h' => simp [h, h']
    | both h h' => simp [h, h']
  · rintro ⟨rfl, hne⟩
    split at hne <;> split at hne
    · exact absurd rfl hne
    · next h h' => simpa [h, h'] using Policy.Displaced.group h h'
    · next h h' => simpa [h, h'] using Policy.Displaced.name h h'
    · next h h' => simpa [h, h'] using Policy.Displaced.both h h'

/-- The attributes of a policy with a name, in the group `web`, that leaves all else to the
defaults. -/
def declaring (name : String) : Attributes :=
  [("mode", .string "Prevention"), ("name", .string name), ("resource_group_name", .string "web")]

theorem exists_declaring (name : String) (h : (Policy.ofAttributes (declaring name)).toOption.map
      (fun p => (p.resourceGroup, p.name)) = some ("web", name)) :
    ∃ p, Policy.ofAttributes (declaring name) = .ok p ∧
      p.resourceGroup = "web" ∧ p.name = name := by
  cases hp : Policy.ofAttributes (declaring name) with
  | error vs => simp [hp, Except.toOption] at h
  | ok p =>
      rw [hp] at h
      obtain ⟨hgroup, hname⟩ := Prod.mk.inj (Option.some.inj h)
      exact ⟨p, rfl, hgroup, hname⟩

end Lifecycle

end EdgeFirewall
