import EdgeFirewall.Policy.Violation

/-! # Checked values

Reading goes on after a fault: a checked value is what was read, if anything was, and the
violations found on the way. Putting checked values together keeps every violation of every part,
in order (`violations_seq`), so no part hides the faults of another. There may be a value in spite
of violations -- an item that is left out, a default that stands in -- and there may be none; what
counts in the end is a value without violations (`conclude`).

Nothing in a checked value ties the two parts together. That a violation tells why where nothing
was read (`IsExplained`) is a law of the ways to read, which is handed on from part to part. -/

namespace EdgeFirewall

/-- What was read, if anything was, and the violations found on the way. -/
structure Checked (α : Type) where
  value? : Option α
  violations : List Violation
  deriving DecidableEq

namespace Checked

variable {α β : Type}

/-- A value that was read without violations. -/
def ok (a : α) : Checked α := ⟨some a, []⟩

/-- Nothing was read, for one violation. -/
def fail (path : Path) (reason : Reason) : Checked α := ⟨none, [⟨path, reason⟩]⟩

/-- Adds violations to those of a reading. -/
def ofViolations (vs : List Violation) : Checked Unit := ⟨some (), vs⟩

instance : Applicative Checked where
  pure := ok
  seq f x := ⟨f.value? <*> (x ()).value?, f.violations ++ (x ()).violations⟩

/-- What was read, or else a default. -/
def orElse (x : Checked α) (default : α) : Checked α :=
  { x with value? := some (x.value?.getD default) }

/-- What was read, whether or not anything was. -/
def attempt (x : Checked α) : Checked (Option α) := ⟨some x.value?, x.violations⟩

/-- Adds a violation if what was read fails a test. -/
def suchThat (x : Checked α) (test : α → Bool) (violation : α → Violation) : Checked α :=
  { x with violations := x.violations ++ (x.value?.filter (!test ·)).toList.map violation }

/-- Reads every item of a list, and leaves out those of which nothing is read. -/
def collect (f : α → Checked β) (as : List α) : Checked (List β) :=
  ⟨some (as.filterMap fun a => (f a).value?), as.flatMap fun a => (f a).violations⟩

/-- What was read, if nothing was wrong. -/
def conclude (x : Checked α) : Except (List Violation) α :=
  match x.value?, x.violations with
  | some a, [] => .ok a
  | none, [] => .error [⟨[], .undecodable⟩]
  | _, vs => .error vs

/-! ### Laws -/

theorem eq_ok_iff {x : Checked α} {a : α} : x = ok a ↔ x.value? = some a ∧ x.violations = [] := by
  rw [ok, mk.injEq]

@[simp] theorem ok_inj {a b : α} : ok a = ok b ↔ a = b := by simp [ok]

@[simp] theorem fail_ne_ok {path : Path} {reason : Reason} {a : α} : fail path reason ≠ ok a := by
  simp [eq_ok_iff, fail]

@[simp] theorem violations_ok (a : α) : (ok a).violations = [] := rfl

@[simp] theorem value?_ok (a : α) : (ok a).value? = some a := rfl

@[simp] theorem violations_fail (path : Path) (reason : Reason) :
    (fail path reason : Checked α).violations = [⟨path, reason⟩] := rfl

@[simp] theorem pure_eq (a : α) : (pure a : Checked α) = ok a := rfl

@[simp] theorem map_ok (f : α → β) (a : α) : f <$> ok a = ok (f a) := rfl

@[simp] theorem ok_seq_ok (f : α → β) (a : α) : ok f <*> ok a = ok (f a) := rfl

@[simp] theorem violations_map (f : α → β) (x : Checked α) :
    (f <$> x).violations = x.violations := rfl

@[simp] theorem value?_map (f : α → β) (x : Checked α) : (f <$> x).value? = x.value?.map f := by
  obtain ⟨_ | a, vs⟩ := x <;> rfl

@[simp] theorem violations_seq (f : Checked (α → β)) (x : Checked α) :
    (f <*> x).violations = f.violations ++ x.violations := rfl

@[simp] theorem value?_seq (f : Checked (α → β)) (x : Checked α) :
    (f <*> x).value? = f.value?.bind fun g => x.value?.map g := by
  obtain ⟨_ | g, vs⟩ := f <;> obtain ⟨_ | a, ws⟩ := x <;> rfl

@[simp] theorem violations_ofViolations (vs : List Violation) :
    (ofViolations vs).violations = vs := rfl

@[simp] theorem value?_ofViolations (vs : List Violation) :
    (ofViolations vs).value? = some () := rfl

@[simp] theorem violations_orElse (x : Checked α) (default : α) :
    (x.orElse default).violations = x.violations := rfl

@[simp] theorem violations_attempt (x : Checked α) : x.attempt.violations = x.violations := rfl

theorem violations_suchThat_ok (a : α) (test : α → Bool) (violation : α → Violation) :
    ((ok a).suchThat test violation).violations = if test a then [] else [violation a] := by
  cases htest : test a <;> simp [ok, suchThat, Option.filter, htest]

theorem violations_suchThat_fail (path : Path) (reason : Reason) (test : α → Bool)
    (violation : α → Violation) :
    ((fail path reason).suchThat test violation).violations = [⟨path, reason⟩] := rfl

@[simp] theorem violations_collect (f : α → Checked β) (as : List α) :
    (collect f as).violations = as.flatMap fun a => (f a).violations := rfl

theorem seqRight_eq (x : Checked α) (y : Checked β) : x *> y = (fun _ b => b) <$> x <*> y := rfl

theorem seqLeft_eq (x : Checked α) (y : Checked β) : x <* y = (fun a _ => a) <$> x <*> y := rfl

theorem map_eq_ok_iff {f : α → β} {x : Checked α} {b : β} :
    f <$> x = ok b ↔ ∃ a, x = ok a ∧ f a = b := by
  simp only [eq_ok_iff, value?_map, violations_map, Option.map_eq_some_iff]
  grind

theorem seq_eq_ok_iff {f : Checked (α → β)} {x : Checked α} {b : β} :
    f <*> x = ok b ↔ ∃ g a, f = ok g ∧ x = ok a ∧ g a = b := by
  simp only [eq_ok_iff, value?_seq, violations_seq, List.append_eq_nil_iff, Option.bind_eq_some_iff,
    Option.map_eq_some_iff]
  grind

theorem suchThat_eq_ok_iff {x : Checked α} {test : α → Bool} {violation : α → Violation} {a : α} :
    x.suchThat test violation = ok a ↔ x = ok a ∧ test a = true := by
  obtain ⟨_ | b, vs⟩ := x
  · simp [eq_ok_iff, suchThat]
  · simp only [eq_ok_iff, suchThat, List.append_eq_nil_iff, List.map_eq_nil_iff]
    by_cases htest : test b = true
    · simp only [htest, Bool.not_true, Option.filter]
      grind
    · grind

theorem conclude_eq_ok_iff {x : Checked α} {a : α} : x.conclude = .ok a ↔ x = ok a := by
  obtain ⟨_ | b, _ | ⟨v, vs⟩⟩ := x <;> simp [conclude, ok]

/-! ### Nothing is missing without a violation -/

/-- Where nothing was read, a violation tells why. -/
class IsExplained (x : Checked α) : Prop where
  violations_ne_nil : x.value? = none → x.violations ≠ []

instance (a : α) : (ok a).IsExplained := ⟨fun h => absurd h (Option.some_ne_none a)⟩

instance (path : Path) (reason : Reason) : (fail path reason : Checked α).IsExplained :=
  ⟨fun _ => List.cons_ne_nil _ _⟩

instance (vs : List Violation) : (ofViolations vs).IsExplained :=
  ⟨fun h => absurd h (Option.some_ne_none ())⟩

instance (f : α → β) (x : Checked α) [hx : x.IsExplained] : (f <$> x).IsExplained where
  violations_ne_nil h := hx.violations_ne_nil (by simpa using h)

instance (f : Checked (α → β)) (x : Checked α) [hf : f.IsExplained] [hx : x.IsExplained] :
    (f <*> x).IsExplained where
  violations_ne_nil h hnil := by
    obtain ⟨hfnil, hxnil⟩ := List.append_eq_nil_iff.mp hnil
    cases hg : f.value? with
    | none => exact hf.violations_ne_nil hg hfnil
    | some g =>
        rw [value?_seq, hg, Option.bind_some, Option.map_eq_none_iff] at h
        exact hx.violations_ne_nil h hxnil

instance (x : Checked α) (y : Checked β) [x.IsExplained] [y.IsExplained] : (x *> y).IsExplained :=
  inferInstanceAs ((fun _ b => b) <$> x <*> y : Checked β).IsExplained

instance (x : Checked α) (y : Checked β) [x.IsExplained] [y.IsExplained] : (x <* y).IsExplained :=
  inferInstanceAs ((fun a _ => a) <$> x <*> y : Checked α).IsExplained

instance (x : Checked α) (default : α) : (x.orElse default).IsExplained :=
  ⟨fun h => absurd h (Option.some_ne_none _)⟩

instance (x : Checked α) : x.attempt.IsExplained := ⟨fun h => absurd h (Option.some_ne_none _)⟩

instance (x : Checked α) (test : α → Bool) (violation : α → Violation) [hx : x.IsExplained] :
    (x.suchThat test violation).IsExplained where
  violations_ne_nil h hnil := hx.violations_ne_nil h (List.append_eq_nil_iff.mp hnil).1

instance (f : α → Checked β) (as : List α) : (collect f as).IsExplained :=
  ⟨fun h => absurd h (Option.some_ne_none _)⟩

/-- There is a value exactly when there is no violation. -/
theorem violations_eq_nil_iff {x : Checked α} [hx : x.IsExplained] :
    x.violations = [] ↔ ∃ a, x = ok a := by
  constructor
  · intro hnil
    obtain ⟨a, ha⟩ := Option.ne_none_iff_exists'.mp fun h => hx.violations_ne_nil h hnil
    exact ⟨a, eq_ok_iff.mpr ⟨ha, hnil⟩⟩
  · rintro ⟨a, rfl⟩
    rfl

theorem orElse_eq_ok_iff {x : Checked α} [x.IsExplained] {default a : α} :
    x.orElse default = ok a ↔ x = ok a := by
  constructor
  · intro h
    obtain ⟨hvalue, hnil⟩ := eq_ok_iff.mp h
    rw [violations_orElse] at hnil
    obtain ⟨b, rfl⟩ := violations_eq_nil_iff.mp hnil
    simpa [orElse] using hvalue
  · rintro rfl
    rfl

theorem attempt_eq_ok_iff {x : Checked α} [x.IsExplained] {o : Option α} :
    x.attempt = ok o ↔ ∃ a, x = ok a ∧ some a = o := by
  constructor
  · intro h
    obtain ⟨hvalue, hnil⟩ := eq_ok_iff.mp h
    rw [violations_attempt] at hnil
    obtain ⟨a, rfl⟩ := violations_eq_nil_iff.mp hnil
    exact ⟨a, rfl, Option.some.inj hvalue⟩
  · rintro ⟨a, rfl, rfl⟩
    rfl

/-- The violations are what is reported in the end, as they are. -/
theorem conclude_eq_error_iff {x : Checked α} [hx : x.IsExplained] {vs : List Violation} :
    x.conclude = .error vs ↔ x.violations = vs ∧ vs ≠ [] := by
  obtain ⟨_ | a, _ | ⟨v, rest⟩⟩ := x
  · exact absurd rfl (hx.violations_ne_nil rfl)
  · simp only [conclude, Except.error.injEq]
    exact ⟨fun h => ⟨h, h ▸ List.cons_ne_nil v rest⟩, And.left⟩
  · simp only [conclude, reduceCtorEq, false_iff]
    exact fun h => h.2 h.1.symm
  · simp only [conclude, Except.error.injEq]
    exact ⟨fun h => ⟨h, h ▸ List.cons_ne_nil v rest⟩, And.left⟩

end Checked

end EdgeFirewall
