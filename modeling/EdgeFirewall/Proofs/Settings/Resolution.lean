import EdgeFirewall.Proofs.Text.Numerals
import EdgeFirewall.Proofs.Text.Pieces
import EdgeFirewall.Settings

/-! # How settings are resolved

`Given` says which text a setting has: that of an attribute of a kind it takes, or else that of its
variable. Settings are resolved exactly if every number that is given is in its range and nothing
that is required is left out (`Acceptable`); they then are what is given, or the default
(`Yields`). Otherwise the first offender in a fixed order is reported (`FirstOffence`). Variables
behind a usable attribute do not matter (`resolve_outcome`). -/

namespace EdgeFirewall

open Text (Denotes)

/-- Whether a setting is a number. -/
def Setting.isNumeric (s : Setting) : Bool :=
  s = pollInterval || s = pollAttempts || s = operationTimeout

/-- The least number that a setting may have. -/
def Setting.least (s : Setting) : Nat :=
  if s = pollInterval then 0 else 1

/-- All settings. -/
def Setting.all : List Setting :=
  [pollInterval, pollAttempts, subscription, token, endpoint, operationTimeout]

namespace Settings

variable {a : Attributes} {env env' : Environment} {s : Setting} {t t' : String} {n least : Nat}
  {e e' : SettingsError}

/-! ### What is given -/

/-- A setting has an attribute of a kind that it takes. -/
def Usable (a : Attributes) (s : Setting) : Prop :=
  (∃ t, a.lookup s.key = some (.string t)) ∨
    s.isNumeric = true ∧ ∃ n, a.lookup s.key = some (.int n)

/-- The text of a setting. -/
inductive Given (a : Attributes) (env : Environment) (s : Setting) : String → Prop where
  | number {n : Int} (hnumeric : s.isNumeric = true) (hattribute : a.lookup s.key = some (.int n)) :
    Given a env s (toString n)
  | attribute {t : String} (hattribute : a.lookup s.key = some (.string t))
    (hfilled : Text.isBlankText t = false) : Given a env s (Text.trim t)
  | environment {t : String} (hunusable : ¬ Usable a s) (hvalue : env s.variableName = some t)
    (hfilled : Text.isBlankText t = false) : Given a env s (Text.trim t)

/-- A text stands for a number in a range. -/
def InRange (least limit : Nat) (t : String) : Prop :=
  ∃ n, Denotes t n ∧ least ≤ n ∧ n < limit

/-- What settings can be resolved from. -/
structure Acceptable (a : Attributes) (env : Environment) : Prop where
  interval : ∀ t, Given a env .pollInterval t → InRange 0 (2 ^ 64) t
  attempts : ∀ t, Given a env .pollAttempts t → InRange 1 (2 ^ 32) t
  timeout : ∀ t, Given a env .operationTimeout t → InRange 1 (2 ^ 64) t
  subscription : ∃ t, Given a env .subscription t
  token : ∃ t, Given a env .token t

/-- A value is what the text of a setting means, or the default if none is given. -/
def TakenFrom {α : Type} (a : Attributes) (env : Environment) (s : Setting)
    (Means : String → α → Prop) (default value : α) : Prop :=
  (∃ t, Given a env s t ∧ Means t value) ∨ (∀ t, ¬ Given a env s t) ∧ value = default

/-- The settings that are resolved. -/
structure Yields (a : Attributes) (env : Environment) (settings : Settings) : Prop where
  subscription : Given a env .subscription settings.subscription
  token : Given a env .token settings.token
  endpoint : TakenFrom a env .endpoint (fun t value => value = t) "https://management.azure.com"
    settings.endpoint
  interval : TakenFrom a env .pollInterval (fun t value => ∃ n, Denotes t n ∧ value = 1000 * n)
    10000 settings.poll.interval
  attempts : TakenFrom a env .pollAttempts Denotes 360 settings.poll.maxAttempts
  timeout : TakenFrom a env .operationTimeout (fun t value => ∃ n, Denotes t n ∧ value = some n)
    none settings.timeout

/-- What is wrong with a setting. -/
inductive Offends (a : Attributes) (env : Environment) : Setting → SettingsError → Prop where
  | missing {s : Setting} (hrequired : s = .subscription ∨ s = .token)
    (hunset : ∀ t, ¬ Given a env s t) : Offends a env s (.missing s)
  | notAtLeast {s : Setting} {t : String} (hnumeric : s.isNumeric = true) (hgiven : Given a env s t)
    (hrange : ¬ InRange s.least (2 ^ 64) t) : Offends a env s (.notAtLeast s s.least t)
  | tooLarge {t : String} {n : Nat} (hgiven : Given a env .pollAttempts t) (hnumber : Denotes t n)
    (hlarge : 2 ^ 32 ≤ n) (hlimit : n < 2 ^ 64) :
    Offends a env .pollAttempts (.tooLarge .pollAttempts n)

/-- The order in which settings are looked at. -/
def checkOrder : List Setting :=
  [.pollInterval, .pollAttempts, .subscription, .token, .operationTimeout]

/-- What is wrong with the first of some settings that anything is wrong with. -/
inductive FirstOffence (a : Attributes) (env : Environment) :
    List Setting → SettingsError → Prop where
  | here {s : Setting} {rest : List Setting} {e : SettingsError} (h : Offends a env s e) :
    FirstOffence a env (s :: rest) e
  | later {s : Setting} {rest : List Setting} {e : SettingsError}
    (hfine : ∀ e, ¬ Offends a env s e) (h : FirstOffence a env rest e) :
    FirstOffence a env (s :: rest) e

/-! ### Texts -/

theorem isEmpty_trim (t : String) : (Text.trim t).isEmpty = Text.isBlankText t := by
  rw [Bool.eq_iff_iff, String.isEmpty_iff, Text.trim, String.ofList_eq_empty_iff, Text.trimChars,
    Text.strip_eq_nil_iff, Text.isBlankText, List.all_eq_true]

theorem asString?_eq_some_iff {value : Value} : value.asString? = some t ↔ value = .string t := by
  cases value <;> simp [Value.asString?]

theorem asInt?_eq_some_iff {value : Value} {i : Int} : value.asInt? = some i ↔ value = .int i := by
  cases value <;> simp [Value.asInt?]

theorem stringAttribute_iff :
    (a.lookup s.key).bind Value.asString? = some t ↔ a.lookup s.key = some (.string t) := by
  rw [Option.bind_eq_some_iff]
  simp only [asString?_eq_some_iff]
  exact ⟨fun ⟨_, h, hvalue⟩ => hvalue ▸ h, fun h => ⟨_, h, rfl⟩⟩

theorem intAttribute_iff {i : Int} :
    (a.lookup s.key).bind Value.asInt? = some i ↔ a.lookup s.key = some (.int i) := by
  rw [Option.bind_eq_some_iff]
  simp only [asInt?_eq_some_iff]
  exact ⟨fun ⟨_, h, hvalue⟩ => hvalue ▸ h, fun h => ⟨_, h, rfl⟩⟩

/-- The text of a setting, but for integer attributes. -/
theorem text?_eq_some_iff : text? a env s = some t ↔ ∃ u, Text.isBlankText u = false ∧
    t = Text.trim u ∧ (a.lookup s.key = some (.string u) ∨
      (¬ ∃ v, a.lookup s.key = some (.string v)) ∧ env s.variableName = some u) := by
  have hnone : (a.lookup s.key).bind Value.asString? = none ↔
      ¬ ∃ v, a.lookup s.key = some (.string v) := by
    rw [Option.eq_none_iff_forall_ne_some, not_exists]
    simp only [ne_eq, stringAttribute_iff]
  unfold text?
  rw [Option.filter_eq_some_iff, Option.map_eq_some_iff]
  simp only [Option.or_eq_some_iff, hnone, stringAttribute_iff]
  constructor
  · rintro ⟨⟨u, hu, rfl⟩, hfilled⟩
    rw [isEmpty_trim, Bool.not_eq_true'] at hfilled
    exact ⟨u, hfilled, rfl, hu⟩
  · rintro ⟨u, hfilled, rfl, hu⟩
    rw [isEmpty_trim, hfilled]
    exact ⟨⟨u, hu, rfl⟩, rfl⟩

/-- Without an integer attribute that counts, what is given is a text. -/
theorem text?_iff_given (h : s.isNumeric = true → ∀ i, a.lookup s.key ≠ some (.int i)) :
    text? a env s = some t ↔ Given a env s t := by
  rw [text?_eq_some_iff]
  constructor
  · rintro ⟨u, hfilled, rfl, hattribute | ⟨hnone, hvalue⟩⟩
    · exact .attribute hattribute hfilled
    · refine .environment ?_ hvalue hfilled
      rintro (htext | ⟨hnumeric, i, hint⟩)
      · exact hnone htext
      · exact h hnumeric i hint
  · rintro (⟨hnumeric, hint⟩ | ⟨hattribute, hfilled⟩ | ⟨hunusable, hvalue, hfilled⟩)
    · exact absurd hint (h hnumeric _)
    · exact ⟨_, hfilled, rfl, .inl hattribute⟩
    · exact ⟨_, hfilled, rfl, .inr ⟨fun htext => hunusable (.inl htext), hvalue⟩⟩

theorem text?_iff_given_of_text (hs : s.isNumeric = false) :
    text? a env s = some t ↔ Given a env s t :=
  text?_iff_given fun hnumeric => absurd (hs.symm.trans hnumeric) Bool.false_ne_true

theorem numeral?_iff_given (hs : s.isNumeric = true) :
    numeral? a env s = some t ↔ Given a env s t := by
  unfold numeral?
  cases hint : (a.lookup s.key).bind Value.asInt? with
  | some i =>
      rw [intAttribute_iff] at hint
      rw [Option.some.injEq]
      constructor
      · rintro rfl
        exact .number hs hint
      · rintro (⟨-, hint'⟩ | ⟨hattribute, -⟩ | ⟨hunusable, -, -⟩)
        · obtain rfl : i = _ := by simpa using hint.symm.trans hint'
          rfl
        · exact absurd (hint.symm.trans hattribute) (by simp)
        · exact absurd (.inr ⟨hs, i, hint⟩) hunusable
  | none =>
      refine text?_iff_given fun _ i hint' => ?_
      rw [intAttribute_iff.mpr hint'] at hint
      exact absurd hint (by simp)

theorem Given.unique (h : Given a env s t) (h' : Given a env s t') : t = t' := by
  cases hs : s.isNumeric with
  | true =>
      rw [← numeral?_iff_given hs] at h h'
      exact Option.some.inj (h.symm.trans h')
  | false =>
      rw [← text?_iff_given_of_text hs] at h h'
      exact Option.some.inj (h.symm.trans h')

theorem not_given_of_text? (hs : s.isNumeric = false) (h : text? a env s = none) :
    ¬ Given a env s t := by
  rw [← text?_iff_given_of_text hs, h]
  exact fun h => absurd h (by simp)

theorem not_given_of_numeral? (hs : s.isNumeric = true) (h : numeral? a env s = none) :
    ¬ Given a env s t := by
  rw [← numeral?_iff_given hs, h]
  exact fun h => absurd h (by simp)

/-- An integer attribute counts as the number that it is. -/
theorem inRange_of_int {i : Int} {limit : Nat} (hs : s.isNumeric = true)
    (hattribute : a.lookup s.key = some (.int i)) :
    (∀ t, Given a env s t → InRange least limit t) ↔ least ≤ i ∧ i < limit := by
  have hgiven : Given a env s (toString i) := .number hs hattribute
  have hrange : InRange least limit (toString i) ↔ least ≤ i ∧ i < limit := by
    unfold InRange
    simp only [Text.denotes_toString_iff]
    constructor
    · rintro ⟨n, rfl, hleast, hlimit⟩
      exact ⟨Int.ofNat_le.mpr hleast, Int.ofNat_lt.mpr hlimit⟩
    · rintro ⟨hleast, hlimit⟩
      exact ⟨i.toNat, by omega, by omega, by omega⟩
  rw [← hrange]
  exact ⟨fun h => h _ hgiven, fun h t ht => ht.unique hgiven ▸ h⟩

/-! ### One setting -/

theorem required_cases (a : Attributes) (env : Environment) (hs : s.isNumeric = false) :
    (∃ t, Given a env s t ∧ required a env s = .ok t) ∨
      (∀ t, ¬ Given a env s t) ∧ required a env s = .error (.missing s) := by
  unfold required
  cases h : text? a env s with
  | some t => exact .inl ⟨t, (text?_iff_given_of_text hs).mp h, rfl⟩
  | none => exact .inr ⟨fun t => not_given_of_text? hs h, rfl⟩

theorem number?_cases (a : Attributes) (env : Environment) (hs : s.isNumeric = true)
    (least : Nat) :
    ((∀ t, ¬ Given a env s t) ∧ number? a env s least = .ok none) ∨
    (∃ t n, Given a env s t ∧ Denotes t n ∧ least ≤ n ∧ n < 2 ^ 64 ∧
      number? a env s least = .ok (some n)) ∨
    ∃ t, Given a env s t ∧ ¬ InRange least (2 ^ 64) t ∧
      number? a env s least = .error (.notAtLeast s least t) := by
  unfold number?
  cases h : numeral? a env s with
  | none => exact .inl ⟨fun t => not_given_of_numeral? hs h, rfl⟩
  | some t =>
      refine .inr ?_
      have hread : ∀ n, (Text.readNatBelow numberLimit t).filter (least ≤ ·) = some n ↔
          Denotes t n ∧ least ≤ n ∧ n < 2 ^ 64 := by
        intro n
        rw [Option.filter_eq_some_iff, Text.readNatBelow_eq_some_iff, decide_eq_true_iff, and_assoc,
          and_comm (a := n < numberLimit)]
        rfl
      cases hn : (Text.readNatBelow numberLimit t).filter (least ≤ ·) with
      | some n =>
          obtain ⟨hnumber, hleast, hlimit⟩ := (hread n).mp hn
          exact .inl ⟨t, n, (numeral?_iff_given hs).mp h, hnumber, hleast, hlimit, by simp [hn]⟩
      | none =>
          refine .inr ⟨t, (numeral?_iff_given hs).mp h, ?_, by simp [hn]⟩
          rintro ⟨n, hrange⟩
          rw [(hread n).mpr hrange] at hn
          exact absurd hn (by simp)

theorem attempts?_cases (a : Attributes) (env : Environment) :
    ((∀ t, ¬ Given a env .pollAttempts t) ∧ attempts? a env = .ok none) ∨
    (∃ t n, Given a env .pollAttempts t ∧ Denotes t n ∧ 1 ≤ n ∧ n < 2 ^ 32 ∧
      attempts? a env = .ok (some n)) ∨
    (∃ t, Given a env .pollAttempts t ∧ ¬ InRange 1 (2 ^ 64) t ∧
      attempts? a env = .error (.notAtLeast .pollAttempts 1 t)) ∨
    ∃ t n, Given a env .pollAttempts t ∧ Denotes t n ∧ 2 ^ 32 ≤ n ∧ n < 2 ^ 64 ∧
      attempts? a env = .error (.tooLarge .pollAttempts n) := by
  unfold attempts?
  rcases number?_cases a env (s := .pollAttempts) rfl 1 with
    ⟨hunset, h⟩ | ⟨t, n, hgiven, hnumber, hleast, hlimit, h⟩ | ⟨t, hgiven, hrange, h⟩
  · exact .inl ⟨hunset, by rw [h]; rfl⟩
  · rw [h]
    by_cases hn : n < 2 ^ 32
    · exact .inr (.inl ⟨t, n, hgiven, hnumber, hleast, hn, if_pos hn⟩)
    · exact .inr (.inr (.inr ⟨t, n, hgiven, hnumber, Nat.le_of_not_lt hn, hlimit, if_neg hn⟩))
  · exact .inr (.inr (.inl ⟨t, hgiven, hrange, by rw [h]; rfl⟩))

/-! ### Offences -/

theorem Offends.unique (h : Offends a env s e) (h' : Offends a env s e') : e = e' := by
  cases h with
  | missing hrequired hunset =>
      cases h' with
      | missing => rfl
      | notAtLeast _ hgiven _ => exact absurd hgiven (hunset _)
      | tooLarge hgiven _ _ _ => exact absurd hgiven (hunset _)
  | notAtLeast _ hgiven hrange =>
      cases h' with
      | missing _ hunset => exact absurd hgiven (hunset _)
      | notAtLeast _ hgiven' _ => rw [hgiven.unique hgiven']
      | tooLarge hgiven' hnumber hlarge hlimit =>
          rw [hgiven.unique hgiven'] at hrange
          exact absurd ⟨_, hnumber, Nat.le_trans (by decide) hlarge, hlimit⟩ hrange
  | tooLarge hgiven hnumber hlarge hlimit =>
      cases h' with
      | missing _ hunset => exact absurd hgiven (hunset _)
      | notAtLeast _ hgiven' hrange =>
          rw [hgiven'.unique hgiven] at hrange
          exact absurd ⟨_, hnumber, Nat.le_trans (by decide) hlarge, hlimit⟩ hrange
      | tooLarge hgiven' hnumber' _ _ =>
          rw [hgiven'.unique hgiven] at hnumber'
          rw [hnumber.unique hnumber']

theorem FirstOffence.unique {l : List Setting} (h : FirstOffence a env l e)
    (h' : FirstOffence a env l e') : e = e' := by
  induction h with
  | here h =>
      cases h' with
      | here h' => exact h.unique h'
      | later hfine _ => exact absurd h (hfine _)
  | later hfine _ ih =>
      cases h' with
      | here h' => exact absurd h' (hfine _)
      | later _ h' => exact ih h'

theorem FirstOffence.exists_offends {l : List Setting} (h : FirstOffence a env l e) :
    ∃ s ∈ l, Offends a env s e := by
  induction h with
  | here h => exact ⟨_, List.mem_cons_self .., h⟩
  | later _ _ ih =>
      obtain ⟨s, hs, h⟩ := ih
      exact ⟨s, List.mem_cons_of_mem _ hs, h⟩

/-! ### Settings with which nothing is wrong -/

theorem fine_required_iff (hrequired : s = .subscription ∨ s = .token) :
    (∀ e, ¬ Offends a env s e) ↔ ∃ t, Given a env s t := by
  constructor
  · intro hfine
    by_contra hunset
    exact hfine _ (.missing hrequired (not_exists.mp hunset))
  · rintro ⟨t, hgiven⟩ e (⟨-, hunset⟩ | ⟨hnumeric, -, -⟩ | -)
    · exact hunset t hgiven
    · obtain rfl | rfl := hrequired <;> exact absurd hnumeric (by decide)
    · exact absurd hrequired (by decide)

theorem fine_number_iff (hs : s.isNumeric = true) (hattempts : s ≠ .pollAttempts) :
    (∀ e, ¬ Offends a env s e) ↔ ∀ t, Given a env s t → InRange s.least (2 ^ 64) t := by
  constructor
  · intro hfine t hgiven
    by_contra hrange
    exact hfine _ (.notAtLeast hs hgiven hrange)
  · rintro hrange e (⟨hrequired, -⟩ | ⟨-, hgiven, hrange'⟩ | -)
    · obtain rfl | rfl := hrequired <;> exact absurd hs (by decide)
    · exact hrange' (hrange _ hgiven)
    · exact hattempts rfl

theorem fine_attempts_iff : (∀ e, ¬ Offends a env .pollAttempts e) ↔
    ∀ t, Given a env .pollAttempts t → InRange 1 (2 ^ 32) t := by
  have hleast : Setting.pollAttempts.least = 1 := rfl
  constructor
  · intro hfine t hgiven
    by_contra hrange
    by_cases hnumber : InRange 1 (2 ^ 64) t
    · obtain ⟨n, hdenotes, hn, hlimit⟩ := hnumber
      have hlarge : 2 ^ 32 ≤ n := Nat.le_of_not_lt fun hlt => hrange ⟨n, hdenotes, hn, hlt⟩
      exact hfine _ (.tooLarge hgiven hdenotes hlarge hlimit)
    · exact hfine _ (.notAtLeast rfl hgiven (by rwa [hleast]))
  · generalize hs : Setting.pollAttempts = s at hleast ⊢
    rintro hrange e (⟨hrequired, -⟩ | ⟨-, hgiven, hrange'⟩ | ⟨hgiven, hnumber, hlarge, -⟩)
    · rw [← hs] at hrequired
      exact absurd hrequired (by decide)
    · obtain ⟨n, hdenotes, hn, hlimit⟩ := hrange _ hgiven
      rw [hleast] at hrange'
      exact hrange' ⟨n, hdenotes, hn, Nat.lt_trans hlimit (by decide)⟩
    · obtain ⟨n, hdenotes, -, hlimit⟩ := hrange _ hgiven
      rw [hdenotes.unique hnumber] at hlimit
      exact absurd hlarge (Nat.not_le_of_lt hlimit)

theorem fine_iff_acceptable :
    (∀ s ∈ checkOrder, ∀ e, ¬ Offends a env s e) ↔ Acceptable a env := by
  simp only [checkOrder, List.forall_mem_cons, List.not_mem_nil, false_imp_iff, implies_true,
    and_true]
  rw [fine_number_iff rfl (by decide), fine_attempts_iff, fine_required_iff (.inl rfl),
    fine_required_iff (.inr rfl), fine_number_iff rfl (by decide)]
  exact ⟨fun ⟨hinterval, hattempts, hsubscription, htoken, htimeout⟩ =>
    ⟨hinterval, hattempts, htimeout, hsubscription, htoken⟩,
    fun h => ⟨h.interval, h.attempts, h.subscription, h.token, h.timeout⟩⟩

/-! ### One setting after the other -/

/-- Settings are looked at one after the other: either nothing is wrong with them and the result is
as required, or the first offence is reported. -/
structure Resolves {α : Type} (a : Attributes) (env : Environment) (l : List Setting)
    (Good : α → Prop) (result : Except SettingsError α) : Prop where
  ok : ∀ value, result = .ok value → Good value ∧ ∀ s ∈ l, ∀ e, ¬ Offends a env s e
  error : ∀ e, result = .error e → FirstOffence a env l e

theorem Resolves.of_ok {α : Type} {Good : α → Prop} {value : α} (hgood : Good value)
    (hfine : ∀ e, ¬ Offends a env s e) : Resolves a env [s] Good (.ok value) where
  ok := by
    rintro _ ⟨⟩
    exact ⟨hgood, List.forall_mem_singleton.mpr hfine⟩
  error := fun e h => absurd h (by simp)

theorem Resolves.of_error {α : Type} {Good : α → Prop} (h : Offends a env s e) :
    Resolves a env [s] Good (.error e) where
  ok := fun value h => absurd h (by simp)
  error := by
    rintro _ ⟨⟩
    exact .here h

theorem Resolves.pure {α : Type} {Good : α → Prop} {value : α} (hgood : Good value) :
    Resolves a env [] Good (.ok value) where
  ok := by
    rintro _ ⟨⟩
    exact ⟨hgood, fun s hs => absurd hs List.not_mem_nil⟩
  error := fun e h => absurd h (by simp)

theorem Resolves.bind {α β : Type} {l : List Setting} {Good : α → Prop} {Good' : β → Prop}
    {first : Except SettingsError α} {next : α → Except SettingsError β}
    (hfirst : Resolves a env [s] Good first)
    (hnext : ∀ value, Good value → Resolves a env l Good' (next value)) :
    Resolves a env (s :: l) Good' (first >>= next) := by
  cases first with
  | error e =>
      refine ⟨fun value h => absurd h (by simp [Bind.bind, Except.bind]), ?_⟩
      rintro _ ⟨⟩
      cases hfirst.error e rfl with
      | here h => exact .here h
      | later _ h => exact absurd h (by rintro ⟨⟩)
  | ok value =>
      obtain ⟨hgood, hfine⟩ := hfirst.ok value rfl
      rw [List.forall_mem_singleton] at hfine
      have hrest := hnext value hgood
      refine ⟨fun value' h => ?_, fun e h => .later hfine (hrest.error e h)⟩
      rw [List.forall_mem_cons]
      exact ⟨(hrest.ok value' h).1, hfine, (hrest.ok value' h).2⟩

theorem resolves_required (hrequired : s = .subscription ∨ s = .token) :
    Resolves a env [s] (Given a env s) (required a env s) := by
  have hs : s.isNumeric = false := by
    obtain rfl | rfl := hrequired <;> rfl
  rcases required_cases a env hs with ⟨t, hgiven, h⟩ | ⟨hunset, h⟩
  · rw [h]
    exact .of_ok hgiven ((fine_required_iff hrequired).mpr ⟨t, hgiven⟩)
  · rw [h]
    exact .of_error (.missing hrequired hunset)

/-- The number of a setting, if one is given. -/
def IsNumber (a : Attributes) (env : Environment) (s : Setting) (number : Option Nat) : Prop :=
  TakenFrom a env s (fun t value => ∃ n, Denotes t n ∧ value = some n) none number

theorem resolves_number? (hs : s.isNumeric = true) (hattempts : s ≠ .pollAttempts) :
    Resolves a env [s] (IsNumber a env s) (number? a env s s.least) := by
  rcases number?_cases a env hs s.least with
    ⟨hunset, h⟩ | ⟨t, n, hgiven, hnumber, hleast, hlimit, h⟩ | ⟨t, hgiven, hrange, h⟩
  · rw [h]
    exact .of_ok (.inr ⟨hunset, rfl⟩) ((fine_number_iff hs hattempts).mpr fun t hgiven =>
      absurd hgiven (hunset t))
  · rw [h]
    refine .of_ok (.inl ⟨t, hgiven, n, hnumber, rfl⟩)
      ((fine_number_iff hs hattempts).mpr fun t' hgiven' => ?_)
    rw [hgiven'.unique hgiven]
    exact ⟨n, hnumber, hleast, hlimit⟩
  · rw [h]
    exact .of_error (.notAtLeast hs hgiven hrange)

theorem resolves_attempts? (a : Attributes) (env : Environment) :
    Resolves a env [.pollAttempts] (IsNumber a env .pollAttempts) (attempts? a env) := by
  rcases attempts?_cases a env with ⟨hunset, h⟩ | ⟨t, n, hgiven, hnumber, hleast, hlimit, h⟩ |
    ⟨t, hgiven, hrange, h⟩ | ⟨t, n, hgiven, hnumber, hlarge, hlimit, h⟩
  · rw [h]
    exact .of_ok (.inr ⟨hunset, rfl⟩) (fine_attempts_iff.mpr fun t hgiven =>
      absurd hgiven (hunset t))
  · rw [h]
    refine .of_ok (.inl ⟨t, hgiven, n, hnumber, rfl⟩) (fine_attempts_iff.mpr fun t' hgiven' => ?_)
    rw [hgiven'.unique hgiven]
    exact ⟨n, hnumber, hleast, hlimit⟩
  · rw [h]
    exact .of_error (.notAtLeast rfl hgiven hrange)
  · rw [h]
    exact .of_error (.tooLarge hgiven hnumber hlarge hlimit)

theorem IsNumber.getD {number : Option Nat} (h : IsNumber a env s number) (default : Nat) :
    TakenFrom a env s Denotes default (number.getD default) := by
  obtain ⟨t, hgiven, n, hnumber, rfl⟩ | ⟨hunset, rfl⟩ := h
  · exact .inl ⟨t, hgiven, hnumber⟩
  · exact .inr ⟨hunset, rfl⟩

theorem IsNumber.map_getD {number : Option Nat} (h : IsNumber a env s number) (f : Nat → Nat)
    (default : Nat) : TakenFrom a env s (fun t value => ∃ n, Denotes t n ∧ value = f n) default
      ((number.map f).getD default) := by
  obtain ⟨t, hgiven, n, hnumber, rfl⟩ | ⟨hunset, rfl⟩ := h
  · exact .inl ⟨t, hgiven, n, hnumber, rfl⟩
  · exact .inr ⟨hunset, rfl⟩

theorem takenFrom_text? (hs : s.isNumeric = false) (default : String) :
    TakenFrom a env s (fun t value => value = t) default ((text? a env s).getD default) := by
  cases h : text? a env s with
  | some t => exact .inl ⟨t, (text?_iff_given_of_text hs).mp h, rfl⟩
  | none => exact .inr ⟨fun t => not_given_of_text? hs h, rfl⟩

/-- Resolving looks at the settings in their order. -/
theorem resolves_resolve (a : Attributes) (env : Environment) :
    Resolves a env checkOrder (Yields a env) (resolve a env) := by
  unfold resolve
  refine .bind (resolves_number? rfl (by decide)) fun interval hinterval => ?_
  refine .bind (resolves_attempts? a env) fun attempts hattempts => ?_
  refine .bind (resolves_required (.inl rfl)) fun subscription hsubscription => ?_
  refine .bind (resolves_required (.inr rfl)) fun token htoken => ?_
  refine .bind (resolves_number? rfl (by decide)) fun timeout htimeout => ?_
  exact .pure ⟨hsubscription, htoken, takenFrom_text? rfl _, hinterval.map_getD _ _,
    hattempts.getD _, htimeout⟩

theorem yields_of_resolve {settings : Settings} (h : resolve a env = .ok settings) :
    Yields a env settings :=
  ((resolves_resolve a env).ok settings h).1

/-! ### Main statement -/

theorem TakenFrom.unique {α : Type} {Means : String → α → Prop} {default value value' : α}
    (hMeans : ∀ t v v', Means t v → Means t v' → v = v')
    (h : TakenFrom a env s Means default value) (h' : TakenFrom a env s Means default value') :
    value = value' := by
  obtain ⟨t, hgiven, hvalue⟩ | ⟨hunset, rfl⟩ := h
  · obtain ⟨t', hgiven', hvalue'⟩ | ⟨hunset, -⟩ := h'
    · rw [hgiven'.unique hgiven] at hvalue'
      exact hMeans t _ _ hvalue hvalue'
    · exact absurd hgiven (hunset t)
  · obtain ⟨t, hgiven, -⟩ | ⟨-, rfl⟩ := h'
    · exact absurd hgiven (hunset t)
    · rfl

theorem Yields.unique {settings settings' : Settings} (h : Yields a env settings)
    (h' : Yields a env settings') : settings = settings' := by
  have hendpoint := h.endpoint.unique (fun t v v' hv hv' => hv.trans hv'.symm) h'.endpoint
  have hinterval := h.interval.unique (by
    rintro t _ _ ⟨n, hn, rfl⟩ ⟨n', hn', rfl⟩
    rw [hn.unique hn']) h'.interval
  have hattempts := h.attempts.unique (fun t v v' hv hv' => hv.unique hv') h'.attempts
  have htimeout := h.timeout.unique (by
    rintro t _ _ ⟨n, hn, rfl⟩ ⟨n', hn', rfl⟩
    rw [hn.unique hn']) h'.timeout
  have hsubscription := h.subscription.unique h'.subscription
  have htoken := h.token.unique h'.token
  obtain ⟨_, _, _, ⟨_, _⟩, _⟩ := settings
  obtain ⟨_, _, _, ⟨_, _⟩, _⟩ := settings'
  subst hendpoint hinterval hattempts htimeout hsubscription htoken
  rfl

theorem Offends.setting_eq (h : Offends a env s e) : e.setting = s := by
  cases h <;> rfl

/-- What is given for a setting with a usable attribute does not depend on its variable. -/
theorem given_congr (h : ¬ Usable a s → env' s.variableName = env s.variableName) :
    Given a env' s t ↔ Given a env s t := by
  constructor
  · rintro (⟨hnumeric, hattribute⟩ | ⟨hattribute, hfilled⟩ | ⟨hunusable, hvalue, hfilled⟩)
    · exact .number hnumeric hattribute
    · exact .attribute hattribute hfilled
    · exact .environment hunusable (h hunusable ▸ hvalue) hfilled
  · rintro (⟨hnumeric, hattribute⟩ | ⟨hattribute, hfilled⟩ | ⟨hunusable, hvalue, hfilled⟩)
    · exact .number hnumeric hattribute
    · exact .attribute hattribute hfilled
    · exact .environment hunusable ((h hunusable).trans hvalue) hfilled

theorem text?_congr (hs : s.isNumeric = false)
    (h : ¬ Usable a s → env' s.variableName = env s.variableName) :
    text? a env' s = text? a env s :=
  Option.ext fun t => by
    rw [text?_iff_given_of_text hs, text?_iff_given_of_text hs, given_congr h]

theorem numeral?_congr (hs : s.isNumeric = true)
    (h : ¬ Usable a s → env' s.variableName = env s.variableName) :
    numeral? a env' s = numeral? a env s :=
  Option.ext fun t => by rw [numeral?_iff_given hs, numeral?_iff_given hs, given_congr h]

theorem resolve_congr
    (h : ∀ s ∈ Setting.all, ¬ Usable a s → env' s.variableName = env s.variableName) :
    resolve a env' = resolve a env := by
  simp only [Setting.all, List.forall_mem_cons, List.not_mem_nil, false_imp_iff, implies_true,
    and_true] at h
  obtain ⟨hinterval, hattempts, hsubscription, htoken, hendpoint, htimeout⟩ := h
  unfold resolve attempts? number? required
  rw [numeral?_congr rfl hinterval, numeral?_congr rfl hattempts, text?_congr rfl hsubscription,
    text?_congr rfl htoken, text?_congr rfl hendpoint, numeral?_congr rfl htimeout]

/-- Settings are resolved exactly if what is given for them is acceptable, to what is given or to
the default; otherwise the error is about the first offender. A variable behind a usable attribute
does not matter. -/
theorem resolve_outcome (a : Attributes) (env : Environment) :
    ((∃ settings, resolve a env = .ok settings) ↔ Acceptable a env) ∧
      (∀ settings, resolve a env = .ok settings ↔ Acceptable a env ∧ Yields a env settings) ∧
      (∀ e, resolve a env = .error e ↔ FirstOffence a env checkOrder e) ∧
      (∀ s e, Offends a env s e → e.setting = s) ∧
      ∀ env', (∀ s ∈ Setting.all, ¬ Usable a s → env' s.variableName = env s.variableName) →
        resolve a env' = resolve a env := by
  have hresolves := resolves_resolve a env
  have hacceptable : ∀ settings, resolve a env = .ok settings → Acceptable a env := fun _ h =>
    fine_iff_acceptable.mp (hresolves.ok _ h).2
  have hok : Acceptable a env → ∃ settings, resolve a env = .ok settings := by
    intro h
    cases hresult : resolve a env with
    | ok settings => exact ⟨settings, rfl⟩
    | error e =>
        obtain ⟨s, hs, hoffends⟩ := (hresolves.error e hresult).exists_offends
        exact absurd hoffends (fine_iff_acceptable.mpr h s hs e)
  refine ⟨⟨fun ⟨settings, h⟩ => hacceptable settings h, hok⟩, fun settings => ⟨fun h => ?_, ?_⟩,
    fun e => ⟨hresolves.error e, fun h => ?_⟩, fun s e h => h.setting_eq,
    fun env' h => resolve_congr h⟩
  · exact ⟨hacceptable settings h, (hresolves.ok settings h).1⟩
  · rintro ⟨h, hyields⟩
    obtain ⟨settings', hresult⟩ := hok h
    rw [hresult, (hresolves.ok settings' hresult).1.unique hyields]
  · cases hresult : resolve a env with
    | error e' => rw [(hresolves.error e' hresult).unique h]
    | ok settings =>
        obtain ⟨s, hs, hoffends⟩ := h.exists_offends
        exact absurd hoffends ((hresolves.ok settings hresult).2 s hs e)

/-- An integer and a text as attributes, and two environments that differ behind them. -/
theorem resolve_outcome_mixed :
    let a : Attributes := [("poll_max_attempts", .int 5), ("subscription_id", .string " sub ")]
    let env : Environment := fun name => [("ARM_ACCESS_TOKEN", "tok\n"),
      ("ARM_OPERATION_TIMEOUT_SECONDS", "+900"), ("ARM_POLL_MAX_ATTEMPTS", "many")].lookup name
    let env' : Environment := fun name => [("ARM_ACCESS_TOKEN", "tok\n"),
      ("ARM_OPERATION_TIMEOUT_SECONDS", "+900"), ("ARM_SUBSCRIPTION_ID", "other")].lookup name
    Acceptable a env ∧
      resolve a env = .ok ⟨"sub", "tok", "https://management.azure.com", ⟨10000, 5⟩, some 900⟩ ∧
      resolve a env' = resolve a env := by
  intro a env env'
  have hresolve : resolve a env =
      .ok ⟨"sub", "tok", "https://management.azure.com", ⟨10000, 5⟩, some 900⟩ := by
    decide +kernel
  have hagree : ∀ s ∈ Setting.all, ¬ Usable a s → env' s.variableName = env s.variableName := by
    simp only [Setting.all, List.forall_mem_cons, List.not_mem_nil, false_imp_iff, implies_true,
      and_true]
    refine ⟨fun _ => rfl, fun h => ?_, fun h => ?_, fun _ => rfl, fun _ => rfl, fun _ => rfl⟩
    · exact absurd (.inr ⟨rfl, 5, rfl⟩) h
    · exact absurd (.inl ⟨" sub ", rfl⟩) h
  obtain ⟨hacceptable, -, -, -, hcongr⟩ := resolve_outcome a env
  exact ⟨hacceptable.mp ⟨_, hresolve⟩, hresolve, hcongr env' hagree⟩

end Settings

end EdgeFirewall
