import EdgeFirewall.Service.Context

/-! # Contexts and signals

A token hears the signals of the tokens that it descends from, and no others (`Token.hears_iff`). A
clock is quiet for a token while it has heard no signal and none is to come that it would hear
(`Clock.IsQuiet`). Time that passes keeps it so, and a sleep is then cut short by the deadline alone
(`Context.sleep_of_quiet`). A context that is live after a sleep has slept through it
(`Context.sleep_of_live`). -/

namespace EdgeFirewall

/-! ### Tokens -/

namespace Token

/-- A token is another one, or was made from a token that descends from it. -/
inductive DescendsFrom : Token → Token → Prop
  | self (t : Token) : DescendsFrom t t
  | child {t ancestor : Token} (h : DescendsFrom t ancestor) : DescendsFrom t.child ancestor

variable {t ancestor : Token}

theorem hears_self (t : Token) : t.hears t = true := by
  cases t <;> simp [hears]

theorem hears_child (t ancestor : Token) :
    t.child.hears ancestor = (ancestor == t.child || t.hears ancestor) := rfl

/-- A token hears the signals of those that it descends from. -/
theorem hears_iff : t.hears ancestor = true ↔ t.DescendsFrom ancestor := by
  constructor
  · intro h
    induction t with
    | own serial =>
        obtain rfl : ancestor = .own serial := beq_iff_eq.mp h
        exact .self _
    | child parent ih =>
        rw [hears_child, Bool.or_eq_true, beq_iff_eq] at h
        rcases h with rfl | h
        · exact .self _
        · exact .child (ih h)
  · intro h
    induction h with
    | self t => exact hears_self t
    | child _ ih => rw [hears_child, ih, Bool.or_true]

end Token

/-! ### Clocks -/

namespace Clock

variable {c : Clock} {token listener : Token} {time later : Nat}

theorem hasCancelled_cancel (c : Clock) (token listener : Token) :
    (c.cancel token).hasCancelled listener = (listener.hears token || c.hasCancelled listener) :=
  rfl

@[simp] theorem now_moved (c : Clock) (time : Nat) : (c.moved time).now = time := by
  unfold moved
  split
  · split <;> rfl
  · rfl

/-- To go on and on is to go on once. -/
theorem moved_moved (h : time ≤ later) : (c.moved time).moved later = c.moved later := by
  obtain ⟨now, signals, coming⟩ := c
  cases coming with
  | none => rfl
  | some s =>
      by_cases hdue : s.due < time
      · have hlater : s.due < later := by omega
        simp [moved, cancel, hdue, hlater]
      · simp [moved, cancel, hdue]

/-- A token has heard no signal, and none is to come that it would hear. -/
structure IsQuiet (c : Clock) (t : Token) : Prop where
  heard : c.hasCancelled t = false
  coming : ∀ s, c.coming = some s → t.hears s.token = false

theorem IsQuiet.moved (h : c.IsQuiet token) (time : Nat) : (c.moved time).IsQuiet token := by
  unfold Clock.moved
  split
  · next s hs =>
      split
      · refine ⟨?_, fun s' hs' => absurd hs' (by simp [cancel])⟩
        rw [hasCancelled_cancel, h.coming s hs]
        exact h.heard
      · exact ⟨h.heard, h.coming⟩
  · exact ⟨h.heard, h.coming⟩

end Clock

/-! ### Contexts -/

namespace Context

variable {ctx : Context} {c : Clock} {deadline : Nat}

/-- Whether a context lets work start. -/
def IsLive (ctx : Context) (c : Clock) : Prop :=
  ctx.refusal? c = none

theorem isNotFound_of_refusal? {e : ServiceError} (h : ctx.refusal? c = some e) :
    e.isNotFound = false := by
  unfold refusal? at h
  split at h
  · obtain rfl := Option.some.inj h
    rfl
  · split at h
    · obtain rfl := Option.some.inj h
      rfl
    · simp at h

/-- Once it has heard a signal, a context is not live. -/
theorem refusal?_of_hasCancelled (h : c.hasCancelled ctx.token = true) :
    ctx.refusal? c = some .cancelled := by
  unfold refusal?
  rw [if_pos h]

theorem not_isLive_of_hasCancelled (h : c.hasCancelled ctx.token = true) : ¬ ctx.IsLive c := by
  rw [IsLive, refusal?_of_hasCancelled h]
  simp

/-- Nor is it when its deadline has come. -/
theorem not_isLive_of_deadline (hctx : ctx.deadline = some deadline) (h : deadline ≤ c.now) :
    ¬ ctx.IsLive c := by
  unfold IsLive refusal?
  rw [hctx]
  split <;> simp [h]

theorem refusal?_of_quiet (hc : c.IsQuiet ctx.token) :
    ctx.refusal? c =
      if ctx.deadline.any (· ≤ c.now) then some .deadlineExceeded else none := by
  unfold refusal?
  rw [hc.heard, if_neg Bool.false_ne_true]

/-- With no signal to be heard, a sleep is cut short by the deadline alone. -/
theorem sleep_of_quiet (hc : c.IsQuiet ctx.token) (duration : Nat) :
    ctx.sleep duration c =
      if ctx.deadline.any (· ≤ c.now) then (.error .deadlineExceeded, c)
      else match ctx.deadline.filter (· ≤ c.now + duration) with
        | some t => (.error .deadlineExceeded, c.moved t)
        | none => (.ok (), c.moved (c.now + duration)) := by
  have hsilent : ∀ p : Signal → Bool,
      (c.coming.filter fun s => p s && ctx.token.hears s.token) = none := by
    intro p
    cases hcoming : c.coming with
    | none => rfl
    | some s => simp [hc.coming s hcoming]
  unfold sleep
  rw [refusal?_of_quiet hc]
  dsimp only
  split
  · next h =>
      rw [Option.ite_none_right_eq_some] at h
      rw [if_pos h.1, ← Option.some.inj h.2]
  · next h =>
      have hlive : ¬ ctx.deadline.any (· ≤ c.now) = true := by
        intro hpast
        rw [if_pos hpast] at h
        exact absurd h (by simp)
      rw [if_neg hlive, hsilent]
      split
      · next hheard => simp at hheard
      · next hexpires => rw [hexpires]
      · next hexpires => rw [hexpires]

/-- A sleep after which the context is live was not broken off. -/
theorem sleep_of_live {duration : Nat} (h : ctx.IsLive (ctx.sleep duration c).2) :
    ctx.IsLive c ∧ (ctx.sleep duration c).1 = .ok () := by
  unfold sleep at h ⊢
  cases hrefusal : ctx.refusal? c with
  | some e =>
      rw [hrefusal] at h
      exact absurd h (by simp [IsLive, hrefusal])
  | none =>
      refine ⟨hrefusal, ?_⟩
      rw [hrefusal] at h
      dsimp only at h ⊢
      split at h
      · -- woken by a signal
        next s _ hsignal =>
          obtain ⟨-, hheard⟩ := Option.filter_eq_some_iff.mp hsignal
          obtain ⟨-, hhears⟩ := Bool.and_eq_true_iff.mp hheard
          refine absurd h (not_isLive_of_hasCancelled ?_)
          rw [Clock.woken, Clock.hasCancelled_cancel, hhears, Bool.true_or]
      · -- woken by the deadline
        next t _ hexpires =>
          obtain ⟨hdeadline, -⟩ := Option.filter_eq_some_iff.mp hexpires
          exact absurd h (not_isLive_of_deadline hdeadline (Nat.le_of_eq (c.now_moved t).symm))
      · rfl

/-- How a sleep is broken off does not say that anything is missing. -/
theorem isNotFound_of_sleep {duration : Nat} {e : ServiceError}
    (h : (ctx.sleep duration c).1 = .error e) : e.isNotFound = false := by
  unfold sleep at h
  cases hrefusal : ctx.refusal? c with
  | some e' =>
      rw [hrefusal] at h
      obtain rfl := Except.error.inj h
      exact isNotFound_of_refusal? hrefusal
  | none =>
      rw [hrefusal] at h
      dsimp only at h
      split at h
      · obtain rfl := Except.error.inj h
        rfl
      · obtain rfl := Except.error.inj h
        rfl
      · simp at h

end Context

end EdgeFirewall
