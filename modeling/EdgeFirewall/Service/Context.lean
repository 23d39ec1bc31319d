import EdgeFirewall.Service.Error

/-! # Time, cancellation and deadlines

Calls run on a clock that only sleeping moves. Whoever holds a cancellation token may give its
signal, which is never taken back; the token hears it and so do the tokens that were made from it
(`Token.hears`). A call has a context with a token and perhaps a deadline. `Context.run` says
whether work may start now, `Context.sleep` lets time pass and wakes early when the token hears a
signal or the deadline comes. -/

namespace EdgeFirewall

/-- A cancellation token: one of its own, or a child of another token. Nobody gives a signal to one
child of a token alone, so its children need not be told apart. -/
inductive Token where
  | own (serial : Nat)
  | child (parent : Token)
  deriving DecidableEq, Repr

/-- Whether a token hears the signal of a token: its own, or one of a token it descends from. -/
def Token.hears : Token → Token → Bool
  | .own n, t => t == .own n
  | .child parent, t => t == .child parent || parent.hears t

/-- A signal that will be given to a token. -/
structure Signal where
  token : Token
  due : Nat
  deriving DecidableEq, Repr

/-- The time, in milliseconds, and the tokens to which a signal was given. -/
structure Clock where
  now : Nat := 0
  signals : List Token := []
  /-- A signal that will be given once the work of that instant is done. -/
  coming : Option Signal := none
  deriving DecidableEq, Repr

namespace Clock

/-- Gives a token its signal. -/
def cancel (c : Clock) (t : Token) : Clock :=
  { c with signals := t :: c.signals }

/-- Whether a token has heard a signal. -/
def hasCancelled (c : Clock) (t : Token) : Bool :=
  c.signals.any t.hears

/-- The clock at a time to which it is moved on. A signal that is due before is given. -/
def moved (c : Clock) (time : Nat) : Clock :=
  match c.coming with
  | some s =>
    if s.due < time then { c with now := time, coming := none }.cancel s.token
    else { c with now := time }
  | none => { c with now := time }

/-- The clock when the signal that was coming is given. -/
def woken (c : Clock) (s : Signal) : Clock :=
  { c with now := max c.now s.due, coming := none }.cancel s.token

/-- The greatest time that a deadline can have: a signed 64-bit number of seconds. -/
def latest : Nat := 9223372036854775807 * 1000 + 999

end Clock

/-- What bounds one call. -/
structure Context where
  token : Token
  deadline : Option Nat := none
  deriving DecidableEq, Repr

namespace Context

/-- A context whose deadline is a number of milliseconds away. There is none if the deadline
lies beyond the latest time. -/
def expiringIn? (token : Token) (c : Clock) (duration : Nat) : Option Context :=
  if c.now + duration ≤ Clock.latest then some { token, deadline := some (c.now + duration) }
  else none

/-- A context with an optional time limit, in milliseconds. -/
def within? (token : Token) (c : Clock) : Option Nat → Option Context
  | none => some { token }
  | some duration => expiringIn? token c duration

/-- Why work may not start now: a signal counts before the deadline. -/
def refusal? (ctx : Context) (c : Clock) : Option ServiceError :=
  if c.hasCancelled ctx.token then some .cancelled
  else if ctx.deadline.any (· ≤ c.now) then some .deadlineExceeded
  else none

/-- Runs work that takes no time, if it may start. -/
def run {σ α : Type} (ctx : Context) (clock : σ → Clock)
    (work : StateM σ (Except ServiceError α)) : StateM σ (Except ServiceError α) := fun s =>
  match ctx.refusal? (clock s) with
  | some e => (.error e, s)
  | none => work s

/-- Lets time pass. A sleep that would end when the deadline comes is too long. -/
def sleep (ctx : Context) (duration : Nat) (c : Clock) : Except ServiceError Unit × Clock :=
  match ctx.refusal? c with
  | some e => (.error e, c)
  | none =>
    let wake := c.now + duration
    let expires := ctx.deadline.filter (· ≤ wake)
    let heard := c.coming.filter fun s => s.due < expires.getD wake && ctx.token.hears s.token
    match heard, expires with
    | some s, _ => (.error .cancelled, c.woken s)
    | none, some t => (.error .deadlineExceeded, c.moved t)
    | none, none => (.ok (), c.moved wake)

end Context

end EdgeFirewall
