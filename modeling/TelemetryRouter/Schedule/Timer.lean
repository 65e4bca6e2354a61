import TelemetryRouter.Duration.Basic

/-!
# Instants and timers

The clock counts whole milliseconds from its start. An instant is finer, a number of nanoseconds from the same start, so that
a deadline keeps the precision of the duration it was made from; a timer for an instant goes off at the first tick of the clock
that is not before it.
-/

namespace TelemetryRouter

/-- Nanoseconds since the clock started. -/
abbrev Instant : Type := Nat

namespace Instant

/-- The instant of a tick of the clock. -/
def ofTick (now : Nat) : Instant := now * 1000000

/-- The first tick that is not before an instant. -/
def tick (i : Instant) : Nat := (i + 999999) / 1000000

/-- Whether a timer for an instant has gone off. -/
def reached (i : Instant) (now : Nat) : Bool := decide (i.tick ≤ now)

/-- The instant a duration after a tick. -/
def after (now : Nat) (d : Duration) : Instant := ofTick now + d.nanoseconds

/-- The range of the clock: its seconds fit a signed number of sixty-four bits. -/
def limit : Nat := 9223372036854775808 * 1000000000

/-- The instant a duration after a tick, if the clock can represent it. -/
def after? (now : Nat) (d : Duration) : Option Instant := if after now d < limit then some (after now d) else none

/-- The whole milliseconds from one instant to a later one, zero if it is not later. -/
def millisecondsSince (later earlier : Instant) : Nat := (later - earlier) / 1000000

/-- A tick is reached exactly when the clock shows it. -/
theorem reached_ofTick (t now : Nat) : reached (ofTick t) now = decide (t ≤ now) := by
  have h : tick (ofTick t) = t := by simp only [tick, ofTick]; omega
  simp [reached, h]

end Instant

/-- A timer that goes off again and again: when it is due next, and the time between. -/
structure Ticker where
  due : Instant
  period : Duration
  deriving DecidableEq, Repr

namespace Ticker

/-- A ticker whose first signal has been taken at once; there is none without time between the signals. -/
def start? (now : Nat) (period : Duration) : Option Ticker :=
  if period.isZero then none else some ⟨Instant.after now period, period⟩

/-- How late a signal may be taken without delaying those after it. -/
def tolerance : Nat := 5000000

/-- Takes a signal. The next one is due one period after this one was, or one period from now if this one is taken too late. -/
def take (t : Ticker) (now : Nat) : Ticker :=
  if Instant.ofTick now > t.due + tolerance then { t with due := Instant.after now t.period }
  else { t with due := t.due + t.period.nanoseconds }

end Ticker

end TelemetryRouter
