/-!
# Durations

A duration is a number of nanoseconds whose whole seconds fit sixty-four bits.
-/

namespace TelemetryRouter

/-- A length of time. -/
structure Duration where
  nanoseconds : Nat
  bounded : nanoseconds < 18446744073709551616 * 1000000000
  deriving DecidableEq, Repr

namespace Duration

/-- The duration of so many nanoseconds, if it is in range. -/
def ofNanoseconds? (n : Nat) : Option Duration :=
  if h : n < 18446744073709551616 * 1000000000 then some ⟨n, h⟩ else none

/-- The empty duration. -/
def zero : Duration := ⟨0, by decide⟩

/-- So many seconds. -/
def ofSeconds (s : UInt64) : Duration := ⟨s.toNat * 1000000000, by have := s.toNat_lt; omega⟩

/-- So many milliseconds. -/
def ofMilliseconds (ms : UInt64) : Duration := ⟨ms.toNat * 1000000, by have := ms.toNat_lt; omega⟩

/-- So many nanoseconds. -/
def ofNanoseconds (ns : UInt64) : Duration := ⟨ns.toNat, by have := ns.toNat_lt; omega⟩

/-- The whole seconds. -/
def seconds (d : Duration) : Nat := d.nanoseconds / 1000000000

/-- The nanoseconds beyond the whole seconds. -/
def subsecond (d : Duration) : Nat := d.nanoseconds % 1000000000

/-- Whether the duration is empty. -/
def isZero (d : Duration) : Bool := d.nanoseconds == 0

/-- The milliseconds as a double: the whole seconds and the rest are converted apart, added, and then scaled. -/
def milliseconds (d : Duration) : Float :=
  (Float.ofNat d.seconds + Float.ofNat d.subsecond / 1e9) * 1000.0

end Duration

end TelemetryRouter
