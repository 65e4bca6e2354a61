/-!
# Blank characters

The white space of the Unicode standard, twenty-five code points. Names and hostnames count as empty when they hold nothing
else, and durations may have it between their parts.
-/

namespace TelemetryRouter.Blank

/-- The code points with the property White_Space, as closed ranges. -/
def ranges : List (Nat × Nat) :=
  [(0x09, 0x0d), (0x20, 0x20), (0x85, 0x85), (0xa0, 0xa0), (0x1680, 0x1680), (0x2000, 0x200a), (0x2028, 0x2029),
   (0x202f, 0x202f), (0x205f, 0x205f), (0x3000, 0x3000)]

/-- Whether a character is white space. -/
def isBlank (c : Char) : Bool := ranges.any (fun r => r.1 ≤ c.toNat && c.toNat ≤ r.2)

/-- Whether a text holds nothing but white space. -/
def isBlankText (s : String) : Bool := s.toList.all isBlank

example : ranges.foldl (fun n r => n + (r.2 + 1 - r.1)) 0 = 25 := by decide

end TelemetryRouter.Blank
