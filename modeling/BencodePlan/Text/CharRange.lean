/-!
# Ranges of characters

A class of characters given by ranges of code points.  Every class in this library that goes beyond ASCII is a list of
such ranges, both ends included.
-/
namespace BencodePlan

abbrev CharRange := Nat × Nat

namespace CharRange

def contains (r : CharRange) (c : Char) : Bool :=
  r.1 ≤ c.toNat && c.toNat ≤ r.2

/-- A character is in a class if it is in one of its ranges. -/
def anyContains (rs : List CharRange) (c : Char) : Bool :=
  rs.any fun r => r.contains c

end CharRange
end BencodePlan
