import BencodePlan.Text.CharRange
/-!
# Blanks

The characters of Unicode that are white space: five controls, the space, and the wide, narrow and unbreakable spaces
and separators beyond ASCII.
-/
namespace BencodePlan
namespace Text

def blankRanges : List CharRange := [
  (0x9, 0xd), (0x20, 0x20), (0x85, 0x85), (0xa0, 0xa0), (0x1680, 0x1680), (0x2000, 0x200a), (0x2028, 0x2029),
  (0x202f, 0x202f), (0x205f, 0x205f), (0x3000, 0x3000)]

/-- **White space.** -/
def isBlank (c : Char) : Bool :=
  CharRange.anyContains blankRanges c

end Text
end BencodePlan
