/-!
# Places in a text

A piece of a text by its byte offsets in UTF-8, from the first byte to the byte after the last.
-/
namespace BencodePlan

structure Span where
  start : Nat
  stop : Nat
  deriving DecidableEq, Repr

namespace Span

def isEmpty (s : Span) : Bool := s.start = s.stop

end Span

namespace Text

def byteLength : List Char → Nat
  | [] => 0
  | c :: cs => c.utf8Size + byteLength cs

end Text
end BencodePlan
