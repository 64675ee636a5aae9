/-!
# The mark of generated files

A file may be replaced if a generator wrote it.  Such a file has a line that says so: two fixed phrases, one at each end of
the line, and the generator's name or anything else between them.  The phrases do not share characters, so the line is at
least as long as both.
-/
namespace BencodePlan
namespace Source

def markOpening : String := "// Code generated "

def markClosing : String := " DO NOT EDIT."

def isMark (line : List Char) : Bool :=
  markOpening.toList.isPrefixOf line && markClosing.toList.isSuffixOf (line.drop markOpening.length)

/-- **Whether some line of a text is the mark.**  Only a line feed ends a line. -/
def isMarked (text : String) : Bool := (text.toList.splitOn '\n').any isMark

end Source
end BencodePlan
