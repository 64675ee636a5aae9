import BencodePlan.Text.Lowercase
/-!
# Names

Which names a declaration may carry, and the dictionary key that a field gets when its tag does not give one.
-/
namespace BencodePlan
namespace Text

def isNameStart (c : Char) : Bool :=
  c = '_' || c.isAlpha

def isNamePart (c : Char) : Bool :=
  c = '_' || c.isAlphanum

/-- **An identifier**: ASCII letters, digits and underscores, no digit first, and not the underscore alone. -/
def isIdentifier (name : String) : Bool :=
  match name.toList with
  | [] => false
  | c :: rest => isNameStart c && rest.all isNamePart && !(c = '_' && rest.isEmpty)

/-- The words of a name, in lower case: a blank goes before each capital that follows a small letter.  The first
argument says whether the letter before was small; a run of capitals stays one word. -/
def words : Bool → List Char → List Char
  | _, [] => []
  | afterSmall, c :: rest =>
    (if afterSmall && c.isUpper then [' '] else []) ++ lowercase c ++ words c.isLower rest

/-- **The key derived from a declared name.** -/
def derivedKey (declared : String) : String :=
  String.ofList (words false declared.toList)

end Text
end BencodePlan
