/-!
# Paths as text

A path is names with slashes between them.  Between names, empty pieces and single dots say nothing; a leading slash and a
leading dot are kept, since they tell where the path begins.  Two dots are a name like any other here: where they lead
depends on the files.
-/
namespace BencodePlan
namespace Path

/-- What is kept at the front of a path, and the rest. -/
def front : List Char → List Char × List Char
  | '/' :: rest => (['/'], rest)
  | ['.'] => (['.'], [])
  | '.' :: '/' :: rest => (['.'], '/' :: rest)
  | cs => ([], cs)

/-- Whether a piece between slashes says nothing. -/
def isIdle (piece : List Char) : Bool := piece = [] || piece = ['.']

/-- Pieces in reverse, from the last one that says something. -/
def dropIdle (pieces : List (List Char)) : List (List Char) := pieces.dropWhile isIdle

/-- **The path of the folder that holds a path's last name**, if there is a last name. -/
def parent? (path : String) : Option String :=
  let parts := front path.toList
  match dropIdle (parts.2.splitOn '/').reverse with
  | [] => if parts.1 = ['.'] then some "" else none
  | _ :: before => some (String.ofList (parts.1 ++ ['/'].intercalate (dropIdle before).reverse))

def isAbsolute (path : String) : Bool := path.toList.head? = some '/'

/-- A path below a folder; the folder without a name adds nothing. -/
def join (folder name : String) : String :=
  if folder.isEmpty then name
  else if folder.toList.getLast? = some '/' then folder ++ name
  else folder ++ "/" ++ name

def below (folder path : String) : String :=
  if isAbsolute path then path else join folder path

end Path
end BencodePlan
