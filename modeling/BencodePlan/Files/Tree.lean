import BencodePlan.Text.Escape
/-!
# Files and folders

What a run finds and leaves on a disk: files with their bytes, and folders.  Paths are followed name by name; each name
but the last has to lead to a folder.  Places are named from the working folder, from a folder above it, or from the root;
those folders themselves are always there.

The operations are those a careful writer needs: make a file that was not there, fill it, and put it in the place of
another in one step.  A failing operation leaves everything as it was.
-/
namespace BencodePlan

inductive FileError
  | notFound
  | busy
  | alreadyThere
  | notFolder
  | isFolder
  | nameTooLong
  | notText
  /-- Anything else that a system may answer. -/
  | other (text : String)
  deriving DecidableEq, Repr

namespace FileError

def message : FileError → String
  | notFound => "No such file or directory (os error 2)"
  | busy => "Device or resource busy (os error 16)"
  | alreadyThere => "File exists (os error 17)"
  | notFolder => "Not a directory (os error 20)"
  | isFolder => "Is a directory (os error 21)"
  | nameTooLong => "File name too long (os error 36)"
  | notText => "stream did not contain valid UTF-8"
  | other text => text

end FileError

inductive Anchor
  /-- The folder so many levels above the working folder. -/
  | above (levels : Nat)
  | root
  deriving DecidableEq, Repr

/-- A place, with the names that lead to it, last first. -/
structure Place where
  anchor : Anchor
  names : List String
  deriving DecidableEq, Repr

namespace Place

def here : Place := ⟨.above 0, []⟩

def root : Place := ⟨.root, []⟩

def child (p : Place) (name : String) : Place := ⟨p.anchor, name :: p.names⟩

/-- The folder around a place; the root is around itself. -/
def outer : Place → Place
  | ⟨a, _ :: names⟩ => ⟨a, names⟩
  | ⟨.above n, []⟩ => ⟨.above (n + 1), []⟩
  | ⟨.root, []⟩ => root

end Place

inductive Entry
  | file (bytes : Bytes)
  | folder
  deriving DecidableEq, Repr

structure FileTree where
  entries : List (Place × Entry)
  deriving DecidableEq, Repr

namespace FileTree

def empty : FileTree := ⟨[]⟩

def get? (t : FileTree) (p : Place) : Option Entry :=
  if p.names = [] then some .folder else (t.entries.find? (·.1 = p)).map (·.2)

def erase (t : FileTree) (p : Place) : FileTree := ⟨t.entries.filter (·.1 ≠ p)⟩

def set (t : FileTree) (p : Place) (e : Entry) : FileTree := ⟨(p, e) :: (t.erase p).entries⟩

/-- Where nothing is, nothing is erased. -/
theorem erase_eq_self {t : FileTree} {p : Place} (h : t.get? p = none) : t.erase p = t := by
  unfold get? at h
  split at h
  · cases h
  · rw [Option.map_eq_none_iff, List.find?_eq_none] at h
    unfold erase
    congr 1
    exact List.filter_eq_self.2 fun e he => by simpa using h e he

/-- **What is at a place after an entry was put somewhere.** -/
theorem get?_set (t : FileTree) {p : Place} (e : Entry) (q : Place) (hp : p.names ≠ []) :
    (t.set p e).get? q = if q = p then some e else t.get? q := by
  by_cases hq : q = p
  · subst hq
    simp [get?, set, hp]
  · have hpq : ¬ p = q := fun h => hq h.symm
    simp only [get?, set, erase, List.find?_cons, decide_eq_false hpq, if_neg hq]
    split
    · rfl
    · congr 1
      rw [List.find?_filter]
      refine congrArg (List.find? · t.entries) (funext fun x => ?_)
      by_cases hx : x.1 = q
      · simp [hx, hq]
      · simp [hx]

/-- A file that is made and removed again leaves nothing behind. -/
theorem erase_set {t : FileTree} {p : Place} (e : Entry) (h : t.get? p = none) : (t.set p e).erase p = t := by
  have herase := erase_eq_self h
  unfold set erase at *
  cases t
  simpa using herase

def nameLimit : Nat := 255

def pathLimit : Nat := 4095

def walk (t : FileTree) (p : Place) : List String → Except FileError Place
  | [] => .ok p
  | name :: rest =>
    match t.get? p with
    | none => .error .notFound
    | some (.file _) => .error .notFolder
    | some .folder =>
      if name = "" ∨ name = "." then t.walk p rest
      else if name = ".." then t.walk p.outer rest
      else if nameLimit < name.utf8ByteSize then .error .nameTooLong
      else t.walk (p.child name) rest

def pieces (path : String) : List String := (path.toList.splitOn '/').map String.ofList

def start (path : String) : Place := if path.toList.head? = some '/' then .root else .here

/-- What is asked of a path before any name in it is looked at. -/
def checkPath (path : String) : Except FileError Unit :=
  if path.isEmpty then .error .notFound
  else if pathLimit < path.utf8ByteSize then .error .nameTooLong
  else .ok ()

/-- **Where a path leads.**  There need be nothing at that place. -/
def locate (t : FileTree) (path : String) : Except FileError Place := do
  checkPath path
  t.walk (start path) (pieces path)

def bytesAt (t : FileTree) (p : Place) : Except FileError Bytes :=
  match t.get? p with
  | none => .error .notFound
  | some .folder => .error .isFolder
  | some (.file bytes) => .ok bytes

/-- **The bytes of a file.** -/
def read (t : FileTree) (path : String) : Except FileError Bytes := do
  t.bytesAt (← t.locate path)

/-- **Make an empty file** where nothing is. -/
def create (t : FileTree) (path : String) : Except FileError FileTree := do
  let p ← t.locate path
  match t.get? p with
  | some _ => throw .alreadyThere
  | none => return t.set p (.file [])

/-- **Fill a file.** -/
def write (t : FileTree) (path : String) (bytes : Bytes) : Except FileError FileTree := do
  let p ← t.locate path
  let _ ← t.bytesAt p
  return t.set p (.file bytes)

/-- **Remove a file.** -/
def remove (t : FileTree) (path : String) : Except FileError FileTree := do
  let p ← t.locate path
  let _ ← t.bytesAt p
  return t.erase p

/-- The place that a path names in its folder, for a file that is to be put there. -/
def slot (t : FileTree) (path : String) : Except FileError Place := do
  checkPath path
  let reversed := (pieces path).reverse
  match reversed.dropWhile (·.isEmpty) with
  | [] => throw .busy
  | name :: before =>
    let folder ← t.walk (start path) before.reverse
    match t.get? folder with
    | none => throw .notFound
    | some (.file _) => throw .notFolder
    | some .folder =>
      if name = "." ∨ name = ".." then throw .busy
      else if nameLimit < name.utf8ByteSize then throw .nameTooLong
      else if reversed.head? = some "" then throw .notFolder
      else return folder.child name

/-- **Put a file in another place**, instead of the file that is there. -/
def rename (t : FileTree) (source target : String) : Except FileError FileTree := do
  let p ← t.locate source
  let bytes ← t.bytesAt p
  let q ← t.slot target
  match t.get? q with
  | some .folder => throw .isFolder
  | _ => return (t.erase p).set q (.file bytes)

end FileTree
end BencodePlan
