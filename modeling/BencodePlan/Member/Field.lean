import BencodePlan.Member.Tag
import BencodePlan.Types.Display
import BencodePlan.Plan.Selector
import BencodePlan.Text.Name
import BencodePlan.Notice
/-!
# The fields of a struct

A struct writes its members, and in the place of an embedded member the members of that struct, and so on down.  A member
can be embedded only if it is a struct, and only if that struct is not one of those being opened.  Whatever is wrong with
one member is reported and leaves the others alone: a tag that cannot be read counts as none, an embedding that cannot be
followed is skipped.
-/
namespace BencodePlan

/-- A member that is written, with the embedded members on the way to it, the outermost first. -/
structure Field where
  name : String
  path : List String
  type : TypeId
  tag : Option Tag
  deriving DecidableEq, Repr

namespace Field

/-- **The key of a field**: the one its tag gives, else the one derived from its name. -/
def key (f : Field) : String :=
  match f.tag.bind Tag.name with
  | some name => name
  | none => Text.derivedKey f.name

def omitEmpty (f : Field) : Bool := (f.tag.map Tag.omitEmpty).getD false

def selector (f : Field) (base : Selector) : Selector := base.fields (f.path ++ [f.name])

/-- The tag of a member; one that cannot be read is reported. -/
def readTag (location : String) (m : Member) : Noted (Option Tag) :=
  match m.tag with
  | none => pure none
  | some raw =>
    match Tag.parse raw with
    | .ok tag => pure (some tag)
    | .error e => do
      Noted.report (.pointing .malformedTag location e.fault.message raw e.span e.fault.label)
      pure none

/-- The fields of a struct body, where some bodies are being opened already. -/
def collectFrom (t : TypeTable) (opened : List TypeId) (path : List String) (owner : String) (body : TypeId) :
    Noted (List Field) :=
  if _new : body < t.size ∧ body ∉ opened then
    match t.get? body with
    | some (.struct members) => do
      let found ← members.mapM fun m => do
        let location := owner ++ "." ++ m.name
        let tag ← readTag location m
        if m.embedded then
          let inner := t.underlying m.type
          if !t.isStruct inner then
            Noted.report (.plain .unsupportedEmbedding location ("`" ++ t.display m.type ++ "` is not a struct"))
            pure []
          else if inner ∈ body :: opened then
            Noted.report (.plain .unsupportedEmbedding location ("`" ++ t.display m.type ++ "` embeds itself"))
            pure []
          else
            if tag.isSome then Noted.report (.report .tagOnEmbeddedField location none none)
            Noted.tell (.flattened location)
            collectFrom t (body :: opened) (path ++ [m.name]) m.name inner
        else pure [⟨m.name, path, m.type, tag⟩]
      return found.flatten
    | _ => pure []
  else pure []
termination_by t.unseen opened
decreasing_by exact t.unseen_cons_lt _new.1 _new.2

/-- **The fields of a type** in declaration order; none if it is not a struct. -/
def collect (t : TypeTable) (owner : String) (type : TypeId) : Noted (List Field) :=
  collectFrom t [] [] owner (t.underlying type)

/-- Whether some field of the type has a tag that can be read. -/
def hasTagged (t : TypeTable) (owner : String) (type : TypeId) : Noted Bool := do
  let fields ← collect t owner type
  return fields.any fun f => f.tag.isSome

end Field
end BencodePlan
