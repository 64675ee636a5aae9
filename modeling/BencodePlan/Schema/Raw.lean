import BencodePlan.Json.Record
import BencodePlan.Wire
/-!
# Schema documents

A schema as it is written: a module and declarations, each with a struct body or a type expression, with nothing checked
but the shape.
-/
namespace BencodePlan

/-- A member as written.  Its type is the text of a type expression. -/
structure RawField where
  name : String
  type : String
  tag : Option String
  embedded : Bool
  deriving DecidableEq, Repr

/-- A declaration as written.  A native type writes its own encoding. -/
structure RawDecl where
  name : String
  fields : Option (List RawField)
  body : Option String
  native : Bool
  deriving DecidableEq, Repr

structure RawSchema where
  module : Option String
  types : List RawDecl
  deriving DecidableEq, Repr

namespace RawSchema

def find? (s : RawSchema) (name : String) : Option RawDecl :=
  s.types.find? fun d => d.name = name

end RawSchema

namespace RawField

def format : Json.Format RawField where
  title := "struct RawField"
  blank := ⟨"", "", none, false⟩
  fields := [
    ⟨"name", true, true, fun f c => do
      let (name, c) ← Json.readText c
      return ({ f with name }, c)⟩,
    ⟨"type", true, true, fun f c => do
      let (type, c) ← Json.readText c
      return ({ f with type }, c)⟩,
    ⟨"tag", false, false, fun f c => do
      let (tag, c) ← Json.readOptional Json.readText c
      return ({ f with tag }, c)⟩,
    ⟨"embedded", false, false, fun f c => do
      let (embedded, c) ← Json.readBool c
      return ({ f with embedded }, c)⟩]

end RawField

namespace RawDecl

def format : Json.Format RawDecl where
  title := "struct RawTypeDecl"
  blank := ⟨"", none, none, false⟩
  fields := [
    ⟨"name", true, true, fun d c => do
      let (name, c) ← Json.readText c
      return ({ d with name }, c)⟩,
    ⟨"struct", false, true, fun d c => do
      let (fields, c) ← Json.readOptional (Json.readList RawField.format.read) c
      return ({ d with fields }, c)⟩,
    ⟨"type", false, true, fun d c => do
      let (body, c) ← Json.readOptional Json.readText c
      return ({ d with body }, c)⟩,
    ⟨"native", false, false, fun d c => do
      let (native, c) ← Json.readBool c
      return ({ d with native }, c)⟩]

end RawDecl

namespace RawSchema

def format : Json.Format RawSchema where
  title := "struct RawSchema"
  blank := ⟨none, []⟩
  fields := [
    ⟨"module", false, false, fun s c => do
      let (module, c) ← Json.readOptional Json.readText c
      return ({ s with module }, c)⟩,
    ⟨"types", false, false, fun s c => do
      let (types, c) ← Json.readList RawDecl.format.read c
      return ({ s with types }, c)⟩]

/-- **Read a schema document**, or say why it is none. -/
def parse (text : String) : Except String RawSchema :=
  match Json.readDocument format.read text with
  | .ok s => .ok s
  | .error stop => .error (stop.message (Wire.utf8 text))

end RawSchema
end BencodePlan
