import BencodePlan.Schema.Raw
import BencodePlan.Types.Display
import BencodePlan.Types.Parser
import BencodePlan.Notice
/-!
# From documents to type tables

Every name is declared first; then each declaration is given its body, whose type expressions are read and whose names
are looked up; last, chains of declarations that lead back to themselves are reported.  Each fault is reported where it
is found and the rest goes on, so that a document with several has them all reported.

A document without errors is a `Schema`: a module and a table.
-/
namespace BencodePlan

structure Schema where
  module : Option String
  table : TypeTable
  deriving DecidableEq, Repr

abbrev Lower := StateT TypeTable Noted

namespace Lower

def report (d : Diagnostic) : Lower Unit := StateT.lift (Noted.report d)

def intern (d : TypeDesc) : Lower TypeId := fun t => pure (t.intern d)

def reserved : List String := ["duration", "Option", "Vec", "Map"]

/-- **Names that a type may be declared under.** -/
def isTypeName (name : String) : Bool :=
  Text.isIdentifier name && !reserved.contains name && (ScalarKind.ofName? name).isNone

/-! ## Type expressions -/

/-- The type that an expression stands for.  Both sides of a map are looked up, so that each unknown name is reported. -/
def resolve (location source : String) : TypeExpr → Lower (Option TypeId)
  | .scalar kind => some <$> intern (.scalar kind)
  | .duration => some <$> intern .duration
  | .option inner => do
    match ← resolve location source inner with
    | some id => some <$> intern (.pointer id)
    | none => pure none
  | .vec element => do
    match ← resolve location source element with
    | some id => some <$> intern (.sequence id .slice)
    | none => pure none
  | .array element length => do
    match ← resolve location source element with
    | some id => some <$> intern (.sequence id (.array length))
    | none => pure none
  | .map key value => do
    let k ← resolve location source key
    let v ← resolve location source value
    match k, v with
    | some k, some v => some <$> intern (.mapping k v)
    | _, _ => pure none
  | .named name span => do
    match (← get).lookup name with
    | some id => pure (some id)
    | none =>
      report (.pointing .unknownType location name source span "not declared")
      pure none

def resolveText (location source : String) : Lower (Option TypeId) :=
  match TypeExpr.parse source with
  | .ok e => resolve location source e
  | .error e => do
    report (.pointing .malformedTypeExpr location e.fault.message source e.span "here")
    pure none

/-! ## Bodies -/

/-- One member of a struct; the names before it are `seen`.  A member that is at fault is left out. -/
def lowerMember (owner : String) (seen : List String) (field : RawField) : Lower (Option Member) :=
  if !Text.isIdentifier field.name then do
    report (.plain .invalidName owner field.name)
    pure none
  else if field.name ∈ seen then do
    report (.plain .duplicateField owner field.name)
    pure none
  else do
    match ← resolveText (owner ++ "." ++ field.name) field.type with
    | some id => pure (some ⟨field.name, id, field.tag, field.embedded⟩)
    | none => pure none

/-- The members of a struct, each as it came out. -/
def lowerMembers (owner : String) : List String → List RawField → Lower (List (Option Member))
  | _, [] => pure []
  | seen, field :: rest => do
    let m ← lowerMember owner seen field
    let seen := if Text.isIdentifier field.name then field.name :: seen else seen
    return m :: (← lowerMembers owner seen rest)

/-- A struct body, if none of its members is at fault. -/
def lowerStruct (owner : String) (fields : List RawField) : Lower (Option TypeId) := do
  let members ← lowerMembers owner [] fields
  match members.mapM id with
  | some members => some <$> intern (.struct members)
  | none => pure none

/-- The body of a declaration.  A native type may do without. -/
def lowerBody (decl : RawDecl) : Lower (Option TypeId) :=
  match decl.fields, decl.body with
  | some _, some _ => do
    report (.plain .invalidDeclaration decl.name "has both a struct body and a type expression")
    pure none
  | some fields, none => lowerStruct decl.name fields
  | none, some source => resolveText decl.name source
  | none, none =>
    if decl.native then pure none
    else do
      report (.plain .invalidDeclaration decl.name "needs a struct body or a type expression")
      pure none

/-! ## Declarations -/

/-- Enter a declaration under its name, if it may be. -/
def declare (decl : RawDecl) : Lower (Option TypeId) := do
  if !isTypeName decl.name then
    report (.plain .invalidName "schema" decl.name)
    pure none
  else
    match (← get).declare decl.name decl.native with
    | some (id, t) =>
      set t
      pure (some id)
    | none =>
      report (.plain .duplicateType "schema" decl.name)
      pure none

/-- Enter all declarations; those that were entered, with their places. -/
def declareAll : List RawDecl → Lower (List (RawDecl × TypeId))
  | [] => pure []
  | decl :: rest => do
    let id? ← declare decl
    let more ← declareAll rest
    return match id? with
      | some id => (decl, id) :: more
      | none => more

def define (decl : RawDecl) (id : TypeId) : Lower Unit := do
  match ← lowerBody decl with
  | some body => modify fun t => (t.define id body).2
  | none => pure ()

/-- The chain of declarations from a type back to itself; `chain` is the part walked so far, in reverse.  A chain that
runs into a circle further on has none. -/
def cycleFrom (t : TypeTable) (start : TypeId) (chain : List TypeId) (current : TypeId) : Option (List TypeId) :=
  match (t.declared? current).bind Declared.body with
  | none => none
  | some body =>
    if (t.declared? body).isNone then none
    else if body = start then some chain.reverse
    else if _new : body < t.size ∧ body ∉ chain then cycleFrom t start (body :: chain) body
    else none
termination_by t.unseen chain
decreasing_by exact t.unseen_cons_lt _new.1 _new.2

/-- Report a declaration whose chain leads back to it. -/
def checkCycle (decl : RawDecl) (id : TypeId) : Lower Unit := do
  let t ← get
  match cycleFrom t id [id] id with
  | some chain =>
    let names := chain.filterMap t.nameOf ++ [decl.name]
    report (.plain .aliasCycle decl.name (String.intercalate " -> " names))
  | none => pure ()

/-- **Lower a document** into an empty table. -/
def lowerAll (raw : RawSchema) : Lower Unit := do
  let declared ← declareAll raw.types
  declared.forM fun (decl, id) => define decl id
  declared.forM fun (decl, id) => checkCycle decl id

end Lower

namespace Schema

/-- **The schema of a document**, or what is wrong with it. -/
def ofRaw (raw : RawSchema) : Noted (Except Diagnostics Schema) :=
  let lowered := (Lower.lowerAll raw).run TypeTable.empty
  let t := lowered.value.2
  if lowered.diagnostics.hasErrors then ⟨lowered.notices, .error lowered.diagnostics⟩
  else ⟨lowered.notices ++ [.lowered raw.types.length t.size], .ok ⟨raw.module, t⟩⟩

inductive Error
  | notJson (message : String)
  | unsound (diagnostics : Diagnostics)

def Error.message : Error → String
  | .notJson message => "schema is not valid JSON: " ++ message
  | .unsound ds => "schema lowering failed with " ++ Text.decimalText ds.errorCount ++ " errors"

def Error.rendered (render : Diagnostics → String) : Error → String
  | .notJson message => "error: " ++ (Error.notJson message).message ++ "\n"
  | .unsound ds => render ds

/-- **Read and lower a schema document.** -/
def parse (text : String) : Noted (Except Error Schema) :=
  match RawSchema.parse text with
  | .error message => ⟨[], .error (.notJson message)⟩
  | .ok raw =>
    let lowered := ofRaw raw
    match lowered.value with
    | .ok s => ⟨lowered.notices, .ok s⟩
    | .error ds => ⟨lowered.notices, .error (.unsound ds)⟩

end Schema
end BencodePlan
