import BencodePlan.Run.Value
import BencodePlan.Plan.Instruction
/-!
# Running a plan

A plan is run against a value.  Each instruction writes bytes or fails, and what has been written before a failure stays
written.

Two things change while a plan runs.  Loops bind their variables, one element and one key for each depth; a loop that
ends leaves its variable unbound, whatever it was bound to before.  And where the output is a buffer of limited size, the
room in it shrinks; bytes that do not fit are written as far as they do, and the run fails.
-/
namespace BencodePlan

/-- Why a run fails: plan and value disagree, or the output is full. -/
inductive RunError
  | typeMismatch (selector expected found : String)
  | missingField (selector field : String)
  | nilDereference (selector : String)
  | unboundVariable (name : String)
  | missingKey (selector : String)
  | outputFull
  deriving DecidableEq, Repr

namespace RunError

def message : RunError → String
  | typeMismatch s expected found => "`" ++ s ++ "`: expected " ++ expected ++ ", found " ++ found
  | missingField s field => "`" ++ s ++ "`: no field `" ++ field ++ "`"
  | nilDereference s => "`" ++ s ++ "`: cannot encode an absent value"
  | unboundVariable name => "loop variable `" ++ name ++ "` is not bound"
  | missingKey s => "`" ++ s ++ "`: key is not in the map"
  | outputFull => "failed to write whole buffer"

def mismatch (s : Selector) (expected : String) (found : Value) : RunError :=
  typeMismatch s.display expected found.kind

end RunError

/-! ## Loop variables -/

/-- What the variables of each depth are bound to. -/
abbrev Slots (α : Type) := List (Nat × α)

namespace Slots

variable {α : Type}

def unbind (s : Slots α) (depth : Nat) : Slots α := s.filter fun p => p.1 ≠ depth

def bind (s : Slots α) (depth : Nat) (a : α) : Slots α := (depth, a) :: s.unbind depth

end Slots

/-- The variables of a run, and the room that is left in the output, if that is limited. -/
structure State where
  elems : Slots Value
  keys : Slots Bytes
  room : Option Nat
  deriving Repr

namespace State

def start (room : Option Nat) : State := ⟨[], [], room⟩

def bindElem (depth : Nat) (s : State) (v : Value) : State := { s with elems := s.elems.bind depth v }

def bindKey (depth : Nat) (s : State) (k : Bytes) : State := { s with keys := s.keys.bind depth k }

def unbindElem (depth : Nat) (s : State) : State := { s with elems := s.elems.unbind depth }

def unbindKey (depth : Nat) (s : State) : State := { s with keys := s.keys.unbind depth }

end State

/-! ## Selectors -/

namespace Selector

/-- The value found at a selector must be part of the value being encoded. -/
def addressed (s : Selector) (v : Value) : Except RunError Value :=
  if s.isComputed then .error (.mismatch s "addressable value" v) else .ok v

def fieldOf (base : Selector) (name : String) : Value → Except RunError Value
  | .struct fields =>
    match fields.lookup name with
    | some v => .ok v
    | none => .error (.missingField base.display name)
  | other => .error (.mismatch base "struct" other)

/-- The entry of the value found at `base` under the key at hand. -/
def entryOf (base : Selector) (depth : Nat) (key : Bytes) : Value → Except RunError Value
  | .map pairs =>
    match Value.valueAt? key pairs with
    | some v => .ok v
    | none => .error (.missingKey (Selector.value base depth).display)
  | other => .error (.mismatch base "map" other)

def keyAt (state : State) (depth : Nat) : Except RunError Bytes :=
  match state.keys.lookup depth with
  | some k => .ok k
  | none => .error (.unboundVariable (keyName depth))

/-- **The value at a selector.** -/
def resolve (whole : Value) (state : State) : Selector → Except RunError Value
  | root => .ok whole
  | field base name => do
    let v ← base.addressed (← base.resolve whole state)
    base.fieldOf name v
  | deref base => do
    match ← base.resolve whole state with
    | .null => .error (.nilDereference base.display)
    | v => .ok v
  | seconds base => do
    match ← base.resolve whole state with
    | .duration s _ => .ok (.int s)
    | other => .error (.mismatch base "duration" other)
  | elem depth =>
    match state.elems.lookup depth with
    | some v => .ok v
    | none => .error (.unboundVariable (elemName depth))
  | key depth => do return .string (← keyAt state depth)
  | value base depth => do
    let v ← base.addressed (← base.resolve whole state)
    base.entryOf depth (← keyAt state depth) v

/-- The value at a selector, which must be part of the value being encoded. -/
def resolveAddressed (whole : Value) (state : State) (s : Selector) : Except RunError Value := do
  s.addressed (← s.resolve whole state)

end Selector

namespace EmptinessTest

/-- Whether a value found at a selector is to be written. -/
def isPresent (source : Selector) : EmptinessTest → Value → Except RunError Bool
  | len, .string bytes => .ok !bytes.isEmpty
  | len, .list items => .ok !items.isEmpty
  | len, .map pairs => .ok !pairs.isEmpty
  | len, other => .error (.mismatch source "sized value" other)
  | nil, .null => .ok Bool.false
  | nil, _ => .ok true
  | .false, .bool b => .ok b
  | .false, other => .error (.mismatch source "bool" other)
  | zero, .int n => .ok (n != 0)
  | zero, other => .error (.mismatch source "number" other)
  | zeroDuration, .duration s n => .ok (s != 0 || n != 0)
  | zeroDuration, other => .error (.mismatch source "duration" other)

end EmptinessTest

/-! ## Instructions -/

/-- What a part of a run wrote, where it left the state, and whether it failed. -/
structure Step where
  bytes : Bytes
  state : State
  error? : Option RunError
  deriving Repr

namespace Step

def done (s : State) : Step := ⟨[], s, none⟩

def fail (s : State) (e : RunError) : Step := ⟨[], s, some e⟩

def andThen (a : Step) (next : State → Step) : Step :=
  match a.error? with
  | some _ => a
  | none =>
    let b := next a.state
    ⟨a.bytes ++ b.bytes, b.state, b.error?⟩

def withValue {α : Type} (s : State) (found : Except RunError α) (next : α → Step) : Step :=
  match found with
  | .ok a => next a
  | .error e => fail s e

/-- **Write bytes**, as far as there is room. -/
def write (bytes : Bytes) (s : State) : Step :=
  match s.room with
  | none => ⟨bytes, s, none⟩
  | some n =>
    if bytes.length ≤ n then ⟨bytes, { s with room := some (n - bytes.length) }, none⟩
    else ⟨bytes.take n, { s with room := some 0 }, some .outputFull⟩

def each {α : Type} (body : α → State → Step) : List α → State → Step
  | [], s => done s
  | a :: rest, s => (body a s).andThen (each body rest)

end Step

namespace Instruction

/-- What a value found at a selector writes, by what the instruction asks for. -/
def boolBytes (source : Selector) : Value → Except RunError Bytes
  | .bool b => .ok (Wire.bool b)
  | other => .error (.mismatch source "bool" other)

def intBytes (source : Selector) : Value → Except RunError Bytes
  | .int n => .ok (Wire.int n)
  | other => .error (.mismatch source "int" other)

def stringBytes (source : Selector) : Value → Except RunError Bytes
  | .string bytes => .ok (Wire.string bytes)
  | other => .error (.mismatch source "string" other)

def nativeBytes (source : Selector) : Value → Except RunError Bytes
  | .native bytes => .ok bytes
  | other => .error (.mismatch source "native" other)

def elementsOf (source : Selector) : Value → Except RunError (List Value)
  | .list items => .ok items
  | other => .error (.mismatch source "list" other)

/-- The keys of pairs, all of which must be strings. -/
def keysOfPairs (source : Selector) : List (Value × Value) → Except RunError (List Bytes)
  | [] => .ok []
  | (.string k, _) :: rest => do return k :: (← keysOfPairs source rest)
  | (other, _) :: _ => .error (.mismatch source "string key" other)

/-- The keys of a map in the order in which they are written. -/
def sortedKeysOf (source : Selector) : Value → Except RunError (List Bytes)
  | .map pairs => do return Wire.sortedKeys (← keysOfPairs source pairs)
  | other => .error (.mismatch source "map" other)

mutual
/-- **One instruction.** -/
def run (whole : Value) : Instruction → State → Step
  | literal bytes, s => Step.write bytes s
  | bool source, s => Step.withValue s (source.resolve whole s >>= boolBytes source) fun b => Step.write b s
  | int source, s => Step.withValue s (source.resolve whole s >>= intBytes source) fun b => Step.write b s
  | string source, s => Step.withValue s (source.resolve whole s >>= stringBytes source) fun b => Step.write b s
  | native source, s => Step.withValue s (source.resolve whole s >>= nativeBytes source) fun b => Step.write b s
  | list source depth body, s =>
    Step.withValue s (source.resolveAddressed whole s >>= elementsOf source) fun items =>
      (Step.each (fun v s => runAll whole body (s.bindElem depth v)) items s).andThen fun s =>
        Step.done (s.unbindElem depth)
  | map source depth _ body, s =>
    Step.withValue s (source.resolveAddressed whole s >>= sortedKeysOf source) fun keys =>
      (Step.each (fun k s => runAll whole body (s.bindKey depth k)) keys s).andThen fun s =>
        Step.done (s.unbindKey depth)
  | when source test body, s =>
    Step.withValue s (source.resolve whole s >>= test.isPresent source) fun present =>
      if present then runAll whole body s else Step.done s
termination_by structural i => i

/-- **Instructions in order.** -/
def runAll (whole : Value) : List Instruction → State → Step
  | [], s => Step.done s
  | i :: rest, s => (i.run whole s).andThen (runAll whole rest)
termination_by structural is => is
end

end Instruction

namespace Plan

/-- **Run a plan** against a value, into an output of unlimited or of limited size. -/
def run (p : Plan) (v : Value) (room : Option Nat) : Step :=
  Instruction.runAll v p.body (State.start room)

end Plan
end BencodePlan
