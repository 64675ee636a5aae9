import BencodePlan.Source.Statement
import BencodePlan.Proofs.Encoding.Basic
/-!
# What the statements of an encoder do

A reading of generated statements over the values that plans are run on, without plans.  An expression comes to a value
or to a reference to one.  `self` and the variables of loops are references; a star needs a reference and an ampersand
makes one; a dot, an index or a method takes either.  Helpers that read are called with references, and a condition or a
flag is a value.

Dots and the like bind tighter than stars and ampersands.  An operand of a dot that begins with a star would be read
without it, so such an expression has no meaning, and neither has one that asks a value for what it is not: the program
is stuck.  The other way to stop is that of the generated code, a reference that is followed to a value that is absent.

The variable of a loop is bound in the body of that loop.
-/
namespace BencodePlan
namespace Source

inductive Stop
  /-- An optional value that is followed is absent, which the encoder reports. -/
  | absent
  /-- The program has no meaning. -/
  | stuck
  deriving DecidableEq, Repr

def need {α : Type} : Option α → Except Stop α
  | some a => .ok a
  | none => .error .stuck

/-! ## Expressions -/

/-- What is in scope; the innermost variable of a name comes first. -/
structure Scope where
  whole : Value
  elems : List (Nat × Value)
  keys : List (Nat × Bytes)

namespace Scope

def start (whole : Value) : Scope := ⟨whole, [], []⟩

def bindElem (depth : Nat) (σ : Scope) (v : Value) : Scope := { σ with elems := (depth, v) :: σ.elems }

def bindKey (depth : Nat) (σ : Scope) (k : Bytes) : Scope := { σ with keys := (depth, k) :: σ.keys }

end Scope

inductive Operand
  | value (v : Value)
  | reference (v : Value)

namespace Operand

def target : Operand → Value
  | value v | reference v => v

def value? : Operand → Option Value
  | value v => some v
  | reference _ => none

def referent? : Operand → Option Value
  | value _ => none
  | reference v => some v

end Operand

def fieldOf? (name : String) : Value → Option Value
  | .struct fields => fields.lookup name
  | _ => none

def secondsOf? : Value → Option Value
  | .duration seconds _ => some (.int seconds)
  | _ => none

def entryOf? (key : Bytes) : Value → Option Value
  | .map pairs => Value.valueAt? key pairs
  | _ => none

def present : Value → Except Stop Value
  | .null => .error .absent
  | v => .ok v

namespace Expr

/-- An expression that what may follow an operand would take only the end of. -/
def isPrefixed : Expr → Bool
  | star _ | borrow _ => true
  | _ => false

def operand (e : Expr) (o : Operand) : Option Value := if e.isPrefixed then none else some o.target

/-- **What an expression comes to.** -/
def eval (σ : Scope) : Expr → Except Stop Operand
  | self => return .reference σ.whole
  | elem depth => return .reference (← need (σ.elems.lookup depth))
  | key depth => return .reference (.string (← need (σ.keys.lookup depth)))
  | field base name => do
    let v ← need (base.operand (← base.eval σ))
    return .value (← need (fieldOf? name v))
  | seconds base => do
    let v ← need (base.operand (← base.eval σ))
    return .value (← need (secondsOf? v))
  | entry base depth => do
    let v ← need (base.operand (← base.eval σ))
    let k ← need (σ.keys.lookup depth)
    return .value (← need (entryOf? k v))
  | star e => do
    let o ← e.eval σ
    return .value (← need o.referent?)
  | follow e => do
    let o ← e.eval σ
    return .reference (← present (← need o.referent?))
  | borrow e => do
    let o ← e.eval σ
    return .reference (← need o.value?)
  | paren e => e.eval σ

def receive (σ : Scope) (e : Expr) : Except Stop Value := do need (e.operand (← e.eval σ))

def refer (σ : Scope) (e : Expr) : Except Stop Value := do need (← e.eval σ).referent?

def pass (σ : Scope) (e : Expr) : Except Stop Value := do need (← e.eval σ).value?

theorem eval_field (σ : Scope) (base : Expr) (name : String) : (field base name).eval σ = (do
    let v ← base.receive σ
    return .value (← need (fieldOf? name v))) := by
  simp only [eval, receive, bind_assoc]

theorem eval_seconds (σ : Scope) (base : Expr) : (seconds base).eval σ = (do
    let v ← base.receive σ
    return .value (← need (secondsOf? v))) := by
  simp only [eval, receive, bind_assoc]

theorem eval_entry (σ : Scope) (base : Expr) (depth : Nat) : (entry base depth).eval σ = (do
    let v ← base.receive σ
    let k ← need (σ.keys.lookup depth)
    return .value (← need (entryOf? k v))) := by
  simp only [eval, receive, bind_assoc]

theorem eval_follow (σ : Scope) (e : Expr) : (follow e).eval σ = (do
    let v ← e.refer σ
    return .reference (← present v)) := by
  simp only [eval, refer, bind_assoc]

end Expr

/-! ## Statements -/

def flag? : Value → Option Bool
  | .bool b => some b
  | _ => none

def number? : Value → Option Int
  | .int n => some n
  | _ => none

def text? : Value → Option Bytes
  | .string bytes => some bytes
  | _ => none

def native? : Value → Option Bytes
  | .native bytes => some bytes
  | _ => none

def isEmpty? : Value → Option Bool
  | .string bytes => some bytes.isEmpty
  | .list items => some items.isEmpty
  | .map pairs => some pairs.isEmpty
  | _ => none

def isSome : Value → Bool
  | .null => false
  | _ => true

def isZero? : Value → Option Bool
  | .duration seconds nanoseconds => some (seconds == 0 && nanoseconds == 0)
  | _ => none

def elements? : Value → Option (List Value)
  | .list items => some items
  | _ => none

def keys? : Value → Option (List Bytes)
  | .map pairs => Value.stringKeys? pairs
  | _ => none

/-- **Whether a condition holds.** -/
def Condition.eval (σ : Scope) : Condition → Except Stop Bool
  | notEmpty e => return !(← need (isEmpty? (← e.receive σ)))
  | isSome e => return Source.isSome (← e.receive σ)
  | holds e => do need (flag? (← e.pass σ))
  | notZero e => return (← need (number? (← e.pass σ))) != 0
  | someTime e => return !(← need (isZero? (← e.receive σ)))

structure Outcome where
  bytes : Bytes
  stop? : Option Stop
  deriving DecidableEq, Repr

namespace Outcome

def write (bytes : Bytes) : Outcome := ⟨bytes, none⟩

def andThen (a b : Outcome) : Outcome :=
  match a.stop? with
  | some _ => a
  | none => ⟨a.bytes ++ b.bytes, b.stop?⟩

/-- Nothing is written before what is asked for has been found. -/
def after {α : Type} (found : Except Stop α) (next : α → Outcome) : Outcome :=
  match found with
  | .ok a => next a
  | .error stop => ⟨[], some stop⟩

def each {α : Type} (body : α → Outcome) : List α → Outcome
  | [] => write []
  | a :: rest => (body a).andThen (each body rest)

end Outcome

namespace Statement

mutual
/-- **What a statement does.**  Another type for a key variable does not change the key. -/
def run (σ : Scope) : Statement → Outcome
  | writeBytes bytes => Outcome.write bytes
  | writeBool e => Outcome.after (e.pass σ >>= fun v => need (flag? v)) fun b => Outcome.write (Wire.bool b)
  | writeInt e => Outcome.after (e.refer σ >>= fun v => need (number? v)) fun n => Outcome.write (Wire.int n)
  | writeString e => Outcome.after (e.refer σ >>= fun v => need (text? v)) fun b => Outcome.write (Wire.string b)
  | writeNative e => Outcome.after (e.refer σ >>= fun v => need (native? v)) Outcome.write
  | forElem depth list body =>
    Outcome.after (list.receive σ >>= fun v => need (elements? v)) (Outcome.each fun v => runAll (σ.bindElem depth v) body)
  | forKey depth map _ body =>
    Outcome.after (map.receive σ >>= fun v => need (keys? v)) fun keys =>
      Outcome.each (fun k => runAll (σ.bindKey depth k) body) (Wire.sortedKeys keys)
  | ifThen condition body =>
    Outcome.after (condition.eval σ) fun holds => if holds then runAll σ body else Outcome.write []
termination_by structural s => s

/-- **Statements in order.** -/
def runAll (σ : Scope) : List Statement → Outcome
  | [] => Outcome.write []
  | s :: rest => (s.run σ).andThen (runAll σ rest)
termination_by structural ss => ss
end

end Statement

/-- **What the encoder of a plan does** with a value. -/
def encode (p : Plan) (v : Value) : Outcome := Statement.runAll (Scope.start v) (Statement.ofInstructions p.body)

end Source
end BencodePlan
