import BencodePlan.Diagnostic.Basic
import BencodePlan.Text.Decimal
/-!
# What is told along the way

Each stage from a schema to its plans has a result, and tells what it did: every report, also those that repeat an
earlier one, and the steps that a verbose run shows.  `Noted` pairs a result with what was told before it.  What is told
never decides a result, so the results of stages put together are those of the stages.
-/
namespace BencodePlan

/-- How much a run must be asked to tell before it tells something. -/
inductive Level
  | info
  | debug
  | trace
  deriving DecidableEq, Repr

inductive Notice
  | reported (d : Diagnostic)
  | lowered (declarations descriptors : Nat)
  | flattened (location : String)
  | nativeFound (type : String)
  | nativeSkipped (name : String)
  | generating (name : String)
  | nothingSelected
  | failed (name reason : String)
  deriving DecidableEq, Repr

namespace Notice

def level : Notice → Level
  | nothingSelected => .info
  | flattened _ => .trace
  | reported _ | lowered _ _ | nativeFound _ | nativeSkipped _ | generating _ | failed _ _ => .debug

def text : Notice → String
  | reported d => d.display
  | lowered declarations descriptors =>
    "lowered " ++ Text.decimalText declarations ++ " declared types into " ++ Text.decimalText descriptors ++
      " descriptors"
  | flattened location => "flattening embedded member " ++ location
  | nativeFound type => "found native support in " ++ type
  | nativeSkipped name => "skipping " ++ name ++ ": it has a native encoder"
  | generating name => "generating implementation for " ++ name
  | nothingSelected => "no types selected for generation"
  | failed name reason => name ++ ": " ++ reason

def report? : Notice → Option Diagnostic
  | reported d => some d
  | _ => none

end Notice

/-- A result, and what was told on the way to it. -/
structure Noted (α : Type) where
  notices : List Notice
  value : α
  deriving Repr

namespace Noted

instance : Monad Noted where
  pure a := ⟨[], a⟩
  bind x f := ⟨x.notices ++ (f x.value).notices, (f x.value).value⟩

@[simp] theorem value_pure {α : Type} (a : α) : (pure a : Noted α).value = a := rfl

@[simp] theorem notices_pure {α : Type} (a : α) : (pure a : Noted α).notices = [] := rfl

@[simp] theorem value_bind {α β : Type} (x : Noted α) (f : α → Noted β) : (x >>= f).value = (f x.value).value := rfl

@[simp] theorem notices_bind {α β : Type} (x : Noted α) (f : α → Noted β) :
    (x >>= f).notices = x.notices ++ (f x.value).notices := rfl

instance : LawfulMonad Noted := LawfulMonad.mk' Noted
  (fun x => by simp only [Functor.map, Function.comp_def, List.append_nil, id_eq])
  (fun _ _ => rfl)
  (fun _ _ _ => by simp only [bind, List.append_assoc])

def tell (n : Notice) : Noted Unit := ⟨[n], ()⟩

def report (d : Diagnostic) : Noted Unit := tell (.reported d)

def reports {α : Type} (x : Noted α) : List Diagnostic := x.notices.filterMap Notice.report?

/-- **What the reports come to.** -/
def diagnostics {α : Type} (x : Noted α) : Diagnostics := Diagnostics.ofReports x.reports

end Noted
end BencodePlan
