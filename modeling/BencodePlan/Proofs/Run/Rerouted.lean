import BencodePlan.Proofs.Run.Parallel
import BencodePlan.Proofs.Encoding.Plan
import BencodePlan.Proofs.Encoding.WellTyped
/-!
# Plans with other ways to the fields

Two plans that differ only in how they come to the fields of the value being encoded: one reads a field from that value, the
other from a struct further in.  Where each finds in its value what the other finds in the other, field by field, the two
runs write the same (`runAll_rerouted`).

What a plan asks of a selector is only that longer ones can be made of it; so the plan of a shape at another selector is the
same plan with that selector in the place of the first (`Shape.plan_parallel`).
-/
namespace BencodePlan

namespace Selector

/-- **A correspondence of selectors that longer ones inherit.** -/
structure Carries (Q : Selector → Selector → Prop) : Prop where
  field : ∀ {s s' : Selector} (name : String), Q s s' → Q (.field s name) (.field s' name)
  deref : ∀ {s s' : Selector}, Q s s' → Q (.deref s) (.deref s')
  seconds : ∀ {s s' : Selector}, Q s s' → Q (.seconds s) (.seconds s')
  elem : ∀ depth : Nat, Q (.elem depth) (.elem depth)
  key : ∀ depth : Nat, Q (.key depth) (.key depth)
  value : ∀ {s s' : Selector} (depth : Nat), Q s s' → Q (.value s depth) (.value s' depth)

theorem Carries.fields {Q : Selector → Selector → Prop} (hQ : Carries Q) : ∀ (names : List String) {s s' : Selector},
    Q s s' → Q (s.fields names) (s'.fields names)
  | [], _, _, h => h
  | name :: names, _, _, h => hQ.fields names (hQ.field name h)

/-- **A selector with other ways to the fields** of the value being encoded. -/
def through (way : String → List String) : Selector → Selector
  | root => root
  | field root name => fields root (way name ++ [name])
  | field base name => field (base.through way) name
  | deref base => deref (base.through way)
  | seconds base => seconds (base.through way)
  | elem depth => elem depth
  | key depth => key depth
  | value base depth => value (base.through way) depth

/-- **Selectors below the fields of the value being encoded**, where one begins with the name of a field and the other with
the way to it. -/
inductive Rerouted (way : String → List String) (names : List String) : Selector → Selector → Prop
  | start {name : String} : name ∈ names → Rerouted way names (field root name) (fields root (way name ++ [name]))
  | field {s s' : Selector} (name : String) : Rerouted way names s s' → Rerouted way names (field s name) (field s' name)
  | deref {s s' : Selector} : Rerouted way names s s' → Rerouted way names (deref s) (deref s')
  | seconds {s s' : Selector} : Rerouted way names s s' → Rerouted way names (seconds s) (seconds s')
  | elem (depth : Nat) : Rerouted way names (elem depth) (elem depth)
  | key (depth : Nat) : Rerouted way names (key depth) (key depth)
  | value {s s' : Selector} (depth : Nat) : Rerouted way names s s' →
    Rerouted way names (value s depth) (value s' depth)

variable {way : String → List String} {names : List String}

theorem carries_rerouted : Carries (Rerouted way names) :=
  ⟨.field, .deref, .seconds, .elem, .key, .value⟩

theorem isComputed_fields_append (base : Selector) (path : List String) (name : String) :
    (base.fields (path ++ [name])).isComputed = false := by
  rw [fields, List.foldl_append]
  rfl

namespace Rerouted

theorem isComputed {s s' : Selector} (h : Rerouted way names s s') : s.isComputed = s'.isComputed := by
  induction h with
  | start _ => exact (isComputed_fields_append ..).symm
  | deref _ ih => exact ih
  | _ => rfl

theorem eq_through {s s' : Selector} (h : Rerouted way names s s') : s' = s.through way := by
  induction h with
  | start _ => rfl
  | @field s s' name h ih =>
    rw [ih]
    cases h <;> rfl
  | deref _ ih => rw [ih, through]
  | seconds _ ih => rw [ih, through]
  | elem depth => rfl
  | key depth => rfl
  | value depth _ ih => rw [ih, through]

end Rerouted
end Selector

/-! ## Plans at selectors that correspond -/

namespace Instruction

mutual
def withSelectors (g : Selector → Selector) : Instruction → Instruction
  | literal bytes => literal bytes
  | bool s => bool (g s)
  | int s => int (g s)
  | string s => string (g s)
  | native s => native (g s)
  | list s depth body => list (g s) depth (withSelectorsAll g body)
  | map s depth cast body => map (g s) depth cast (withSelectorsAll g body)
  | when s test body => when (g s) test (withSelectorsAll g body)
termination_by structural i => i

def withSelectorsAll (g : Selector → Selector) : List Instruction → List Instruction
  | [] => []
  | i :: rest => withSelectors g i :: withSelectorsAll g rest
termination_by structural is => is
end

mutual
theorem Parallel.eq_withSelectors {Q : Selector → Selector → Prop} {g : Selector → Selector}
    (hg : ∀ s s', Q s s' → s' = g s) : ∀ (i : Instruction) {i' : Instruction}, i.Parallel Q i' → i' = withSelectors g i
  | .literal bytes, _, h => by
    cases h with
    | literal => rfl
  | .bool s, _, h => by
    cases h with
    | bool hq => rw [hg _ _ hq, withSelectors]
  | .int s, _, h => by
    cases h with
    | int hq => rw [hg _ _ hq, withSelectors]
  | .string s, _, h => by
    cases h with
    | string hq => rw [hg _ _ hq, withSelectors]
  | .native s, _, h => by
    cases h with
    | native hq => rw [hg _ _ hq, withSelectors]
  | .list s depth body, _, h => by
    cases h with
    | list hq hbody => rw [hg _ _ hq, withSelectors, parallelAll_eq_withSelectors hg body hbody]
  | .map s depth cast body, _, h => by
    cases h with
    | map hq hbody => rw [hg _ _ hq, withSelectors, parallelAll_eq_withSelectors hg body hbody]
  | .when s test body, _, h => by
    cases h with
    | when hq hbody => rw [hg _ _ hq, withSelectors, parallelAll_eq_withSelectors hg body hbody]
termination_by structural i => i

/-- **Parallel instructions are the same instructions with other selectors**, if the one selector decides the other. -/
theorem parallelAll_eq_withSelectors {Q : Selector → Selector → Prop} {g : Selector → Selector}
    (hg : ∀ s s', Q s s' → s' = g s) : ∀ (is : List Instruction) {is' : List Instruction},
    List.Forall₂ (Parallel Q) is is' → is' = withSelectorsAll g is
  | [], _, h => by
    cases h with
    | nil => rfl
  | i :: rest, _, h => by
    cases h with
    | cons hi hrest =>
      rw [withSelectorsAll, Parallel.eq_withSelectors hg i hi, parallelAll_eq_withSelectors hg rest hrest]
termination_by structural is => is
end

end Instruction

namespace Shape

open Instruction

variable {Q : Selector → Selector → Prop}

/-- **Fields that are written alike**: in the same shape, under the same key and test, from selectors that correspond. -/
structure SameField (Q : Selector → Selector → Prop) (source source' : Selector) (p q : Slot × Shape) : Prop where
  key : p.1.key = q.1.key
  test : p.1.test = q.1.test
  shape : p.2 = q.2
  selector : Q (p.1.selector source) (q.1.selector source')

theorem framed_parallel {opening : String} {is is' : List Instruction} (h : List.Forall₂ (Parallel Q) is is') :
    List.Forall₂ (Parallel Q) (.ascii opening :: is ++ [.ascii "e"]) (.ascii opening :: is' ++ [.ascii "e"]) :=
  .cons (.literal _) (List.rel_append h (.cons (.literal _) .nil))

theorem framedOne_parallel {opening : String} {i i' : Instruction} (h : i.Parallel Q i') :
    List.Forall₂ (Parallel Q) [.ascii opening, i, .ascii "e"] [.ascii opening, i', .ascii "e"] :=
  framed_parallel (.cons h .nil)

mutual
/-- **The plans of a shape at selectors that correspond are parallel.** -/
theorem plan_parallel (hQ : Selector.Carries Q) : ∀ (shape : Shape) {source source' : Selector} {depth : Nat},
    Q source source' → List.Forall₂ (Parallel Q) (shape.plan source depth) (shape.plan source' depth)
  | .native, _, _, _, h => .cons (.native h) .nil
  | .duration, _, _, _, h => framedOne_parallel (.int (hQ.seconds h))
  | .bool, _, _, _, h => framedOne_parallel (.bool h)
  | .int, _, _, _, h => framedOne_parallel (.int h)
  | .string, _, _, _, h => .cons (.string h) .nil
  | .optional inner, _, _, _, h => plan_parallel hQ inner (hQ.deref h)
  | .list element, _, _, depth, h => framedOne_parallel (.list h (plan_parallel hQ element (hQ.elem depth)))
  | .map _ key value, _, _, depth, h =>
    framedOne_parallel (.map h (List.rel_append (plan_parallel hQ key (hQ.key depth))
      (plan_parallel hQ value (hQ.value depth h))))
  | .struct fields, _, _, _, h =>
    framed_parallel (planFields_parallel hQ fields (List.forall₂_same.2 fun _ _ => ⟨rfl, rfl, rfl, hQ.fields _ h⟩))
termination_by structural s => s

theorem planFields_parallel (hQ : Selector.Carries Q) : ∀ (fields : List (Slot × Shape)) {fields' : List (Slot × Shape)}
    {source source' : Selector} {depth : Nat}, List.Forall₂ (SameField Q source source') fields fields' →
    List.Forall₂ (Parallel Q) (planFields source depth fields) (planFields source' depth fields')
  | [], _, _, _, _, h => by
    cases h with
    | nil => exact .nil
  | (slot, shape) :: rest, _, source, source', depth, h => by
    cases h with
    | @cons _ q _ rest' hfirst hrest =>
      obtain ⟨slot', shape'⟩ := q
      obtain ⟨hkey, htest, hshape, hselector⟩ := hfirst
      simp only at hkey htest hshape
      subst hshape
      have hwritten : List.Forall₂ (Parallel Q)
          (.literal (Wire.key slot.key) :: shape.plan (slot.selector source) depth)
          (.literal (Wire.key slot'.key) :: shape.plan (slot'.selector source') depth) := by
        rw [← hkey]
        exact .cons (.literal _) (plan_parallel hQ shape hselector)
      rw [planFields, planFields, ← htest]
      refine List.rel_append ?_ (planFields_parallel hQ rest hrest)
      cases slot.test with
      | none => exact hwritten
      | some test => exact .cons (.when hselector hwritten) .nil
termination_by structural fields => fields
end

end Shape

/-! ## Runs on a value and on another with the same fields -/

theorem finds_of_toOption {α : Type} {x y : Except RunError α} (h : x.toOption = y.toOption) :
    Finds (fun _ _ => True) Eq x y := by
  cases x with
  | ok a =>
    cases y with
    | ok b => exact .found (Option.some.inj h)
    | error e => cases h
  | error e =>
    cases y with
    | ok b => cases h
    | error e' => exact .failed trivial

namespace Selector

variable {way : String → List String} {names : List String} {flat nested : Value}

theorem Rerouted.addressed {s s' : Selector} (h : Rerouted way names s s') (v : Value) :
    Finds (fun _ _ => True) Eq (s.addressed v) (s'.addressed v) := by
  refine finds_of_toOption ?_
  unfold Selector.addressed
  rw [h.isComputed]
  cases s'.isComputed <;> rfl

/-- **Selectors that correspond find the same**, if they do for the fields they begin with. -/
theorem Rerouted.resolve {s s' : Selector} (h : Rerouted way names s s')
    (hfields : ∀ name ∈ names, Value.member? (some flat) name = Value.along (some nested) (way name ++ [name]))
    {σ σ' : State} (hσ : σ.Alike Eq σ') :
    Finds (fun _ _ => True) Eq (s.resolve flat σ) (s'.resolve nested σ') := by
  induction h with
  | @start name hname =>
    refine finds_of_toOption ?_
    rw [((Reads.root flat 0 σ).field name).here, ((Reads.root nested 0 σ').fields (way name ++ [name])).here]
    exact hfields name hname
  | @field s s' name h ih =>
    refine ih.bind fun v _ hv => hv ▸ (h.addressed v).bind fun v _ hv => hv ▸ finds_of_toOption ?_
    cases v with
    | struct fields =>
      rw [fieldOf, fieldOf]
      cases fields.lookup name <;> rfl
    | _ => rfl
  | deref _ ih =>
    refine ih.bind fun v _ hv => hv ▸ finds_of_toOption ?_
    cases v <;> rfl
  | seconds _ ih =>
    refine ih.bind fun v _ hv => hv ▸ finds_of_toOption ?_
    cases v <;> rfl
  | elem depth =>
    have hrel := hσ.lookup_elems depth
    rw [Selector.resolve, Selector.resolve]
    generalize σ.elems.lookup depth = found, σ'.elems.lookup depth = found' at hrel
    cases hrel with
    | none => exact .failed trivial
    | some hv => exact .found hv
  | key depth =>
    rw [Selector.resolve, Selector.resolve, keyAt, keyAt, hσ.keys]
    exact finds_of_toOption rfl
  | @value s s' depth h ih =>
    refine ih.bind fun v _ hv => hv ▸ (h.addressed v).bind fun v _ hv => hv ▸ finds_of_toOption ?_
    rw [keyAt, keyAt, hσ.keys]
    cases σ'.keys.lookup depth with
    | none => rfl
    | some k =>
      cases v with
      | map pairs =>
        change (s.entryOf depth k (.map pairs)).toOption = (s'.entryOf depth k (.map pairs)).toOption
        rw [entryOf, entryOf]
        cases Value.valueAt? k pairs <;> rfl
      | _ => rfl

end Selector

open Selector

variable {way : String → List String} {names : List String} {flat nested : Value}

theorem twins_of_rerouted
    (hfields : ∀ name ∈ names, Value.member? (some flat) name = Value.along (some nested) (way name ++ [name])) :
    Twins (fun _ _ => True) Eq (Rerouted way names) flat nested where
  full := trivial
  resolve := fun h hσ => h.resolve hfields hσ
  addressed := fun h hv => hv ▸ h.addressed _
  bool := fun {_ _ v _} _ hv => hv ▸ finds_of_toOption (by cases v <;> rfl)
  int := fun {_ _ v _} _ hv => hv ▸ finds_of_toOption (by cases v <;> rfl)
  string := fun {_ _ v _} _ hv => hv ▸ finds_of_toOption (by cases v <;> rfl)
  native := fun {_ _ v _} _ hv => hv ▸ finds_of_toOption (by cases v <;> rfl)
  elements := fun {_ _ v _} _ hv => hv ▸ by
    cases v <;> first | exact .failed trivial | exact .found (List.forall₂_refl _)
  keys := fun {s s' v _} _ hv => hv ▸ finds_of_toOption (by
    cases v with
    | map pairs =>
      rw [Instruction.sortedKeysOf, Instruction.sortedKeysOf, toOption_bind, toOption_bind,
        Instruction.toOption_keysOfPairs, Instruction.toOption_keysOfPairs]
    | _ => rfl)
  present := fun {s s' v _} test _ hv => hv ▸ finds_of_toOption (by
    rw [Instruction.toOption_isPresent, Instruction.toOption_isPresent])

/-- **Runs go together where the fields are the same**, whatever stands around them in the two values. -/
theorem Instruction.runAll_rerouted {is is' : List Instruction}
    (his : List.Forall₂ (Instruction.Parallel (Rerouted way names)) is is')
    (hfields : ∀ name ∈ names, Value.member? (some flat) name = Value.along (some nested) (way name ++ [name]))
    (room : Option Nat) :
    (runAll flat is (.start room)).bytes = (runAll nested is' (.start room)).bytes ∧
      ((runAll flat is (.start room)).error? = none ↔ (runAll nested is' (.start room)).error? = none) := by
  have halike := runAll_alike (twins_of_rerouted hfields) is his (State.alike_start Eq room)
  have herror := halike.error
  refine ⟨halike.bytes, ?_⟩
  generalize (runAll flat is (.start room)).error? = e, (runAll nested is' (.start room)).error? = e' at herror
  cases herror <;> simp

end BencodePlan
