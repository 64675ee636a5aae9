import BencodePlan.Proofs.Encoding.OfType
import BencodePlan.Proofs.Run.Scopes
/-!
# Compiled plans are well-scoped

The plan of a shape takes the number of loops around it as the depth of its own loops, and begins a level below at the
variable of the loop that it opens.  So its selectors read what the loops around bind, as long as the number fits the
sixteen bits that a depth has (`plan_scoped`).  A compiled plan is the plan of a shape, so no run of it, on a value of
whatever form, fails for want of a variable, a key, or a value to point to (`compiled_wellScoped`).
-/
namespace BencodePlan

namespace Selector

theorem isComputed_fields : ∀ (names : List String) {base : Selector}, base.isComputed = false →
    (base.fields names).isComputed = false
  | [], _, h => h
  | _ :: names, _, _ => isComputed_fields names rfl

theorem scopedIn_fields {around : List Loop} : ∀ (names : List String) {base : Selector}, base.isComputed = false →
    base.ScopedIn around → (base.fields names).ScopedIn around
  | [], _, _, h => h
  | _ :: names, _, hpart, h => scopedIn_fields names rfl ⟨hpart, h⟩

end Selector

namespace Shape

open Instruction

theorem depth_lt_of_cons {around : List Loop} {depth : Nat} (hdeep : ∀ l ∈ around, l.depth < depth) (l : Loop)
    (hl : l.depth = depth) : ∀ l' ∈ l :: around, l'.depth < depth + 1 := by
  intro l' hl'
  rcases List.mem_cons.1 hl' with heq | hl'
  · rw [heq, hl]
    exact Nat.lt_succ_self depth
  · exact Nat.lt_succ_of_lt (hdeep l' hl')

mutual
/-- **The plan of a shape is in scope** of loops that are less deep, at a selector in their scope. -/
theorem plan_scoped : ∀ (shape : Shape) (source : Selector) {depth : Nat} {around : List Loop}, source.isComputed = false →
    source.ScopedIn around → (∀ l ∈ around, l.depth < depth) → depth + nestingAll (shape.plan source depth) < 65536 →
    ScopedAll around (shape.plan source depth)
  | .native, _, _, _, _, hs, _, _ | .string, _, _, _, _, hs, _, _ => ⟨hs, trivial⟩
  | .duration, _, _, _, _, hs, _, _ | .bool, _, _, _, _, hs, _, _ | .int, _, _, _, _, hs, _, _ =>
    ⟨trivial, hs, trivial, trivial⟩
  | .optional inner, source, _, _, hpart, hs, hdeep, hn => plan_scoped inner (.deref source) hpart hs hdeep hn
  | .list element, source, depth, around, hpart, hs, hdeep, hn => by
    rw [plan] at hn ⊢
    simp only [nestingAll, nesting, ascii, Nat.zero_max, Nat.max_zero] at hn
    have hdepth := deeper_eq hn
    rw [hdepth] at hn ⊢
    -- the body begins at the variable that the loop binds
    have hinner := plan_scoped element (.elem depth) rfl List.mem_cons_self
      (depth_lt_of_cons hdeep (.elements depth) rfl) (by omega)
    exact ⟨trivial, ⟨hpart, hs, hdeep, hinner⟩, trivial, trivial⟩
  | .map cast key value, source, depth, around, hpart, hs, hdeep, hn => by
    rw [plan] at hn ⊢
    simp only [nestingAll, nesting, ascii, Nat.zero_max, Nat.max_zero, nestingAll_append] at hn
    have hdepth := deeper_eq hn
    rw [hdepth] at hn ⊢
    have hdeep' := depth_lt_of_cons hdeep (.entries source depth) rfl
    have hkey := plan_scoped key (.key depth) rfl ⟨source, List.mem_cons_self⟩ hdeep' (by omega)
    have hvalue := plan_scoped value (.value source depth) rfl ⟨List.mem_cons_self, hpart, .cons _ _ hs⟩ hdeep'
      (by omega)
    exact ⟨trivial, ⟨hpart, hs, hdeep, scopedAll_append.2 ⟨hkey, hvalue⟩⟩, trivial, trivial⟩
  | .struct fields, source, depth, around, hpart, hs, hdeep, hn => by
    rw [plan] at hn ⊢
    simp only [nestingAll, nesting, ascii, Nat.zero_max, Nat.max_zero, nestingAll_append, List.cons_append] at hn
    exact ⟨trivial, scopedAll_append.2 ⟨planFields_scoped fields hpart hs hdeep hn, trivial, trivial⟩⟩
termination_by structural shape => shape

theorem planFields_scoped : ∀ (fields : List (Slot × Shape)) {source : Selector} {depth : Nat} {around : List Loop},
    source.isComputed = false → source.ScopedIn around → (∀ l ∈ around, l.depth < depth) →
    depth + nestingAll (planFields source depth fields) < 65536 → ScopedAll around (planFields source depth fields)
  | [], _, _, _, _, _, _, _ => trivial
  | (slot, shape) :: rest, source, depth, around, hpart, hs, hdeep, hn => by
    have hpart' := Selector.isComputed_fields (slot.path ++ [slot.name]) hpart
    have hs' := Selector.scopedIn_fields (slot.path ++ [slot.name]) hpart hs
    rw [planFields] at hn ⊢
    simp only [nestingAll_append] at hn
    refine scopedAll_append.2 ⟨?_, planFields_scoped rest hpart hs hdeep (by omega)⟩
    cases htest : slot.test with
    | none =>
      simp only [htest, nestingAll, nesting, Nat.zero_max] at hn
      exact ⟨trivial, plan_scoped shape _ hpart' hs' hdeep (by omega)⟩
    | some test =>
      simp only [htest, nestingAll, nesting, Nat.zero_max, Nat.max_zero] at hn
      exact ⟨⟨hs', trivial, plan_scoped shape _ hpart' hs' hdeep (by omega)⟩, trivial⟩
termination_by structural fields => fields
end

end Shape

namespace Schema

open TypeTable Compile

/-- **Compiled plans are well-scoped**, folded or not, and no value makes a run of them fail through the fault of the
plan. -/
theorem compiled_wellScoped {raw : RawSchema} {s : Schema} (hs : (ofRaw raw).value = .ok s) {name : String} {id : TypeId}
    (hid : id < s.table.size) {p : Plan} (hp : result (s.table.compile name id) = .ok p) (hn : p.nesting < 65536) :
    p.WellScoped ∧ p.folded.WellScoped ∧ ∀ (v : Value) (room : Option Nat) (e : RunError),
      (p.run v room).error? = some e ∨ (p.folded.run v room).error? = some e → e.isMisplaced = false := by
  obtain ⟨shape, -, hbody⟩ := exists_shapes_of_compile (sound_of_ofRaw hs) hid hp
  have hscoped : p.WellScoped := by
    unfold Plan.nesting at hn
    unfold Plan.WellScoped
    rw [hbody] at hn ⊢
    exact Shape.plan_scoped shape .root rfl trivial (fun _ hl => nomatch hl) (by rw [Nat.zero_add]; exact hn)
  refine ⟨hscoped, hscoped.folded, fun v room e he => he.elim ?_ ?_⟩
  · exact hscoped.not_misplaced v room e
  · exact hscoped.folded.not_misplaced v room e

def gridDocument : RawSchema := ⟨none, [⟨"Grid", none, some "Map<str, Map<str, Vec<i64>>>", false⟩]⟩

def gridTable : TypeTable :=
  ⟨[.named ⟨"Grid", some 5⟩, .scalar .str, .scalar (.int .i64), .sequence 2 .slice, .mapping 1 3, .mapping 1 4],
    [(.scalar .str, 1), (.scalar (.int .i64), 2), (.sequence 2 .slice, 3), (.mapping 1 3, 4), (.mapping 1 4, 5)],
    [("Grid", 0)]⟩

def gridPlan : Plan :=
  ⟨"Grid", [.ascii "d", .map .root 0 none [.string (.key 0), .ascii "d",
    .map (.value .root 0) 1 none [.string (.key 1), .ascii "l",
      .list (.value (.value .root 0) 1) 2 [.ascii "i", .int (.elem 2), .ascii "e"], .ascii "e"], .ascii "e"], .ascii "e"]⟩

def brokenGrid : Value := .map [(.string [97], .map [(.string [98], .int 5)])]

theorem grid_wellScoped : (ofRaw gridDocument).value = .ok ⟨none, gridTable⟩ ∧ gridPlan.WellScoped ∧
    ∃ e, (gridPlan.run brokenGrid none).error? = some e ∧ e.isMisplaced = false := by
  have hs : (ofRaw gridDocument).value = .ok ⟨none, gridTable⟩ := ofRaw_eq_ok (by decide +kernel)
  have hp : result (gridTable.compile "Grid" 0) = .ok gridPlan := by cbv
  have hrun : (gridPlan.run brokenGrid none).error? = some (.typeMismatch "x[k0][k1]" "list" "int") := by decide +kernel
  obtain ⟨hscoped, -, herror⟩ := compiled_wellScoped hs (by decide) hp (by decide)
  exact ⟨hs, hscoped, _, hrun, herror brokenGrid none _ (Or.inl hrun)⟩

end Schema
end BencodePlan
