import BencodePlan.Plan.Fold
import Mathlib.Data.List.Chain
/-!
# The normal form of a list of instructions

Where the bytes of literals are cut into pieces is of no account.  A list of instructions is normal if, at every depth, no
literal in it is empty and no two stand side by side; it is split if every literal is a single byte.  Each list has one
normal form among the lists that split as it does, and `fold` finds it (`fold_finds_normal_form`).

Splitting literals and leaving them out are one operation, `expand`: other instructions are put in the place of each
literal.  An expansion that adds up does not see folding (`expand_fold`), and folding does not see an expansion into
literals with the same bytes (`fold_expand`).
-/
namespace BencodePlan
namespace Instruction

theorem literal_or_not (i : Instruction) : (∃ bytes, i = literal bytes) ∨ i.isLiteral = false := by
  cases i with
  | literal bytes => exact .inl ⟨bytes, rfl⟩
  | _ => exact .inr rfl

/-! ## Folding, step by step -/

theorem isLiteral_foldedBody (i : Instruction) : i.foldedBody.isLiteral = i.isLiteral := by
  cases i <;> rfl

theorem fold_literal (bytes : Bytes) (is : List Instruction) :
    fold (literal bytes :: is) = writeBefore bytes (fold is) := rfl

theorem fold_cons {i : Instruction} (hi : i.isLiteral = false) (is : List Instruction) :
    fold (i :: is) = i.foldedBody :: fold is := by
  cases i with
  | literal bytes => cases hi
  | _ => rfl

/-- **What writing before instructions comes to**: nothing to write, a literal that grows, or a new one. -/
theorem writeBefore_cases (bytes : Bytes) (is : List Instruction) :
    (bytes = [] ∧ writeBefore bytes is = is) ∨
    (∃ more rest, bytes ≠ [] ∧ is = literal more :: rest ∧ writeBefore bytes is = literal (bytes ++ more) :: rest) ∨
    (bytes ≠ [] ∧ (∀ j ∈ is.head?, j.isLiteral = false) ∧ writeBefore bytes is = literal bytes :: is) := by
  cases bytes with
  | nil => exact .inl ⟨rfl, rfl⟩
  | cons b bytes =>
    have hne : b :: bytes ≠ [] := List.cons_ne_nil b bytes
    cases is with
    | nil => exact .inr (.inr ⟨hne, fun j hj => (nomatch hj), rfl⟩)
    | cons i rest =>
      rcases literal_or_not i with ⟨more, rfl⟩ | hi
      · exact .inr (.inl ⟨more, rest, hne, rfl, rfl⟩)
      · refine .inr (.inr ⟨hne, fun j hj => ?_, ?_⟩)
        · cases hj
          exact hi
        · cases i with
          | literal more => cases hi
          | _ => rfl

theorem writeBefore_append (a b : Bytes) (is : List Instruction) :
    writeBefore a (writeBefore b is) = writeBefore (a ++ b) is := by
  rcases writeBefore_cases b is with ⟨rfl, h⟩ | ⟨more, rest, hb, rfl, h⟩ | ⟨hb, hhead, h⟩
  · rw [h, List.append_nil]
  · cases a with
    | nil => rfl
    | cons x a =>
      rw [h]
      change literal (x :: a ++ (b ++ more)) :: rest = literal (x :: a ++ b ++ more) :: rest
      rw [List.append_assoc]
  · cases a with
    | nil => rfl
    | cons x a =>
      rw [h]
      rcases writeBefore_cases (x :: a ++ b) is with ⟨hnil, _⟩ | ⟨more, rest, _, rfl, _⟩ | ⟨_, _, hab⟩
      · cases hnil
      · cases hhead _ rfl
      · exact hab.symm

/-! ## Other instructions in the place of literals -/

mutual
def expandedBody (g : Bytes → List Instruction) : Instruction → Instruction
  | list s depth body => list s depth (expand g body)
  | map s depth cast body => map s depth cast (expand g body)
  | when s test body => when s test (expand g body)
  | literal bytes => literal bytes
  | bool s => bool s
  | int s => int s
  | string s => string s
  | native s => native s
termination_by structural i => i

/-- **Put instructions in the place of each literal**, at every depth. -/
def expand (g : Bytes → List Instruction) : List Instruction → List Instruction
  | [] => []
  | i :: rest =>
    match i with
    | literal bytes => g bytes ++ expand g rest
    | i => i.expandedBody g :: expand g rest
termination_by structural is => is
end

def literals (bytes : Bytes) : List Instruction := bytes.map fun b => literal [b]

def nothing (_ : Bytes) : List Instruction := []

/-- **Every literal split** into single bytes, at every depth. -/
def split (is : List Instruction) : List Instruction := expand literals is

/-- **What is left without literals**, at every depth. -/
def skeleton (is : List Instruction) : List Instruction := expand nothing is

section Expand

variable (g : Bytes → List Instruction)

theorem isLiteral_expandedBody (i : Instruction) : (i.expandedBody g).isLiteral = i.isLiteral := by
  cases i <;> rfl

theorem expand_literal (bytes : Bytes) (is : List Instruction) :
    expand g (literal bytes :: is) = g bytes ++ expand g is := rfl

theorem expand_cons {i : Instruction} (hi : i.isLiteral = false) (is : List Instruction) :
    expand g (i :: is) = i.expandedBody g :: expand g is := by
  cases i with
  | literal bytes => cases hi
  | _ => rfl

theorem expand_append : ∀ is js : List Instruction, expand g (is ++ js) = expand g is ++ expand g js
  | [], _ => rfl
  | i :: is, js => by
    rw [List.cons_append]
    rcases literal_or_not i with ⟨bytes, rfl⟩ | hi
    · rw [expand_literal, expand_literal, expand_append is js, List.append_assoc]
    · rw [expand_cons g hi, expand_cons g hi, expand_append is js, List.cons_append]

variable {g}

theorem expand_writeBefore (hnil : g [] = []) (hadd : ∀ a b, g (a ++ b) = g a ++ g b) (bytes : Bytes)
    (is : List Instruction) : expand g (writeBefore bytes is) = g bytes ++ expand g is := by
  rcases writeBefore_cases bytes is with ⟨rfl, h⟩ | ⟨more, rest, _, rfl, h⟩ | ⟨_, _, h⟩
  · rw [h, hnil, List.nil_append]
  · rw [h, expand_literal, expand_literal, hadd, List.append_assoc]
  · rw [h, expand_literal]

mutual
theorem expandedBody_foldedBody (hnil : g [] = []) (hadd : ∀ a b, g (a ++ b) = g a ++ g b) :
    ∀ i : Instruction, i.foldedBody.expandedBody g = i.expandedBody g
  | .literal _ | .bool _ | .int _ | .string _ | .native _ => rfl
  | .list _ _ body | .map _ _ _ body | .when _ _ body => by
    rw [foldedBody, expandedBody, expandedBody, expand_fold hnil hadd body]
termination_by structural i => i

/-- **An expansion that adds up does not see folding.** -/
theorem expand_fold (hnil : g [] = []) (hadd : ∀ a b, g (a ++ b) = g a ++ g b) :
    ∀ is : List Instruction, expand g (fold is) = expand g is
  | [] => rfl
  | i :: rest => by
    have hrest := expand_fold hnil hadd rest
    have hbody := expandedBody_foldedBody hnil hadd i
    rcases literal_or_not i with ⟨bytes, rfl⟩ | hi
    · rw [fold_literal, expand_writeBefore hnil hadd, expand_literal, hrest]
    · rw [fold_cons hi, expand_cons g hi, expand_cons g (by rw [isLiteral_foldedBody, hi]), hbody, hrest]
termination_by structural is => is
end

mutual
theorem foldedBody_expandedBody (hg : ∀ bytes js, fold (g bytes ++ js) = writeBefore bytes (fold js)) :
    ∀ i : Instruction, (i.expandedBody g).foldedBody = i.foldedBody
  | .literal _ | .bool _ | .int _ | .string _ | .native _ => rfl
  | .list _ _ body | .map _ _ _ body | .when _ _ body => by
    rw [expandedBody, foldedBody, foldedBody, fold_expand hg body]
termination_by structural i => i

/-- **Folding does not see an expansion into literals with the same bytes.** -/
theorem fold_expand (hg : ∀ bytes js, fold (g bytes ++ js) = writeBefore bytes (fold js)) :
    ∀ is : List Instruction, fold (expand g is) = fold is
  | [] => rfl
  | i :: rest => by
    have hrest := fold_expand hg rest
    have hbody := foldedBody_expandedBody hg i
    rcases literal_or_not i with ⟨bytes, rfl⟩ | hi
    · rw [expand_literal, hg, fold_literal, hrest]
    · rw [expand_cons g hi, fold_cons hi, fold_cons (by rw [isLiteral_expandedBody, hi]), hbody, hrest]
termination_by structural is => is
end

end Expand

theorem split_fold (is : List Instruction) : split (fold is) = split is :=
  expand_fold rfl (fun _ _ => List.map_append) is

theorem skeleton_fold (is : List Instruction) : skeleton (fold is) = skeleton is :=
  expand_fold rfl (fun _ _ => rfl) is

theorem fold_literals : ∀ (bytes : Bytes) (is : List Instruction),
    fold (literals bytes ++ is) = writeBefore bytes (fold is)
  | [], _ => rfl
  | b :: bytes, is => by
    change fold (literal [b] :: (literals bytes ++ is)) = _
    rw [fold_literal, fold_literals bytes is, writeBefore_append, List.singleton_append]

theorem fold_split (is : List Instruction) : fold (split is) = fold is := fold_expand fold_literals is

/-- **Two lists fold to the same exactly if they split to the same.** -/
theorem fold_eq_iff (p q : List Instruction) : fold p = fold q ↔ split p = split q := by
  constructor
  · intro h
    rw [← split_fold p, ← split_fold q, h]
  · intro h
    rw [← fold_split p, ← fold_split q, h]

theorem fold_fold (is : List Instruction) : fold (fold is) = fold is := (fold_eq_iff _ _).2 (split_fold is)

theorem fold_append (p q : List Instruction) : fold (p ++ q) = fold (fold p ++ fold q) := by
  rw [fold_eq_iff]
  calc split (p ++ q) = split p ++ split q := expand_append literals p q
    _ = split (fold p) ++ split (fold q) := by rw [split_fold, split_fold]
    _ = split (fold p ++ fold q) := (expand_append literals _ _).symm

/-! ## Normal lists -/

structure Tight (is : List Instruction) : Prop where
  filled : literal [] ∉ is
  apart : is.IsChain fun i j => ¬ (i.isLiteral = true ∧ j.isLiteral = true)

def TightInside (is : List Instruction) : Prop := ∀ i ∈ is, ∀ body, i.body? = some body → Tight body

/-- **Tight at every depth.** -/
def Normal (is : List Instruction) : Prop := Tight is ∧ TightInside (visitAll is)

theorem tight_nil : Tight [] := ⟨List.not_mem_nil, .nil⟩

theorem tight_cons {i : Instruction} {is : List Instruction} :
    Tight (i :: is) ↔
      i ≠ literal [] ∧ (i.isLiteral = true → ∀ j ∈ is.head?, j.isLiteral = false) ∧ Tight is := by
  constructor
  · rintro ⟨hfilled, hapart⟩
    obtain ⟨hhead, hrest⟩ := List.isChain_cons.1 hapart
    refine ⟨fun hi => hfilled (hi ▸ List.mem_cons_self), fun hi j hj => ?_,
      fun hmem => hfilled (List.mem_cons_of_mem i hmem), hrest⟩
    exact Bool.eq_false_iff.2 fun hlit => hhead j hj ⟨hi, hlit⟩
  · rintro ⟨hi, hhead, hfilled, hapart⟩
    refine ⟨fun hmem => ?_, List.isChain_cons.2 ⟨fun j hj hij => ?_, hapart⟩⟩
    · rcases List.mem_cons.1 hmem with heq | hmem
      · exact hi heq.symm
      · exact hfilled hmem
    · exact Bool.eq_false_iff.1 (hhead hij.1 j hj) hij.2

theorem Tight.cons {i : Instruction} {is : List Instruction} (h : Tight is) (hi : i.isLiteral = false) :
    Tight (i :: is) := by
  refine tight_cons.2 ⟨?_, fun hlit => ?_, h⟩
  · rintro rfl
    cases hi
  · rw [hi] at hlit
    cases hlit

theorem Tight.writeBefore {is : List Instruction} (h : Tight is) (bytes : Bytes) : Tight (writeBefore bytes is) := by
  have hne : ∀ {bytes : Bytes}, bytes ≠ [] → literal bytes ≠ literal [] := by
    intro bytes hbytes heq
    cases heq
    exact hbytes rfl
  rcases writeBefore_cases bytes is with ⟨_, hw⟩ | ⟨more, rest, hbytes, rfl, hw⟩ | ⟨hbytes, hhead, hw⟩
  · rw [hw]
    exact h
  · obtain ⟨_, hhead, hrest⟩ := tight_cons.1 h
    rw [hw]
    exact tight_cons.2 ⟨hne (List.append_ne_nil_of_left_ne_nil hbytes more), fun _ => hhead rfl, hrest⟩
  · rw [hw]
    exact tight_cons.2 ⟨hne hbytes, fun _ => hhead, h⟩

theorem writeBefore_of_tight {bytes : Bytes} {is : List Instruction} (h : Tight (literal bytes :: is)) :
    Instruction.writeBefore bytes is = literal bytes :: is := by
  obtain ⟨hne, hhead, _⟩ := tight_cons.1 h
  rcases writeBefore_cases bytes is with ⟨rfl, _⟩ | ⟨more, rest, _, rfl, _⟩ | ⟨_, _, hw⟩
  · exact absurd rfl hne
  · cases hhead rfl _ rfl
  · exact hw

theorem tightInside_append {is js : List Instruction} : TightInside (is ++ js) ↔ TightInside is ∧ TightInside js := by
  simp only [TightInside, List.mem_append, or_imp, forall_and]

theorem tightInside_visitAll_cons {i : Instruction} {is : List Instruction} :
    TightInside (visitAll (i :: is)) ↔ TightInside i.visit ∧ TightInside (visitAll is) := tightInside_append

theorem tightInside_of_body?_none {i : Instruction} (hbody : i.body? = none) (hvisit : i.visit = [i]) :
    TightInside i.visit := by
  intro j hj body hjbody
  rw [hvisit, List.mem_singleton] at hj
  rw [hj, hbody] at hjbody
  cases hjbody

theorem tightInside_of_body? {i : Instruction} {body : List Instruction} (hbody : i.body? = some body)
    (hvisit : i.visit = i :: visitAll body) : TightInside i.visit ↔ Normal body := by
  rw [hvisit]
  simp only [TightInside, List.mem_cons, forall_eq_or_imp, hbody, Option.some.injEq, forall_eq']
  rfl

theorem tightInside_writeBefore {is : List Instruction} (h : TightInside (visitAll is)) (bytes : Bytes) :
    TightInside (visitAll (writeBefore bytes is)) := by
  have hliteral : ∀ bytes, TightInside (literal bytes).visit := fun _ => tightInside_of_body?_none rfl rfl
  rcases writeBefore_cases bytes is with ⟨_, hw⟩ | ⟨more, rest, _, rfl, hw⟩ | ⟨_, _, hw⟩
  · rw [hw]
    exact h
  · rw [hw]
    exact tightInside_visitAll_cons.2 ⟨hliteral _, (tightInside_visitAll_cons.1 h).2⟩
  · rw [hw]
    exact tightInside_visitAll_cons.2 ⟨hliteral _, h⟩

mutual
theorem tightInside_foldedBody : ∀ i : Instruction, TightInside i.foldedBody.visit
  | .literal _ | .bool _ | .int _ | .string _ | .native _ => tightInside_of_body?_none rfl rfl
  | .list _ _ body | .map _ _ _ body | .when _ _ body => (tightInside_of_body? rfl rfl).2 (normal_fold body)
termination_by structural i => i

/-- **A folded list is normal.** -/
theorem normal_fold : ∀ is : List Instruction, Normal (fold is)
  | [] => ⟨tight_nil, fun _ hi => (nomatch hi)⟩
  | i :: rest => by
    obtain ⟨htight, hinside⟩ := normal_fold rest
    have hbody := tightInside_foldedBody i
    rcases literal_or_not i with ⟨bytes, rfl⟩ | hi
    · exact ⟨htight.writeBefore bytes, tightInside_writeBefore hinside bytes⟩
    · rw [fold_cons hi]
      exact ⟨htight.cons (by rw [isLiteral_foldedBody, hi]), tightInside_visitAll_cons.2 ⟨hbody, hinside⟩⟩
termination_by structural is => is
end

mutual
theorem foldedBody_of_tightInside : ∀ i : Instruction, TightInside i.visit → i.foldedBody = i
  | .literal _, _ | .bool _, _ | .int _, _ | .string _, _ | .native _, _ => rfl
  | .list _ _ body, h | .map _ _ _ body, h | .when _ _ body, h => by
    rw [foldedBody, fold_of_normal body ((tightInside_of_body? rfl rfl).1 h)]
termination_by structural i => i

/-- **Folding leaves a normal list as it is.** -/
theorem fold_of_normal : ∀ is : List Instruction, Normal is → fold is = is
  | [], _ => rfl
  | i :: rest, ⟨htight, hinside⟩ => by
    obtain ⟨hhere, hinside⟩ := tightInside_visitAll_cons.1 hinside
    have hrest := fold_of_normal rest ⟨(tight_cons.1 htight).2.2, hinside⟩
    have hbody := foldedBody_of_tightInside i hhere
    rcases literal_or_not i with ⟨bytes, rfl⟩ | hi
    · rw [fold_literal, hrest, writeBefore_of_tight htight]
    · rw [fold_cons hi, hbody, hrest]
termination_by structural is => is
end

/-! ## The number of literals -/

theorem countP_visitAll_cons (i : Instruction) (is : List Instruction) :
    (visitAll (i :: is)).countP isLiteral = i.visit.countP isLiteral + (visitAll is).countP isLiteral :=
  List.countP_append

theorem countP_writeBefore_le (bytes : Bytes) (is : List Instruction) :
    (visitAll (writeBefore bytes is)).countP isLiteral ≤ 1 + (visitAll is).countP isLiteral := by
  have hliteral : ∀ bytes, (literal bytes).visit.countP isLiteral = 1 := fun _ => rfl
  rcases writeBefore_cases bytes is with ⟨_, hw⟩ | ⟨more, rest, _, rfl, hw⟩ | ⟨_, _, hw⟩
  · rw [hw]
    omega
  · rw [hw, countP_visitAll_cons, countP_visitAll_cons, hliteral, hliteral]
    omega
  · rw [hw, countP_visitAll_cons, hliteral]

mutual
theorem countP_foldedBody_le : ∀ i : Instruction, i.foldedBody.visit.countP isLiteral ≤ i.visit.countP isLiteral
  | .literal _ | .bool _ | .int _ | .string _ | .native _ => Nat.le_refl _
  | .list _ _ body | .map _ _ _ body | .when _ _ body => countP_fold_le body
termination_by structural i => i

/-- **Folding makes no literals.** -/
theorem countP_fold_le : ∀ is : List Instruction,
    (visitAll (fold is)).countP isLiteral ≤ (visitAll is).countP isLiteral
  | [] => Nat.le_refl 0
  | i :: rest => by
    have hrest := countP_fold_le rest
    have hbody := countP_foldedBody_le i
    rcases literal_or_not i with ⟨bytes, rfl⟩ | hi
    · have hwrite := countP_writeBefore_le bytes (fold rest)
      rw [fold_literal, countP_visitAll_cons]
      exact Nat.le_trans hwrite (Nat.add_le_add_left hrest 1)
    · rw [fold_cons hi, countP_visitAll_cons, countP_visitAll_cons]
      exact Nat.add_le_add hbody hrest
termination_by structural is => is
end

end Instruction

/-! ## What instructions need -/

namespace Features

open Instruction

def ofAll (is : List Instruction) : Features := is.foldl (fun f i => f.union (ofInstruction i)) none

theorem union_assoc (a b c : Features) : (a.union b).union c = a.union (b.union c) := by
  simp only [union, Bool.or_assoc]

theorem foldl_union : ∀ (is : List Instruction) (f : Features),
    is.foldl (fun f i => f.union (ofInstruction i)) f = f.union (ofAll is)
  | [], f => by simp [ofAll, none, union]
  | i :: is, f => by
    rw [ofAll, List.foldl_cons, List.foldl_cons, foldl_union is, foldl_union is, union_assoc]
    rfl

theorem ofAll_append (is js : List Instruction) : ofAll (is ++ js) = (ofAll is).union (ofAll js) := by
  rw [ofAll, List.foldl_append, foldl_union]
  rfl

theorem ofAll_cons (i : Instruction) (is : List Instruction) : ofAll (i :: is) = (ofInstruction i).union (ofAll is) :=
  foldl_union is _

mutual
theorem ofAll_visit_expandedBody : ∀ i : Instruction, ofAll (i.expandedBody nothing).visit = ofAll i.visit
  | .literal _ | .bool _ | .int _ | .string _ | .native _ => rfl
  | .list _ _ body | .map _ _ _ body | .when _ _ body => by
    rw [expandedBody, visit, visit, ofAll_cons, ofAll_cons, ofAll_expand_nothing body]
    rfl
termination_by structural i => i

theorem ofAll_expand_nothing : ∀ is : List Instruction,
    ofAll (visitAll (expand nothing is)) = ofAll (visitAll is)
  | [] => rfl
  | i :: rest => by
    have hrest := ofAll_expand_nothing rest
    have hbody := ofAll_visit_expandedBody i
    rcases literal_or_not i with ⟨bytes, rfl⟩ | hi
    · rw [expand_literal, nothing, List.nil_append, hrest, visitAll, ofAll_append]
      rfl
    · rw [expand_cons _ hi, visitAll, visitAll, ofAll_append, ofAll_append, hbody, hrest]
termination_by structural is => is
end

end Features

namespace Plan

theorem literalCount_folded_le (p : Plan) : p.folded.literalCount ≤ p.literalCount := Instruction.countP_fold_le p.body

theorem features_folded (p : Plan) : p.folded.features = p.features := by
  change Features.ofAll (Instruction.visitAll (Instruction.fold p.body)) = Features.ofAll (Instruction.visitAll p.body)
  have hskeleton : Instruction.expand Instruction.nothing (Instruction.fold p.body) = _ :=
    Instruction.skeleton_fold p.body
  rw [← Features.ofAll_expand_nothing, hskeleton]
  exact Features.ofAll_expand_nothing p.body

end Plan

namespace Instruction

/-- **Folding finds the normal form.**  A folded list is normal, has no more literals than the list, and has the same other
instructions in the same places, so a folded plan needs what the plan needs.  Two lists fold to the same exactly if they
are the same once every literal is split into bytes: what a list folds to is the one normal list that splits as it does.
So folding twice is folding once, and parts may be folded before they are put together. -/
theorem fold_finds_normal_form (name : String) (p q : List Instruction) :
    Normal (fold p) ∧
    (Plan.mk name p).folded.literalCount ≤ (Plan.mk name p).literalCount ∧
    skeleton (fold p) = skeleton p ∧
    (Plan.mk name p).folded.features = (Plan.mk name p).features ∧
    (fold p = fold q ↔ split p = split q) ∧
    (q = fold p ↔ Normal q ∧ split q = split p) ∧
    fold (fold p) = fold p ∧
    fold (p ++ q) = fold (fold p ++ fold q) := by
  refine ⟨normal_fold p, Plan.literalCount_folded_le _, skeleton_fold p, Plan.features_folded _, fold_eq_iff p q, ?_,
    fold_fold p, fold_append p q⟩
  constructor
  · rintro rfl
    exact ⟨normal_fold p, split_fold p⟩
  · rintro ⟨hnormal, hsplit⟩
    rw [← fold_of_normal q hnormal]
    exact (fold_eq_iff q p).2 hsplit

end Instruction
end BencodePlan
