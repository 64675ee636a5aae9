import BencodePlan.Proofs.Run.Parallel
import BencodePlan.Proofs.Encoding.Clashes
import BencodePlan.Proofs.Encoding.Order
/-!
# Values in another order

A value keeps the entries of its maps and the fields of its structs in the order in which it was given them, and a run
looks for them one after the other.  The order shows nowhere: where no map has a key twice and no struct a field, a run on
a value whose entries and fields stand in another order, at whatever depths, writes the same bytes and ends in the same way
(`run_rearranged`).  Of two fields with one name the first is read, so that there the order shows.
-/
namespace BencodePlan

namespace Wire

/-- **Keys are written in one order**, in whatever order they come. -/
theorem sortedKeys_of_perm {keys keys' : List Bytes} (h : keys.Perm keys') : sortedKeys keys = sortedKeys keys' := by
  have hperm : (sortedKeys keys).Perm (sortedKeys keys') :=
    ((List.mergeSort_perm keys keyLe).trans h).trans (List.mergeSort_perm keys' keyLe).symm
  refine List.Perm.eq_of_pairwise (fun a b _ _ hab hba => ?_) (List.pairwise_mergeSort keyLe_trans keyLe_total keys)
    (List.pairwise_mergeSort keyLe_trans keyLe_total keys') hperm
  rcases keyLe_iff.1 hab with hlt | heq
  · rcases keyLe_iff.1 hba with hgt | heq
    · exact absurd hgt (List.lt_asymm hlt)
    · exact heq.symm
  · exact heq

end Wire

namespace Value

/-- **Every map has strings as keys, no two of them the same, and every struct has fields with names of their own**, at
whatever depth they stand. -/
inductive Keyed : Value → Prop
  | null : Keyed null
  | bool (b : Bool) : Keyed (bool b)
  | int (n : Int) : Keyed (int n)
  | string (bytes : Bytes) : Keyed (string bytes)
  | duration (seconds nanoseconds : Nat) : Keyed (duration seconds nanoseconds)
  | native (bytes : Bytes) : Keyed (native bytes)
  | list {items : List Value} : (∀ v ∈ items, Keyed v) → Keyed (list items)
  | map {pairs : List (Value × Value)} (keys : List Bytes) : pairs.map Prod.fst = keys.map string → keys.Nodup →
    (∀ p ∈ pairs, Keyed p.2) → Keyed (map pairs)
  | struct {fields : List (String × Value)} : (fields.map Prod.fst).Nodup → (∀ f ∈ fields, Keyed f.2) →
    Keyed (struct fields)

/-- **The same value, but for the order** of the entries of its maps and of the fields of its structs, at whatever depths.
The entries are put into another order first (`turned`), and then their values are. -/
inductive Rearranged : Value → Value → Prop
  | same (v : Value) : Rearranged v v
  | list {items items' : List Value} : List.Forall₂ Rearranged items items' → Rearranged (list items) (list items')
  | map {pairs turned pairs' : List (Value × Value)} : pairs.Perm turned →
    turned.map Prod.fst = pairs'.map Prod.fst → List.Forall₂ Rearranged (turned.map Prod.snd) (pairs'.map Prod.snd) →
    Rearranged (map pairs) (map pairs')
  | struct {fields turned fields' : List (String × Value)} : fields.Perm turned →
    turned.map Prod.fst = fields'.map Prod.fst → List.Forall₂ Rearranged (turned.map Prod.snd) (fields'.map Prod.snd) →
    Rearranged (struct fields) (struct fields')

/-! ## Entries are found wherever they stand -/

theorem mem_of_valueAt {k : Bytes} {x : Value} : ∀ {pairs : List (Value × Value)}, valueAt? k pairs = some x →
    (.string k, x) ∈ pairs
  | [], h => nomatch h
  | (first, y) :: rest, h => by
    have hrest : valueAt? k rest = some x → (.string k, x) ∈ (first, y) :: rest := fun h =>
      List.mem_cons_of_mem _ (mem_of_valueAt h)
    cases first with
    | string k₁ =>
      rw [valueAt?] at h
      by_cases hk : k₁ = k
      · rw [if_pos hk] at h
        cases h
        rw [hk]
        exact List.mem_cons_self
      · rw [if_neg hk] at h
        exact hrest h
    | _ => exact hrest h

theorem valueAt_of_perm {pairs pairs' : List (Value × Value)} (hperm : pairs.Perm pairs')
    (h : (pairs.map Prod.fst).Nodup) (k : Bytes) : valueAt? k pairs = valueAt? k pairs' := by
  have h' : (pairs'.map Prod.fst).Nodup := (hperm.map Prod.fst).nodup_iff.1 h
  refine Option.ext fun x => ⟨fun hx => ?_, fun hx => ?_⟩
  · exact valueAt_of_mem h' (hperm.mem_iff.1 (mem_of_valueAt hx))
  · exact valueAt_of_mem h (hperm.mem_iff.2 (mem_of_valueAt hx))

theorem rel_valueAt {R : Value → Value → Prop} {l l' : List (Value × Value)} (h : Pairs.Alike R l l') (k : Bytes) :
    Option.Rel R (valueAt? k l) (valueAt? k l') := by
  induction h with
  | nil => exact .none
  | @cons p q _ _ hpq _ ih =>
    obtain ⟨first, v⟩ := p
    obtain ⟨first', v'⟩ := q
    obtain ⟨hk, hv⟩ := hpq
    simp only at hk hv
    subst hk
    cases first with
    | string k₁ =>
      rw [valueAt?, valueAt?]
      by_cases hfirst : k₁ = k
      · rw [if_pos hfirst, if_pos hfirst]
        exact .some hv
      · rw [if_neg hfirst, if_neg hfirst]
        exact ih
    | _ => exact ih

/-! ## What stands in two values in the same place -/

def Turns (v v' : Value) : Prop := v.Keyed ∧ v.Rearranged v'

theorem Keyed.turns {v : Value} (h : v.Keyed) : v.Turns v := ⟨h, .same v⟩

theorem forall₂_turns {items items' : List Value} (h : ∀ v ∈ items, Keyed v)
    (hitems : List.Forall₂ Rearranged items items') : List.Forall₂ Turns items items' := by
  induction hitems with
  | nil => exact .nil
  | cons hv _ ih =>
    rw [List.forall_mem_cons] at h
    exact .cons ⟨h.1, hv⟩ (ih h.2)

section

variable {κ : Type} {pairs turned pairs' : List (κ × Value)}

theorem alike_turns_self (h : ∀ p ∈ pairs, Keyed p.2) : Pairs.Alike Turns pairs pairs :=
  List.forall₂_same.2 fun p hp => ⟨rfl, (h p hp).turns⟩

theorem alike_turns (h : ∀ p ∈ pairs, Keyed p.2) (hperm : pairs.Perm turned)
    (hfst : turned.map Prod.fst = pairs'.map Prod.fst)
    (hsnd : List.Forall₂ Rearranged (turned.map Prod.snd) (pairs'.map Prod.snd)) : Pairs.Alike Turns turned pairs' := by
  have hkeyed : ∀ v ∈ turned.map Prod.snd, Keyed v := by
    intro v hv
    obtain ⟨p, hp, rfl⟩ := List.mem_map.1 hv
    exact h p (hperm.mem_iff.2 hp)
  exact Pairs.alike_of_map hfst (forall₂_turns hkeyed hsnd)

end

theorem rel_lookup_fields {fields fields' : List (String × Value)} (h : Turns (struct fields) (struct fields'))
    (name : String) : Option.Rel Turns (fields.lookup name) (fields'.lookup name) := by
  obtain ⟨hkeyed, hrearranged⟩ := h
  cases hkeyed with
  | struct hnodup hfields =>
    cases hrearranged with
    | same => exact Pairs.rel_lookup (alike_turns_self hfields) name
    | struct hperm hnames hturned =>
      rw [Pairs.lookup_of_perm hperm hnodup]
      exact Pairs.rel_lookup (alike_turns hfields hperm hnames hturned) name

theorem rel_valueAt_pairs {pairs pairs' : List (Value × Value)} (h : Turns (map pairs) (map pairs')) (k : Bytes) :
    Option.Rel Turns (valueAt? k pairs) (valueAt? k pairs') := by
  obtain ⟨hkeyed, hrearranged⟩ := h
  cases hkeyed with
  | map keys hkeys hnodup hpairs =>
    cases hrearranged with
    | same => exact rel_valueAt (alike_turns_self hpairs) k
    | map hperm hfst hturned =>
      have hfirst : (pairs.map Prod.fst).Nodup := hkeys ▸ hnodup.map fun _ _ h => Value.string.inj h
      rw [valueAt_of_perm hperm hfirst]
      exact rel_valueAt (alike_turns hpairs hperm hfst hturned) k

theorem keysOfPairs_eq (s : Selector) : ∀ {pairs : List (Value × Value)} {keys : List Bytes},
    pairs.map Prod.fst = keys.map string → Instruction.keysOfPairs s pairs = .ok keys
  | [], [], _ => rfl
  | (first, v) :: rest, k :: keys, h => by
    rw [List.map_cons, List.map_cons, List.cons.injEq] at h
    obtain rfl : first = .string k := h.1
    rw [Instruction.keysOfPairs, keysOfPairs_eq s h.2]
    rfl
  | [], _ :: _, h => nomatch h
  | _ :: _, [], h => nomatch h

theorem exists_keys_of_perm {pairs turned : List (Value × Value)} {keys : List Bytes} (hperm : pairs.Perm turned)
    (hkeys : pairs.map Prod.fst = keys.map string) :
    ∃ keys', turned.map Prod.fst = keys'.map string ∧ keys.Perm keys' := by
  have hturned : (keys.map string).Perm (turned.map Prod.fst) := hkeys ▸ hperm.map Prod.fst
  have hstrings : turned.map Prod.fst ∈ Set.range (List.map string) := by
    rw [Set.range_list_map]
    intro v hv
    obtain ⟨k, -, rfl⟩ := List.mem_map.1 (hturned.mem_iff.2 hv)
    exact ⟨k, rfl⟩
  obtain ⟨keys', hkeys'⟩ := hstrings
  rw [← hkeys'] at hturned
  exact ⟨keys', hkeys'.symm, (List.map_perm_map_iff fun _ _ h => Value.string.inj h).1 hturned⟩

/-! ## What is read from them -/

variable {v v' : Value}

theorem Turns.finds {α : Type} {read : Value → Except RunError α} (h : v.Turns v')
    (hlist : ∀ items items', Finds Eq Eq (read (.list items)) (read (.list items')))
    (hmap : ∀ pairs pairs', Finds Eq Eq (read (.map pairs)) (read (.map pairs')))
    (hstruct : ∀ fields fields', Finds Eq Eq (read (.struct fields)) (read (.struct fields'))) :
    Finds Eq Eq (read v) (read v') := by
  cases h.2 with
  | same => exact .refl _
  | list _ => exact hlist _ _
  | map _ _ _ => exact hmap _ _
  | struct _ _ _ => exact hstruct _ _

theorem Turns.addressed (h : v.Turns v') (s : Selector) : Finds Eq Turns (s.addressed v) (s.addressed v') := by
  have hkind : v.kind = v'.kind := by
    cases h.2 <;> rfl
  unfold Selector.addressed
  by_cases hs : s.isComputed = true
  · rw [if_pos hs, if_pos hs, RunError.mismatch, RunError.mismatch, hkind]
    exact .failed rfl
  · rw [if_neg hs, if_neg hs]
    exact .found h

theorem Turns.field (h : v.Turns v') (base : Selector) (name : String) :
    Finds Eq Turns (base.fieldOf name v) (base.fieldOf name v') := by
  have hfields : ∀ fields fields', Turns (.struct fields) (.struct fields') →
      Finds Eq Turns (base.fieldOf name (.struct fields)) (base.fieldOf name (.struct fields')) := by
    intro fields fields' h
    have hrel := rel_lookup_fields h name
    rw [Selector.fieldOf, Selector.fieldOf]
    generalize fields.lookup name = found, fields'.lookup name = found' at hrel
    cases hrel with
    | none => exact .failed rfl
    | some hw => exact .found hw
  cases h.2 with
  | list _ => exact .failed rfl
  | map _ _ _ => exact .failed rfl
  | struct _ _ _ => exact hfields _ _ h
  | same =>
    cases v with
    | struct fields => exact hfields _ _ h
    | _ => exact .failed rfl

theorem Turns.entry (h : v.Turns v') (base : Selector) (depth : Nat) (key : Bytes) :
    Finds Eq Turns (base.entryOf depth key v) (base.entryOf depth key v') := by
  have hpairs : ∀ pairs pairs', Turns (.map pairs) (.map pairs') →
      Finds Eq Turns (base.entryOf depth key (.map pairs)) (base.entryOf depth key (.map pairs')) := by
    intro pairs pairs' h
    have hrel := rel_valueAt_pairs h key
    rw [Selector.entryOf, Selector.entryOf]
    generalize valueAt? key pairs = found, valueAt? key pairs' = found' at hrel
    cases hrel with
    | none => exact .failed rfl
    | some hw => exact .found hw
  cases h.2 with
  | list _ => exact .failed rfl
  | struct _ _ _ => exact .failed rfl
  | map _ _ _ => exact hpairs _ _ h
  | same =>
    cases v with
    | map pairs => exact hpairs _ _ h
    | _ => exact .failed rfl

theorem Turns.elements (h : v.Turns v') (s : Selector) :
    Finds Eq (List.Forall₂ Turns) (Instruction.elementsOf s v) (Instruction.elementsOf s v') := by
  obtain ⟨hkeyed, hrearranged⟩ := h
  cases hrearranged with
  | list hitems =>
    cases hkeyed with
    | list hvalues => exact .found (forall₂_turns hvalues hitems)
  | map _ _ _ => exact .failed rfl
  | struct _ _ _ => exact .failed rfl
  | same =>
    cases hkeyed with
    | list hvalues => exact .found (List.forall₂_same.2 fun v hv => (hvalues v hv).turns)
    | _ => exact .failed rfl

theorem Turns.sortedKeys (h : v.Turns v') (s : Selector) :
    Finds Eq Eq (Instruction.sortedKeysOf s v) (Instruction.sortedKeysOf s v') := by
  obtain ⟨hkeyed, hrearranged⟩ := h
  cases hrearranged with
  | same => exact .refl _
  | list _ => exact .failed rfl
  | struct _ _ _ => exact .failed rfl
  | map hperm hfst _ =>
    cases hkeyed with
    | map keys hkeys hnodup _ =>
      obtain ⟨keys', hkeys', hkeysperm⟩ := exists_keys_of_perm hperm hkeys
      rw [Instruction.sortedKeysOf, Instruction.sortedKeysOf, keysOfPairs_eq s hkeys,
        keysOfPairs_eq s (hfst ▸ hkeys')]
      exact .found (Wire.sortedKeys_of_perm hkeysperm)

theorem Turns.present (h : v.Turns v') (test : EmptinessTest) (s : Selector) :
    Finds Eq Eq (test.isPresent s v) (test.isPresent s v') := by
  cases h.2 with
  | same => exact .refl _
  | struct _ _ _ => cases test <;> first | exact .found rfl | exact .failed rfl
  | @list items items' hitems =>
    have hempty : items.isEmpty = items'.isEmpty := by
      cases hitems <;> rfl
    cases test with
    | len => exact .found (by rw [hempty])
    | nil => exact .found rfl
    | _ => exact .failed rfl
  | @map pairs turned pairs' hperm hfst _ =>
    have hempty : pairs.isEmpty = pairs'.isEmpty := by
      have hlength : pairs.length = pairs'.length := by
        rw [hperm.length_eq, ← List.length_map (f := Prod.fst), hfst, List.length_map]
      rw [Bool.eq_iff_iff, List.isEmpty_iff_length_eq_zero, List.isEmpty_iff_length_eq_zero, hlength]
    cases test with
    | len => exact .found (by rw [hempty])
    | nil => exact .found rfl
    | _ => exact .failed rfl

end Value

/-! ## Runs -/

namespace Selector

open Value

variable {whole whole' : Value} {σ σ' : State}

theorem finds_keyAt (h : σ.Alike Turns σ') (depth : Nat) : Finds Eq Eq (keyAt σ depth) (keyAt σ' depth) := by
  unfold keyAt
  rw [h.keys]
  exact .refl _

/-- **A selector finds the same in both.** -/
theorem finds_resolve (hwhole : whole.Turns whole') (hσ : σ.Alike Turns σ') : ∀ s : Selector,
    Finds Eq Turns (s.resolve whole σ) (s.resolve whole' σ')
  | root => .found hwhole
  | field base name =>
    (finds_resolve hwhole hσ base).bind fun _ _ hv => (hv.addressed base).bind fun _ _ hv => hv.field base name
  | deref base => by
    refine (finds_resolve hwhole hσ base).bind fun v v' hv => ?_
    cases hv.2 with
    | same =>
      cases v with
      | null => exact .failed rfl
      | _ => exact .found hv
    | _ => exact .found hv
  | seconds base => by
    refine (finds_resolve hwhole hσ base).bind fun v v' hv => ?_
    cases hv.2 with
    | same =>
      cases v with
      | duration s n => exact .found (Keyed.int s).turns
      | _ => exact .failed rfl
    | _ => exact .failed rfl
  | elem depth => by
    have hrel := hσ.lookup_elems depth
    rw [resolve, resolve]
    generalize σ.elems.lookup depth = found, σ'.elems.lookup depth = found' at hrel
    cases hrel with
    | none => exact .failed rfl
    | some hv => exact .found hv
  | key depth => (finds_keyAt hσ depth).bind fun k _ hk => hk ▸ .found (Keyed.string k).turns
  | value base depth => by
    refine (finds_resolve hwhole hσ base).bind fun _ _ hv => (hv.addressed base).bind fun _ _ hv => ?_
    refine (finds_keyAt hσ depth).bind fun k k' hk => ?_
    rw [← hk]
    exact hv.entry base depth k

end Selector

namespace Instruction

mutual
theorem parallel_refl {Q : Selector → Selector → Prop} (hQ : ∀ s, Q s s) : ∀ i : Instruction, i.Parallel Q i
  | literal bytes => .literal bytes
  | bool s => .bool (hQ s)
  | int s => .int (hQ s)
  | string s => .string (hQ s)
  | native s => .native (hQ s)
  | list s _ body => .list (hQ s) (forall₂_parallel_refl hQ body)
  | map s _ _ body => .map (hQ s) (forall₂_parallel_refl hQ body)
  | when s _ body => .when (hQ s) (forall₂_parallel_refl hQ body)
termination_by structural i => i

theorem forall₂_parallel_refl {Q : Selector → Selector → Prop} (hQ : ∀ s, Q s s) : ∀ is : List Instruction,
    List.Forall₂ (Parallel Q) is is
  | [] => .nil
  | i :: rest => .cons (parallel_refl hQ i) (forall₂_parallel_refl hQ rest)
termination_by structural is => is
end

end Instruction

open Value in
theorem twins_of_turns {whole whole' : Value} (h : whole.Turns whole') : Twins Eq Turns Eq whole whole' where
  full := rfl
  resolve := fun {s _ _ _} hs hσ => hs ▸ Selector.finds_resolve h hσ s
  addressed := fun {s _ _ _} hs hv => hs ▸ hv.addressed s
  bool := fun hs hv => hs ▸ hv.finds (fun _ _ => .failed rfl) (fun _ _ => .failed rfl) fun _ _ => .failed rfl
  int := fun hs hv => hs ▸ hv.finds (fun _ _ => .failed rfl) (fun _ _ => .failed rfl) fun _ _ => .failed rfl
  string := fun hs hv => hs ▸ hv.finds (fun _ _ => .failed rfl) (fun _ _ => .failed rfl) fun _ _ => .failed rfl
  native := fun hs hv => hs ▸ hv.finds (fun _ _ => .failed rfl) (fun _ _ => .failed rfl) fun _ _ => .failed rfl
  elements := fun {s _ _ _} hs hv => hs ▸ hv.elements s
  keys := fun {s _ _ _} hs hv => hs ▸ hv.sortedKeys s
  present := fun {s _ _ _} test hs hv => hs ▸ hv.present test s

namespace Plan

/-- **A run does not depend on the order** of the entries of maps and of the fields of structs.  On values that are the
same but for that order every plan writes the same bytes and ends in the same way, also if it fails. -/
theorem run_rearranged (p : Plan) {v v' : Value} (hv : v.Keyed) (h : v.Rearranged v') (room : Option Nat) :
    (p.run v room).bytes = (p.run v' room).bytes ∧ (p.run v room).error? = (p.run v' room).error? := by
  have halike := Instruction.runAll_alike (twins_of_turns ⟨hv, h⟩) p.body
    (Instruction.forall₂_parallel_refl (fun _ => rfl) p.body) (State.alike_start _ room)
  have herror := halike.error
  refine ⟨halike.bytes, ?_⟩
  rw [Plan.run, Plan.run]
  generalize (Instruction.runAll v p.body (State.start room)).error? = e,
    (Instruction.runAll v' p.body (State.start room)).error? = e' at herror
  cases herror with
  | none => rfl
  | some he => rw [he]

def gamesPlan : Plan :=
  ⟨"Team", [.ascii "d", .string (.field .root "Name"), .map (.field .root "Games") 0 none [.string (.key 0), .ascii "i",
    .int (.field (.value (.field .root "Games") 0) "Won"), .ascii "e"], .int (.field .root "Drawn"), .ascii "e"]⟩

def game (won lost : Int) : Value := .struct [("Won", .int won), ("Lost", .int lost)]

def gameTurned (won lost : Int) : Value := .struct [("Lost", .int lost), ("Won", .int won)]

def team : Value :=
  .struct [("Games", .map [(.string [98], game 2 0), (.string [97], game 1 3)]), ("Name", .string [116])]

def teamTurned : Value :=
  .struct [("Name", .string [116]), ("Games", .map [(.string [97], gameTurned 1 3), (.string [98], game 2 0)])]

theorem game_keyed (won lost : Int) : (game won lost).Keyed :=
  .struct (by simp) (by simp [Value.Keyed.int])

theorem game_rearranged (won lost : Int) : (game won lost).Rearranged (gameTurned won lost) :=
  .struct (.swap ..) rfl (.cons (.same _) (.cons (.same _) .nil))

/-- There are no drawn games in the value, and the run fails with what was written before. -/
theorem run_team_turned : team.Keyed ∧ team.Rearranged teamTurned ∧ team ≠ teamTurned ∧
    (gamesPlan.run team none).bytes = Wire.ascii "d1:t1:ai1e1:bi2e".toList ∧
    (gamesPlan.run teamTurned none).error? = some (.missingField "x" "Drawn") ∧
    (gamesPlan.run team none).bytes = (gamesPlan.run teamTurned none).bytes ∧
    (gamesPlan.run team none).error? = (gamesPlan.run teamTurned none).error? := by
  have hkeyed : team.Keyed := by
    refine .struct (by simp) ?_
    simp only [List.forall_mem_cons, List.not_mem_nil, false_implies, implies_true, and_true]
    exact ⟨.map [[98], [97]] rfl (by simp) (by simp [game_keyed]), .string _⟩
  have hturned : team.Rearranged teamTurned :=
    .struct (.swap ..) rfl (.cons (.same _) (.cons (.map (.swap ..) rfl
      (.cons (game_rearranged 1 3) (.cons (.same _) .nil))) .nil))
  exact ⟨hkeyed, hturned, by simp [team, teamTurned], by cbv, by cbv, run_rearranged gamesPlan hkeyed hturned none⟩

end Plan
end BencodePlan
