import BencodePlan.Proofs.Run.Loops
/-!
# Instructions in the scope of their loops

A selector may read the variable of a loop only inside that loop, may look a map up only inside the loop over the keys of
that map, and may not look into what is computed.  `Instruction.ScopedAll` says this of a list of instructions by the loops
around them, and that each loop is deeper than those around it.  Nothing is asked of the value.

A state in which the variables of the loops around are bound (`Loop.BoundIn`) then has a value for every variable that is
read.  Running scoped instructions keeps the variables of the loops around, as every loop in them is deeper, so no run of a
well-scoped plan fails for want of a variable, of a key, or of a value to point to (`WellScoped.not_misplaced`).
-/
namespace BencodePlan

/-- The plan reads a variable outside its loop, a map outside the loop over its keys, or a part of what is no part of the
value. -/
def RunError.isMisplaced : RunError → Bool
  | unboundVariable _ => true
  | missingKey _ => true
  | typeMismatch _ expected _ => expected = "addressable value"
  | missingField .. | nilDereference _ | outputFull => false

inductive Loop
  | elements (depth : Nat)
  | entries (source : Selector) (depth : Nat)
  deriving DecidableEq, Repr

def Loop.depth : Loop → Nat
  | elements depth => depth
  | entries _ depth => depth

namespace Selector

/-- **The selector reads what the loops around bind**, and parts of nothing that is computed. -/
def ScopedIn (around : List Loop) : Selector → Prop
  | root => True
  | field base _ => base.isComputed = false ∧ base.ScopedIn around
  | deref base => base.ScopedIn around
  | seconds base => base.ScopedIn around
  | elem depth => .elements depth ∈ around
  | key depth => ∃ source, .entries source depth ∈ around
  | value base depth => .entries base depth ∈ around ∧ base.isComputed = false ∧ base.ScopedIn around

end Selector

namespace Instruction

mutual
def ScopedIn (around : List Loop) : Instruction → Prop
  | literal _ => True
  | bool source | int source | string source | native source => source.ScopedIn around
  | list source depth body =>
    source.isComputed = false ∧ source.ScopedIn around ∧ (∀ l ∈ around, l.depth < depth) ∧
      ScopedAll (.elements depth :: around) body
  | map source depth _ body =>
    source.isComputed = false ∧ source.ScopedIn around ∧ (∀ l ∈ around, l.depth < depth) ∧
      ScopedAll (.entries source depth :: around) body
  | when source _ body => source.ScopedIn around ∧ ScopedAll around body
termination_by structural i => i

/-- **Instructions inside loops** read what these and their own loops bind, and each loop is deeper than those around. -/
def ScopedAll (around : List Loop) : List Instruction → Prop
  | [] => True
  | i :: rest => i.ScopedIn around ∧ ScopedAll around rest
termination_by structural is => is
end

theorem scopedAll_append {around : List Loop} : ∀ {is js : List Instruction},
    ScopedAll around (is ++ js) ↔ ScopedAll around is ∧ ScopedAll around js
  | [], js => by simp [ScopedAll]
  | i :: is, js => by rw [List.cons_append, ScopedAll, ScopedAll, scopedAll_append, and_assoc]

/-! ## Folding -/

theorem scopedAll_writeBefore {around : List Loop} (bytes : Bytes) {is : List Instruction} (h : ScopedAll around is) :
    ScopedAll around (writeBefore bytes is) := by
  unfold writeBefore
  split
  · exact h
  · split
    · exact ⟨trivial, h.2⟩
    · exact ⟨trivial, h⟩

mutual
theorem scopedIn_foldedBody : ∀ (i : Instruction) {around : List Loop}, i.ScopedIn around → i.foldedBody.ScopedIn around
  | .literal _, _, h | .bool _, _, h | .int _, _, h | .string _, _, h | .native _, _, h => h
  | .list _ _ body, _, ⟨hpart, hsource, hdeep, hbody⟩ => ⟨hpart, hsource, hdeep, scopedAll_fold body hbody⟩
  | .map _ _ _ body, _, ⟨hpart, hsource, hdeep, hbody⟩ => ⟨hpart, hsource, hdeep, scopedAll_fold body hbody⟩
  | .when _ _ body, _, ⟨hsource, hbody⟩ => ⟨hsource, scopedAll_fold body hbody⟩
termination_by structural i => i

theorem scopedAll_fold : ∀ (is : List Instruction) {around : List Loop}, ScopedAll around is → ScopedAll around (fold is)
  | [], _, _ => trivial
  | i :: rest, _, ⟨hi, hrest⟩ => by
    have hrest' := scopedAll_fold rest hrest
    have hi' := scopedIn_foldedBody i hi
    cases i with
    | literal bytes => exact scopedAll_writeBefore bytes hrest'
    | _ => exact ⟨hi', hrest'⟩
termination_by structural is => is
end

end Instruction

/-- **No selector of the plan leaves the loop that it is about**, and loops are deeper the further in they stand. -/
def Plan.WellScoped (p : Plan) : Prop := Instruction.ScopedAll [] p.body

theorem Plan.WellScoped.folded {p : Plan} (h : p.WellScoped) : p.folded.WellScoped := Instruction.scopedAll_fold p.body h

/-! ## Variables of the loops around -/

def Loop.BoundIn (whole : Value) (s : State) : Loop → Prop
  | elements depth => ∃ x, s.elems.lookup depth = some x
  | entries source depth => ∃ k pairs x, s.keys.lookup depth = some k ∧ source.resolve whole s = .ok (.map pairs) ∧
    Value.valueAt? k pairs = some x

def State.AgreeOn (around : List Loop) (s s' : State) : Prop :=
  ∀ l ∈ around, s'.elems.lookup l.depth = s.elems.lookup l.depth ∧ s'.keys.lookup l.depth = s.keys.lookup l.depth

/-- The loops around are bound, and the maps among them are found by what is bound further out. -/
structure Bound (whole : Value) (around : List Loop) (s : State) : Prop where
  sources : ∀ source depth, .entries source depth ∈ around → source.ScopedIn around
  bound : ∀ l ∈ around, l.BoundIn whole s

section

variable {whole : Value} {around : List Loop} {s s' s'' : State}

theorem State.AgreeOn.refl (around : List Loop) (s : State) : AgreeOn around s s := fun _ _ => ⟨rfl, rfl⟩

theorem State.AgreeOn.trans (h : AgreeOn around s s') (h' : AgreeOn around s' s'') : AgreeOn around s s'' :=
  fun l hl => ⟨(h' l hl).1.trans (h l hl).1, (h' l hl).2.trans (h l hl).2⟩

theorem State.AgreeOn.of_cons {l : Loop} (h : AgreeOn (l :: around) s s') : AgreeOn around s s' :=
  fun l hl => h l (List.mem_cons_of_mem _ hl)

theorem State.agreeOn_bindElem {depth : Nat} (hdeep : ∀ l ∈ around, l.depth < depth) (s : State) (x : Value) :
    AgreeOn around s (s.bindElem depth x) :=
  fun l hl => ⟨Slots.lookup_bind_of_ne s.elems x (Nat.ne_of_lt (hdeep l hl)), rfl⟩

theorem State.agreeOn_bindKey {depth : Nat} (hdeep : ∀ l ∈ around, l.depth < depth) (s : State) (k : Bytes) :
    AgreeOn around s (s.bindKey depth k) :=
  fun l hl => ⟨rfl, Slots.lookup_bind_of_ne s.keys k (Nat.ne_of_lt (hdeep l hl))⟩

theorem State.agreeOn_unbindElem {depth : Nat} (hdeep : ∀ l ∈ around, l.depth < depth) (s : State) :
    AgreeOn around s (s.unbindElem depth) :=
  fun l hl => ⟨Slots.lookup_filter_ne s.elems (Nat.ne_of_lt (hdeep l hl)), rfl⟩

theorem State.agreeOn_unbindKey {depth : Nat} (hdeep : ∀ l ∈ around, l.depth < depth) (s : State) :
    AgreeOn around s (s.unbindKey depth) :=
  fun l hl => ⟨rfl, Slots.lookup_filter_ne s.keys (Nat.ne_of_lt (hdeep l hl))⟩

namespace Selector

theorem ScopedIn.cons (l : Loop) : ∀ (source : Selector), source.ScopedIn around → source.ScopedIn (l :: around)
  | root, _ => trivial
  | field base _, ⟨hpart, hbase⟩ => ⟨hpart, ScopedIn.cons l base hbase⟩
  | deref base, hbase | seconds base, hbase => ScopedIn.cons l base hbase
  | elem _, hm => List.mem_cons_of_mem _ hm
  | key _, ⟨source, hm⟩ => ⟨source, List.mem_cons_of_mem _ hm⟩
  | value base _, ⟨hm, hpart, hbase⟩ => ⟨List.mem_cons_of_mem _ hm, hpart, ScopedIn.cons l base hbase⟩

/-- **What is found by the variables of the loops around** is the same wherever these are. -/
theorem resolve_of_agreeOn (h : State.AgreeOn around s s') : ∀ (source : Selector), source.ScopedIn around →
    source.resolve whole s' = source.resolve whole s
  | root, _ => rfl
  | field base _, ⟨_, hbase⟩ => by rw [resolve, resolve, resolve_of_agreeOn h base hbase]
  | deref base, hbase => by rw [resolve, resolve, resolve_of_agreeOn h base hbase]
  | seconds base, hbase => by rw [resolve, resolve, resolve_of_agreeOn h base hbase]
  | elem depth, hm => by
    have helem : s'.elems.lookup depth = s.elems.lookup depth := (h _ hm).1
    rw [resolve, resolve, helem]
  | key depth, ⟨_, hm⟩ => by
    have hkey : s'.keys.lookup depth = s.keys.lookup depth := (h _ hm).2
    rw [resolve, resolve, keyAt, keyAt, hkey]
  | value base depth, ⟨hm, _, hbase⟩ => by
    have hkey : s'.keys.lookup depth = s.keys.lookup depth := (h _ hm).2
    rw [resolve, resolve, resolve_of_agreeOn h base hbase, keyAt, keyAt, hkey]

end Selector

/-! ## Bound states -/

theorem Bound.start (whole : Value) (room : Option Nat) : Bound whole [] (.start room) :=
  ⟨fun _ _ hm => (nomatch hm), fun _ hl => (nomatch hl)⟩

theorem Bound.of_agreeOn (hb : Bound whole around s) (h : State.AgreeOn around s s') : Bound whole around s' := by
  refine ⟨hb.sources, fun l hl => ?_⟩
  obtain ⟨helem, hkey⟩ := h l hl
  have hbound := hb.bound l hl
  cases l with
  | elements depth =>
    obtain ⟨x, hx⟩ := hbound
    exact ⟨x, helem.trans hx⟩
  | entries source depth =>
    obtain ⟨k, pairs, x, hk, hfound, hx⟩ := hbound
    exact ⟨k, pairs, x, hkey.trans hk, (Selector.resolve_of_agreeOn h source (hb.sources source depth hl)).trans hfound, hx⟩

theorem Bound.cons (hb : Bound whole around s) {l : Loop} (hl : l.BoundIn whole s)
    (hsource : ∀ source depth, l = .entries source depth → source.ScopedIn around) : Bound whole (l :: around) s := by
  constructor
  · intro source depth hm
    rcases List.mem_cons.1 hm with heq | hm
    · exact .cons _ _ (hsource source depth heq.symm)
    · exact .cons _ _ (hb.sources source depth hm)
  · intro l' hl'
    rcases List.mem_cons.1 hl' with rfl | hl'
    · exact hl
    · exact hb.bound l' hl'

theorem Bound.bindElem (hb : Bound whole around s) {depth : Nat} (hdeep : ∀ l ∈ around, l.depth < depth) (x : Value) :
    Bound whole (.elements depth :: around) (s.bindElem depth x) :=
  (hb.of_agreeOn (State.agreeOn_bindElem hdeep s x)).cons ⟨x, Slots.lookup_bind_self s.elems depth x⟩
    fun _ _ heq => nomatch heq

theorem Bound.bindKey (hb : Bound whole around s) {depth : Nat} (hdeep : ∀ l ∈ around, l.depth < depth)
    {source : Selector} (hsource : source.ScopedIn around) {pairs : List (Value × Value)}
    (hfound : source.resolve whole s = .ok (.map pairs)) {k : Bytes} {x : Value} (hx : Value.valueAt? k pairs = some x) :
    Bound whole (.entries source depth :: around) (s.bindKey depth k) := by
  have hagree := State.agreeOn_bindKey hdeep s k
  -- binding a key further in does not move the map that the loop is over
  have hfound' := (Selector.resolve_of_agreeOn hagree source hsource).trans hfound
  refine (hb.of_agreeOn hagree).cons ⟨k, pairs, x, Slots.lookup_bind_self s.keys depth k, hfound', hx⟩ ?_
  intro source' d heq
  cases heq
  exact hsource

end

/-! ## What is found -/

def Placed {α : Type} (found : Except RunError α) : Prop := ∀ e, found = .error e → e.isMisplaced = false

section

variable {α β : Type}

theorem placed_ok (a : α) : Placed (.ok a : Except RunError α) := fun _ h => nomatch h

theorem placed_error {e : RunError} (h : e.isMisplaced = false) : Placed (.error e : Except RunError α) := by
  intro e' he
  cases he
  exact h

theorem placed_mismatch {expected : String} (h : expected ≠ "addressable value") (source : Selector) (v : Value) :
    Placed (.error (.mismatch source expected v) : Except RunError α) :=
  placed_error (by simp [RunError.mismatch, RunError.isMisplaced, h])

theorem exists_of_bind_eq_ok {found : Except RunError α} {next : α → Except RunError β} {b : β}
    (h : found >>= next = .ok b) : ∃ a, found = .ok a ∧ next a = .ok b := by
  cases found with
  | ok a => exact ⟨a, rfl, h⟩
  | error e => cases h

theorem Placed.bind {found : Except RunError α} {next : α → Except RunError β} (h : Placed found)
    (hnext : ∀ a, found = .ok a → Placed (next a)) : Placed (found >>= next) := by
  cases found with
  | ok a => exact hnext a rfl
  | error e => exact placed_error (h e rfl)

end

namespace Selector

variable {whole : Value} {around : List Loop} {s : State}

theorem addressed_of_not_computed {source : Selector} (h : source.isComputed = false) (v : Value) :
    source.addressed v = .ok v := by simp [addressed, h]

/-- **A selector in scope** finds a value, or the value is at fault. -/
theorem resolve_placed (hb : Bound whole around s) : ∀ (source : Selector), source.ScopedIn around →
    Placed (source.resolve whole s)
  | root, _ => placed_ok _
  | field base name, ⟨hpart, hbase⟩ => by
    rw [resolve]
    refine (resolve_placed hb base hbase).bind fun v _ => ?_
    rw [addressed_of_not_computed hpart]
    change Placed (base.fieldOf name v)
    unfold fieldOf
    split
    · split
      · exact placed_ok _
      · exact placed_error rfl
    · exact placed_mismatch (by decide) _ _
  | deref base, hbase => by
    rw [resolve]
    refine (resolve_placed hb base hbase).bind fun v _ => ?_
    split
    · exact placed_error rfl
    · exact placed_ok _
  | seconds base, hbase => by
    rw [resolve]
    refine (resolve_placed hb base hbase).bind fun v _ => ?_
    split
    · exact placed_ok _
    · exact placed_mismatch (by decide) _ _
  | elem depth, hm => by
    obtain ⟨x, hx⟩ := hb.bound _ hm
    simp only [resolve, hx]
    exact placed_ok _
  | key depth, ⟨_, hm⟩ => by
    obtain ⟨k, _, _, hk, -⟩ := hb.bound _ hm
    simp only [resolve, keyAt, hk]
    exact placed_ok _
  | value base depth, ⟨hm, hpart, _⟩ => by
    obtain ⟨k, pairs, x, hk, hfound, hx⟩ := hb.bound _ hm
    have hvalue : (value base depth).resolve whole s = .ok x := by
      simp only [resolve, hfound, addressed_of_not_computed hpart, keyAt, hk, entryOf, hx, bind, Except.bind]
    rw [hvalue]
    exact placed_ok _

theorem resolveAddressed_of_not_computed {source : Selector} (h : source.isComputed = false) :
    source.resolveAddressed whole s = source.resolve whole s := by
  unfold resolveAddressed
  simp only [addressed_of_not_computed h]
  cases source.resolve whole s <;> rfl

end Selector

namespace Instruction

variable {source : Selector}

theorem boolBytes_placed (v : Value) : Placed (boolBytes source v) := by
  cases v <;> first | exact placed_ok _ | exact placed_mismatch (by decide) _ _

theorem intBytes_placed (v : Value) : Placed (intBytes source v) := by
  cases v <;> first | exact placed_ok _ | exact placed_mismatch (by decide) _ _

theorem stringBytes_placed (v : Value) : Placed (stringBytes source v) := by
  cases v <;> first | exact placed_ok _ | exact placed_mismatch (by decide) _ _

theorem nativeBytes_placed (v : Value) : Placed (nativeBytes source v) := by
  cases v <;> first | exact placed_ok _ | exact placed_mismatch (by decide) _ _

theorem elementsOf_placed (v : Value) : Placed (elementsOf source v) := by
  cases v <;> first | exact placed_ok _ | exact placed_mismatch (by decide) _ _

theorem keysOfPairs_placed : ∀ pairs : List (Value × Value), Placed (keysOfPairs source pairs)
  | [] => placed_ok _
  | (k, _) :: rest => by
    cases k with
    | string k => exact (keysOfPairs_placed rest).bind fun _ _ => placed_ok _
    | _ => exact placed_mismatch (by decide) _ _

theorem sortedKeysOf_placed (v : Value) : Placed (sortedKeysOf source v) := by
  cases v with
  | map pairs => exact (keysOfPairs_placed pairs).bind fun _ _ => placed_ok _
  | _ => exact placed_mismatch (by decide) _ _

theorem isPresent_placed (test : EmptinessTest) (v : Value) : Placed (test.isPresent source v) := by
  cases test <;> cases v <;> first | exact placed_ok _ | exact placed_mismatch (by decide) _ _

theorem exists_valueAt : ∀ {pairs : List (Value × Value)} {keys : List Bytes}, keysOfPairs source pairs = .ok keys →
    ∀ {k : Bytes}, k ∈ keys → ∃ x, Value.valueAt? k pairs = some x
  | [], _, h, k, hk => by
    cases h
    cases hk
  | (key, v) :: rest, keys, h, k, hk => by
    cases key with
    | string k' =>
      obtain ⟨ks, hks, h⟩ := exists_of_bind_eq_ok h
      cases h
      rw [Value.valueAt?]
      by_cases hkk : k' = k
      · exact ⟨v, if_pos hkk⟩
      · obtain ⟨x, hx⟩ := exists_valueAt hks ((List.mem_cons.1 hk).resolve_left (Ne.symm hkk))
        exact ⟨x, (if_neg hkk).trans hx⟩
    | _ => cases h

theorem exists_pairs {found : Except RunError Value} {keys : List Bytes} (h : found >>= sortedKeysOf source = .ok keys) :
    ∃ pairs, found = .ok (.map pairs) ∧ ∀ k ∈ keys, ∃ x, Value.valueAt? k pairs = some x := by
  obtain ⟨v, hv, h⟩ := exists_of_bind_eq_ok h
  cases v with
  | map pairs =>
    obtain ⟨ks, hks, h⟩ := exists_of_bind_eq_ok h
    cases h
    exact ⟨pairs, hv, fun k hk => exists_valueAt hks (List.mem_mergeSort.1 hk)⟩
  | _ => cases h

end Instruction

/-! ## Runs -/

namespace Step

structure InScope (around : List Loop) (s : State) (a : Step) : Prop where
  error : ∀ e, a.error? = some e → e.isMisplaced = false
  agree : State.AgreeOn around s a.state

variable {around : List Loop} {s : State}

theorem inScope_done {s' : State} (h : State.AgreeOn around s s') : InScope around s (done s') :=
  ⟨fun _ he => (nomatch he), h⟩

theorem inScope_write (bytes : Bytes) : InScope around s (write bytes s) := by
  unfold write
  split
  · exact ⟨fun _ he => (nomatch he), .refl around s⟩
  · split
    · exact ⟨fun _ he => (nomatch he), .refl around s⟩
    · refine ⟨fun e he => ?_, .refl around s⟩
      cases he
      rfl

theorem InScope.andThen {a : Step} {f : State → Step} (h : InScope around s a)
    (hf : ∀ s', State.AgreeOn around s s' → InScope around s' (f s')) : InScope around s (a.andThen f) := by
  cases he : a.error? with
  | some e =>
    rw [andThen_of_error he]
    exact h
  | none =>
    have hnext := hf a.state h.agree
    rw [andThen_of_none he]
    exact ⟨hnext.error, h.agree.trans hnext.agree⟩

theorem inScope_withValue {α : Type} {found : Except RunError α} {next : α → Step} (h : Placed found)
    (hnext : ∀ a, found = .ok a → InScope around s (next a)) : InScope around s (withValue s found next) := by
  cases found with
  | ok a => exact hnext a rfl
  | error e =>
    refine ⟨fun e' he => ?_, .refl around s⟩
    cases he
    exact h e rfl

/-- **The turns of a loop**, which all begin with the same variables of the loops around. -/
theorem inScope_each {α : Type} {body : α → State → Step} : ∀ {items : List α} {s : State},
    (∀ x ∈ items, ∀ s', State.AgreeOn around s s' → InScope around s' (body x s')) → InScope around s (each body items s)
  | [], s, _ => inScope_done (.refl around s)
  | x :: rest, s, h => by
    rw [each]
    refine (h x List.mem_cons_self s (.refl around s)).andThen fun s' hs' => inScope_each fun y hy s'' hs'' => ?_
    exact h y (List.mem_cons_of_mem _ hy) s'' (hs'.trans hs'')

theorem InScope.of_turn {l : Loop} {s' : State} {a : Step} (hbind : State.AgreeOn around s s') (h : InScope (l :: around) s' a) :
    InScope around s a :=
  ⟨h.error, hbind.trans h.agree.of_cons⟩

end Step

namespace Instruction

open Step

variable {whole : Value}

theorem inScope_found {α : Type} {around : List Loop} {s : State} (hb : Bound whole around s) {source : Selector}
    (hsource : source.ScopedIn around) {ask : Value → Except RunError α} (hask : ∀ v, Placed (ask v)) {next : α → Step}
    (hnext : ∀ a, source.resolve whole s >>= ask = .ok a → InScope around s (next a)) :
    InScope around s (withValue s (source.resolve whole s >>= ask) next) :=
  inScope_withValue ((Selector.resolve_placed hb source hsource).bind fun v _ => hask v) hnext

mutual
theorem run_inScope : ∀ (i : Instruction) {around : List Loop} {s : State}, i.ScopedIn around → Bound whole around s →
    InScope around s (i.run whole s)
  | .literal bytes, _, _, _, _ => inScope_write bytes
  | .bool _, _, _, hsource, hb => inScope_found hb hsource boolBytes_placed fun _ _ => inScope_write _
  | .int _, _, _, hsource, hb => inScope_found hb hsource intBytes_placed fun _ _ => inScope_write _
  | .string _, _, _, hsource, hb => inScope_found hb hsource stringBytes_placed fun _ _ => inScope_write _
  | .native _, _, _, hsource, hb => inScope_found hb hsource nativeBytes_placed fun _ _ => inScope_write _
  | .list source depth body, around, s, ⟨hpart, hsource, hdeep, hbody⟩, hb => by
    rw [run, Selector.resolveAddressed_of_not_computed hpart]
    refine inScope_found hb hsource elementsOf_placed fun items _ => ?_
    -- turns before may have left anything in the variables of deeper loops
    have hturn : ∀ x ∈ items, ∀ s', State.AgreeOn around s s' →
        InScope around s' (runAll whole body (s'.bindElem depth x)) := fun x _ s' hs' =>
      .of_turn (State.agreeOn_bindElem hdeep s' x) (runAll_inScope body hbody ((hb.of_agreeOn hs').bindElem hdeep x))
    exact (inScope_each hturn).andThen fun s' _ => inScope_done (State.agreeOn_unbindElem hdeep s')
  | .map source depth cast body, around, s, ⟨hpart, hsource, hdeep, hbody⟩, hb => by
    rw [run, Selector.resolveAddressed_of_not_computed hpart]
    refine inScope_found hb hsource sortedKeysOf_placed fun keys hkeys => ?_
    -- the loop is run over keys of the map that is found at its selector
    obtain ⟨pairs, hfound, hmem⟩ := exists_pairs hkeys
    have hturn : ∀ k ∈ keys, ∀ s', State.AgreeOn around s s' →
        InScope around s' (runAll whole body (s'.bindKey depth k)) := by
      intro k hk s' hs'
      obtain ⟨x, hx⟩ := hmem k hk
      have hfound' := (Selector.resolve_of_agreeOn hs' source hsource).trans hfound
      exact .of_turn (State.agreeOn_bindKey hdeep s' k)
        (runAll_inScope body hbody ((hb.of_agreeOn hs').bindKey hdeep hsource hfound' hx))
    exact (inScope_each hturn).andThen fun s' _ => inScope_done (State.agreeOn_unbindKey hdeep s')
  | .when source test body, around, s, ⟨hsource, hbody⟩, hb => by
    rw [run]
    refine inScope_found hb hsource (isPresent_placed test) fun present _ => ?_
    cases present with
    | true => exact runAll_inScope body hbody hb
    | false => exact inScope_done (.refl around s)
termination_by structural i => i

theorem runAll_inScope : ∀ (is : List Instruction) {around : List Loop} {s : State}, ScopedAll around is →
    Bound whole around s → InScope around s (runAll whole is s)
  | [], around, s, _, _ => inScope_done (.refl around s)
  | i :: is, _, _, ⟨hi, his⟩, hb =>
    (run_inScope i hi hb).andThen fun _ hs' => runAll_inScope is his (hb.of_agreeOn hs')
termination_by structural is => is
end

end Instruction

/-- **No run of a well-scoped plan fails through the fault of the plan**, whatever the value and the output are. -/
theorem Plan.WellScoped.not_misplaced {p : Plan} (h : p.WellScoped) (v : Value) (room : Option Nat) :
    ∀ e, (p.run v room).error? = some e → e.isMisplaced = false :=
  (Instruction.runAll_inScope p.body h (Bound.start v room)).error

end BencodePlan
