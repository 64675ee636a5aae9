import BencodePlan.Proofs.Types.Meaning
import BencodePlan.Proofs.Pairs
/-!
# Any operations on a table

The three lists of a table stay in step under every sequence of operations, in any order and with any descriptors but
declared ones (`Consistent`).  `Steps` lists what one operation can do; whatever is done, a structural type stays where it
is and a declared one keeps its name and its kind (`Steps.grows`), so each answer that was given holds for ever after
(`holds_of_mem_performAll`).
-/
namespace BencodePlan

def TypeDesc.declaration (name : String) (isNative : Bool) (body : Option TypeId) : TypeDesc :=
  if isNative then .native ⟨name, body⟩ else .named ⟨name, body⟩

theorem TypeDesc.declared?_declaration (name : String) (isNative : Bool) (body : Option TypeId) :
    (declaration name isNative body).declared? = some ⟨name, body⟩ := by
  cases isNative <;> rfl

theorem TypeDesc.isDeclared_declaration (name : String) (isNative : Bool) (body : Option TypeId) :
    (declaration name isNative body).isDeclared = true := by
  cases isNative <;> rfl

theorem TypeDesc.withBody_declaration (name : String) (isNative : Bool) (body : Option TypeId) (id : TypeId) :
    (declaration name isNative body).withBody id = declaration name isNative (some id) := by
  cases isNative <;> rfl

namespace TypeTable

/-- **An operation on a table.**  Declared descriptors get in by declarations only. -/
inductive Operation
  | intern (d : TypeDesc) (structural : d.isDeclared = false)
  | declare (name : String) (isNative : Bool)
  | define (id body : TypeId)

inductive Event
  | interned (d : TypeDesc) (id : TypeId)
  | declared (name : String) (isNative : Bool) (id : TypeId)
  /-- The name was taken. -/
  | refused (name : String)
  | defined (id body : TypeId) (done : Bool)

/-- **One operation**, with its answer and the table after it. -/
def Operation.perform (t : TypeTable) : Operation → Event × TypeTable
  | intern d _ => (.interned d (t.intern d).1, (t.intern d).2)
  | declare name isNative =>
    match t.declare name isNative with
    | some (id, t') => (.declared name isNative id, t')
    | none => (.refused name, t)
  | define id body => (.defined id body (t.define id body).1, (t.define id body).2)

def performAll (t : TypeTable) : List Operation → List Event × TypeTable
  | [] => ([], t)
  | op :: rest =>
    ((op.perform t).1 :: (performAll (op.perform t).2 rest).1, (performAll (op.perform t).2 rest).2)

def eventsOf (ops : List Operation) : List Event := (performAll .empty ops).1

/-- **The table after some operations**, beginning with an empty one. -/
def tableAfter (ops : List Operation) : TypeTable := (performAll .empty ops).2

def Event.entered? : Event → Option (String × TypeId)
  | declared name _ id => some (name, id)
  | interned .. | refused _ | defined .. => none

/-! ## One operation -/

/-- **What an operation can do.** -/
inductive Steps (t : TypeTable) : Event → TypeTable → Prop
  | found {d : TypeDesc} {id : TypeId} : t.interned.lookup d = some id → Steps t (.interned d id) t
  | added {d : TypeDesc} : d.isDeclared = false → t.interned.lookup d = none →
    Steps t (.interned d t.size) ⟨t.types ++ [d], t.interned ++ [(d, t.size)], t.names⟩
  | declared {name : String} {isNative : Bool} : t.lookup name = none →
    Steps t (.declared name isNative t.size)
      ⟨t.types ++ [.declaration name isNative none], t.interned, t.names ++ [(name, t.size)]⟩
  | refused {name : String} : (t.lookup name).isSome = true → Steps t (.refused name) t
  | defined {id body : TypeId} {d : TypeDesc} : t.get? id = some d → d.isDeclared = true →
    Steps t (.defined id body true) (t.define id body).2
  | undefined {id body : TypeId} : t.declared? id = none → Steps t (.defined id body false) t

variable {t t' : TypeTable} {e : Event}

theorem perform_declare_of_isSome {name : String} (h : (t.lookup name).isSome = true) (isNative : Bool) :
    (Operation.declare name isNative).perform t = (.refused name, t) := by
  rw [Operation.perform, TypeTable.declare, if_pos h]

theorem perform_declare_of_none {name : String} (h : t.lookup name = none) (isNative : Bool) :
    (Operation.declare name isNative).perform t = (.declared name isNative t.size,
      ⟨t.types ++ [.declaration name isNative none], t.interned, t.names ++ [(name, t.size)]⟩) := by
  have hfree : ¬ (t.lookup name).isSome = true := by simp [h]
  rw [Operation.perform, TypeTable.declare, if_neg hfree]
  rfl

theorem steps_perform (t : TypeTable) (op : Operation) : Steps t (op.perform t).1 (op.perform t).2 := by
  cases op with
  | intern d hd =>
    rw [Operation.perform, TypeTable.intern]
    cases hl : t.interned.lookup d with
    | some id => exact .found hl
    | none => exact .added hd hl
  | declare name isNative =>
    cases hl : t.lookup name with
    | some id =>
      have htaken : (t.lookup name).isSome = true := by rw [hl]; rfl
      rw [perform_declare_of_isSome htaken]
      exact .refused htaken
    | none =>
      rw [perform_declare_of_none hl]
      exact .declared hl
  | define id body =>
    rw [Operation.perform]
    cases hdecl : t.declared? id with
    | none =>
      rw [define_of_not_declared hdecl]
      exact .undefined hdecl
    | some d =>
      obtain ⟨c, hget, hc⟩ := exists_of_declared? hdecl
      have hdone : (t.define id body).1 = true := by rw [define_of_declared hget hc]
      rw [hdone]
      exact .defined hget hc

/-! ## What stays -/

/-- **How a table changes under operations.** -/
structure Grows (t t' : TypeTable) : Prop where
  structural : ∀ {id d}, t.get? id = some d → d.isDeclared = false → t'.get? id = some d
  declaration : ∀ {id name isNative body}, t.get? id = some (.declaration name isNative body) →
    ∃ body', t'.get? id = some (.declaration name isNative body')
  names : t.names <+: t'.names

theorem Grows.refl (t : TypeTable) : t.Grows t := ⟨fun h _ => h, fun h => ⟨_, h⟩, List.prefix_rfl⟩

theorem Grows.of_kept (h : ∀ {id d}, t.get? id = some d → t'.get? id = some d) (hnames : t.names <+: t'.names) :
    t.Grows t' :=
  ⟨fun hd _ => h hd, fun hd => ⟨_, h hd⟩, hnames⟩

/-- **Types stay where they are**, but for the bodies of declared ones. -/
theorem Steps.grows (h : Steps t e t') : t.Grows t' := by
  cases h with
  | found | refused | undefined => exact Grows.refl t
  | added => exact .of_kept (fun hd => get?_push_of_some hd ..) List.prefix_rfl
  | declared => exact .of_kept (fun hd => get?_push_of_some hd ..) (List.prefix_append _ _)
  | @defined id body d hget hd =>
    have hat := get?_define hget hd body
    refine ⟨fun {i c} hi hc => ?_, fun {i name isNative body'} hi => ?_, ?_⟩
    · rw [hat, if_neg, hi]
      rintro rfl
      rw [hget] at hi
      cases hi
      rw [hd] at hc
      cases hc
    · rw [hat]
      split
      · rename_i heq
        subst heq
        rw [hget] at hi
        cases hi
        exact ⟨some body, by rw [TypeDesc.withBody_declaration]⟩
      · exact ⟨body', hi⟩
    · rw [names_define]

/-! ## The three lists -/

/-- **The lists of a table are in step.**  The structural types are the interned ones and the names are those of the
declared types, and nothing is there twice. -/
structure Consistent (t : TypeTable) : Prop where
  interned_iff : ∀ {d id}, (d, id) ∈ t.interned ↔ t.get? id = some d ∧ d.isDeclared = false
  interned_nodup : (t.interned.map Prod.fst).Nodup
  names_iff : ∀ {name id}, (name, id) ∈ t.names ↔ t.nameOf id = some name
  names_nodup : (t.names.map Prod.fst).Nodup

theorem nameOf_of_get? {id : TypeId} {d : TypeDesc} (h : t.get? id = some d) :
    t.nameOf id = d.declared?.map Declared.name := by
  rw [nameOf, declared?_of_get? h]

theorem nameOf_of_le {id : TypeId} (h : t.size ≤ id) : t.nameOf id = none := by
  have hget : t.get? id = none := List.getElem?_eq_none_iff.2 h
  rw [nameOf, declared?, hget]
  rfl

theorem nameOf_push (t : TypeTable) (d : TypeDesc) (ins : List (TypeDesc × TypeId)) (ns : List (String × TypeId))
    (id : TypeId) : (⟨t.types ++ [d], ins, ns⟩ : TypeTable).nameOf id =
      if id = t.size then d.declared?.map Declared.name else t.nameOf id := by
  unfold nameOf declared?
  rw [get?_push]
  split <;> rfl

namespace Consistent

theorem empty : Consistent .empty where
  interned_iff := iff_of_false List.not_mem_nil (by rintro ⟨⟨⟩, -⟩)
  interned_nodup := List.nodup_nil
  names_iff := iff_of_false List.not_mem_nil (by rintro ⟨⟩)
  names_nodup := List.nodup_nil

theorem added (h : t.Consistent) {d : TypeDesc} (hd : d.isDeclared = false) (hl : t.interned.lookup d = none) :
    Consistent ⟨t.types ++ [d], t.interned ++ [(d, t.size)], t.names⟩ := by
  refine ⟨fun {c id} => ?_, Pairs.nodup_concat h.interned_nodup hl _, fun {name id} => ?_, h.names_nodup⟩
  · rw [List.mem_append, List.mem_singleton, h.interned_iff, get?_push, Prod.mk.injEq]
    by_cases hid : id = t.size
    · subst hid
      have hnone : t.get? t.size = none := List.getElem?_eq_none_iff.2 (Nat.le_refl _)
      simp only [hnone, reduceCtorEq, false_and, false_or, and_true, if_true, Option.some.injEq]
      refine ⟨?_, fun hc => hc.1.symm⟩
      rintro rfl
      exact ⟨rfl, hd⟩
    · simp only [hid, and_false, or_false, if_false]
  · rw [h.names_iff, nameOf_push]
    by_cases hid : id = t.size
    · have hnone : d.declared? = none := Option.not_isSome_iff_eq_none.1 (Bool.eq_false_iff.1 hd)
      rw [if_pos hid, nameOf_of_le (Nat.le_of_eq hid.symm), hnone]
      rfl
    · rw [if_neg hid]

theorem declared (h : t.Consistent) {name : String} (hl : t.lookup name = none) (isNative : Bool) :
    Consistent ⟨t.types ++ [.declaration name isNative none], t.interned, t.names ++ [(name, t.size)]⟩ := by
  refine ⟨fun {c id} => ?_, h.interned_nodup, fun {name' id} => ?_, Pairs.nodup_concat h.names_nodup hl _⟩
  · rw [h.interned_iff, get?_push]
    by_cases hid : id = t.size
    · have hnone : t.get? id = none := List.getElem?_eq_none_iff.2 (Nat.le_of_eq hid.symm)
      rw [if_pos hid, hnone]
      refine iff_of_false (fun hno => nomatch hno.1) ?_
      rintro ⟨heq, hc⟩
      rw [← Option.some.inj heq, TypeDesc.isDeclared_declaration] at hc
      cases hc
    · rw [if_neg hid]
  · rw [List.mem_append, List.mem_singleton, h.names_iff, nameOf_push, Prod.mk.injEq]
    by_cases hid : id = t.size
    · rw [if_pos hid, nameOf_of_le (Nat.le_of_eq hid.symm), TypeDesc.declared?_declaration]
      simp only [reduceCtorEq, false_or, hid, and_true, Option.map_some, Option.some.injEq]
      exact eq_comm
    · simp only [hid, and_false, or_false, if_false]

theorem nameOf_define {id : TypeId} {d : TypeDesc} (hget : t.get? id = some d) (hd : d.isDeclared = true)
    (body i : TypeId) : (t.define id body).2.nameOf i = t.nameOf i := by
  unfold nameOf
  rw [declared?_define hget hd]
  split
  · rw [Option.map_map]
    rfl
  · rfl

theorem defined (h : t.Consistent) {id : TypeId} {d : TypeDesc} (hget : t.get? id = some d) (hd : d.isDeclared = true)
    (body : TypeId) : (t.define id body).2.Consistent := by
  refine ⟨fun {c i} => ?_, by rw [interned_define]; exact h.interned_nodup, fun {name i} => ?_,
    by rw [names_define]; exact h.names_nodup⟩
  · rw [interned_define, h.interned_iff, get?_define hget hd]
    by_cases hi : id = i
    · subst hi
      -- a declared type is at this place before and after, so neither side holds
      rw [if_pos rfl, hget]
      refine iff_of_false ?_ ?_
      · rintro ⟨heq, hc⟩
        rw [← Option.some.inj heq, hd] at hc
        cases hc
      · rintro ⟨heq, hc⟩
        rw [← Option.some.inj heq, TypeDesc.isDeclared_withBody, hd] at hc
        cases hc
    · rw [if_neg hi]
  · rw [names_define, h.names_iff, nameOf_define hget hd]

/-- **Every operation keeps the lists in step.** -/
theorem steps (h : t.Consistent) (hs : Steps t e t') : t'.Consistent := by
  cases hs with
  | found | refused | undefined => exact h
  | added hd hl => exact h.added hd hl
  | declared hl => exact h.declared hl _
  | defined hget hd => exact h.defined hget hd _

theorem lookup_interned (h : t.Consistent) {id : TypeId} {d : TypeDesc} (hget : t.get? id = some d)
    (hd : d.isDeclared = false) : t.interned.lookup d = some id :=
  (Pairs.lookup_eq_some_iff_mem h.interned_nodup).2 (h.interned_iff.2 ⟨hget, hd⟩)

theorem lookup_iff (h : t.Consistent) {name : String} {id : TypeId} :
    t.lookup name = some id ↔ t.nameOf id = some name :=
  (Pairs.lookup_eq_some_iff_mem h.names_nodup).trans h.names_iff

end Consistent

/-! ## Histories -/

/-- **What an answer says** of a table. -/
def Event.Holds (t : TypeTable) : Event → Prop
  | interned d id => t.get? id = some d ∧ d.isDeclared = false
  | declared name isNative id => ∃ body, t.get? id = some (.declaration name isNative body)
  | refused name => name ∈ t.names.map Prod.fst
  | defined .. => True

theorem Event.Holds.grows (h : e.Holds t) (hg : t.Grows t') : e.Holds t' := by
  cases e with
  | interned d id => exact ⟨hg.structural h.1 h.2, h.2⟩
  | declared name isNative id =>
    obtain ⟨body, hget⟩ := h
    exact hg.declaration hget
  | refused name => exact (hg.names.map Prod.fst).subset h
  | defined => trivial

theorem Grows.trans {t'' : TypeTable} (h : t.Grows t') (h' : t'.Grows t'') : t.Grows t'' where
  structural hget hd := h'.structural (h.structural hget hd) hd
  declaration hget := (h.declaration hget).elim fun _ hget' => h'.declaration hget'
  names := h.names.trans h'.names

/-- **Each answer is right** when it is given. -/
theorem Consistent.holds (h : t.Consistent) (hs : Steps t e t') : e.Holds t' := by
  cases hs with
  | found hl => exact h.interned_iff.1 ((Pairs.lookup_eq_some_iff_mem h.interned_nodup).1 hl)
  | added hd => exact ⟨by rw [get?_push, if_pos rfl], hd⟩
  | declared => exact ⟨none, by rw [get?_push, if_pos rfl]⟩
  | refused htaken =>
    obtain ⟨id, hl⟩ := Option.isSome_iff_exists.1 htaken
    exact List.mem_map_of_mem (f := Prod.fst) ((Pairs.lookup_eq_some_iff_mem h.names_nodup).1 hl)
  | defined | undefined => trivial

theorem Steps.names (hs : Steps t e t') : t'.names = t.names ++ e.entered?.toList := by
  cases hs with
  | found | added | refused | undefined => exact (List.append_nil _).symm
  | declared => rfl
  | defined hget hd =>
    rw [names_define]
    exact (List.append_nil _).symm

theorem consistent_performAll (h : t.Consistent) (ops : List Operation) : (performAll t ops).2.Consistent := by
  induction ops generalizing t with
  | nil => exact h
  | cons op rest ih => exact ih (h.steps (steps_perform t op))

theorem grows_performAll (t : TypeTable) (ops : List Operation) : t.Grows (performAll t ops).2 := by
  induction ops generalizing t with
  | nil => exact Grows.refl t
  | cons op rest ih => exact (steps_perform t op).grows.trans (ih _)

theorem names_performAll (t : TypeTable) (ops : List Operation) :
    (performAll t ops).2.names = t.names ++ (performAll t ops).1.filterMap Event.entered? := by
  induction ops generalizing t with
  | nil => exact (List.append_nil _).symm
  | cons op rest ih =>
    rw [performAll, ih, (steps_perform t op).names, List.append_assoc, List.filterMap_cons]
    cases (op.perform t).1.entered? <;> rfl

/-- **Each answer stays right.**  It is right when it is given, and what it says outlasts whatever is done later. -/
theorem holds_of_mem_performAll (h : t.Consistent) {ops : List Operation} (he : e ∈ (performAll t ops).1) :
    e.Holds (performAll t ops).2 := by
  induction ops generalizing t with
  | nil => nomatch he
  | cons op rest ih =>
    have hs := steps_perform t op
    rcases List.mem_cons.1 he with rfl | he
    · exact (h.holds hs).grows (grows_performAll _ rest)
    · exact ih (h.steps hs) he

/-! ## From an empty table -/

theorem consistent_tableAfter (ops : List Operation) : (tableAfter ops).Consistent :=
  consistent_performAll .empty ops

theorem names_tableAfter (ops : List Operation) : (tableAfter ops).names = (eventsOf ops).filterMap Event.entered? :=
  (names_performAll .empty ops).trans (List.nil_append _)

theorem Consistent.intern_of_get? (h : t.Consistent) {id : TypeId} {d : TypeDesc} (hget : t.get? id = some d)
    (hd : d.isDeclared = false) : t.intern d = (id, t) := by
  rw [intern, h.lookup_interned hget hd]

theorem Consistent.id_unique (h : t.Consistent) {i j : TypeId} {d : TypeDesc} (hi : t.get? i = some d)
    (hj : t.get? j = some d) (hd : d.isDeclared = false) : j = i :=
  Option.some.inj ((h.lookup_interned hj hd).symm.trans (h.lookup_interned hi hd))

theorem Consistent.nameOf_inj (h : t.Consistent) {i j : TypeId} {name : String} (hi : t.nameOf i = some name)
    (hj : t.nameOf j = some name) : i = j :=
  Option.some.inj ((h.lookup_iff.2 hi).symm.trans (h.lookup_iff.2 hj))

/-- **A definition touches the body of its target** and nothing else. -/
theorem get?_after_define (t : TypeTable) (id body j : TypeId) :
    (t.define id body).2.get? j = if j = id then (t.get? id).map (TypeDesc.withBody body) else t.get? j := by
  cases hdecl : t.declared? id with
  | some d =>
    obtain ⟨c, hget, hc⟩ := exists_of_declared? hdecl
    rw [get?_define hget hc, hget]
    simp only [eq_comm (a := id), Option.map_some]
  | none =>
    -- a structural type, and nothing at all, is the same with a body
    have hsame : (t.get? id).map (TypeDesc.withBody body) = t.get? id := by
      cases hget : t.get? id with
      | none => rfl
      | some c =>
        rw [declared?_of_get? hget] at hdecl
        cases c <;> first | rfl | cases hdecl
    rw [define_of_not_declared hdecl, hsame]
    split
    · rename_i heq
      rw [heq]
    · rfl

/-- **A table after any operations.**  A structural type has one place and is found there again.  What was interned is where
it was put.  The declared names are those that were entered, in order; each leads to a type of that name and kind, and to no
other type.  A declaration succeeds just when its name is free.  Refused operations change nothing, and a definition changes
its target's body only. -/
theorem operations_in_step (ops : List Operation) :
    (∀ id d, (tableAfter ops).get? id = some d → d.isDeclared = false →
      (∀ j, (tableAfter ops).get? j = some d → j = id) ∧ (tableAfter ops).intern d = (id, tableAfter ops)) ∧
    (∀ d id, .interned d id ∈ eventsOf ops → (tableAfter ops).get? id = some d) ∧
    (tableAfter ops).names = (eventsOf ops).filterMap Event.entered? ∧
    (∀ name isNative id, .declared name isNative id ∈ eventsOf ops → (tableAfter ops).lookup name = some id ∧
      ∃ body, (tableAfter ops).get? id = some (.declaration name isNative body)) ∧
    (∀ i j name, (tableAfter ops).nameOf i = some name → (tableAfter ops).nameOf j = some name → i = j) ∧
    (∀ name isNative, ((tableAfter ops).lookup name).isSome = true →
      (Operation.declare name isNative).perform (tableAfter ops) = (.refused name, tableAfter ops)) ∧
    (∀ name isNative, (tableAfter ops).lookup name = none →
      ((Operation.declare name isNative).perform (tableAfter ops)).1 = .declared name isNative (tableAfter ops).size) ∧
    (∀ id body, (tableAfter ops).declared? id = none → (tableAfter ops).define id body = (false, tableAfter ops)) ∧
    (∀ id body, ((tableAfter ops).define id body).2.names = (tableAfter ops).names ∧
      ((tableAfter ops).define id body).2.interned = (tableAfter ops).interned ∧
      ∀ j, ((tableAfter ops).define id body).2.get? j =
        if j = id then ((tableAfter ops).get? id).map (TypeDesc.withBody body) else (tableAfter ops).get? j) := by
  have h := consistent_tableAfter ops
  refine ⟨fun id d hget hd => ⟨fun j hj => h.id_unique hget hj hd, h.intern_of_get? hget hd⟩,
    fun d id he => (holds_of_mem_performAll .empty he).1, names_tableAfter ops, fun name isNative id he => ?_,
    fun i j name => h.nameOf_inj, fun name isNative htaken => perform_declare_of_isSome htaken isNative,
    fun name isNative hfree => by rw [perform_declare_of_none hfree], fun id body hno => define_of_not_declared hno body,
    fun id body => ⟨names_define _ id body, interned_define _ id body, get?_after_define _ id body⟩⟩
  obtain ⟨body, hget⟩ := holds_of_mem_performAll .empty he
  have hname : (tableAfter ops).nameOf id = (TypeDesc.declaration name isNative body).declared?.map Declared.name :=
    nameOf_of_get? hget
  rw [TypeDesc.declared?_declaration] at hname
  exact ⟨h.lookup_iff.2 hname, body, hget⟩

def peersOperations : List Operation :=
  [.intern .duration rfl, .declare "Peer" false, .intern (.sequence 1 .slice) rfl, .define 1 0, .declare "Peer" true]

theorem peersOperations_in_step :
    (tableAfter peersOperations).get? 2 = some (.sequence 1 .slice) ∧
    (tableAfter peersOperations).intern (.sequence 1 .slice) = (2, tableAfter peersOperations) ∧
    (tableAfter peersOperations).lookup "Peer" = some 1 ∧
    (Operation.declare "Peer" true).perform (tableAfter peersOperations) = (.refused "Peer", tableAfter peersOperations) ∧
    (tableAfter peersOperations).define 2 0 = (false, tableAfter peersOperations) := by
  obtain ⟨hfound, hkept, -, hdeclared, -, htaken, -, hundefined, -⟩ := operations_in_step peersOperations
  have hget : (tableAfter peersOperations).get? 2 = some (.sequence 1 .slice) :=
    hkept (.sequence 1 .slice) 2 (.tail _ (.tail _ (.head _)))
  have hlookup := (hdeclared "Peer" false 1 (.tail _ (.head _))).1
  refine ⟨hget, (hfound 2 _ hget rfl).2, hlookup, htaken "Peer" true (by rw [hlookup]; rfl), hundefined 2 0 ?_⟩
  rw [declared?_of_get? hget]
  rfl

end TypeTable
end BencodePlan
