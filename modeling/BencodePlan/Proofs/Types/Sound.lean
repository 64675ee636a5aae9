import BencodePlan.Proofs.Types.Chains
/-!
# Sound tables

What a table must be like for walks over its types to make sense.  A `Formed` table refers to its own places only,
structural types to smaller places and never to struct bodies, which have no notation of their own; it is what the
operations on a table keep.  A `Sound` table is a finished one: its declared types have bodies, native ones apart, and
its chains of declarations end.

`Develops` is how a table changes meanwhile: structural types are added, declared types are given bodies, and nothing
else happens.
-/
namespace BencodePlan

def TypeDesc.parts : TypeDesc → List TypeId
  | pointer target => [target]
  | struct members => members.map Member.type
  | sequence element _ => [element]
  | mapping key value => [key, value]
  | scalar _ | duration | named _ | native _ => []

theorem TypeDesc.parts_of_isDeclared {d : TypeDesc} (h : d.isDeclared = true) : d.parts = [] := by
  cases d <;> first | rfl | cases h

theorem TypeDesc.isDeclared_withBody (d : TypeDesc) (body : TypeId) :
    (d.withBody body).isDeclared = d.isDeclared := by
  cases d <;> rfl

namespace TypeTable

/-- What lowering keeps from the first declaration to the last body. -/
structure Formed (t : TypeTable) : Prop where
  part_lt : ∀ {id d c}, t.get? id = some d → c ∈ d.parts → c < id
  part_struct : ∀ {id d c}, t.get? id = some d → c ∈ d.parts → t.isStruct c = false
  body_lt : ∀ {id body}, t.bodyOf id = some body → body < t.size
  interned : ∀ {d id}, (d, id) ∈ t.interned → t.get? id = some d ∧ d.isDeclared = false
  names : ∀ {name id}, (name, id) ∈ t.names → ∃ d, t.declared? id = some d ∧ d.name = name

/-- **What a finished table is like.** -/
structure Sound (t : TypeTable) : Prop extends Formed t where
  named_body : ∀ {id d}, t.get? id = some (.named d) → ∃ body, d.body = some body
  chain_ends : ∀ id, t.bodyOf (t.underlying id) = none

/-- **How a table changes while it is built.** -/
structure Develops (t t' : TypeTable) : Prop where
  names : t'.names = t.names
  size : t.size ≤ t'.size
  old : ∀ {id d}, t.get? id = some d →
    t'.get? id = some d ∨ ∃ body, d.isDeclared = true ∧ t'.get? id = some (d.withBody body)
  new : ∀ {id d}, t'.get? id = some d → t.size ≤ id → d.isDeclared = false

/-! ## Places -/

theorem get?_lt {t : TypeTable} {id : TypeId} {d : TypeDesc} (h : t.get? id = some d) : id < t.size :=
  (List.getElem?_eq_some_iff.1 h).1

theorem exists_get? {t : TypeTable} {id : TypeId} (h : id < t.size) : ∃ d, t.get? id = some d :=
  ⟨_, List.getElem?_eq_getElem h⟩

theorem isStruct_iff (t : TypeTable) (id : TypeId) : t.isStruct id = true ↔ ∃ ms, t.get? id = some (.struct ms) := by
  unfold isStruct
  constructor
  · intro h
    split at h
    · rename_i ms hms
      exact ⟨ms, hms⟩
    · cases h
  · rintro ⟨ms, hms⟩
    rw [hms]

theorem isNative_iff (t : TypeTable) (id : TypeId) : t.isNative id = true ↔ ∃ d, t.get? id = some (.native d) := by
  unfold isNative
  constructor
  · intro h
    split at h
    · rename_i d hd
      exact ⟨d, hd⟩
    · cases h
  · rintro ⟨d, hd⟩
    rw [hd]

theorem isNative_of_get? {t : TypeTable} {id : TypeId} {d : TypeDesc} (hget : t.get? id = some d)
    (hd : ∀ e, d ≠ .native e) : t.isNative id = false := by
  rw [Bool.eq_false_iff]
  intro hn
  obtain ⟨e, he⟩ := (isNative_iff _ _).1 hn
  rw [hget] at he
  exact hd e (Option.some.inj he)

theorem isStruct_congr {t t' : TypeTable} {id : TypeId} (h : t'.get? id = t.get? id) :
    t'.isStruct id = t.isStruct id := by
  unfold isStruct
  rw [h]

theorem isStruct_of_isDeclared {t : TypeTable} {id : TypeId} {d : TypeDesc} (h : t.get? id = some d)
    (hd : d.isDeclared = true) : t.isStruct id = false := by
  unfold isStruct
  rw [h]
  cases d <;> first | rfl | cases hd

theorem declared?_of_get? {t : TypeTable} {id : TypeId} {d : TypeDesc} (h : t.get? id = some d) :
    t.declared? id = d.declared? := by
  unfold declared?
  rw [h]
  rfl

theorem get?_of_declared? {t : TypeTable} {id : TypeId} {d : Declared} (h : t.declared? id = some d) :
    t.get? id = some (.named d) ∨ t.get? id = some (.native d) := by
  unfold declared? at h
  obtain ⟨desc, hget, hd⟩ := Option.bind_eq_some_iff.1 h
  cases desc with
  | named e => cases hd; exact Or.inl hget
  | native e => cases hd; exact Or.inr hget
  | _ => cases hd

theorem lt_of_declared? {t : TypeTable} {id : TypeId} {d : Declared} (h : t.declared? id = some d) : id < t.size :=
  (get?_of_declared? h).elim get?_lt get?_lt

theorem isStruct_of_declared? {t : TypeTable} {id : TypeId} {d : Declared} (h : t.declared? id = some d) :
    t.isStruct id = false :=
  (get?_of_declared? h).elim (fun hg => isStruct_of_isDeclared hg rfl) (fun hg => isStruct_of_isDeclared hg rfl)

theorem lookup_mem {t : TypeTable} {name : String} {id : TypeId} (h : t.lookup name = some id) :
    (name, id) ∈ t.names := by
  unfold lookup at h
  obtain ⟨l₁, l₂, heq, -⟩ := List.lookup_eq_some_iff.1 h
  rw [heq]
  exact List.mem_append_right _ List.mem_cons_self

/-! ## Development -/

namespace Develops

theorem refl (t : TypeTable) : t.Develops t :=
  ⟨rfl, Nat.le_refl _, Or.inl, fun h hle => absurd (get?_lt h) (Nat.not_lt_of_le hle)⟩

theorem trans {t t' t'' : TypeTable} (h : t.Develops t') (h' : t'.Develops t'') : t.Develops t'' := by
  refine ⟨h'.names.trans h.names, Nat.le_trans h.size h'.size, fun {id d} hd => ?_, fun {id d} hd hle => ?_⟩
  · rcases h.old hd with hd' | ⟨body, hdecl, hd'⟩
    · exact h'.old hd'
    · rcases h'.old hd' with hd'' | ⟨body', -, hd''⟩
      · exact Or.inr ⟨body, hdecl, hd''⟩
      · refine Or.inr ⟨body', hdecl, ?_⟩
        rw [hd'']
        cases d <;> rfl
  · rcases Nat.lt_or_ge id t'.size with hlt | hge
    · obtain ⟨e, he⟩ := exists_get? hlt
      have hnot := h.new he hle
      rcases h'.old he with he' | ⟨body, hdecl, -⟩
      · rw [he'] at hd
        cases hd
        exact hnot
      · rw [hdecl] at hnot
        cases hnot
    · exact h'.new hd hge

variable {t t' : TypeTable}

theorem isStruct (h : t.Develops t') {id : TypeId} (hlt : id < t.size) : t'.isStruct id = t.isStruct id := by
  obtain ⟨d, hd⟩ := exists_get? hlt
  unfold TypeTable.isStruct
  rcases h.old hd with hd' | ⟨body, -, hd'⟩
  · rw [hd', hd]
  · rw [hd', hd]
    cases d <;> rfl

theorem lookup (h : t.Develops t') (name : String) : t'.lookup name = t.lookup name := by
  unfold TypeTable.lookup
  rw [h.names]

theorem structural (h : t.Develops t') {id : TypeId} {d : TypeDesc} (hd : t.get? id = some d)
    (hnot : d.isDeclared = false) : t'.get? id = some d := by
  rcases h.old hd with hd' | ⟨_, hdecl, -⟩
  · exact hd'
  · rw [hdecl] at hnot
    cases hnot

end Develops

/-! ## Operations -/

theorem exists_of_declared? {t : TypeTable} {id : TypeId} {d : Declared} (h : t.declared? id = some d) :
    ∃ c, t.get? id = some c ∧ c.isDeclared = true :=
  (get?_of_declared? h).elim (fun hget => ⟨_, hget, rfl⟩) fun hget => ⟨_, hget, rfl⟩

theorem size_push (t : TypeTable) (d : TypeDesc) (ins : List (TypeDesc × TypeId)) (ns : List (String × TypeId)) :
    (⟨t.types ++ [d], ins, ns⟩ : TypeTable).size = t.size + 1 := by
  simp only [size, List.length_append, List.length_singleton]

theorem get?_push (t : TypeTable) (d : TypeDesc) (ins : List (TypeDesc × TypeId)) (ns : List (String × TypeId))
    (id : TypeId) : (⟨t.types ++ [d], ins, ns⟩ : TypeTable).get? id = if id = t.size then some d else t.get? id := by
  unfold get? size
  rw [List.getElem?_append]
  rcases Nat.lt_trichotomy id t.types.length with hlt | heq | hgt
  · rw [if_pos hlt, if_neg (Nat.ne_of_lt hlt)]
  · subst heq
    simp
  · have hold : t.types[id]? = none := List.getElem?_eq_none_iff.2 (Nat.le_of_lt hgt)
    rw [if_neg (Nat.not_lt_of_lt hgt), if_neg (Nat.ne_of_gt hgt), hold, List.getElem?_eq_none_iff]
    simp only [List.length_singleton]
    omega

theorem get?_push_of_some {t : TypeTable} {id : TypeId} {d : TypeDesc} (h : t.get? id = some d) (c : TypeDesc)
    (ins : List (TypeDesc × TypeId)) (ns : List (String × TypeId)) :
    (⟨t.types ++ [c], ins, ns⟩ : TypeTable).get? id = some d := by
  rw [get?_push, if_neg (Nat.ne_of_lt (get?_lt h)), h]

theorem intern_of_found {t : TypeTable} {d : TypeDesc} {id : TypeId} (h : t.interned.lookup d = some id) :
    t.intern d = (id, t) := by
  rw [TypeTable.intern, h]

theorem intern_of_new {t : TypeTable} {d : TypeDesc} (h : t.interned.lookup d = none) :
    t.intern d = (t.size, ⟨t.types ++ [d], t.interned ++ [(d, t.size)], t.names⟩) := by
  rw [TypeTable.intern, h]

theorem get?_intern {t : TypeTable} {d : TypeDesc} {id : TypeId} {e : TypeDesc} : (t.intern d).2.get? id = some e ↔
    t.get? id = some e ∨ t.interned.lookup d = none ∧ id = t.size ∧ e = d := by
  cases hl : t.interned.lookup d with
  | some i =>
    rw [intern_of_found hl]
    simp
  | none =>
    rw [intern_of_new hl, get?_push]
    by_cases hid : id = t.size
    · subst hid
      have hnone : t.get? t.size = none := List.getElem?_eq_none_iff.2 (Nat.le_refl _)
      simp [hnone, eq_comm]
    · simp [hid]

theorem kept_intern (t : TypeTable) (d : TypeDesc) {id : TypeId} {e : TypeDesc} (h : t.get? id = some e) :
    (t.intern d).2.get? id = some e :=
  get?_intern.2 (Or.inl h)

theorem declared?_intern (t : TypeTable) {d : TypeDesc} (hd : d.isDeclared = false) (id : TypeId) :
    (t.intern d).2.declared? id = t.declared? id := by
  cases hget : t.get? id with
  | some e => rw [declared?_of_get? hget, declared?_of_get? (kept_intern t d hget)]
  | none =>
    have hold : t.declared? id = none := by rw [declared?, hget]; rfl
    rw [hold]
    cases hnew : (t.intern d).2.get? id with
    | none => rw [declared?, hnew]; rfl
    | some e =>
      obtain h | ⟨-, -, rfl⟩ := get?_intern.1 hnew
      · rw [hget] at h
        cases h
      · rw [declared?_of_get? hnew]
        exact Option.not_isSome_iff_eq_none.1 (Bool.eq_false_iff.1 hd)

theorem develops_intern (t : TypeTable) {d : TypeDesc} (hd : d.isDeclared = false) : t.Develops (t.intern d).2 where
  names := by cases hl : t.interned.lookup d <;> rw [TypeTable.intern, hl]
  size := by
    cases hl : t.interned.lookup d with
    | some id => rw [intern_of_found hl]
    | none =>
      rw [intern_of_new hl, size_push]
      exact Nat.le_succ _
  old h := Or.inl (kept_intern t d h)
  new h hle := by
    obtain h | ⟨-, -, rfl⟩ := get?_intern.1 h
    · exact absurd (get?_lt h) (Nat.not_lt_of_le hle)
    · exact hd

theorem Formed.get?_intern_self {t : TypeTable} (h : t.Formed) (d : TypeDesc) :
    (t.intern d).2.get? (t.intern d).1 = some d := by
  cases hl : t.interned.lookup d with
  | some id =>
    obtain ⟨l₁, l₂, heq, -⟩ := List.lookup_eq_some_iff.1 hl
    have hmem : (d, id) ∈ t.interned := by rw [heq]; exact List.mem_append_right _ List.mem_cons_self
    rw [intern_of_found hl]
    exact (h.interned hmem).1
  | none => rw [intern_of_new hl, get?_push, if_pos rfl]

/-- **A structural type put together from places that are there may be entered.** -/
theorem Formed.intern {t : TypeTable} (h : t.Formed) {d : TypeDesc} (hd : d.isDeclared = false)
    (hparts : ∀ c ∈ d.parts, c < t.size ∧ t.isStruct c = false) : (t.intern d).2.Formed where
  part_lt he hc := by
    obtain he | ⟨-, rfl, rfl⟩ := get?_intern.1 he
    · exact h.part_lt he hc
    · exact (hparts _ hc).1
  part_struct he hc := by
    obtain he | ⟨-, -, rfl⟩ := get?_intern.1 he
    · rw [(develops_intern t hd).isStruct (Nat.lt_trans (h.part_lt he hc) (get?_lt he))]
      exact h.part_struct he hc
    · rw [(develops_intern t hd).isStruct (hparts _ hc).1]
      exact (hparts _ hc).2
  body_lt hb := by
    unfold bodyOf at hb
    rw [declared?_intern t hd] at hb
    exact Nat.lt_of_lt_of_le (h.body_lt hb) (develops_intern t hd).size
  interned {e id} hmem := by
    cases hl : t.interned.lookup d with
    | some i =>
      rw [intern_of_found hl] at hmem ⊢
      exact h.interned hmem
    | none =>
      rw [intern_of_new hl] at hmem
      rcases List.mem_append.1 hmem with hm | hm
      · exact ⟨kept_intern t d (h.interned hm).1, (h.interned hm).2⟩
      · cases List.mem_singleton.1 hm
        exact ⟨get?_intern.2 (Or.inr ⟨hl, rfl, rfl⟩), hd⟩
  names hmem := by
    rw [(develops_intern t hd).names] at hmem
    obtain ⟨e, he, hname⟩ := h.names hmem
    exact ⟨e, by rw [declared?_intern t hd, he], hname⟩

theorem define_of_declared {t : TypeTable} {id : TypeId} {d : TypeDesc} (hget : t.get? id = some d) (hd : d.isDeclared = true)
    (body : TypeId) : t.define id body = (true, { t with types := t.types.set id (d.withBody body) }) := by
  rw [TypeTable.define, hget]
  exact if_pos hd

theorem define_of_not_declared {t : TypeTable} {id : TypeId} (h : t.declared? id = none) (body : TypeId) :
    t.define id body = (false, t) := by
  unfold TypeTable.define
  cases hget : t.get? id with
  | none => rfl
  | some d =>
    have hd : d.isDeclared = false := by
      rw [TypeDesc.isDeclared, ← declared?_of_get? hget, h]
      rfl
    simp only [hd, Bool.false_eq_true, if_false]

theorem define_cases (t : TypeTable) (id body : TypeId) :
    (t.define id body).2 = t ∨ ∃ d, (t.define id body).2 = { t with types := t.types.set id d } := by
  cases hdecl : t.declared? id with
  | none =>
    rw [define_of_not_declared hdecl]
    exact Or.inl rfl
  | some e =>
    obtain ⟨d, hget, hd⟩ := exists_of_declared? hdecl
    rw [define_of_declared hget hd]
    exact Or.inr ⟨_, rfl⟩

theorem get?_define {t : TypeTable} {id : TypeId} {d : TypeDesc} (hget : t.get? id = some d)
    (hd : d.isDeclared = true) (body i : TypeId) :
    (t.define id body).2.get? i = if id = i then some (d.withBody body) else t.get? i := by
  rw [define_of_declared hget hd]
  unfold TypeTable.get?
  rw [List.getElem?_set]
  split
  · exact if_pos (get?_lt hget)
  · rfl

theorem interned_define (t : TypeTable) (id body : TypeId) : (t.define id body).2.interned = t.interned := by
  obtain heq | ⟨d, heq⟩ := define_cases t id body <;> rw [heq]

theorem names_define (t : TypeTable) (id body : TypeId) : (t.define id body).2.names = t.names := by
  obtain heq | ⟨d, heq⟩ := define_cases t id body <;> rw [heq]

theorem size_define (t : TypeTable) (id body : TypeId) : (t.define id body).2.size = t.size := by
  obtain heq | ⟨d, heq⟩ := define_cases t id body
  · rw [heq]
  · rw [heq]
    exact List.length_set

theorem declared?_define {t : TypeTable} {id : TypeId} {d : TypeDesc} (hget : t.get? id = some d)
    (hd : d.isDeclared = true) (body i : TypeId) : (t.define id body).2.declared? i =
      if id = i then (t.declared? i).map fun e => ⟨e.name, some body⟩ else t.declared? i := by
  have hat := get?_define hget hd body i
  by_cases hi : id = i
  · subst hi
    rw [declared?_of_get? (hat.trans (if_pos rfl)), declared?_of_get? hget, if_pos rfl]
    cases d <;> rfl
  · rw [if_neg hi] at hat
    rw [if_neg hi, declared?, hat]
    rfl

theorem develops_define {t : TypeTable} {id : TypeId} {d : TypeDesc} (hget : t.get? id = some d)
    (hd : d.isDeclared = true) (body : TypeId) : t.Develops (t.define id body).2 where
  names := names_define t id body
  size := Nat.le_of_eq (size_define t id body).symm
  old {i e} he := by
    rw [get?_define hget hd]
    by_cases hi : id = i
    · subst hi
      rw [hget] at he
      cases he
      exact Or.inr ⟨body, hd, if_pos rfl⟩
    · exact Or.inl ((if_neg hi).trans he)
  new {i e} he hle := by
    have hi := get?_lt he
    rw [size_define] at hi
    exact absurd hi (Nat.not_lt_of_le hle)

/-- **A declared type may be given any place of the table for its body.** -/
theorem Formed.define {t : TypeTable} (h : t.Formed) {id body : TypeId} {d : TypeDesc} (hget : t.get? id = some d)
    (hd : d.isDeclared = true) (hbody : body < t.size) : (t.define id body).2.Formed := by
  have hdev := develops_define hget hd body
  -- a declared type has no parts, so a descriptor that has some was there before
  have hold {i : TypeId} {e : TypeDesc} {c : TypeId} (he : (t.define id body).2.get? i = some e) (hc : c ∈ e.parts) :
      t.get? i = some e := by
    rw [get?_define hget hd] at he
    split at he
    · cases he
      rw [TypeDesc.parts_of_isDeclared (by rw [TypeDesc.isDeclared_withBody, hd])] at hc
      cases hc
    · exact he
  refine ⟨fun he hc => h.part_lt (hold he hc) hc, fun he hc => ?_, fun {i b} hb => ?_, fun {e i} hmem => ?_,
    fun {name i} hmem => ?_⟩
  · have he' := hold he hc
    rw [hdev.isStruct (Nat.lt_trans (h.part_lt he' hc) (get?_lt he'))]
    exact h.part_struct he' hc
  · unfold bodyOf at hb
    rw [declared?_define hget hd] at hb
    rw [size_define]
    split at hb
    · obtain ⟨e, he, heb⟩ := Option.bind_eq_some_iff.1 hb
      obtain ⟨e', -, rfl⟩ := Option.map_eq_some_iff.1 he
      cases heb
      exact hbody
    · exact h.body_lt hb
  · rw [interned_define] at hmem
    obtain ⟨he, hnot⟩ := h.interned hmem
    exact ⟨hdev.structural he hnot, hnot⟩
  · rw [names_define] at hmem
    obtain ⟨e, he, hname⟩ := h.names hmem
    rw [declared?_define hget hd, he]
    split
    · exact ⟨_, rfl, hname⟩
    · exact ⟨e, rfl, hname⟩

/-! ## What a sound table gives -/

namespace Sound

variable {t : TypeTable}

theorem underlying_lt (h : t.Sound) {id : TypeId} (hlt : id < t.size) : t.underlying id < t.size := by
  rw [underlying_eq_iterate]
  generalize t.size + 1 = n
  induction n with
  | zero => exact hlt
  | succ n ih =>
    rw [Function.iterate_succ_apply']
    cases hb : t.bodyOf (t.next^[n] id) with
    | none => rw [next_of_none hb]; exact ih
    | some body => rw [next_of_some hb]; exact h.body_lt hb

theorem underlying_ne_named (h : t.Sound) {id : TypeId} {d : Declared} : t.get? (t.underlying id) ≠ some (.named d) := by
  intro hget
  obtain ⟨body, hb⟩ := h.named_body hget
  have hend := h.chain_ends id
  unfold bodyOf at hend
  rw [declared?_of_get? hget] at hend
  simp only [TypeDesc.declared?, Option.bind_some, hb] at hend
  cases hend

theorem underlying_underlying (h : t.Sound) (id : TypeId) : t.underlying (t.underlying id) = t.underlying id :=
  underlying_of_none (h.chain_ends id)

theorem underlying_ne_self (h : t.Sound) {id : TypeId} {d : Declared} (hd : t.get? id = some (.named d)) :
    t.underlying id ≠ id := by
  intro heq
  exact h.underlying_ne_named (heq.symm ▸ hd)

end Sound

theorem underlying_of_not_declared {t : TypeTable} {id : TypeId} {d : TypeDesc} (h : t.get? id = some d)
    (hd : d.isDeclared = false) : t.underlying id = id := by
  apply underlying_of_none
  unfold bodyOf
  rw [declared?_of_get? h]
  cases d <;> first | rfl | cases hd

end TypeTable
end BencodePlan
