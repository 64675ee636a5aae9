import BencodePlan.Proofs.Schema.Acceptance
/-!
# Valid documents

`RawSchema.Valid` says of a document alone, without a table, when it can be lowered: its names can be declared and are
different, each declaration has a body of one form, and no chain of aliases returns to where it began.  These documents
and no others have a schema, and `Lists` is what their tables hold (`ofRaw_ok_iff_valid`): the declarations in order,
each with the meaning of its body, and structural types that occur once and are put together from what comes before them.

The search for circles goes along the table (`cycleFrom`), the condition along the names of the document, so the chains
of both are compared step by step.
-/
namespace BencodePlan

open TypeTable Function
open Relation (TransGen)

/-! ## Documents and their tables -/

def Aliases (decls : List RawDecl) (a b : String) : Prop :=
  ∃ decl ∈ decls, decl.name = a ∧ ∃ source span, decl.body = some source ∧ TypeExpr.parse source = .ok (.named b span)

/-- **A document that can be lowered.** -/
structure RawSchema.Valid (raw : RawSchema) : Prop where
  names : ∀ decl ∈ raw.types, IsIdentifier decl.name ∧ ¬ TypeExpr.IsKeyword decl.name
  distinct : (raw.types.map RawDecl.name).Nodup
  bodies : ∀ decl ∈ raw.types, decl.HasBody (raw.types.map RawDecl.name)
  chains : ∀ decl ∈ raw.types, ¬ TransGen (Aliases raw.types) decl.name decl.name

/-- **A table of declarations**: they come first and in order, each with its name, its flag and the meaning of its body;
what follows is structural, each type once and after its parts. -/
structure TypeTable.Lists (t : TypeTable) (decls : List RawDecl) : Prop where
  names : t.names = (decls.map RawDecl.name).zipIdx
  defined : ∀ {i decl}, decls[i]? = some decl → Lower.Defined t decl i
  declared : ∀ {id d}, t.get? id = some d → (d.isDeclared = true ↔ id < decls.length)
  once : ∀ {i j d}, t.get? i = some d → t.get? j = some d → d.isDeclared = false → i = j
  parts : ∀ {id d}, t.get? id = some d → d.isDeclared = false → ∀ c ∈ d.parts, c < id

namespace Lower

/-! ## Entering the declarations -/

/-- **The table of declarations without bodies.** -/
def declarations (decls : List RawDecl) : TypeTable :=
  ⟨decls.map (·.entry none), [], (decls.map RawDecl.name).zipIdx⟩

theorem decides_declare (decl : RawDecl) (t : TypeTable) :
    Decides (declare decl) t ((IsIdentifier decl.name ∧ ¬ TypeExpr.IsKeyword decl.name) ∧ t.lookup decl.name = none)
      fun id? t' => id? = some t.size ∧ t' = declaredTable t decl := by
  rw [← isTypeName_iff]
  unfold declare
  split
  · rename_i hname
    refine Decides.reject rfl (fun hv => ?_) _
    rw [hv.1] at hname
    cases hname
  · rename_i hname
    cases hl : t.lookup decl.name with
    | some id =>
      refine (Decides.reject (d := .plain .duplicateType "schema" decl.name) rfl (fun hv => ?_)
        fun _ => pure none).of_eq ?_
      · cases hv.2
      rw [get_bind]
      simp only [TypeTable.declare, hl, Option.isSome_some, if_true]
    | none =>
      have hset {valid : Prop} (hv : valid) : Decides (set (declaredTable t decl) >>= fun _ => pure (some t.size)) t
          valid fun id? t' => id? = some t.size ∧ t' = declaredTable t decl :=
        Decides.silent rfl hv ⟨rfl, rfl⟩
      refine (hset ⟨by simpa using hname, rfl⟩).of_eq ?_
      rw [get_bind]
      simp only [TypeTable.declare, hl, Option.isSome_none, Bool.false_eq_true, if_false]
      rfl

theorem lookup_declaredTable (t : TypeTable) (decl : RawDecl) (name : String) :
    (declaredTable t decl).lookup name = none ↔ t.lookup name = none ∧ name ≠ decl.name := by
  unfold TypeTable.lookup declaredTable
  simp only [List.lookup_eq_none_iff, List.mem_append, List.mem_singleton, or_imp, forall_and, forall_eq,
    bne_iff_ne, ne_eq]

/-- **All declarations are entered exactly if their names may be declared and are new.** -/
theorem decides_declareAll : ∀ (decls : List RawDecl) (t : TypeTable),
    Decides (declareAll decls) t ((∀ decl ∈ decls, IsIdentifier decl.name ∧ ¬ TypeExpr.IsKeyword decl.name) ∧
        (decls.map RawDecl.name).Nodup ∧ ∀ decl ∈ decls, t.lookup decl.name = none)
      fun pairs t' => pairs = decls.zipIdx t.size ∧ t' = decls.foldl declaredTable t
  | [], t => Decides.pure ⟨List.forall_mem_nil _, List.nodup_nil, List.forall_mem_nil _⟩ ⟨rfl, rfl⟩
  | decl :: rest, t => by
    refine ((decides_declare decl t).bind (W := (∀ decl ∈ rest, IsIdentifier decl.name ∧ ¬ TypeExpr.IsKeyword decl.name) ∧
      (rest.map RawDecl.name).Nodup ∧ ∀ other ∈ rest, t.lookup other.name = none ∧ other.name ≠ decl.name)
      fun _ id? t' hdeclared => ?_).congr ?_ fun _ _ _ hr => hr
    · obtain ⟨rfl, rfl⟩ := hdeclared
      refine ((decides_declareAll rest (declaredTable t decl)).bind (W := True) fun _ pairs t' hpairs => ?_).congr ?_
        fun _ _ _ hr => hr
      · obtain ⟨rfl, rfl⟩ := hpairs
        exact Decides.pure trivial ⟨by rw [List.zipIdx_cons, size_declaredTable], rfl⟩
      · simp only [lookup_declaredTable, and_true]
    rw [List.map_cons, List.nodup_cons, List.forall_mem_cons, List.forall_mem_cons]
    constructor
    · rintro ⟨⟨hname, hnames⟩, ⟨hnew, hdistinct⟩, hfree, hfrees⟩
      exact ⟨⟨hname, hfree⟩, hnames, hdistinct, fun other ho =>
        ⟨hfrees other ho, fun heq => hnew (heq ▸ List.mem_map_of_mem ho)⟩⟩
    · rintro ⟨⟨hname, hfree⟩, hnames, hdistinct, hfrees⟩
      refine ⟨⟨hname, hnames⟩, ⟨fun hmem => ?_, hdistinct⟩, hfree, fun other ho => (hfrees other ho).1⟩
      obtain ⟨other, ho, heq⟩ := List.mem_map.1 hmem
      exact (hfrees other ho).2 heq

theorem foldl_declaredTable : ∀ (decls : List RawDecl) (t : TypeTable), decls.foldl declaredTable t =
    ⟨t.types ++ decls.map (·.entry none), t.interned, t.names ++ (decls.map RawDecl.name).zipIdx t.size⟩
  | [], t => by
    simp only [List.foldl_nil, List.map_nil, List.append_nil, List.zipIdx_nil]
  | decl :: rest, t => by
    rw [List.foldl_cons, foldl_declaredTable rest, size_declaredTable]
    simp only [declaredTable, List.map_cons, List.zipIdx_cons, List.append_assoc, List.singleton_append]
    rfl

theorem foldl_declaredTable_empty (decls : List RawDecl) :
    decls.foldl declaredTable TypeTable.empty = declarations decls := by
  rw [foldl_declaredTable]
  rfl

theorem get?_declarations (decls : List RawDecl) (id : TypeId) :
    (declarations decls).get? id = decls[id]?.map (·.entry none) :=
  List.getElem?_map

theorem size_declarations (decls : List RawDecl) : (declarations decls).size = decls.length :=
  List.length_map _

theorem coherent_declarations (decls : List RawDecl) : (declarations decls).Coherent := by
  have hdeclaring : ∀ (decls : List RawDecl) (t : TypeTable), Declaring t → Declaring (decls.foldl declaredTable t) := by
    intro decls
    induction decls with
    | nil => exact fun _ h => h
    | cons decl rest ih => exact fun t h => ih _ (h.declaredTable decl)
  have h := hdeclaring decls _ Declaring.empty
  rw [foldl_declaredTable_empty] at h
  refine ⟨h.formed, fun hd hnot => ?_, fun hd hnot => ?_⟩
  all_goals
    rw [h.declared hd] at hnot
    cases hnot

theorem lookup_zipIdx : ∀ {names : List String} (start : Nat), names.Nodup → ∀ {i : Nat} {name : String},
    names[i]? = some name → (names.zipIdx start).lookup name = some (start + i)
  | _ :: rest, start, hdistinct, 0, name, h => by
    cases h
    rw [List.zipIdx_cons, List.lookup_cons_self]
    rfl
  | first :: rest, start, hdistinct, i + 1, name, h => by
    rw [List.nodup_cons] at hdistinct
    have hne : (name == first) = false := by
      rw [beq_eq_false_iff_ne]
      rintro rfl
      exact hdistinct.1 (List.mem_of_getElem? h)
    rw [List.zipIdx_cons, List.lookup_cons, hne, lookup_zipIdx (start + 1) hdistinct.2 h, Nat.add_right_comm,
      Nat.add_assoc]

theorem knows_of_names {t : TypeTable} {names : List String} (h : t.names = names.zipIdx) : Knows t names := by
  intro name
  unfold TypeTable.lookup
  rw [h, List.lookup_isSome_iff]
  constructor
  · rintro ⟨p, hp, heq⟩
    rw [beq_iff_eq.1 heq]
    exact List.fst_mem_of_mem_zipIdx hp
  · intro hmem
    obtain ⟨i, hi⟩ := List.mem_iff_getElem?.1 hmem
    exact ⟨(name, i), List.mk_mem_zipIdx_iff_getElem?.2 hi, beq_self_eq_true name⟩

/-! ## Circles -/

def Leads (t : TypeTable) (a b : TypeId) : Prop := t.bodyOf a = some b ∧ (t.declared? b).isSome = true

theorem transGen_of_cycleFrom (t : TypeTable) (start : TypeId) (chain : List TypeId) (current : TypeId) :
    (cycleFrom t start chain current).isSome = true → TransGen (Leads t) current start := by
  fun_induction cycleFrom t start chain current with
  | case1 | case2 => exact fun h => (Bool.false_ne_true h).elim
  | case3 =>
    rename_i hbody hdeclared
    exact fun _ => .single ⟨hbody, Option.isSome_iff_ne_none.2 (mt Option.isNone_iff_eq_none.2 hdeclared)⟩
  | case4 =>
    rename_i hbody hdeclared _ _ ih
    exact fun h => .head ⟨hbody, Option.isSome_iff_ne_none.2 (mt Option.isNone_iff_eq_none.2 hdeclared)⟩ (ih h)
  | case5 => exact fun h => (Bool.false_ne_true h).elim

theorem exists_iterate_of_transGen {t : TypeTable} {a b : TypeId} (h : TransGen (Leads t) a b) :
    ∃ n : Nat, t.next^[n + 1] a = b ∧ ∀ i ≤ n, (t.bodyOf (t.next^[i] a)).isSome = true := by
  induction h with
  | single hab =>
    refine ⟨0, next_of_some hab.1, fun i hi => ?_⟩
    rw [Nat.le_zero.1 hi, iterate_zero_apply, hab.1]
    rfl
  | tail _ hbc ih =>
    obtain ⟨n, hn, hsome⟩ := ih
    refine ⟨n + 1, ?_, fun i hi => ?_⟩
    · rw [iterate_succ_apply', hn, next_of_some hbc.1]
    · rcases Nat.lt_or_eq_of_le hi with hlt | rfl
      · exact hsome i (Nat.le_of_lt_succ hlt)
      · rw [hn, hbc.1]
        rfl

/-- **The search finds nothing exactly if there is no way back.** -/
theorem cycleFrom_eq_none_iff {t : TypeTable} (hrange : ∀ id body, t.bodyOf id = some body → body < t.size)
    (x : TypeId) : cycleFrom t x [x] x = none ↔ ¬ TransGen (Leads t) x x := by
  rw [← Option.not_isSome_iff_eq_none, not_iff_not]
  refine ⟨transGen_of_cycleFrom t x [x] x, fun h => ?_⟩
  obtain ⟨n, hback, hsome⟩ := exists_iterate_of_transGen h
  have hper : IsPeriodicPt t.next (n + 1) x := hback
  refine cycleFrom_isSome (fun i => ?_) hrange (mk_mem_periodicPts (Nat.succ_pos n) hper)
  rw [← hper.iterate_mod_apply i]
  exact hsome _ (Nat.le_of_lt_succ (Nat.mod_lt _ (Nat.succ_pos n)))

/-! ## Chains of names -/

theorem bodyOf_of_entry {t : TypeTable} {id : TypeId} {decl : RawDecl} {body : Option TypeId}
    (h : t.get? id = some (decl.entry body)) : t.bodyOf id = body := by
  unfold bodyOf
  rw [declared?_of_get? h]
  unfold RawDecl.entry
  split <;> rfl

theorem lists_of_defined {decls : List RawDecl} {t : TypeTable} (h : t.Coherent) (hdev : (declarations decls).Develops t)
    (hdefined : ∀ p ∈ decls.zipIdx, Defined t p.1 p.2) : t.Lists decls := by
  have hat {i : Nat} {decl : RawDecl} (hi : decls[i]? = some decl) : Defined t decl i :=
    hdefined _ (List.mk_mem_zipIdx_iff_getElem?.2 hi)
  refine ⟨hdev.names, hat, fun {id d} hd => ⟨fun hdeclared => ?_, fun hlt => ?_⟩, h.eq_of_get?,
    fun hd _ _ hc => h.part_lt hd hc⟩
  · by_contra hge
    have hnew := hdev.new hd (by rw [size_declarations]; exact Nat.le_of_not_lt hge)
    rw [hnew] at hdeclared
    cases hdeclared
  · obtain ⟨body, hget, -⟩ := hat (List.getElem?_eq_getElem hlt)
    rw [hd] at hget
    cases hget
    exact RawDecl.isDeclared_entry _ _

section

variable {decls : List RawDecl} {t : TypeTable}

theorem exists_decl_of_lookup (h : t.names = (decls.map RawDecl.name).zipIdx) {name : String} {id : TypeId}
    (hl : t.lookup name = some id) : ∃ decl, decls[id]? = some decl ∧ decl.name = name := by
  have hmem := lookup_mem hl
  rw [h] at hmem
  have hget := List.mk_mem_zipIdx_iff_getElem?.1 hmem
  rw [List.getElem?_map] at hget
  exact Option.map_eq_some_iff.1 hget

theorem lookup_decl (h : t.names = (decls.map RawDecl.name).zipIdx) (hdistinct : (decls.map RawDecl.name).Nodup)
    {i : Nat} {decl : RawDecl} (hi : decls[i]? = some decl) : t.lookup decl.name = some i := by
  have hname : (decls.map RawDecl.name)[i]? = some decl.name := by rw [List.getElem?_map, hi]; rfl
  unfold TypeTable.lookup
  rw [h, lookup_zipIdx 0 hdistinct hname, Nat.zero_add]

theorem declared?_isSome_iff (h : t.Lists decls) {id : TypeId} :
    (t.declared? id).isSome = true ↔ ∃ decl, decls[id]? = some decl := by
  constructor
  · intro hsome
    obtain ⟨d, hd⟩ := Option.isSome_iff_exists.1 hsome
    obtain ⟨c, hc⟩ := exists_get? (lt_of_declared? hd)
    rw [declared?_of_get? hc] at hsome
    exact ⟨_, List.getElem?_eq_getElem ((h.declared hc).1 hsome)⟩
  · rintro ⟨decl, hdecl⟩
    obtain ⟨body, hget, -⟩ := h.defined hdecl
    rw [declared?_of_get? hget]
    exact decl.isDeclared_entry body

theorem aliases_of_leads (h : t.Lists decls) {a b : TypeId} (hab : Leads t a b) :
    ∃ decl other, decls[a]? = some decl ∧ decls[b]? = some other ∧ Aliases decls decl.name other.name := by
  obtain ⟨decl, hdecl⟩ := (declared?_isSome_iff h).1 (declared?_isSome_of_bodyOf hab.1)
  obtain ⟨body, hget, hmeans⟩ := h.defined hdecl
  have hbody := bodyOf_of_entry hget
  rw [hab.1] at hbody
  subst hbody
  -- what has a name of its own is no structural type
  have hnot {c : TypeDesc} (hc : t.get? b = some c) (hs : c.isDeclared = false) : False := by
    have hdeclared := hab.2
    rw [declared?_of_get? hc, ← TypeDesc.isDeclared, hs] at hdeclared
    cases hdeclared
  unfold BodyMeans at hmeans
  split at hmeans
  · obtain ⟨_, ms, hbody, hms, -⟩ := hmeans
    cases hbody
    exact (hnot hms rfl).elim
  · rename_i source _ hsource
    obtain ⟨_, e, hbody, hparse, hden⟩ := hmeans
    cases hbody
    cases hden with
    | named hl =>
      obtain ⟨other, hother, hname⟩ := exists_decl_of_lookup h.names hl
      subst hname
      exact ⟨decl, other, hdecl, hother, decl, List.mem_of_getElem? hdecl, rfl, source, _, hsource, hparse⟩
    | scalar hc | duration hc | option _ hc | vec _ hc | array _ hc | map _ _ hc => exact (hnot hc rfl).elim
  · cases hmeans

theorem leads_of_aliases (h : t.Lists decls) (hdistinct : (decls.map RawDecl.name).Nodup) {names : List String}
    (hbodies : ∀ decl ∈ decls, decl.HasBody names) {a b : String} (hab : Aliases decls a b) :
    ∃ i j, t.lookup a = some i ∧ t.lookup b = some j ∧ Leads t i j := by
  obtain ⟨decl, hmem, rfl, source, span, hsource, hparse⟩ := hab
  obtain ⟨i, hi⟩ := List.mem_iff_getElem?.1 hmem
  obtain ⟨body, hget, hmeans⟩ := h.defined hi
  have hone := hbodies decl hmem
  unfold BodyMeans at hmeans
  unfold RawDecl.HasBody at hone
  cases hfields : decl.fields with
  | some fields =>
    rw [hfields, hsource] at hone
    exact hone.elim
  | none =>
    rw [hfields, hsource] at hmeans
    obtain ⟨j, e, rfl, hparse', hden⟩ := hmeans
    rw [hparse] at hparse'
    cases hparse'
    cases hden with
    | named hl =>
      obtain ⟨other, hother, -⟩ := exists_decl_of_lookup h.names hl
      exact ⟨i, j, lookup_decl h.names hdistinct hi, hl, bodyOf_of_entry hget, (declared?_isSome_iff h).2 ⟨other, hother⟩⟩

/-- **A chain of declarations returns in the table exactly if it returns in the document.** -/
theorem transGen_leads_iff (h : t.Lists decls) (hdistinct : (decls.map RawDecl.name).Nodup) {names : List String}
    (hbodies : ∀ decl ∈ decls, decl.HasBody names) {i : Nat} {decl : RawDecl} (hi : decls[i]? = some decl) :
    TransGen (Leads t) i i ↔ TransGen (Aliases decls) decl.name decl.name := by
  let nameAt (id : TypeId) : String := (decls[id]?.map RawDecl.name).getD ""
  let placeOf (name : String) : TypeId := (t.lookup name).getD 0
  constructor
  · intro hback
    have hstep (a b : TypeId) (hab : Leads t a b) : Aliases decls (nameAt a) (nameAt b) := by
      obtain ⟨d, other, ha, hb, halias⟩ := aliases_of_leads h hab
      simp only [nameAt, ha, hb]
      exact halias
    have hname : nameAt i = decl.name := by simp only [nameAt, hi]; rfl
    rw [← hname]
    exact hback.lift nameAt hstep
  · intro hback
    have hstep (a b : String) (hab : Aliases decls a b) : Leads t (placeOf a) (placeOf b) := by
      obtain ⟨j, k, ha, hb, hleads⟩ := leads_of_aliases h hdistinct hbodies hab
      simp only [placeOf, ha, hb]
      exact hleads
    have hplace : placeOf decl.name = i := by simp only [placeOf, lookup_decl h.names hdistinct hi]; rfl
    rw [← hplace]
    exact hback.lift placeOf hstep

end

theorem decides_checkAll : ∀ (pairs : List (RawDecl × TypeId)) (t : TypeTable),
    Decides (pairs.forM fun p => checkCycle p.1 p.2) t (∀ p ∈ pairs, cycleFrom t p.2 [p.2] p.2 = none)
      fun _ t' => t' = t
  | [], t => Decides.pure (List.forall_mem_nil _) rfl
  | p :: rest, t => by
    have hcheck : Decides (checkCycle p.1 p.2) t (cycleFrom t p.2 [p.2] p.2 = none) fun _ t' => t' = t := by
      unfold checkCycle
      cases hc : cycleFrom t p.2 [p.2] p.2 with
      | none =>
        have hpass : Decides (pure () : Lower Unit) t (none = (none : Option (List TypeId))) fun _ t' => t' = t :=
          Decides.pure rfl rfl
        exact hpass.of_eq (by rw [get_bind, hc])
      | some chain =>
        exact (Decides.reject rfl (Option.some_ne_none chain) pure).of_eq (by rw [get_bind, hc]; rfl)
    rw [forM_cons]
    refine (hcheck.bind fun _ _ t' ht => ?_).congr List.forall_mem_cons fun _ _ _ hr => hr
    rw [ht]
    exact decides_checkAll rest t

/-! ## Documents -/

theorem forall_mem_zipIdx_fst {α : Type} {l : List α} {p : α → Prop} :
    (∀ x ∈ l.zipIdx, p x.1) ↔ ∀ a ∈ l, p a := by
  conv_rhs => rw [← List.zipIdx_map_fst 0 l, List.forall_mem_map]

/-- **A document is lowered without errors exactly if it is valid.** -/
theorem decides_lowerAll (raw : RawSchema) :
    Decides (lowerAll raw) TypeTable.empty raw.Valid fun _ t => t.Coherent ∧ t.Lists raw.types := by
  have hcheck (hdistinct : (raw.types.map RawDecl.name).Nodup)
      (hbodies : ∀ p ∈ raw.types.zipIdx, p.1.HasBody (raw.types.map RawDecl.name)) (u : Unit) (t : TypeTable)
      (ht : t.Coherent ∧ (declarations raw.types).Develops t ∧ (∀ p ∈ raw.types.zipIdx, Defined t p.1 p.2) ∧
        ∀ i ∉ raw.types.zipIdx.map Prod.snd, ∀ d, (declarations raw.types).get? i = some d → t.get? i = some d) :
      Decides (raw.types.zipIdx.forM fun p => checkCycle p.1 p.2) t
        (∀ decl ∈ raw.types, ¬ TransGen (Aliases raw.types) decl.name decl.name)
        fun _ t => t.Coherent ∧ t.Lists raw.types := by
    obtain ⟨hcoh, hdev, hdefined, -⟩ := ht
    have hlists := lists_of_defined hcoh hdev hdefined
    refine (decides_checkAll raw.types.zipIdx t).congr ?_ ?_
    · rw [← forall_mem_zipIdx_fst]
      refine forall₂_congr fun p hp => ?_
      rw [cycleFrom_eq_none_iff (fun _ _ hb => hcoh.body_lt hb)]
      exact not_congr (transGen_leads_iff hlists hdistinct (forall_mem_zipIdx_fst.1 hbodies)
        (List.mk_mem_zipIdx_iff_getElem?.1 hp)).symm
    · rintro _ _ _ rfl
      exact ⟨hcoh, hlists⟩
  have hdefine (hdistinct : (raw.types.map RawDecl.name).Nodup) (pairs : List (RawDecl × TypeId)) (t : TypeTable)
      (hpairs : pairs = raw.types.zipIdx ∧ t = raw.types.foldl declaredTable TypeTable.empty) :
      Decides (do
        pairs.forM fun p => define p.1 p.2
        pairs.forM fun p => checkCycle p.1 p.2) t
        ((∀ decl ∈ raw.types, decl.HasBody (raw.types.map RawDecl.name)) ∧
          ∀ decl ∈ raw.types, ¬ TransGen (Aliases raw.types) decl.name decl.name)
        fun _ t => t.Coherent ∧ t.Lists raw.types := by
    obtain ⟨rfl, rfl⟩ := hpairs
    rw [foldl_declaredTable_empty]
    have hentries : ∀ p ∈ raw.types.zipIdx, (declarations raw.types).get? p.2 = some (p.1.entry none) := by
      intro p hp
      rw [get?_declarations, List.mk_mem_zipIdx_iff_getElem?.1 hp]
      rfl
    have hplaces : (raw.types.zipIdx.map Prod.snd).Nodup := by
      rw [List.zipIdx_map_snd]
      exact List.nodup_range'
    refine ((decides_defineAll raw.types.zipIdx (declarations raw.types) (coherent_declarations raw.types)
      (knows_of_names rfl) hentries hplaces).bind (hcheck hdistinct)).congr ?_ fun _ _ _ hr => hr
    rw [forall_mem_zipIdx_fst]
  refine ((decides_declareAll raw.types TypeTable.empty).bind fun hv => hdefine hv.2.1).congr ?_ fun _ _ _ hr => hr
  constructor
  · exact fun h => ⟨⟨h.names, h.distinct, fun _ _ => rfl⟩, h.bodies, h.chains⟩
  · exact fun h => ⟨h.1.1, h.1.2.1, h.2.1, h.2.2⟩

/-- **A table of the declarations of a valid document is sound.** -/
theorem sound_of_valid {raw : RawSchema} (hvalid : raw.Valid) {t : TypeTable} (h : t.Coherent)
    (hlists : t.Lists raw.types) : t.Sound := by
  have hrange : ∀ id body, t.bodyOf id = some body → body < t.size := fun _ _ hb => h.body_lt hb
  refine ⟨h.toFormed, fun {id d} hd => ?_, bodyOf_underlying hrange fun id hb => ?_⟩
  · obtain ⟨decl, hi⟩ : ∃ decl, raw.types[id]? = some decl :=
      ⟨_, List.getElem?_eq_getElem ((hlists.declared hd).1 rfl)⟩
    obtain ⟨body, hget, hmeans⟩ := hlists.defined hi
    have hone := hvalid.bodies _ (List.mem_of_getElem? hi)
    rw [hd] at hget
    unfold RawDecl.entry at hget
    split at hget
    · cases hget
    · rename_i hnative
      cases hget
      unfold BodyMeans at hmeans
      split at hmeans
      · obtain ⟨body, _, rfl, -⟩ := hmeans
        exact ⟨body, rfl⟩
      · obtain ⟨body, _, rfl, -⟩ := hmeans
        exact ⟨body, rfl⟩
      · rename_i hfields hbody
        unfold RawDecl.HasBody at hone
        rw [hfields, hbody] at hone
        exact absurd hone hnative
  · obtain ⟨body, hbody⟩ := Option.isSome_iff_exists.1 hb
    obtain ⟨decl, hdecl⟩ := (declared?_isSome_iff hlists).1 (declared?_isSome_of_bodyOf hbody)
    rw [cycleFrom_eq_none_iff hrange, transGen_leads_iff hlists hvalid.distinct hvalid.bodies hdecl]
    exact hvalid.chains decl (List.mem_of_getElem? hdecl)

end Lower

namespace Schema

theorem ofRaw_eq_ok_iff {raw : RawSchema} {s : Schema} : (ofRaw raw).value = .ok s ↔
    (Lower.lowerAll raw TypeTable.empty).NoErrors ∧
      s = ⟨raw.module, (Lower.lowerAll raw TypeTable.empty).value.2⟩ := by
  rw [← Noted.hasErrors_diagnostics]
  unfold ofRaw
  cases herr : (Lower.lowerAll raw TypeTable.empty).diagnostics.hasErrors with
  | true =>
    simp only [StateT.run, herr, if_true]
    refine iff_of_false (fun h => ?_) (fun h => ?_)
    · cases h
    · cases h.1
  | false =>
    simp only [StateT.run, herr, Bool.false_eq_true, if_false, Except.ok.injEq, true_and]
    exact eq_comm

/-- **The table of a schema is coherent** and holds the declarations of its document. -/
theorem coherent_of_ofRaw {raw : RawSchema} {s : Schema} (h : (ofRaw raw).value = .ok s) :
    s.table.Coherent ∧ s.table.Lists raw.types := by
  obtain ⟨hno, rfl⟩ := ofRaw_eq_ok_iff.1 h
  have hlower := Lower.decides_lowerAll raw
  exact hlower.result (hlower.noErrors_iff.1 hno)

theorem valid_of_ofRaw {raw : RawSchema} {s : Schema} (h : (ofRaw raw).value = .ok s) : raw.Valid :=
  (Lower.decides_lowerAll raw).noErrors_iff.1 (ofRaw_eq_ok_iff.1 h).1

theorem exists_ofRaw_of_valid {raw : RawSchema} (h : raw.Valid) : ∃ s, (ofRaw raw).value = .ok s :=
  ⟨_, ofRaw_eq_ok_iff.2 ⟨(Lower.decides_lowerAll raw).noErrors_iff.2 h, rfl⟩⟩

/-- **The table of a schema is sound.** -/
theorem sound_of_ofRaw {raw : RawSchema} {s : Schema} (h : (ofRaw raw).value = .ok s) : s.table.Sound := by
  obtain ⟨hcoh, hlists⟩ := coherent_of_ofRaw h
  exact Lower.sound_of_valid (valid_of_ofRaw h) hcoh hlists

/-- **The valid documents and no others have a schema**, whose table holds their declarations. -/
theorem ofRaw_ok_iff_valid (raw : RawSchema) :
    ((∃ s, (ofRaw raw).value = .ok s) ↔ raw.Valid) ∧
      ∀ s, (ofRaw raw).value = .ok s → s.module = raw.module ∧ s.table.Lists raw.types := by
  refine ⟨?_, fun s hs => ⟨?_, (coherent_of_ofRaw hs).2⟩⟩
  · rw [← (Lower.decides_lowerAll raw).noErrors_iff]
    simp only [ofRaw_eq_ok_iff, exists_and_left, exists_eq, and_true]
  · obtain ⟨-, rfl⟩ := ofRaw_eq_ok_iff.1 hs
    rfl

def groveDocument : RawSchema :=
  ⟨some "grove", [
    ⟨"Tree", some [⟨"age", "Years", some "omitempty", false⟩, ⟨"branches", "Vec < Tree >", none, false⟩], none, false⟩,
    ⟨"Years", none, some "Count", false⟩,
    ⟨"Count", none, none, true⟩]⟩

def groveTable : TypeTable :=
  ⟨[.named ⟨"Tree", some 4⟩, .named ⟨"Years", some 2⟩, .native ⟨"Count", none⟩, .sequence 0 .slice,
      .struct [⟨"age", 1, some "omitempty", false⟩, ⟨"branches", 3, none, false⟩]],
    [(.sequence 0 .slice, 3), (.struct [⟨"age", 1, some "omitempty", false⟩, ⟨"branches", 3, none, false⟩], 4)],
    [("Tree", 0), ("Years", 1), ("Count", 2)]⟩

theorem groveDocument_valid : groveDocument.Valid ∧ groveTable.Lists groveDocument.types := by
  have hs : (ofRaw groveDocument).value = .ok ⟨some "grove", groveTable⟩ := ofRaw_eq_ok (by decide +kernel)
  obtain ⟨hvalid, hlists⟩ := ofRaw_ok_iff_valid groveDocument
  exact ⟨hvalid.1 ⟨_, hs⟩, (hlists _ hs).2⟩

end Schema
end BencodePlan
