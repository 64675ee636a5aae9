import BencodePlan.Proofs.Schema.Lowering
import BencodePlan.Proofs.Types.Meaning
/-!
# What lowering accepts

Each stage of lowering is given the exact condition under which it reports no error, and what it leaves in the table
then (`Decides`).  The conditions are about the document alone: a stage asks of the table only which names are declared,
and that never changes once the declarations are entered.  The meaning of what is entered is that of `Denotes`.
-/
namespace BencodePlan

open TypeTable

/-! ## Documents -/

def IsIdentifier (name : String) : Prop := TypeExpr.IsWord name.toList ∧ name ≠ "_"

def IsType (names : List String) (source : String) : Prop :=
  ∃ e, TypeExpr.parse source = .ok e ∧ ∀ name ∈ e.mentions, name ∈ names

/-- Members with names of their own, each with a type. -/
structure AreMembers (names : List String) (fields : List RawField) : Prop where
  identifiers : ∀ f ∈ fields, IsIdentifier f.name
  distinct : (fields.map RawField.name).Nodup
  types : ∀ f ∈ fields, IsType names f.type

namespace RawDecl

/-- **A body of one form**, or none for a native type. -/
def HasBody (names : List String) (decl : RawDecl) : Prop :=
  match decl.fields, decl.body with
  | some _, some _ => False
  | some fields, none => AreMembers names fields
  | none, some source => IsType names source
  | none, none => decl.native = true

def entry (decl : RawDecl) (body : Option TypeId) : TypeDesc :=
  if decl.native then .native ⟨decl.name, body⟩ else .named ⟨decl.name, body⟩

theorem isDeclared_entry (decl : RawDecl) (body : Option TypeId) : (decl.entry body).isDeclared = true := by
  unfold entry
  split <;> rfl

theorem withBody_entry (decl : RawDecl) (body : Option TypeId) (id : TypeId) :
    (decl.entry body).withBody id = decl.entry (some id) := by
  unfold entry
  split <;> rfl

end RawDecl

def TypeTable.MemberMeans (t : TypeTable) (field : RawField) (m : Member) : Prop :=
  m.name = field.name ∧ m.tag = field.tag ∧ m.embedded = field.embedded ∧
    ∃ e, TypeExpr.parse field.type = .ok e ∧ t.Denotes e m.type

/-- **The meaning of a declaration's body.** -/
def TypeTable.BodyMeans (t : TypeTable) (decl : RawDecl) (body : Option TypeId) : Prop :=
  match decl.fields, decl.body with
  | some fields, _ =>
    ∃ id ms, body = some id ∧ t.get? id = some (.struct ms) ∧ List.Forall₂ t.MemberMeans fields ms
  | none, some source => ∃ id e, body = some id ∧ TypeExpr.parse source = .ok e ∧ t.Denotes e id
  | none, none => body = none

theorem TypeTable.MemberMeans.develops {t t' : TypeTable} (h : t.Develops t') {field : RawField} {m : Member}
    (hm : t.MemberMeans field m) : t'.MemberMeans field m := by
  obtain ⟨hname, htag, hembedded, e, hparse, hden⟩ := hm
  exact ⟨hname, htag, hembedded, e, hparse, hden.develops h⟩

theorem TypeTable.BodyMeans.develops {t t' : TypeTable} (h : t.Develops t') {decl : RawDecl} {body : Option TypeId}
    (hb : t.BodyMeans decl body) : t'.BodyMeans decl body := by
  unfold BodyMeans at hb ⊢
  split at hb
  · obtain ⟨id, ms, hbody, hget, hms⟩ := hb
    exact ⟨id, ms, hbody, h.structural hget rfl, hms.imp fun _ _ hm => hm.develops h⟩
  · obtain ⟨id, e, hbody, hparse, hden⟩ := hb
    exact ⟨id, e, hbody, hparse, hden.develops h⟩
  · exact hb

theorem TypeTable.BodyMeans.lt {t : TypeTable} (h : t.Formed) {decl : RawDecl} {id : TypeId}
    (hb : t.BodyMeans decl (some id)) : id < t.size := by
  unfold BodyMeans at hb
  split at hb
  · obtain ⟨_, ms, hbody, hget, -⟩ := hb
    cases hbody
    exact get?_lt hget
  · obtain ⟨_, e, hbody, -, hden⟩ := hb
    cases hbody
    exact (hden.isPart h).1
  · cases hb

theorem isIdentifier_iff {name : String} : Text.isIdentifier name = true ↔ IsIdentifier name := by
  unfold Text.isIdentifier IsIdentifier TypeExpr.IsWord
  cases hname : name.toList with
  | nil => simp
  | cons c rest =>
    have halone : name ≠ "_" ↔ ¬ (c = '_' ∧ rest = []) := by
      rw [← not_iff_not, not_not, not_not, ← String.toList_inj, hname]
      exact List.cons_eq_cons
    simp only [Bool.and_eq_true, List.all_eq_true, Bool.not_eq_true', Bool.and_eq_false_imp, decide_eq_true_eq,
      ← Bool.not_eq_true (List.isEmpty _), List.isEmpty_iff, halone, not_and, List.cons.injEq]
    constructor
    · rintro ⟨⟨hc, hrest⟩, hnot⟩
      exact ⟨⟨c, rest, ⟨rfl, rfl⟩, hc, hrest⟩, hnot⟩
    · rintro ⟨⟨_, _, ⟨rfl, rfl⟩, hc, hrest⟩, hnot⟩
      exact ⟨⟨hc, hrest⟩, hnot⟩

theorem isTypeName_iff {name : String} :
    Lower.isTypeName name = true ↔ IsIdentifier name ∧ ¬ TypeExpr.IsKeyword name := by
  have hscalar : (ScalarKind.ofName? name).isNone = true ↔ ¬ ∃ kind : ScalarKind, kind.name = name := by
    rw [Option.isNone_iff_eq_none, Option.eq_none_iff_forall_ne_some, not_exists]
    exact forall_congr' fun kind => not_congr TypeExpr.ofName?_eq_some_iff
  unfold Lower.isTypeName TypeExpr.IsKeyword Lower.reserved
  rw [Bool.and_eq_true, Bool.and_eq_true, isIdentifier_iff, hscalar, Bool.not_eq_true', not_or, and_assoc,
    ← Bool.not_eq_true, List.contains_iff_mem, and_comm (a := ¬ (name ∈ _))]

namespace Lower

variable {α β : Type}

/-- **When a work reports no error**, and what it then leaves. -/
structure Decides (m : Lower α) (t : TypeTable) (valid : Prop) (result : α → TypeTable → Prop) : Prop where
  noErrors_iff : (m t).NoErrors ↔ valid
  result : valid → result (m t).value.1 (m t).value.2

namespace Decides

variable {m : Lower α} {f : α → Lower β} {t : TypeTable} {valid W : Prop} {P : α → TypeTable → Prop}
  {Q : β → TypeTable → Prop}

theorem silent (h : (m t).reports = []) (hv : valid) (hP : P (m t).value.1 (m t).value.2) : Decides m t valid P := by
  refine ⟨iff_of_true (fun d hd => ?_) hv, fun _ => hP⟩
  rw [h] at hd
  exact absurd hd List.not_mem_nil

theorem pure {a : α} (hv : valid) (h : P a t) : Decides (Pure.pure a) t valid P :=
  silent rfl hv h

theorem bind (hm : Decides m t valid P) (hf : valid → ∀ a t', P a t' → Decides (f a) t' W Q) :
    Decides (m >>= f) t (valid ∧ W) Q := by
  refine ⟨?_, fun h => ?_⟩
  · rw [noErrors_bind, hm.noErrors_iff]
    exact and_congr_right fun hv => (hf hv _ _ (hm.result hv)).noErrors_iff
  · rw [value_bind]
    exact (hf h.1 _ _ (hm.result h.1)).result h.2

theorem reject {d : Diagnostic} (h : d.isError = true) (hv : ¬ valid) (f : Unit → Lower β) :
    Decides (report d >>= f) t valid Q :=
  ⟨iff_of_false (not_noErrors_report_bind h f t) hv, fun h => absurd h hv⟩

theorem congr {R : α → TypeTable → Prop} (hm : Decides m t valid P) (hv : W ↔ valid)
    (hR : valid → ∀ a t', P a t' → R a t') : Decides m t W R :=
  ⟨hm.noErrors_iff.trans hv.symm, fun h => hR (hv.1 h) _ _ (hm.result (hv.1 h))⟩

theorem of_eq {m' : Lower α} (h : m t = m' t) (hm : Decides m' t valid P) : Decides m t valid P := by
  obtain ⟨hno, hresult⟩ := hm
  rw [← h] at hno hresult
  exact ⟨hno, hresult⟩

end Decides

/-! ## Type expressions -/

def Knows (t : TypeTable) (names : List String) : Prop := ∀ name, (t.lookup name).isSome = true ↔ name ∈ names

theorem Knows.develops {t t' : TypeTable} (h : t.Develops t') {names : List String} (hn : Knows t names) :
    Knows t' names := fun name => by rw [h.lookup]; exact hn name

/-- **A work has found what an expression stands for.** -/
def Finds (t : TypeTable) (e : TypeExpr) (found : Option TypeId) (t' : TypeTable) : Prop :=
  ∃ id, found = some id ∧ t'.Coherent ∧ t.Extends t' ∧ t'.Denotes e id

theorem decides_intern {t : TypeTable} (h : t.Coherent) {d : TypeDesc} (hd : d.isDeclared = false)
    (hparts : ∀ c ∈ d.parts, IsPart t c) {e : TypeExpr} (hadm : e.Admissible)
    (hden : ∀ {t'}, t.Develops t' → ∀ {id}, t'.get? id = some d → t'.Denotes e id) {valid : Prop} (hv : valid) :
    Decides (some <$> intern d) t valid (Finds t e) := by
  obtain ⟨hcoh, hext, hget⟩ := h.intern hd hparts (Or.inr ⟨e, hadm, hden⟩)
  exact Decides.silent rfl hv ⟨_, rfl, hcoh, hext, hden hext.toDevelops hget⟩

theorem decides_around {m : Lower (Option TypeId)} {t : TypeTable} {valid : Prop} {e e' : TypeExpr}
    (hm : Decides m t valid (Finds t e)) (around : TypeId → TypeDesc) (hparts : ∀ id, (around id).parts = [id])
    (hd : ∀ id, (around id).isDeclared = false) (hadm : e'.Admissible)
    (hden : ∀ {t' : TypeTable} {a id : TypeId}, t'.Denotes e a → t'.get? id = some (around a) → t'.Denotes e' id) :
    Decides (m >>= fun found => match found with
      | some id => some <$> intern (around id)
      | none => pure none) t valid (Finds t e') := by
  refine (hm.bind (W := True) fun _ found t' hfound => ?_).congr (iff_of_eq (and_true valid).symm) fun _ _ _ h => h
  obtain ⟨a, rfl, hcoh, hext, ha⟩ := hfound
  have hpart : ∀ c ∈ (around a).parts, IsPart t' c := fun c hc => by
    rw [hparts, List.mem_singleton] at hc
    rw [hc]
    exact ha.isPart hcoh.toFormed
  refine (decides_intern hcoh (hd a) hpart hadm (fun hdev _ hget => hden (ha.develops hdev) hget)
    trivial).congr Iff.rfl ?_
  rintro _ _ t'' ⟨id, hid, hcoh', hext', hden'⟩
  exact ⟨id, hid, hcoh', hext.trans hext', hden'⟩

/-- **An expression is resolved exactly if its names are declared.** -/
theorem decides_resolve (location source : String) {names : List String} : ∀ (e : TypeExpr) (t : TypeTable),
    e.Admissible → t.Coherent → Knows t names →
    Decides (resolve location source e) t (∀ name ∈ e.mentions, name ∈ names) (Finds t e)
  | .scalar kind, t, hadm, h, _ =>
    decides_intern h rfl (fun _ hc => by cases hc) hadm (fun _ _ hget => .scalar hget) (List.forall_mem_nil _)
  | .duration, t, hadm, h, _ =>
    decides_intern h rfl (fun _ hc => by cases hc) hadm (fun _ _ hget => .duration hget) (List.forall_mem_nil _)
  | .option inner, t, hadm, h, hn =>
    decides_around (decides_resolve location source inner t hadm h hn) .pointer (fun _ => rfl) (fun _ => rfl) hadm
      fun ha hget => .option ha hget
  | .vec element, t, hadm, h, hn =>
    decides_around (decides_resolve location source element t hadm h hn) (.sequence · .slice) (fun _ => rfl)
      (fun _ => rfl) hadm fun ha hget => .vec ha hget
  | .array element length, t, hadm, h, hn =>
    decides_around (decides_resolve location source element t hadm.1 h hn) (.sequence · (.array length)) (fun _ => rfl)
      (fun _ => rfl) hadm fun ha hget => .array ha hget
  | .map key value, t, hadm, h, hn => by
    have hlast (a b : TypeId) (t' : TypeTable) (hcoh : t'.Coherent) (hext : t.Extends t') (ha : t'.Denotes key a)
        (hb : t'.Denotes value b) : Decides (some <$> intern (.mapping a b)) t' True (Finds t (.map key value)) := by
      have hparts : ∀ c ∈ (TypeDesc.mapping a b).parts, IsPart t' c := fun c hc => by
        rcases List.mem_cons.1 hc with rfl | hc
        · exact ha.isPart hcoh.toFormed
        · rw [List.mem_singleton.1 hc]
          exact hb.isPart hcoh.toFormed
      refine (decides_intern hcoh rfl hparts hadm (fun hdev _ hget =>
        .map (ha.develops hdev) (hb.develops hdev) hget) trivial).congr Iff.rfl ?_
      rintro _ _ t'' ⟨id, hid, hcoh', hext', hden'⟩
      exact ⟨id, hid, hcoh', hext.trans hext', hden'⟩
    refine ((decides_resolve location source key t hadm.1 h hn).bind fun _ k? t' hk => ?_).congr List.forall_mem_append
      fun _ _ _ hr => hr
    obtain ⟨a, rfl, hcoh, hext, ha⟩ := hk
    refine ((decides_resolve location source value t' hadm.2 hcoh (hn.develops hext.toDevelops)).bind (W := True)
      fun _ v? t'' hv => ?_).congr (iff_of_eq (and_true _).symm) fun _ _ _ hr => hr
    obtain ⟨b, rfl, hcoh', hext', hb⟩ := hv
    exact hlast a b t'' hcoh' (hext.trans hext') (ha.develops hext'.toDevelops) hb
  | .named name span, t, _, h, hn => by
    have hname : (∀ m ∈ (TypeExpr.named name span).mentions, m ∈ names) ↔ (t.lookup name).isSome = true := by
      rw [hn name]
      exact List.forall_mem_singleton
    rw [hname]
    cases hl : t.lookup name with
    | none =>
      exact (Decides.reject rfl Bool.false_ne_true _).of_eq (by rw [resolve, get_bind, hl])
    | some id =>
      have hfinds : Finds t (.named name span) (some id) t := ⟨id, rfl, h, Extends.refl t, .named hl⟩
      exact (Decides.pure rfl hfinds).of_eq (by rw [resolve, get_bind, hl])

/-- **The text of a type is lowered exactly if it is one.** -/
theorem decides_resolveText (location source : String) {names : List String} {t : TypeTable} (h : t.Coherent)
    (hn : Knows t names) : Decides (resolveText location source) t (IsType names source)
      fun found t' => ∃ e, TypeExpr.parse source = .ok e ∧ Finds t e found t' := by
  unfold resolveText IsType
  cases hparse : TypeExpr.parse source with
  | ok e =>
    obtain ⟨ts, hspelled, -⟩ := TypeExpr.parse_eq_ok_iff.1 hparse
    refine (decides_resolve location source e t hspelled.admissible h hn).congr ?_ fun _ _ _ hr => ⟨e, rfl, hr⟩
    constructor
    · rintro ⟨_, heq, he⟩
      cases heq
      exact he
    · exact fun he => ⟨e, rfl, he⟩
  | error e =>
    refine Decides.reject rfl (fun hv => ?_) _
    obtain ⟨_, heq, -⟩ := hv
    cases heq

/-! ## Struct bodies -/

theorem decides_lowerMember (owner : String) (seen : List String) (field : RawField) {names : List String}
    {t : TypeTable} (h : t.Coherent) (hn : Knows t names) :
    Decides (lowerMember owner seen field) t (IsIdentifier field.name ∧ field.name ∉ seen ∧ IsType names field.type)
      fun found t' => ∃ m, found = some m ∧ t'.Coherent ∧ t.Extends t' ∧ t'.MemberMeans field m := by
  unfold lowerMember
  split
  · rename_i hname
    refine Decides.reject rfl (fun hv => ?_) _
    rw [isIdentifier_iff.2 hv.1] at hname
    cases hname
  · rename_i hname
    have hid : IsIdentifier field.name := isIdentifier_iff.1 (by simpa using hname)
    split
    · rename_i hseen
      exact Decides.reject rfl (fun hv => hv.2.1 hseen) _
    · rename_i hseen
      refine ((decides_resolveText _ field.type h hn).bind (W := True) fun _ found t' hfound => ?_).congr ?_
        fun _ _ _ hr => hr
      · obtain ⟨e, hparse, id, rfl, hcoh, hext, hden⟩ := hfound
        exact Decides.pure trivial ⟨_, rfl, hcoh, hext, rfl, rfl, rfl, e, hparse, hden⟩
      · rw [and_true]
        exact ⟨fun hv => hv.2.2, fun hv => ⟨hid, hseen, hv⟩⟩

theorem decides_lowerMembers (owner : String) {names : List String} : ∀ (fields : List RawField) (seen : List String)
    (t : TypeTable), t.Coherent → Knows t names →
    Decides (lowerMembers owner seen fields) t (AreMembers names fields ∧ ∀ f ∈ fields, f.name ∉ seen)
      fun found t' => ∃ ms : List Member, found = ms.map some ∧ t'.Coherent ∧ t.Extends t' ∧
        List.Forall₂ t'.MemberMeans fields ms
  | [], _, t, h, _ =>
    Decides.pure ⟨⟨List.forall_mem_nil _, List.nodup_nil, List.forall_mem_nil _⟩, List.forall_mem_nil _⟩
      ⟨[], rfl, h, Extends.refl t, .nil⟩
  | field :: rest, seen, t, h, hn => by
    have hnext (hv : IsIdentifier field.name ∧ field.name ∉ seen ∧ IsType names field.type) (m? : Option Member)
        (t' : TypeTable)
        (hm : ∃ m, m? = some m ∧ t'.Coherent ∧ t.Extends t' ∧ t'.MemberMeans field m) :
        Decides (do return m? :: (← lowerMembers owner
            (if Text.isIdentifier field.name then field.name :: seen else seen) rest)) t'
          (AreMembers names rest ∧ ∀ f ∈ rest, f.name ∉ field.name :: seen)
          fun found t'' => ∃ ms : List Member, found = ms.map some ∧ t''.Coherent ∧ t.Extends t'' ∧
            List.Forall₂ t''.MemberMeans (field :: rest) ms := by
      obtain ⟨m, rfl, hcoh, hext, hmeans⟩ := hm
      rw [if_pos (isIdentifier_iff.2 hv.1)]
      refine ((decides_lowerMembers owner rest (field.name :: seen) t' hcoh (hn.develops hext.toDevelops)).bind
        (W := True) fun _ _ t'' hms => ?_).congr (iff_of_eq (and_true _).symm) fun _ _ _ hr => hr
      obtain ⟨ms, rfl, hcoh', hext', hmeans'⟩ := hms
      exact Decides.pure trivial ⟨m :: ms, rfl, hcoh', hext.trans hext', .cons (hmeans.develops hext'.toDevelops) hmeans'⟩
    refine ((decides_lowerMember owner seen field h hn).bind hnext).congr ?_ fun _ _ _ hr => hr
    constructor
    · rintro ⟨⟨hid, hdistinct, htypes⟩, hseen⟩
      rw [List.map_cons, List.nodup_cons] at hdistinct
      refine ⟨⟨hid _ List.mem_cons_self, hseen _ List.mem_cons_self, htypes _ List.mem_cons_self⟩,
        ⟨fun f hf => hid f (List.mem_cons_of_mem _ hf), hdistinct.2, fun f hf => htypes f (List.mem_cons_of_mem _ hf)⟩,
        fun f hf hmem => ?_⟩
      rcases List.mem_cons.1 hmem with heq | hmem
      · exact hdistinct.1 (heq ▸ List.mem_map_of_mem hf)
      · exact hseen f (List.mem_cons_of_mem _ hf) hmem
    · rintro ⟨⟨hid, hnew, htype⟩, ⟨hids, hdistinct, htypes⟩, hseen⟩
      refine ⟨⟨List.forall_mem_cons.2 ⟨hid, hids⟩, ?_, List.forall_mem_cons.2 ⟨htype, htypes⟩⟩,
        List.forall_mem_cons.2 ⟨hnew, fun f hf hmem => hseen f hf (List.mem_cons_of_mem _ hmem)⟩⟩
      rw [List.map_cons, List.nodup_cons]
      refine ⟨fun hmem => ?_, hdistinct⟩
      obtain ⟨f, hf, heq⟩ := List.mem_map.1 hmem
      exact hseen f hf (heq ▸ List.mem_cons_self)

theorem decides_lowerStruct (owner : String) (fields : List RawField) {names : List String} {t : TypeTable}
    (h : t.Coherent) (hn : Knows t names) :
    Decides (lowerStruct owner fields) t (AreMembers names fields) fun found t' =>
      ∃ id ms, found = some id ∧ t'.Coherent ∧ t.Extends t' ∧ t'.get? id = some (.struct ms) ∧
        List.Forall₂ t'.MemberMeans fields ms := by
  unfold lowerStruct
  refine ((decides_lowerMembers owner fields [] t h hn).bind (W := True) fun _ found t' hfound => ?_).congr ?_
    fun _ _ _ hr => hr
  · obtain ⟨ms, rfl, hcoh, hext, hmeans⟩ := hfound
    rw [mapM_id_eq_some_iff.2 rfl]
    have hparts : ∀ c ∈ (TypeDesc.struct ms).parts, IsPart t' c := fun c hc => by
      obtain ⟨m, hm, rfl⟩ := List.mem_map.1 hc
      obtain ⟨f, -, -, -, -, e, -, hden⟩ := exists_of_forall₂ hmeans.flip hm
      exact hden.isPart hcoh.toFormed
    obtain ⟨hcoh', hext', hget⟩ := hcoh.intern (d := .struct ms) rfl hparts (Or.inl ⟨ms, rfl⟩)
    exact Decides.silent rfl trivial
      ⟨_, ms, rfl, hcoh', hext.trans hext', hget, hmeans.imp fun _ _ hm => hm.develops hext'.toDevelops⟩
  · rw [and_true]
    exact (and_iff_left fun _ _ => List.not_mem_nil).symm

/-! ## Declarations -/

/-- **A body is lowered exactly if the declaration has one** of the right form. -/
theorem decides_lowerBody (decl : RawDecl) {names : List String} {t : TypeTable} (h : t.Coherent)
    (hn : Knows t names) :
    Decides (lowerBody decl) t (decl.HasBody names)
      fun body t' => t'.Coherent ∧ t.Extends t' ∧ t'.BodyMeans decl body := by
  unfold lowerBody RawDecl.HasBody TypeTable.BodyMeans
  cases decl.fields with
  | some fields =>
    cases decl.body with
    | some source => exact Decides.reject rfl id _
    | none =>
      refine (decides_lowerStruct decl.name fields h hn).congr Iff.rfl ?_
      rintro _ _ t' ⟨id, ms, hid, hcoh, hext, hget, hmeans⟩
      exact ⟨hcoh, hext, id, ms, hid, hget, hmeans⟩
  | none =>
    cases decl.body with
    | some source =>
      refine (decides_resolveText decl.name source h hn).congr Iff.rfl ?_
      rintro _ _ t' ⟨e, hparse, id, hid, hcoh, hext, hden⟩
      exact ⟨hcoh, hext, id, e, hid, hparse, hden⟩
    | none =>
      dsimp only
      split
      · rename_i hnative
        exact Decides.pure hnative ⟨h, Extends.refl t, rfl⟩
      · rename_i hnative
        exact Decides.reject rfl hnative _

/-- **A declaration with its body** at a place of the table. -/
def Defined (t : TypeTable) (decl : RawDecl) (id : TypeId) : Prop :=
  ∃ body, t.get? id = some (decl.entry body) ∧ t.BodyMeans decl body

theorem decides_define (decl : RawDecl) {id : TypeId} {names : List String} {t : TypeTable} (h : t.Coherent)
    (hn : Knows t names) (hid : t.get? id = some (decl.entry none)) :
    Decides (define decl id) t (decl.HasBody names) fun _ t' => t'.Coherent ∧ t.Develops t' ∧ Defined t' decl id ∧
      ∀ i ≠ id, ∀ d, t.get? i = some d → t'.get? i = some d := by
  unfold define
  refine ((decides_lowerBody decl h hn).bind (W := True) fun _ body? t' hbody => ?_).congr
    (iff_of_eq (and_true _).symm) fun _ _ _ hr => hr
  obtain ⟨hcoh, hext, hmeans⟩ := hbody
  have hget := hext.kept hid
  cases body? with
  | none => exact Decides.pure trivial ⟨hcoh, hext.toDevelops, ⟨none, hget, hmeans⟩, fun _ _ _ hi => hext.kept hi⟩
  | some body =>
    obtain ⟨hcoh', hdev'⟩ := hcoh.define hget (decl.isDeclared_entry none) (hmeans.lt hcoh.toFormed)
    have hgetAt := get?_define hget (decl.isDeclared_entry none) body
    refine Decides.silent rfl trivial ⟨hcoh', hext.toDevelops.trans hdev', ?_, ?_⟩
    · exact ⟨some body, (hgetAt id).trans (by rw [if_pos rfl, decl.withBody_entry]), hmeans.develops hdev'⟩
    · intro i hi d hd
      exact (hgetAt i).trans (by rw [if_neg (Ne.symm hi), hext.kept hd])

/-- **Declarations at places of their own are defined exactly if each has a body.** -/
theorem decides_defineAll {names : List String} : ∀ (pairs : List (RawDecl × TypeId)) (t : TypeTable), t.Coherent →
    Knows t names → (∀ p ∈ pairs, t.get? p.2 = some (p.1.entry none)) → (pairs.map Prod.snd).Nodup →
    Decides (pairs.forM fun p => define p.1 p.2) t (∀ p ∈ pairs, p.1.HasBody names) fun _ t' => t'.Coherent ∧
      t.Develops t' ∧ (∀ p ∈ pairs, Defined t' p.1 p.2) ∧
      ∀ i ∉ pairs.map Prod.snd, ∀ d, t.get? i = some d → t'.get? i = some d
  | [], t, h, _, _, _ =>
    Decides.pure (List.forall_mem_nil _) ⟨h, Develops.refl t, List.forall_mem_nil _, fun _ _ _ hd => hd⟩
  | p :: rest, t, h, hn, hentries, hdistinct => by
    rw [List.map_cons, List.nodup_cons] at hdistinct
    have hother : ∀ q ∈ rest, q.2 ≠ p.2 := fun q hq heq => hdistinct.1 (heq ▸ List.mem_map_of_mem hq)
    have hnext (u : Unit) (t' : TypeTable) (hp : t'.Coherent ∧ t.Develops t' ∧ Defined t' p.1 p.2 ∧
        ∀ i ≠ p.2, ∀ d, t.get? i = some d → t'.get? i = some d) :
        Decides (rest.forM fun p => define p.1 p.2) t' (∀ q ∈ rest, q.1.HasBody names) fun _ t'' => t''.Coherent ∧
          t.Develops t'' ∧ (∀ q ∈ p :: rest, Defined t'' q.1 q.2) ∧
          ∀ i ∉ (p :: rest).map Prod.snd, ∀ d, t.get? i = some d → t''.get? i = some d := by
      obtain ⟨hcoh, hdev, ⟨body, hget, hmeans⟩, hkept⟩ := hp
      refine (decides_defineAll rest t' hcoh (hn.develops hdev) (fun q hq => hkept _ (hother q hq) _
        (hentries q (List.mem_cons_of_mem _ hq))) hdistinct.2).congr Iff.rfl ?_
      rintro _ _ t'' ⟨hcoh', hdev', hdefined, hkept'⟩
      refine ⟨hcoh', hdev.trans hdev', List.forall_mem_cons.2 ⟨?_, hdefined⟩, fun i hi d hd => ?_⟩
      · exact ⟨body, hkept' _ hdistinct.1 _ hget, hmeans.develops hdev'⟩
      · rw [List.map_cons, List.mem_cons, not_or] at hi
        exact hkept' i hi.2 d (hkept i hi.1 d hd)
    rw [forM_cons]
    exact ((decides_define p.1 h hn (hentries p List.mem_cons_self)).bind fun _ => hnext).congr
      List.forall_mem_cons fun _ _ _ hr => hr

end Lower
end BencodePlan
