import BencodePlan.Proofs.Pairs
import BencodePlan.Proofs.Types.Expansion
import BencodePlan.Proofs.Schema.Building
import BencodePlan.Proofs.Schema.Validity
/-!
# Circles of aliases

A document declares a name by the first declaration under it (`RawSchema.declared?`), and a declared type leads to
another one if it is nothing but a name for it (`RawSchema.LeadsTo`).  A circle is reported for precisely those types
that lead back to themselves, with its members in order (`cycleReports_exact`), whatever else is wrong with the document.

The search of one type for itself (`cycleFrom_eq_some_iff`) finds a way around if there is one, so its reports are about
the table.  What is in the table is what the document says, declaration by declaration (`Holds`).
-/
namespace BencodePlan

open TypeTable Function
open Relation (TransGen ReflTransGen)

/-! ## Chains of bodies -/

namespace TypeTable

def StepsTo (t : TypeTable) (a b : TypeId) : Prop := t.bodyOf a = some b

theorem reflTransGen_underlying (t : TypeTable) (id : TypeId) : ReflTransGen t.StepsTo id (t.underlying id) := by
  rw [underlying_eq_iterate]
  generalize t.size + 1 = n
  induction n with
  | zero => exact .refl
  | succ n ih =>
    rw [iterate_succ_apply']
    cases hb : t.bodyOf (t.next^[n] id) with
    | none => rwa [next_of_none hb]
    | some body => exact ih.tail (by rwa [next_of_some hb])

variable {t : TypeTable}

theorem Sound.underlying_of_steps (h : t.Sound) {a b : TypeId} (hab : ReflTransGen t.StepsTo a b) :
    t.underlying b = t.underlying a := by
  induction hab with
  | refl => rfl
  | @tail b c _ hbc ih =>
    rw [← ih, ← h.underlying_next b, next_of_some hbc]

theorem Sound.underlying_desc (h : t.Sound) {id : TypeId} (hid : id < t.size) :
    ∃ d, t.get? (t.underlying id) = some d ∧ (d.isDeclared = false ∨ ∃ name, d = .native ⟨name, none⟩) := by
  obtain ⟨d, hd⟩ := exists_get? (h.underlying_lt hid)
  refine ⟨d, hd, ?_⟩
  cases hdeclared : d.isDeclared with
  | false => exact Or.inl rfl
  | true =>
    have hend := h.chain_ends id
    unfold bodyOf at hend
    rw [declared?_of_get? hd] at hend
    cases d with
    | named e => exact absurd hd h.underlying_ne_named
    | native e =>
      obtain ⟨name, body⟩ := e
      exact Or.inr ⟨name, by rw [show body = none from hend]⟩
    | _ => cases hdeclared

end TypeTable

/-! ## Rings -/

/-- **A way around a circle**: from one member through the others, each once, back to the first. -/
def IsRing {α : Type} (R : α → α → Prop) (a : α) (rest : List α) : Prop :=
  (a :: rest).Nodup ∧ List.IsChain R (a :: (rest ++ [a]))

namespace IsRing

variable {α β : Type} {R : α → α → Prop} {S : β → β → Prop} {a : α} {rest : List α}

theorem exists_next (h : IsRing R a rest) : ∀ x ∈ a :: rest, ∃ y, R x y := by
  have hchain : ∀ (l : List α) (z : α), List.IsChain R (l ++ [z]) → ∀ x ∈ l, ∃ y, R x y := by
    intro l z
    induction l with
    | nil => exact fun _ _ hx => nomatch hx
    | cons b l ih =>
      intro h
      cases l with
      | nil => exact List.forall_mem_singleton.2 ⟨z, (List.isChain_cons_cons.1 h).1⟩
      | cons c l =>
        obtain ⟨hbc, h⟩ := List.isChain_cons_cons.1 h
        exact List.forall_mem_cons.2 ⟨⟨c, hbc⟩, ih h⟩
  exact hchain (a :: rest) a h.2

theorem transGen (h : IsRing R a rest) : TransGen R a a := by
  have hchain : ∀ (l : List α) (b : α), List.IsChain R (b :: (l ++ [a])) → TransGen R b a := by
    intro l
    induction l with
    | nil => exact fun b h => .single (List.isChain_cons_cons.1 h).1
    | cons c l ih =>
      intro b h
      obtain ⟨hbc, h⟩ := List.isChain_cons_cons.1 h
      exact .head hbc (ih c h)
  exact hchain rest a h.2

theorem map (h : IsRing R a rest) (f : α → β) (g : β → α) (hg : ∀ x y, R x y → g (f x) = x)
    (hf : ∀ x y, R x y → S (f x) (f y)) : IsRing S (f a) (rest.map f) ∧ (rest.map f).map g = rest := by
  have hback : ∀ x ∈ a :: rest, g (f x) = x := fun x hx => (h.exists_next x hx).elim (hg x)
  refine ⟨⟨h.1.map_on fun x hx y hy heq => ?_, ?_⟩, ?_⟩
  · rw [← hback x hx, ← hback y hy, heq]
  · have hmap : f a :: (rest.map f ++ [f a]) = (a :: (rest ++ [a])).map f := by
      rw [List.map_cons, List.map_append, List.map_singleton]
    rw [hmap, List.isChain_map]
    exact h.2.imp hf
  · rw [List.map_map]
    exact (List.map_congr_left fun x hx => hback x (List.mem_cons_of_mem a hx)).trans (List.map_id rest)

end IsRing

/-! ## Documents -/

namespace RawSchema

/-- **The declaration of a name**: the first one under it, if a type may be declared under it at all. -/
def declared? (raw : RawSchema) (name : String) : Option RawDecl :=
  if Lower.isTypeName name then raw.find? name else none

/-- **A declared type that is another name** for a declared type. -/
def LeadsTo (raw : RawSchema) (a b : String) : Prop :=
  (∃ decl, raw.declared? a = some decl ∧ decl.RefersTo b) ∧ (raw.declared? b).isSome = true

end RawSchema

namespace Lower

/-! ## The search -/

/-- **How the search for one type gets on**: what it has passed, in reverse, and where it is. -/
inductive Searches (t : TypeTable) (start : TypeId) : List TypeId → TypeId → Prop
  | begin : Searches t start [start] start
  | goOn {chain : List TypeId} {current body : TypeId} : Searches t start chain current → Leads t current body →
      body ≠ start → body ∉ chain → Searches t start (body :: chain) body

section

variable {t : TypeTable}

theorem leads_iff_of_bodyOf {a body : TypeId} (h : t.bodyOf a = some body) (b : TypeId) :
    Leads t a b ↔ b = body ∧ (t.declared? body).isSome = true := by
  unfold Leads
  rw [h]
  constructor
  · rintro ⟨heq, hsome⟩
    cases heq
    exact ⟨rfl, hsome⟩
  · rintro ⟨rfl, hsome⟩
    exact ⟨rfl, hsome⟩

/-- **A way back to where a search began**, from where it is, through places that it has not come by. -/
structure IsWayBack (t : TypeTable) (start : TypeId) (chain : List TypeId) (current : TypeId) (l : List TypeId) : Prop where
  distinct : l.Nodup
  new : ∀ b ∈ l, b ∉ chain ∧ b ≠ start
  leads : List.IsChain (Leads t) (current :: (l ++ [start]))

/-- A way back goes by the body of the current place, which is where the search began or the first place on it. -/
theorem isWayBack_iff {start current body : TypeId} {chain l : List TypeId} (hbody : t.bodyOf current = some body) :
    IsWayBack t start chain current l ↔ (t.declared? body).isSome = true ∧ (body = start ∧ l = [] ∨
      ∃ l', l = body :: l' ∧ body ∉ chain ∧ body ≠ start ∧ IsWayBack t start (body :: chain) body l') := by
  constructor
  · rintro ⟨hdistinct, hnew, hleads⟩
    cases l with
    | nil =>
      obtain ⟨rfl, hsome⟩ := (leads_iff_of_bodyOf hbody _).1 (List.isChain_pair.1 hleads)
      exact ⟨hsome, Or.inl ⟨rfl, rfl⟩⟩
    | cons b l' =>
      obtain ⟨hlead, hleads⟩ := List.isChain_cons_cons.1 hleads
      obtain ⟨rfl, hsome⟩ := (leads_iff_of_bodyOf hbody b).1 hlead
      obtain ⟨hb, hdistinct⟩ := List.nodup_cons.1 hdistinct
      obtain ⟨hfirst, hnew⟩ := List.forall_mem_cons.1 hnew
      refine ⟨hsome, Or.inr ⟨l', rfl, hfirst.1, hfirst.2, hdistinct, fun c hc => ⟨?_, (hnew c hc).2⟩, hleads⟩⟩
      rw [List.mem_cons, not_or]
      exact ⟨fun heq => hb (heq ▸ hc), (hnew c hc).1⟩
  · rintro ⟨hsome, ⟨rfl, rfl⟩ | ⟨l', rfl, hb, hne, hdistinct, hnew, hleads⟩⟩
    · exact ⟨List.nodup_nil, List.forall_mem_nil _, List.isChain_pair.2 ((leads_iff_of_bodyOf hbody _).2 ⟨rfl, hsome⟩)⟩
    · refine ⟨List.nodup_cons.2 ⟨fun hmem => (hnew body hmem).1 List.mem_cons_self, hdistinct⟩, ?_,
        List.isChain_cons_cons.2 ⟨(leads_iff_of_bodyOf hbody _).2 ⟨rfl, hsome⟩, hleads⟩⟩
      exact List.forall_mem_cons.2 ⟨⟨hb, hne⟩, fun c hc => ⟨fun hmem => (hnew c hc).1 (List.mem_cons_of_mem _ hmem),
        (hnew c hc).2⟩⟩

theorem IsWayBack.exists_bodyOf {start current : TypeId} {chain l : List TypeId} (h : IsWayBack t start chain current l) :
    ∃ body, t.bodyOf current = some body := by
  have hleads := h.leads
  cases l with
  | nil => exact ⟨_, (List.isChain_pair.1 hleads).1⟩
  | cons b l' => exact ⟨_, (List.isChain_cons_cons.1 hleads).1.1⟩

/-- **What the search finds**: the rest of a way back to where it began. -/
theorem cycleFrom_eq_some_iff (hrange : ∀ id body, t.bodyOf id = some body → body < t.size) (start : TypeId)
    (chain : List TypeId) (current : TypeId) (found : List TypeId) :
    cycleFrom t start chain current = some found ↔ ∃ l, found = chain.reverse ++ l ∧ IsWayBack t start chain current l := by
  fun_induction cycleFrom t start chain current with
  | case1 chain current hbody =>
    refine iff_of_false (fun h => by cases h) ?_
    rintro ⟨l, -, hback⟩
    obtain ⟨body, hsome⟩ := hback.exists_bodyOf
    cases hbody.symm.trans hsome
  | case2 chain current body hbody hdeclared =>
    refine iff_of_false (fun h => by cases h) ?_
    rintro ⟨l, -, hback⟩
    have hsome := ((isWayBack_iff hbody).1 hback).1
    rw [Option.isNone_iff_eq_none.1 hdeclared] at hsome
    cases hsome
  | case3 chain current hbody hdeclared =>
    have hsome : (t.declared? start).isSome = true := by simpa [Option.isSome_iff_ne_none] using hdeclared
    rw [Option.some.injEq, eq_comm]
    constructor
    · rintro rfl
      exact ⟨[], (List.append_nil _).symm, (isWayBack_iff hbody).2 ⟨hsome, Or.inl ⟨rfl, rfl⟩⟩⟩
    · rintro ⟨l, rfl, hback⟩
      rcases ((isWayBack_iff hbody).1 hback).2 with ⟨-, rfl⟩ | ⟨l', -, -, hne, -⟩
      · exact List.append_nil _
      · exact absurd rfl hne
  | case4 chain current body hbody hdeclared hne hnew ih =>
    have hsome : (t.declared? body).isSome = true := by simpa [Option.isSome_iff_ne_none] using hdeclared
    refine ih.trans ?_
    constructor
    · rintro ⟨l, rfl, hback⟩
      refine ⟨body :: l, ?_, (isWayBack_iff hbody).2 ⟨hsome, Or.inr ⟨l, rfl, hnew.2, hne, hback⟩⟩⟩
      rw [List.reverse_cons, List.append_assoc, List.singleton_append]
    · rintro ⟨l, rfl, hback⟩
      rcases ((isWayBack_iff hbody).1 hback).2 with ⟨heq, -⟩ | ⟨l', rfl, -, -, hback'⟩
      · exact absurd heq hne
      · exact ⟨l', by rw [List.reverse_cons, List.append_assoc, List.singleton_append], hback'⟩
  | case5 chain current body hbody hdeclared hne hnot =>
    refine iff_of_false (fun h => by cases h) ?_
    rintro ⟨l, -, hback⟩
    rcases ((isWayBack_iff hbody).1 hback).2 with ⟨heq, -⟩ | ⟨l', -, hnew, -⟩
    · exact hne heq
    · exact hnot ⟨hrange _ _ hbody, hnew⟩

theorem isWayBack_self_iff {x : TypeId} {l : List TypeId} : IsWayBack t x [x] x l ↔ IsRing (Leads t) x l := by
  constructor
  · rintro ⟨hdistinct, hnew, hleads⟩
    exact ⟨List.nodup_cons.2 ⟨fun hx => (hnew x hx).2 rfl, hdistinct⟩, hleads⟩
  · rintro ⟨hdistinct, hleads⟩
    obtain ⟨hx, hdistinct⟩ := List.nodup_cons.1 hdistinct
    exact ⟨hdistinct, fun b hb => ⟨fun hmem => hx (List.mem_singleton.1 hmem ▸ hb), fun heq => hx (heq ▸ hb)⟩, hleads⟩

theorem cycleFrom_eq_some_iff_isRing (hrange : ∀ id body, t.bodyOf id = some body → body < t.size) (x : TypeId)
    (found : List TypeId) :
    cycleFrom t x [x] x = some found ↔ ∃ rest, found = x :: rest ∧ IsRing (Leads t) x rest := by
  rw [cycleFrom_eq_some_iff hrange]
  exact exists_congr fun l => and_congr Iff.rfl isWayBack_self_iff

/-- **The search passes no more places than the table has**, and what it finds in the end it finds from each of them. -/
theorem Searches.ends (hrange : ∀ id body, t.bodyOf id = some body → body < t.size) {start : TypeId}
    (hstart : start < t.size) {chain : List TypeId} {current : TypeId} (h : Searches t start chain current) :
    chain.length ≤ t.size ∧ cycleFrom t start chain current = cycleFrom t start [start] start := by
  have hchain : chain.Nodup ∧ ∀ id ∈ chain, id < t.size := by
    induction h with
    | begin => exact ⟨List.nodup_singleton _, List.forall_mem_singleton.2 hstart⟩
    | goOn _ hlead _ hnew ih =>
      exact ⟨List.nodup_cons.2 ⟨hnew, ih.1⟩, List.forall_mem_cons.2 ⟨hrange _ _ hlead.1, ih.2⟩⟩
  refine ⟨?_, ?_⟩
  · have hle := (hchain.1.subperm fun id hid => List.mem_range.2 (hchain.2 id hid)).length_le
    rwa [List.length_range] at hle
  · induction h with
    | begin => rfl
    | @goOn chain current body hbefore hlead hne hnew ih =>
      rw [List.nodup_cons, List.forall_mem_cons] at hchain
      rw [← ih ⟨hchain.1.2, hchain.2.2⟩]
      conv_rhs => rw [cycleFrom]
      have hbody : (t.declared? current).bind Declared.body = some body := hlead.1
      have hdeclared : (t.declared? body).isNone = false := by simpa using hlead.2
      rw [hbody]
      simp only [hdeclared, Bool.false_eq_true, if_false, if_neg hne]
      rw [dif_pos ⟨hchain.2.1, hnew⟩]

end

/-! ## Tables of documents -/

/-- **A table of these declarations**, valid or not. -/
structure Holds (t : TypeTable) (decls : List RawDecl) : Prop where
  built : t.Built
  names : t.names = (decls.map RawDecl.name).zipIdx
  distinct : (decls.map RawDecl.name).Nodup
  stands : ∀ {i decl}, decls[i]? = some decl → Stands t decl i
  declared_iff : ∀ id, (t.declared? id).isSome = true ↔ id < decls.length

namespace Holds

variable {t : TypeTable} {decls : List RawDecl}

theorem range (h : Holds t decls) : ∀ id body, t.bodyOf id = some body → body < t.size :=
  fun _ _ hb => h.built.body_lt hb

theorem nameOf_eq (h : Holds t decls) {i : TypeId} {decl : RawDecl} (hi : decls[i]? = some decl) :
    t.nameOf i = some decl.name := by
  obtain ⟨body, hget, -⟩ := h.stands hi
  unfold TypeTable.nameOf
  rw [declared?_of_get? hget]
  unfold RawDecl.entry
  split <;> rfl

/-- **A declared type leads to another in the table exactly if it is another name for it.** -/
theorem leads_iff (h : Holds t decls) (i j : TypeId) : Leads t i j ↔
    ∃ decl other, decls[i]? = some decl ∧ decls[j]? = some other ∧ decl.RefersTo other.name := by
  have hbodyOf {decl : RawDecl} (hi : decls[i]? = some decl) :
      Leads t i j ↔ ∃ name, decl.RefersTo name ∧ t.lookup name = some j := by
    obtain ⟨body, hget, hrefers⟩ := h.stands hi
    unfold Leads
    rw [bodyOf_of_entry hget, hrefers.declared_iff]
  constructor
  · intro hleads
    have hlt := (h.declared_iff i).1 (declared?_isSome_of_bodyOf hleads.1)
    have hi := List.getElem?_eq_getElem hlt
    obtain ⟨name, hrefers, hl⟩ := (hbodyOf hi).1 hleads
    obtain ⟨other, hj, rfl⟩ := exists_decl_of_lookup h.names hl
    exact ⟨_, other, hi, hj, hrefers⟩
  · rintro ⟨decl, other, hi, hj, hrefers⟩
    exact (hbodyOf hi).2 ⟨_, hrefers, lookup_decl h.names h.distinct hj⟩

end Holds

/-- The declarations that are entered: the first under each name that may be declared, but none under those `seen`. -/
def entered : List String → List RawDecl → List RawDecl
  | _, [] => []
  | seen, decl :: rest =>
    if isTypeName decl.name = true ∧ decl.name ∉ seen then decl :: entered (decl.name :: seen) rest
    else entered seen rest

theorem mem_entered {decl : RawDecl} : ∀ {decls : List RawDecl} {seen : List String}, decl ∈ entered seen decls ↔
    decl.name ∉ seen ∧ isTypeName decl.name = true ∧ decls.find? (fun d => d.name = decl.name) = some decl
  | [], seen => by simp [entered]
  | first :: rest, seen => by
    rw [entered, List.find?_cons]
    by_cases hname : first.name = decl.name
    · simp only [hname, decide_true, Option.some.injEq]
      split
      · rename_i hfirst
        rw [List.mem_cons, mem_entered]
        refine ⟨?_, fun h => Or.inl h.2.2.symm⟩
        rintro (rfl | ⟨hno, -⟩)
        · exact ⟨hfirst.2, hfirst.1, rfl⟩
        · exact absurd List.mem_cons_self hno
      · rename_i hfirst
        rw [mem_entered]
        exact iff_of_false (fun h => hfirst ⟨h.2.1, h.1⟩) fun h => hfirst ⟨h.2.1, h.1⟩
    · simp only [hname, decide_false]
      split
      · rw [List.mem_cons, mem_entered, List.mem_cons, not_or]
        refine ⟨?_, fun h => Or.inr ⟨⟨Ne.symm hname, h.1⟩, h.2⟩⟩
        rintro (rfl | ⟨h, h'⟩)
        · exact absurd rfl hname
        · exact ⟨h.2, h'⟩
      · rw [mem_entered]

theorem nodup_entered : ∀ (decls : List RawDecl) (seen : List String), ((entered seen decls).map RawDecl.name).Nodup
  | [], _ => List.nodup_nil
  | decl :: rest, seen => by
    rw [entered]
    split
    · rw [List.map_cons, List.nodup_cons]
      refine ⟨fun hmem => ?_, nodup_entered rest _⟩
      obtain ⟨other, ho, heq⟩ := List.mem_map.1 hmem
      exact (mem_entered.1 ho).1 (heq ▸ List.mem_cons_self)
    · exact nodup_entered rest seen

theorem declared?_eq_some_iff {raw : RawSchema} {name : String} {decl : RawDecl} :
    raw.declared? name = some decl ↔ decl ∈ entered [] raw.types ∧ decl.name = name := by
  unfold RawSchema.declared? RawSchema.find?
  rw [mem_entered]
  constructor
  · intro h
    split at h
    · rename_i hname
      have heq : decl.name = name := by simpa using List.find?_some h
      subst heq
      exact ⟨⟨List.not_mem_nil, hname, h⟩, rfl⟩
    · cases h
  · rintro ⟨⟨-, hname, h⟩, rfl⟩
    rw [if_pos hname, h]

theorem declare_of_new {decl : RawDecl} {t : TypeTable} (hname : isTypeName decl.name = true)
    (hnew : t.lookup decl.name = none) : declare decl t = ⟨[], some t.size, declaredTable t decl⟩ := by
  unfold declare
  rw [if_neg (by simp [hname]), get_bind]
  simp only [TypeTable.declare, hnew, Option.isSome_none, Bool.false_eq_true, if_false]
  rfl

theorem declare_of_refused {decl : RawDecl} {t : TypeTable}
    (h : ¬ (isTypeName decl.name = true ∧ t.lookup decl.name = none)) :
    ∃ d : Diagnostic, d.kind ≠ .aliasCycle ∧ declare decl t = ⟨[.reported d], none, t⟩ := by
  unfold declare
  by_cases hname : isTypeName decl.name = true
  · obtain ⟨id, hid⟩ := Option.ne_none_iff_exists'.1 fun hno => h ⟨hname, hno⟩
    refine ⟨.plain .duplicateType "schema" decl.name, fun h => (by cases h), ?_⟩
    rw [if_neg (by simp [hname]), get_bind]
    simp only [TypeTable.declare, hid, Option.isSome_some, if_true]
    rfl
  · refine ⟨.plain .invalidName "schema" decl.name, fun h => (by cases h), ?_⟩
    rw [if_pos (by simpa using hname)]
    rfl

theorem declareAll_cons (decl : RawDecl) (rest : List RawDecl) (t : TypeTable) :
    (declareAll (decl :: rest) t).reports =
        (declare decl t).reports ++ (declareAll rest (declare decl t).value.2).reports ∧
      (declareAll (decl :: rest) t).value =
        ((match (declare decl t).value.1 with
          | some id => (decl, id) :: (declareAll rest (declare decl t).value.2).value.1
          | none => (declareAll rest (declare decl t).value.2).value.1),
        (declareAll rest (declare decl t).value.2).value.2) := by
  rw [declareAll, reports_bind, reports_bind]
  refine ⟨congrArg _ (List.append_nil _), ?_⟩
  rw [value_bind, value_bind]
  rfl

/-- **What entering a list of declarations leaves.** -/
theorem declareAll_eq : ∀ (decls : List RawDecl) (t : TypeTable) (seen : List String),
    (∀ name, t.lookup name = none ↔ name ∉ seen) →
    (∀ d ∈ (declareAll decls t).reports, d.kind ≠ .aliasCycle) ∧
      (declareAll decls t).value = ((entered seen decls).zipIdx t.size, (entered seen decls).foldl declaredTable t)
  | [], _, _, _ => ⟨fun _ hd => (nomatch hd), rfl⟩
  | decl :: rest, t, seen, h => by
    obtain ⟨hreports, hvalue⟩ := declareAll_cons decl rest t
    rw [hreports, hvalue, entered]
    by_cases hnew : isTypeName decl.name = true ∧ decl.name ∉ seen
    · rw [declare_of_new hnew.1 ((h decl.name).2 hnew.2), if_pos hnew]
      have hseen (name : String) : (declaredTable t decl).lookup name = none ↔ name ∉ decl.name :: seen := by
        rw [lookup_declaredTable, h, List.mem_cons, not_or]
        exact and_comm
      obtain ⟨hquiet, hvalue⟩ := declareAll_eq rest (declaredTable t decl) _ hseen
      refine ⟨hquiet, ?_⟩
      rw [hvalue, List.zipIdx_cons, size_declaredTable]
      rfl
    · obtain ⟨d, hd, hdeclare⟩ := declare_of_refused fun hno => hnew ⟨hno.1, (h decl.name).1 hno.2⟩
      obtain ⟨hquiet, hvalue⟩ := declareAll_eq rest t seen h
      rw [hdeclare, if_neg hnew]
      refine ⟨fun e he => ?_, hvalue⟩
      rcases List.mem_append.1 he with he | he
      · rw [List.mem_singleton.1 he]
        exact hd
      · exact hquiet e he

/-! ## Reports -/

def circleThrough (name : String) (others : List String) : Diagnostic :=
  .plain .aliasCycle name (String.intercalate " -> " (name :: others ++ [name]))

def checked (t : TypeTable) (p : RawDecl × TypeId) : Option Diagnostic :=
  (cycleFrom t p.2 [p.2] p.2).map fun chain =>
    .plain .aliasCycle p.1.name (String.intercalate " -> " (chain.filterMap t.nameOf ++ [p.1.name]))

theorem checkCycle_eq (t : TypeTable) (p : RawDecl × TypeId) :
    (checkCycle p.1 p.2 t).reports = (checked t p).toList ∧ (checkCycle p.1 p.2 t).value.2 = t := by
  unfold checkCycle checked
  rw [get_bind]
  cases cycleFrom t p.2 [p.2] p.2 <;> exact ⟨rfl, rfl⟩

theorem checkAll_eq (t : TypeTable) : ∀ pairs : List (RawDecl × TypeId),
    ((pairs.forM fun p => checkCycle p.1 p.2) t).reports = pairs.filterMap (checked t) ∧
      ((pairs.forM fun p => checkCycle p.1 p.2) t).value.2 = t
  | [] => ⟨rfl, rfl⟩
  | p :: rest => by
    obtain ⟨hreports, hvalue⟩ := checkCycle_eq t p
    obtain ⟨hrest, hrestValue⟩ := checkAll_eq t rest
    rw [forM_cons, reports_bind, value_bind, hvalue, hreports, hrest]
    refine ⟨?_, hrestValue⟩
    rw [List.filterMap_cons]
    cases checked t p <;> rfl

theorem built_declarations (decls : List RawDecl) : (declarations decls).Built := by
  refine ⟨(coherent_declarations decls).toFormed, fun hms => ?_⟩
  rw [get?_declarations] at hms
  obtain ⟨decl, -, hentry⟩ := Option.map_eq_some_iff.1 hms
  have hdeclared := decl.isDeclared_entry none
  rw [hentry] at hdeclared
  cases hdeclared

theorem holds_of_settles {m : Lower Unit} {decls : List RawDecl} (hdistinct : (decls.map RawDecl.name).Nodup)
    (h : Settles m (declarations decls) decls.zipIdx) : Holds (m (declarations decls)).value.2 decls := by
  refine ⟨h.built, h.develops.names, hdistinct, fun hi => h.stands _ (List.mk_mem_zipIdx_iff_getElem?.2 hi),
    fun id => ?_⟩
  rcases Nat.lt_or_ge id (declarations decls).size with hlt | hge
  · rw [h.develops.isSome_declared? hlt]
    rw [size_declarations] at hlt
    refine iff_of_true ?_ hlt
    obtain ⟨d, hd⟩ := exists_get? (t := declarations decls) (by rwa [size_declarations])
    rw [declared?_of_get? hd]
    rw [get?_declarations] at hd
    obtain ⟨decl, -, rfl⟩ := Option.map_eq_some_iff.1 hd
    exact decl.isDeclared_entry none
  · refine iff_of_false (fun hsome => ?_) (by rw [size_declarations] at hge; exact Nat.not_lt_of_le hge)
    obtain ⟨d, hd⟩ := Option.isSome_iff_exists.1 hsome
    obtain ⟨c, hc⟩ := exists_get? (lt_of_declared? hd)
    rw [declared?_of_get? hc, ← TypeDesc.isDeclared, h.develops.new hc hge] at hsome
    cases hsome

/-- **The table that a document leaves**, valid or not. -/
def tableOf (raw : RawSchema) : TypeTable := (lowerAll raw TypeTable.empty).value.2

/-- **What lowering leaves of any document**: a table that holds the entered declarations, and one report of a circle for
each of them through which the search finds one. -/
theorem lowerAll_eq (raw : RawSchema) :
    Holds (tableOf raw) (entered [] raw.types) ∧
      (lowerAll raw TypeTable.empty).reports.filter (fun d => d.kind = .aliasCycle) =
        (entered [] raw.types).zipIdx.filterMap (checked (tableOf raw)) := by
  obtain ⟨hquiet, hvalue⟩ := declareAll_eq raw.types TypeTable.empty [] fun name => iff_of_true rfl List.not_mem_nil
  generalize hdecls : entered [] raw.types = decls at *
  have hdistinct : (decls.map RawDecl.name).Nodup := hdecls ▸ nodup_entered raw.types []
  rw [foldl_declaredTable_empty] at hvalue
  have hentries : ∀ p ∈ decls.zipIdx, (declarations decls).get? p.2 = some (p.1.entry none) := by
    intro p hp
    rw [get?_declarations, List.mk_mem_zipIdx_iff_getElem?.1 hp]
    rfl
  have hplaces : (decls.zipIdx.map Prod.snd).Nodup := by
    rw [List.zipIdx_map_snd]
    exact List.nodup_range'
  have hsettles := settles_defineAll decls.zipIdx (built_declarations decls) hentries hplaces
  have hholds := holds_of_settles hdistinct hsettles
  obtain ⟨hchecks, hkept⟩ := checkAll_eq ((decls.zipIdx.forM fun p => define p.1 p.2) (declarations decls)).value.2
    decls.zipIdx
  have htable : tableOf raw = ((decls.zipIdx.forM fun p => define p.1 p.2) (declarations decls)).value.2 := by
    unfold tableOf lowerAll
    rw [value_bind, value_bind, hvalue]
    exact hkept
  rw [htable]
  refine ⟨hholds, ?_⟩
  have hnone {rs : List Diagnostic} (h : ∀ d ∈ rs, d.kind ≠ .aliasCycle) :
      rs.filter (fun d => d.kind = .aliasCycle) = [] :=
    List.filter_eq_nil_iff.2 fun d hd => by simpa using h d hd
  have hreports : (lowerAll raw TypeTable.empty).reports = (declareAll raw.types TypeTable.empty).reports ++
      (((decls.zipIdx.forM fun p => define p.1 p.2) (declarations decls)).reports ++
        decls.zipIdx.filterMap (checked ((decls.zipIdx.forM fun p => define p.1 p.2) (declarations decls)).value.2)) := by
    rw [← hchecks]
    unfold lowerAll
    rw [reports_bind, reports_bind, hvalue]
    rfl
  rw [hreports, List.filter_append, List.filter_append, hnone hquiet, hnone hsettles.quiet]
  refine List.filter_eq_self.2 fun d hd => ?_
  obtain ⟨p, -, hp⟩ := List.mem_filterMap.1 hd
  obtain ⟨chain, -, rfl⟩ := Option.map_eq_some_iff.1 hp
  rfl

/-! ## Rings of names -/

section

variable {raw : RawSchema} {t : TypeTable}

def nameAt (t : TypeTable) (id : TypeId) : String := (t.nameOf id).getD ""

def placeOf (t : TypeTable) (name : String) : TypeId := (t.lookup name).getD 0

theorem Holds.nameAt_eq {decls : List RawDecl} (h : Holds t decls) {i : TypeId} {decl : RawDecl}
    (hi : decls[i]? = some decl) : nameAt t i = decl.name := by
  rw [nameAt, h.nameOf_eq hi, Option.getD_some]

theorem Holds.placeOf_eq {decls : List RawDecl} (h : Holds t decls) {i : TypeId} {decl : RawDecl}
    (hi : decls[i]? = some decl) : placeOf t decl.name = i := by
  rw [placeOf, lookup_decl h.names h.distinct hi, Option.getD_some]

theorem leadsTo_of_leads (h : Holds t (entered [] raw.types)) {i j : TypeId} (hij : Leads t i j) :
    raw.LeadsTo (nameAt t i) (nameAt t j) ∧ placeOf t (nameAt t i) = i ∧ t.nameOf i = some (nameAt t i) := by
  obtain ⟨decl, other, hi, hj, hrefers⟩ := (h.leads_iff i j).1 hij
  have hother := declared?_eq_some_iff.2 ⟨List.mem_of_getElem? hj, rfl⟩
  rw [h.nameAt_eq hi, h.nameAt_eq hj, h.placeOf_eq hi]
  exact ⟨⟨⟨decl, declared?_eq_some_iff.2 ⟨List.mem_of_getElem? hi, rfl⟩, hrefers⟩, Option.isSome_of_eq_some hother⟩, rfl,
    h.nameOf_eq hi⟩

theorem leads_of_leadsTo (h : Holds t (entered [] raw.types)) {a b : String} (hab : raw.LeadsTo a b) :
    Leads t (placeOf t a) (placeOf t b) ∧ nameAt t (placeOf t a) = a := by
  obtain ⟨⟨decl, hdecl, hrefers⟩, hb⟩ := hab
  obtain ⟨other, hother⟩ := Option.isSome_iff_exists.1 hb
  obtain ⟨hmem, rfl⟩ := declared?_eq_some_iff.1 hdecl
  obtain ⟨hmem', rfl⟩ := declared?_eq_some_iff.1 hother
  obtain ⟨i, hi⟩ := List.mem_iff_getElem?.1 hmem
  obtain ⟨j, hj⟩ := List.mem_iff_getElem?.1 hmem'
  rw [h.placeOf_eq hi, h.placeOf_eq hj, h.nameAt_eq hi]
  exact ⟨(h.leads_iff i j).2 ⟨decl, other, hi, hj, hrefers⟩, rfl⟩

theorem names_of_isRing (h : Holds t (entered [] raw.types)) {i : TypeId} {rest : List TypeId}
    (hring : IsRing (Leads t) i rest) : (i :: rest).filterMap t.nameOf = (i :: rest).map (nameAt t) := by
  rw [← List.filterMap_eq_map]
  refine List.filterMap_congr fun x hx => ?_
  obtain ⟨y, hxy⟩ := hring.exists_next x hx
  exact (leadsTo_of_leads h hxy).2.2

theorem isRing_names (h : Holds t (entered [] raw.types)) {i : TypeId} {rest : List TypeId}
    (hring : IsRing (Leads t) i rest) : IsRing raw.LeadsTo (nameAt t i) (rest.map (nameAt t)) :=
  (hring.map (nameAt t) (placeOf t) (fun _ _ hxy => (leadsTo_of_leads h hxy).2.1)
    fun _ _ hxy => (leadsTo_of_leads h hxy).1).1

/-- **The check of a declaration reports the circle through its name**, if there is one. -/
theorem checked_eq_some_iff (h : Holds t (entered [] raw.types)) {decl : RawDecl} {i : TypeId}
    (hi : (entered [] raw.types)[i]? = some decl) (d : Diagnostic) : checked t (decl, i) = some d ↔
      ∃ others, IsRing raw.LeadsTo decl.name others ∧ d = circleThrough decl.name others := by
  have hname := h.nameAt_eq hi
  have hplace := h.placeOf_eq hi
  unfold checked circleThrough
  rw [Option.map_eq_some_iff]
  constructor
  · rintro ⟨chain, hchain, rfl⟩
    obtain ⟨rest, rfl, hring⟩ := (cycleFrom_eq_some_iff_isRing h.range i chain).1 hchain
    have hnames := isRing_names h hring
    rw [hname] at hnames
    refine ⟨rest.map (nameAt t), hnames, ?_⟩
    rw [names_of_isRing h hring, List.map_cons, hname]
  · rintro ⟨others, hring, rfl⟩
    obtain ⟨hmap, hback⟩ := hring.map (placeOf t) (nameAt t) (fun _ _ hab => (leads_of_leadsTo h hab).2)
      fun _ _ hab => (leads_of_leadsTo h hab).1
    rw [hplace] at hmap
    refine ⟨_, (cycleFrom_eq_some_iff_isRing h.range i _).2 ⟨_, rfl, hmap⟩, ?_⟩
    rw [names_of_isRing h hmap, List.map_cons, hname, hback]

/-- **A name leads back to itself exactly if there is a ring through it.** -/
theorem transGen_leadsTo_iff (h : Holds t (entered [] raw.types)) (a : String) :
    TransGen raw.LeadsTo a a ↔ ∃ others, IsRing raw.LeadsTo a others := by
  refine ⟨fun hback => ?_, fun ⟨others, hring⟩ => hring.transGen⟩
  have hplaces := hback.lift (placeOf t) fun _ _ hab => (leads_of_leadsTo h hab).1
  have hsome := mt (cycleFrom_eq_none_iff h.range (placeOf t a)).1 (not_not.2 hplaces)
  obtain ⟨chain, hchain⟩ := Option.ne_none_iff_exists'.1 hsome
  obtain ⟨rest, -, hring⟩ := (cycleFrom_eq_some_iff_isRing h.range _ chain).1 hchain
  have hnames := isRing_names h hring
  obtain ⟨b, hab, -⟩ := TransGen.head'_iff.1 hback
  rw [(leads_of_leadsTo h hab).2] at hnames
  exact ⟨_, hnames⟩

end

end Lower

namespace Schema

/-- **The reports of circles** that come of lowering a document. -/
def cycleReports (raw : RawSchema) : List Diagnostic :=
  match (ofRaw raw).value with
  | .ok _ => []
  | .error ds => ds.messages.filter fun d => d.kind = .aliasCycle

theorem cycleReports_eq (raw : RawSchema) : cycleReports raw =
    ((Lower.lowerAll raw TypeTable.empty).diagnostics.messages.filter fun d => d.kind = .aliasCycle) := by
  unfold cycleReports ofRaw
  cases herr : (Lower.lowerAll raw TypeTable.empty).diagnostics.hasErrors with
  | true => simp only [StateT.run, herr, if_true]
  | false =>
    simp only [StateT.run, herr, Bool.false_eq_true, if_false]
    refine (List.filter_eq_nil_iff.2 fun d hd hkind => ?_).symm
    unfold Diagnostics.hasErrors at herr
    rw [List.any_eq_false] at herr
    refine herr d hd ?_
    rw [Diagnostic.isError, Diagnostic.severity, of_decide_eq_true hkind]
    rfl

theorem cycleReports_eq_filterMap (raw : RawSchema) :
    cycleReports raw = (Lower.entered [] raw.types).zipIdx.filterMap
        (Lower.checked (Lower.tableOf raw)) ∧
      ((cycleReports raw).map Diagnostic.location).Nodup := by
  obtain ⟨-, hreports⟩ := Lower.lowerAll_eq raw
  generalize Lower.tableOf raw = t at *
  have hplaces : (Lower.entered [] raw.types).zipIdx.Pairwise fun p q => p.1.name ≠ q.1.name := by
    have h := Lower.nodup_entered raw.types []
    rw [← List.zipIdx_map_fst 0 (Lower.entered [] raw.types), List.map_map] at h
    exact List.pairwise_map.1 h
  have hlocation {p : RawDecl × TypeId} {d : Diagnostic} (hd : Lower.checked t p = some d) : d.location = p.1.name := by
    obtain ⟨chain, -, rfl⟩ := Option.map_eq_some_iff.1 hd
    rfl
  have hdistinct : (((Lower.entered [] raw.types).zipIdx.filterMap (Lower.checked t)).map Diagnostic.location).Nodup := by
    refine List.pairwise_map.2 (hplaces.filterMap _ fun p q hne d hd e he heq => hne ?_)
    rw [← hlocation hd, ← hlocation he, heq]
  have hfound : cycleReports raw = (Lower.entered [] raw.types).zipIdx.filterMap (Lower.checked t) := by
    rw [cycleReports_eq, Noted.diagnostics, Diagnostics.ofReports, Diagnostics.filter_addAll, hreports]
    exact Diagnostics.messages_addAll_of_nodup _ Diagnostics.empty (List.Nodup.of_map _ hdistinct)
  exact ⟨hfound, hfound ▸ hdistinct⟩

theorem mem_cycleReports (raw : RawSchema) (d : Diagnostic) : d ∈ cycleReports raw ↔
    ∃ a others, IsRing raw.LeadsTo a others ∧ d = Lower.circleThrough a others := by
  obtain ⟨hholds, -⟩ := Lower.lowerAll_eq raw
  rw [(cycleReports_eq_filterMap raw).1, List.mem_filterMap]
  constructor
  · rintro ⟨⟨decl, i⟩, hp, hd⟩
    exact ⟨decl.name, (Lower.checked_eq_some_iff hholds (List.mk_mem_zipIdx_iff_getElem?.1 hp) d).1 hd⟩
  · rintro ⟨a, others, hring, rfl⟩
    obtain ⟨b, ⟨decl, hdecl, -⟩, -⟩ := hring.exists_next a List.mem_cons_self
    obtain ⟨hmem, rfl⟩ := Lower.declared?_eq_some_iff.1 hdecl
    obtain ⟨i, hi⟩ := List.mem_iff_getElem?.1 hmem
    exact ⟨(decl, i), List.mk_mem_zipIdx_iff_getElem?.2 hi,
      (Lower.checked_eq_some_iff hholds hi _).2 ⟨others, hring, rfl⟩⟩

/-- **Circles of aliases are found exactly.**  Each declared type that leads back to itself is reported, once, with the
members of its circle in order, and no other type is.  No search passes more places than the table has.  So after a
successful lowering the bodies of any type lead to its underlying type, which is structural or an opaque native type, and is
the same all along the way. -/
theorem cycleReports_exact (raw : RawSchema) :
    ((cycleReports raw).map Diagnostic.location).Nodup ∧
    (∀ d, d ∈ cycleReports raw ↔ ∃ a others, IsRing raw.LeadsTo a others ∧
      d = .plain .aliasCycle a (String.intercalate " -> " (a :: others ++ [a]))) ∧
    (∀ a, (∃ d ∈ cycleReports raw, d.location = a) ↔ TransGen raw.LeadsTo a a) ∧
    (∀ start < (Lower.tableOf raw).size, ∀ chain current, Lower.Searches (Lower.tableOf raw) start chain current →
      chain.length ≤ (Lower.tableOf raw).size ∧
        Lower.cycleFrom (Lower.tableOf raw) start chain current =
          Lower.cycleFrom (Lower.tableOf raw) start [start] start) ∧
    ∀ s, (ofRaw raw).value = .ok s → ∀ id < s.table.size,
      ReflTransGen s.table.StepsTo id (s.table.underlying id) ∧
      (∃ d, s.table.get? (s.table.underlying id) = some d ∧
        (d.isDeclared = false ∨ ∃ name, d = .native ⟨name, none⟩)) ∧
      s.table.underlying (s.table.underlying id) = s.table.underlying id ∧
      ∀ other, ReflTransGen s.table.StepsTo id other → s.table.underlying other = s.table.underlying id := by
  obtain ⟨hholds, -⟩ := Lower.lowerAll_eq raw
  refine ⟨(cycleReports_eq_filterMap raw).2, mem_cycleReports raw, fun a => ?_, ?_, fun s hs id hid => ?_⟩
  · rw [Lower.transGen_leadsTo_iff hholds]
    constructor
    · rintro ⟨d, hd, rfl⟩
      obtain ⟨a, others, hring, rfl⟩ := (mem_cycleReports raw d).1 hd
      exact ⟨others, hring⟩
    · rintro ⟨others, hring⟩
      exact ⟨_, (mem_cycleReports raw _).2 ⟨a, others, hring, rfl⟩, rfl⟩
  · exact fun start hstart chain current h => h.ends hholds.range hstart
  · have hsound := sound_of_ofRaw hs
    exact ⟨reflTransGen_underlying _ id, hsound.underlying_desc hid, hsound.underlying_underlying id,
      fun other h => hsound.underlying_of_steps h⟩

def tidesDocument : RawSchema :=
  ⟨none, [⟨"Ebb", none, some "Flow", false⟩, ⟨"Flow", none, some "Ebb", true⟩, ⟨"Tide", none, some "Ebb", false⟩,
    ⟨"Whirl", none, some "Whirl", false⟩]⟩

theorem tidesDocument_reports : cycleReports tidesDocument = [.plain .aliasCycle "Ebb" "Ebb -> Flow -> Ebb",
      .plain .aliasCycle "Flow" "Flow -> Ebb -> Flow", .plain .aliasCycle "Whirl" "Whirl -> Whirl"] ∧
    TransGen tidesDocument.LeadsTo "Ebb" "Ebb" ∧ ¬ TransGen tidesDocument.LeadsTo "Tide" "Tide" := by
  have hreports : cycleReports tidesDocument = [.plain .aliasCycle "Ebb" "Ebb -> Flow -> Ebb",
      .plain .aliasCycle "Flow" "Flow -> Ebb -> Flow", .plain .aliasCycle "Whirl" "Whirl -> Whirl"] := by
    decide +kernel
  obtain ⟨-, -, hcircles, -⟩ := cycleReports_exact tidesDocument
  rw [hreports] at hcircles
  exact ⟨hreports, (hcircles "Ebb").1 (by decide), mt (hcircles "Tide").2 (by decide)⟩

end Schema
end BencodePlan
