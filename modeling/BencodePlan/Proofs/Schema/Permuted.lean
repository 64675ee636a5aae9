import BencodePlan.Proofs.Schema.Validity
import BencodePlan.Proofs.Types.Renumbering
/-!
# Declarations in another order

Whether a document can be lowered does not depend on the order of its declarations (`RawSchema.Valid.of_perm`).  The tables
of the two orders have the same types, but not under the same numbers: the declared types come first and in order, and
structural types where they are met first.

Which numbers belong together is said without the lowering.  Two types are the same if one expression stands for both, and
two struct bodies if their members are (`Same`).  As no table has a type twice, this is a renumbering
(`renumbering_of_perm`).
-/
namespace BencodePlan

open TypeTable
open Relation (TransGen)

/-! ## Documents -/

theorem IsType.mono {names names' : List String} (h : ∀ name ∈ names, name ∈ names') {source : String}
    (hs : IsType names source) : IsType names' source := by
  obtain ⟨e, hparse, hmentions⟩ := hs
  exact ⟨e, hparse, fun name hname => h name (hmentions name hname)⟩

theorem RawDecl.HasBody.mono {names names' : List String} (h : ∀ name ∈ names, name ∈ names') {decl : RawDecl}
    (hb : decl.HasBody names) : decl.HasBody names' := by
  unfold RawDecl.HasBody at hb ⊢
  split at hb
  · exact hb
  · exact ⟨hb.identifiers, hb.distinct, fun f hf => (hb.types f hf).mono h⟩
  · exact hb.mono h
  · exact hb

theorem Aliases.mono {decls decls' : List RawDecl} (h : ∀ decl ∈ decls, decl ∈ decls') {a b : String}
    (hab : Aliases decls a b) : Aliases decls' a b := by
  obtain ⟨decl, hdecl, hrest⟩ := hab
  exact ⟨decl, h decl hdecl, hrest⟩

/-- **A document can be lowered in every order of its declarations.** -/
theorem RawSchema.Valid.of_perm {raw raw' : RawSchema} (hperm : raw.types.Perm raw'.types) (h : raw.Valid) :
    raw'.Valid := by
  have hdecls : ∀ decl ∈ raw'.types, decl ∈ raw.types := fun _ => hperm.mem_iff.2
  have hnames : ∀ name ∈ raw.types.map RawDecl.name, name ∈ raw'.types.map RawDecl.name := fun _ =>
    (hperm.map RawDecl.name).mem_iff.1
  refine ⟨fun decl hd => h.names decl (hdecls decl hd), (hperm.map RawDecl.name).nodup_iff.1 h.distinct,
    fun decl hd => (h.bodies decl (hdecls decl hd)).mono hnames, fun decl hd hcircle => ?_⟩
  exact h.chains decl (hdecls decl hd) (hcircle.lift id fun _ _ hab => Aliases.mono hdecls hab)

namespace TypeTable

/-! ## Types that are the same -/

def SameType (t t' : TypeTable) (a b : TypeId) : Prop := ∃ e, t.Denotes e a ∧ t'.Denotes e b

/-- **The same type in two tables.**  There is no expression for a struct body, which is the same if its members are. -/
def Same (t t' : TypeTable) (a b : TypeId) : Prop :=
  SameType t t' a b ∨ ∃ ms ms', t.get? a = some (.struct ms) ∧ t'.get? b = some (.struct ms') ∧
    List.Forall₂ (MemberAlike (SameType t t')) ms ms'

variable {t t' : TypeTable} {decls decls' : List RawDecl}

theorem MemberMeans.alike {field : RawField} {m m' : Member} (hm : t.MemberMeans field m) (hm' : t'.MemberMeans field m') :
    MemberAlike (SameType t t') m m' := by
  obtain ⟨hname, htag, hembedded, e, hparse, hden⟩ := hm
  obtain ⟨hname', htag', hembedded', e', hparse', hden'⟩ := hm'
  rw [hparse] at hparse'
  cases hparse'
  exact ⟨hname.trans hname'.symm, ⟨e, hden, hden'⟩, htag.trans htag'.symm, hembedded.trans hembedded'.symm⟩

theorem forall₂_of_common {α β γ : Type} {P : α → β → Prop} {Q : α → γ → Prop} {S : β → γ → Prop}
    (hS : ∀ a b c, P a b → Q a c → S b c) : ∀ {l : List α} {bs : List β} {cs : List γ}, List.Forall₂ P l bs →
    List.Forall₂ Q l cs → List.Forall₂ S bs cs
  | [], _, _, .nil, .nil => .nil
  | _ :: _, _, _, .cons hp hps, .cons hq hqs => .cons (hS _ _ _ hp hq) (forall₂_of_common hS hps hqs)

/-- **A body has the same meaning in both tables.** -/
theorem BodyMeans.rel {decl : RawDecl} {body body' : Option TypeId} (h : t.BodyMeans decl body)
    (h' : t'.BodyMeans decl body') : Option.Rel (Same t t') body body' := by
  unfold BodyMeans at h h'
  split at h
  · rename_i fields _ hfields
    rw [hfields] at h'
    obtain ⟨id, ms, rfl, hget, hms⟩ := h
    obtain ⟨id', ms', rfl, hget', hms'⟩ := h'
    exact .some (Or.inr ⟨ms, ms', hget, hget', forall₂_of_common (fun _ _ _ hm hm' => hm.alike hm') hms hms'⟩)
  · rename_i source hfields hsource
    rw [hfields, hsource] at h'
    obtain ⟨id, e, rfl, hparse, hden⟩ := h
    obtain ⟨id', e', rfl, hparse', hden'⟩ := h'
    rw [hparse] at hparse'
    cases hparse'
    exact .some (Or.inl ⟨e, hden, hden'⟩)
  · rename_i hfields hbody
    rw [hfields, hbody] at h'
    rw [h, h']
    exact .none

theorem descAlike_entry {R : TypeId → TypeId → Prop} (decl : RawDecl) {body body' : Option TypeId}
    (h : Option.Rel R body body') : DescAlike R (decl.entry body) (decl.entry body') := by
  unfold RawDecl.entry
  split
  · exact .native _ h
  · exact .named _ h

theorem decl_eq_of_name_eq (hperm : decls.Perm decls') (hdistinct : (decls.map RawDecl.name).Nodup) {decl decl' : RawDecl}
    (hdecl : decl ∈ decls) (hdecl' : decl' ∈ decls') (hname : decl.name = decl'.name) : decl = decl' :=
  List.inj_on_of_nodup_map hdistinct hdecl (hperm.mem_iff.2 hdecl') hname

/-- **What one expression stands for** is declared under one name or described alike. -/
theorem SameType.describes {a b : TypeId} (h : SameType t t' a b) :
    (∃ d d', t.get? a = some d ∧ t'.get? b = some d' ∧ DescAlike (SameType t t') d d') ∨
      ∃ name, t.lookup name = some a ∧ t'.lookup name = some b := by
  obtain ⟨e, hden, hden'⟩ := h
  cases hden with
  | scalar hget => cases hden' with | scalar hget' => exact Or.inl ⟨_, _, hget, hget', .scalar _⟩
  | duration hget => cases hden' with | duration hget' => exact Or.inl ⟨_, _, hget, hget', .duration⟩
  | option hc hget =>
    cases hden' with
    | option hc' hget' => exact Or.inl ⟨_, _, hget, hget', .pointer ⟨_, hc, hc'⟩⟩
  | vec hc hget =>
    cases hden' with
    | vec hc' hget' => exact Or.inl ⟨_, _, hget, hget', .sequence _ ⟨_, hc, hc'⟩⟩
  | array hc hget =>
    cases hden' with
    | array hc' hget' => exact Or.inl ⟨_, _, hget, hget', .sequence _ ⟨_, hc, hc'⟩⟩
  | map hk hv hget =>
    cases hden' with
    | map hk' hv' hget' => exact Or.inl ⟨_, _, hget, hget', .mapping ⟨_, hk, hk'⟩ ⟨_, hv, hv'⟩⟩
  | named hl => cases hden' with | named hl' => exact Or.inr ⟨_, hl, hl'⟩

/-- **The same types are described alike.** -/
theorem Same.describes (hlists : t.Lists decls) (hlists' : t'.Lists decls') (hperm : decls.Perm decls')
    (hdistinct : (decls.map RawDecl.name).Nodup) {a b : TypeId} (h : Same t t' a b) :
    ∃ d d', t.get? a = some d ∧ t'.get? b = some d' ∧ DescAlike (Same t t') d d' := by
  rcases h with h | ⟨ms, ms', hget, hget', hms⟩
  · rcases h.describes with ⟨d, d', hget, hget', halike⟩ | ⟨name, hl, hl'⟩
    · exact ⟨d, d', hget, hget', halike.mono fun _ _ => Or.inl⟩
    · obtain ⟨decl, hdecl, hname⟩ := Lower.exists_decl_of_lookup hlists.names hl
      obtain ⟨decl', hdecl', hname'⟩ := Lower.exists_decl_of_lookup hlists'.names hl'
      obtain rfl := decl_eq_of_name_eq hperm hdistinct (List.mem_of_getElem? hdecl) (List.mem_of_getElem? hdecl')
        (hname.trans hname'.symm)
      obtain ⟨body, hget, hmeans⟩ := hlists.defined hdecl
      obtain ⟨body', hget', hmeans'⟩ := hlists'.defined hdecl'
      exact ⟨_, _, hget, hget', descAlike_entry decl (hmeans.rel hmeans')⟩
  · exact ⟨_, _, hget, hget', .struct (hms.imp fun _ _ hm => hm.mono fun _ _ => Or.inl)⟩

/-! ## No type has two numbers -/

/-- **A table that has nothing twice**: no structural type, and no name. -/
structure Once (t : TypeTable) : Prop extends Formed t where
  structural : ∀ {i j d}, t.get? i = some d → t.get? j = some d → d.isDeclared = false → i = j
  declared : ∀ {i j d d'}, t.declared? i = some d → t.declared? j = some d' → d.name = d'.name → i = j

theorem once_of_lists (h : t.Coherent) (hlists : t.Lists decls) (hdistinct : (decls.map RawDecl.name).Nodup) : t.Once := by
  refine ⟨h.toFormed, hlists.once, fun {i j d d'} hd hd' hname => ?_⟩
  have hlookup : ∀ {i : TypeId} {d : Declared}, t.declared? i = some d → t.lookup d.name = some i := by
    intro i d hd
    obtain ⟨decl, hdecl⟩ := (Lower.declared?_isSome_iff hlists).1 (Option.isSome_of_eq_some hd)
    obtain ⟨body, hget, -⟩ := hlists.defined hdecl
    have hentry : d.name = decl.name := by
      rw [declared?_of_get? hget] at hd
      unfold RawDecl.entry at hd
      split at hd <;> cases hd <;> rfl
    rw [hentry]
    exact Lower.lookup_decl hlists.names hdistinct hdecl
  have hi := hlookup hd
  rw [hname, hlookup hd'] at hi
  exact (Option.some.inj hi).symm

theorem SameType.symm {a b : TypeId} (h : SameType t t' a b) : SameType t' t b a := by
  obtain ⟨e, hden, hden'⟩ := h
  exact ⟨e, hden', hden⟩

theorem Same.symm {a b : TypeId} (h : Same t t' a b) : Same t' t b a := by
  rcases h with h | ⟨ms, ms', hget, hget', hms⟩
  · exact Or.inl h.symm
  · refine Or.inr ⟨ms', ms, hget', hget, hms.flip.imp fun m' m hm => ?_⟩
    exact ⟨hm.name.symm, hm.type.symm, hm.tag.symm, hm.embedded.symm⟩

theorem members_eq {R : TypeId → TypeId → Prop} {ms₁ ms₂ ms : List Member}
    (hR : ∀ m ∈ ms, ∀ a a', R a m.type → R a' m.type → a = a') (h₁ : List.Forall₂ (MemberAlike R) ms₁ ms)
    (h₂ : List.Forall₂ (MemberAlike R) ms₂ ms) : ms₁ = ms₂ := by
  rw [← List.forall₂_eq_eq_eq]
  refine forall₂_of_common (fun m m₁ m₂ hm₁ hm₂ => ?_) ((List.forall₂_and_left _ _).2 ⟨hR, h₁.flip⟩) h₂.flip
  obtain ⟨hm, hname₁, htype₁, htag₁, hembedded₁⟩ := hm₁
  obtain ⟨hname₂, htype₂, htag₂, hembedded₂⟩ := hm₂
  obtain ⟨name, type, tag, embedded⟩ := m₁
  obtain ⟨name', type', tag', embedded'⟩ := m₂
  rw [Member.mk.injEq]
  exact ⟨hname₁.trans hname₂.symm, hm _ _ htype₁ htype₂, htag₁.trans htag₂.symm, hembedded₁.trans hembedded₂.symm⟩

/-- **Types that are the same as one are one**, by induction on its number: parts have lower ones. -/
theorem eq_of_describes {R : TypeId → TypeId → Prop} (h : t.Once) (h' : t'.Formed)
    (hR : ∀ {a b}, R a b → ∃ d d', t.get? a = some d ∧ t'.get? b = some d' ∧ DescAlike R d d') (b : TypeId) :
    ∀ a a', R a b → R a' b → a = a' := by
  induction b using Nat.strongRecOn with
  | ind b ih =>
    intro a a' hab hab'
    obtain ⟨d₁, d, hd₁, hd, h₁⟩ := hR hab
    obtain ⟨d₂, d', hd₂, hd', h₂⟩ := hR hab'
    rw [hd] at hd'
    cases hd'
    have hpart : ∀ c ∈ d.parts, ∀ x y, R x c → R y c → x = y := fun c hc => ih c (h'.part_lt hd hc)
    cases h₁ with
    | scalar kind =>
      cases h₂ with
      | scalar => exact h.structural hd₁ hd₂ rfl
    | duration =>
      cases h₂ with
      | duration => exact h.structural hd₁ hd₂ rfl
    | pointer hc =>
      cases h₂ with
      | pointer hc' =>
        rw [hpart _ List.mem_cons_self _ _ hc hc'] at hd₁
        exact h.structural hd₁ hd₂ rfl
    | sequence kind hc =>
      cases h₂ with
      | sequence _ hc' =>
        rw [hpart _ List.mem_cons_self _ _ hc hc'] at hd₁
        exact h.structural hd₁ hd₂ rfl
    | mapping hk hv =>
      cases h₂ with
      | mapping hk' hv' =>
        rw [hpart _ List.mem_cons_self _ _ hk hk',
          hpart _ (List.mem_cons_of_mem _ List.mem_cons_self) _ _ hv hv'] at hd₁
        exact h.structural hd₁ hd₂ rfl
    | struct hms =>
      cases h₂ with
      | struct hms' =>
        rw [members_eq (fun m hm => hpart _ (List.mem_map_of_mem hm)) hms hms'] at hd₁
        exact h.structural hd₁ hd₂ rfl
    | named name _ =>
      cases h₂ with
      | named => exact h.declared (declared?_of_get? hd₁) (declared?_of_get? hd₂) rfl
    | native name _ =>
      cases h₂ with
      | native => exact h.declared (declared?_of_get? hd₁) (declared?_of_get? hd₂) rfl

end TypeTable

namespace Schema

open TypeTable

/-- **Schemas of the same declarations have the same types**, in whatever order they are declared. -/
theorem renumbering_of_perm {raw raw' : RawSchema} {s s' : Schema} (hs : (ofRaw raw).value = .ok s)
    (hs' : (ofRaw raw').value = .ok s') (hperm : raw.types.Perm raw'.types) :
    s.table.Renumbering s'.table (Same s.table s'.table) := by
  obtain ⟨hcoh, hlists⟩ := coherent_of_ofRaw hs
  obtain ⟨hcoh', hlists'⟩ := coherent_of_ofRaw hs'
  have hdistinct := (valid_of_ofRaw hs).distinct
  have hdistinct' := (valid_of_ofRaw hs').distinct
  have hdescribes : ∀ {a b}, Same s.table s'.table a b → _ := fun h => h.describes hlists hlists' hperm hdistinct
  have hdescribes' : ∀ {b a}, Same s'.table s.table b a → _ := fun h => h.describes hlists' hlists hperm.symm hdistinct'
  refine ⟨hdescribes, fun h₁ h₂ => ?_, fun h₁ h₂ => ?_⟩
  · exact eq_of_describes (once_of_lists hcoh hlists hdistinct) hcoh'.toFormed hdescribes _ _ _ h₁ h₂
  · exact eq_of_describes (once_of_lists hcoh' hlists' hdistinct') hcoh.toFormed hdescribes' _ _ _ h₁.symm h₂.symm

theorem exists_same_of_lookup {raw raw' : RawSchema} {s s' : Schema} (hs : (ofRaw raw).value = .ok s)
    (hs' : (ofRaw raw').value = .ok s') (hperm : raw.types.Perm raw'.types) {name : String} {id : TypeId}
    (hl : s.table.lookup name = some id) :
    ∃ id', s'.table.lookup name = some id' ∧ Same s.table s'.table id id' := by
  obtain ⟨-, hlists⟩ := coherent_of_ofRaw hs
  obtain ⟨-, hlists'⟩ := coherent_of_ofRaw hs'
  obtain ⟨decl, hdecl, rfl⟩ := Lower.exists_decl_of_lookup hlists.names hl
  obtain ⟨id', hid'⟩ := List.getElem?_of_mem (hperm.mem_iff.1 (List.mem_of_getElem? hdecl))
  have hl' := Lower.lookup_decl hlists'.names (valid_of_ofRaw hs').distinct hid'
  exact ⟨id', hl', Or.inl ⟨.named decl.name ⟨0, 0⟩, .named hl, .named hl'⟩⟩

end Schema
end BencodePlan
