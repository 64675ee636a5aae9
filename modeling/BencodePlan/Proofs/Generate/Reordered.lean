import BencodePlan.Proofs.Pairs
import BencodePlan.Proofs.Generate.Isolation
import BencodePlan.Proofs.Shape.Renumbering
import BencodePlan.Proofs.Schema.Permuted
/-!
# Declarations may come in any order

Each type comes to what it comes to alone, and what that is does not depend on the number of the type.  So a schema whose
declarations stand in another order gives the same plans and the same failures, in the same order, whatever is asked for
(`generate_reordered`).
-/
namespace BencodePlan
namespace Schema

open TypeTable Compile

section

variable {s s' : Schema} {R : TypeId → TypeId → Prop} {a b : TypeId}

/-! ## Each type -/

theorem isStructBased_eq (h : s.table.Renumbering s'.table R) (hs : s.table.Sound) (hs' : s'.table.Sound) (hab : R a b) :
    isStructBased s.table a = isStructBased s'.table b :=
  h.toLikeness.isStruct_eq (h.toLikeness.underlying hs hs' hab)

theorem isTagged_iff (h : s.table.Renumbering s'.table R) (hs : s.table.Sound) (hs' : s'.table.Sound) (hab : R a b) :
    s.table.IsTagged a ↔ s'.table.IsTagged b := by
  have hfields := h.fieldsOf_alike hs hs' (h.toLikeness.underlying hs hs' hab)
  have htags := map_eq_map_iff_forall₂.2 (hfields.imp fun f f' hf => show f.tag.isSome = f'.tag.isSome by rw [hf.tag])
  have hmem : ∀ {t : TypeTable} {c : TypeId}, t.IsTagged c ↔
      true ∈ (t.fieldsOf (t.underlying c)).map fun f => f.tag.isSome := List.mem_map.symm
  rw [hmem, hmem, htags]

theorem asks_iff (h : s.table.Renumbering s'.table R) (hs : s.table.Sound) (hs' : s'.table.Sound) (hab : R a b)
    (config : GeneratorConfig) (requested : List String) (name : String) :
    Asks s.table config requested name a ↔ Asks s'.table config requested name b := by
  unfold Asks
  rw [h.toLikeness.isNative_eq hab, isStructBased_eq h hs hs' hab, isTagged_iff h hs hs' hab]

theorem alone_eq (h : s.table.Renumbering s'.table R) (hs : s.table.Sound) (hs' : s'.table.Sound) (hab : R a b)
    (config : GeneratorConfig) (name : String) : s.alone config name a = s'.alone config name b := by
  unfold alone
  rw [h.result_compile_eq hs hs' hab]

end

/-! ## All of them -/

variable {raw raw' : RawSchema} {s s' : Schema}

theorem mem_names_select (hs : (ofRaw raw).value = .ok s) (hs' : (ofRaw raw').value = .ok s')
    (hperm : raw.types.Perm raw'.types) (config : GeneratorConfig) (requested : List String) {name : String}
    (hname : name ∈ (s.select config requested).value.map Prod.fst) :
    name ∈ (s'.select config requested).value.map Prod.fst := by
  obtain ⟨⟨_, id⟩, hmem, rfl⟩ := List.mem_map.1 hname
  obtain ⟨hl, hasks⟩ := (mem_select hs).1 hmem
  obtain ⟨id', hl', hsame⟩ := exists_same_of_lookup hs hs' hperm hl
  have h := renumbering_of_perm hs hs' hperm
  have hasks' := (asks_iff h (sound_of_ofRaw hs) (sound_of_ofRaw hs') hsame config requested _).1 hasks
  exact List.mem_map.2 ⟨(_, id'), (mem_select hs').2 ⟨hl', hasks'⟩, rfl⟩

/-- **The same types are chosen in the same order.** -/
theorem select_alike (hs : (ofRaw raw).value = .ok s) (hs' : (ofRaw raw').value = .ok s')
    (hperm : raw.types.Perm raw'.types) (config : GeneratorConfig) (requested : List String) :
    Pairs.Alike (Same s.table s'.table) (s.select config requested).value (s'.select config requested).value := by
  have hnames : (s.select config requested).value.map Prod.fst = (s'.select config requested).value.map Prod.fst := by
    refine List.Pairwise.eq_of_mem_iff (names_select_ascend s config requested)
      (names_select_ascend s' config requested) fun name => ⟨?_, ?_⟩
    · exact mem_names_select hs hs' hperm config requested
    · exact mem_names_select hs' hs hperm.symm config requested
  rw [map_eq_map_iff_forall₂] at hnames
  refine List.forall₂_iff_zip.2 ⟨hnames.length_eq, fun {p q} hpq => ?_⟩
  obtain ⟨name, id⟩ := p
  obtain ⟨name', id'⟩ := q
  obtain rfl : name = name' := List.forall₂_zip hnames hpq
  obtain ⟨hp, hq⟩ := List.of_mem_zip hpq
  obtain ⟨id'', hl', hsame⟩ := exists_same_of_lookup hs hs' hperm ((mem_select hs).1 hp).1
  rw [((mem_select hs').1 hq).1] at hl'
  cases hl'
  exact ⟨rfl, hsame⟩

theorem filterMap_eq_of_forall₂ {α β γ : Type} {f : α → Option γ} {g : β → Option γ} {l : List α} {l' : List β}
    (h : List.Forall₂ (fun a b => f a = g b) l l') : l.filterMap f = l'.filterMap g := by
  have hmap := congrArg (List.filterMap id) (map_eq_map_iff_forall₂.2 h)
  rw [List.filterMap_map, List.filterMap_map] at hmap
  exact hmap

/-- **Declarations may come in any order.**  A document with the same declarations in another order can be lowered too, and
gives the same plans and the same failures, whatever is asked for. -/
theorem generate_reordered (hs : (ofRaw raw).value = .ok s) {types : List RawDecl} (hperm : raw.types.Perm types) :
    ∃ s', (ofRaw ⟨raw.module, types⟩).value = .ok s' ∧
      ∀ config requested, (s.generate config requested).value = (s'.generate config requested).value := by
  have hvalid : RawSchema.Valid ⟨raw.module, types⟩ := (valid_of_ofRaw hs).of_perm hperm
  obtain ⟨s', hs'⟩ := exists_ofRaw_of_valid hvalid
  refine ⟨s', hs', fun config requested => ?_⟩
  have h := renumbering_of_perm hs hs' hperm
  have hchosen := select_alike hs hs' hperm config requested
  have halone : List.Forall₂ (fun p q : String × TypeId => p.1 = q.1 ∧ s.alone config p.1 p.2 = s'.alone config q.1 q.2)
      (s.select config requested).value (s'.select config requested).value := by
    refine hchosen.imp fun p q hpq => ⟨hpq.1, ?_⟩
    rw [← hpq.1]
    exact alone_eq h (sound_of_ofRaw hs) (sound_of_ofRaw hs') hpq.2 config p.1
  rw [value_generate, value_generate, Generated.mk.injEq]
  constructor
  · refine filterMap_eq_of_forall₂ (halone.imp fun p q hpq => ?_)
    rw [planOf, planOf, hpq.2]
  · refine filterMap_eq_of_forall₂ (halone.imp fun p q hpq => ?_)
    rw [failureOf, failureOf, hpq.2, hpq.1]

/-- What can be written is declared after what cannot. -/
theorem readings_reordered : ∃ s', (ofRaw ⟨none, readingsDocument.types.reverse⟩).value = .ok s' ∧
    s'.table.lookup "W" = some 1 ∧ readings.table.lookup "W" = some 0 ∧
    (s'.generate ⟨true, false⟩ readingsRequest).value = ⟨[wholePlan], [⟨"B", .unsupportedType "f64"⟩]⟩ := by
  have hs : (ofRaw readingsDocument).value = .ok readings := ofRaw_eq_ok (by decide +kernel)
  obtain ⟨s', hs', hsame⟩ := generate_reordered hs (List.reverse_perm readingsDocument.types).symm
  have hlookup : ((ofRaw ⟨none, readingsDocument.types.reverse⟩).value.toOption.bind fun s => s.table.lookup "W") = some 1 := by
    decide +kernel
  have hraw : (ofRaw ⟨none, readingsDocument.types.reverse⟩).value = .ok s' := hs'
  rw [hraw] at hlookup
  exact ⟨s', hs', hlookup, rfl, (hsame ⟨true, false⟩ readingsRequest).symm.trans value_readings⟩

end Schema
end BencodePlan
