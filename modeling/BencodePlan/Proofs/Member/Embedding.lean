import BencodePlan.Proofs.Pairs
import BencodePlan.Proofs.Run.Rerouted
import BencodePlan.Proofs.Shape.Unique
import BencodePlan.Proofs.Encoding.OfType
import Mathlib
/-!
# Embedding is a matter of ways

A struct that embeds others is written like one that declares all their fields itself.  The plans of the two are the same
instruction for instruction, but for the ways from the value to its fields, and on values that have the same in their fields
they write the same (`plan_of_embedding`).

The two structs collect their fields along different routes, but as they sort them by name, and no two have the same one,
they come to them in one order (`writingOrder_of_perm`).
-/
namespace BencodePlan

namespace Field

def direct (f : Field) : Field := { f with path := [] }

def wayIn (fields : List Field) (name : String) : List String :=
  ((fields.map fun f => (f.name, f.path)).lookup name).getD []

theorem wayIn_of_mem {fields : List Field} (hnames : (fields.map name).Nodup) {f : Field} (hf : f ∈ fields) :
    wayIn fields f.name = f.path := by
  have hfst : ((fields.map fun f => (f.name, f.path)).map Prod.fst).Nodup := by
    rw [List.map_map]
    exact hnames
  unfold wayIn
  rw [(Pairs.lookup_eq_some_iff_mem hfst).2 (List.mem_map.2 ⟨f, hf, rfl⟩)]
  rfl

end Field

namespace TypeTable

/-! ## The order of writing -/

theorem eq_of_name_eq {fields : List Field} (hnames : (fields.map Field.name).Nodup) {f g : Field} (hf : f ∈ fields)
    (hg : g ∈ fields) (h : f.name = g.name) : f = g :=
  List.inj_on_of_nodup_map hnames hf hg h

/-- **Fields with names of their own are written in one order**, in whatever order they are declared. -/
theorem writingOrder_of_perm {fields fields' : List Field} (hperm : fields.Perm fields')
    (hnames : (fields.map Field.name).Nodup) : writingOrder fields = writingOrder fields' := by
  have hsame : (writingOrder fields).Perm (writingOrder fields') :=
    ((List.mergeSort_perm fields _).trans hperm).trans (List.mergeSort_perm fields' _).symm
  refine List.Perm.eq_of_pairwise (fun f g hf hg hfg hgf => ?_) (pairwise_mergeSort_by Field.name fields)
    (pairwise_mergeSort_by Field.name fields') hsame
  exact eq_of_name_eq hnames (mem_writingOrder.1 hf) (hperm.mem_iff.2 (mem_writingOrder.1 hg))
    (String.le_antisymm hfg hgf)

theorem writingOrder_direct (fields : List Field) :
    writingOrder (fields.map Field.direct) = (writingOrder fields).map Field.direct :=
  (List.map_mergeSort (f := Field.direct) fun _ _ _ _ => rfl).symm

variable {t : TypeTable}

/-! ## The same fields, elsewhere -/

theorem sameField_of_direct {Q : Selector → Selector → Prop} : ∀ {fs : List Field}
    {fields fields' : List (Slot × Shape)}, t.ShapesAll fields (fs.map Field.direct) → t.ShapesAll fields' fs →
    (∀ f ∈ fs, Q (f.direct.selector .root) (f.selector .root)) →
    List.Forall₂ (Shape.SameField Q .root .root) fields fields'
  | [], fields, fields', h, h', _ => by
    rw [h.nil_inv, h'.nil_inv]
    exact .nil
  | f :: fs, fields, fields', h, h', hQ => by
    obtain ⟨s, rest, rfl, hs, hrest⟩ := h.cons_inv
    obtain ⟨s', rest', rfl, hs', hrest'⟩ := h'.cons_inv
    rw [List.forall_mem_cons] at hQ
    exact .cons ⟨rfl, rfl, Shapes.unique s' hs' hs, hQ.1⟩ (sameField_of_direct hrest hrest' hQ.2)

/-! ## Values -/

/-- **The one value has in its fields what the other has at the ends of the ways to them.** -/
def Flattens (fields : List Field) (nested flat : Value) : Prop :=
  ∀ f ∈ fields, Value.member? (some flat) f.name = foundAt f nested

def flattened (fields : List Field) (nested : Value) : Value :=
  .struct (fields.filterMap fun f => (foundAt f nested).map fun v => (f.name, v))

theorem flattens_flattened {fields : List Field} (hnames : (fields.map Field.name).Nodup) (nested : Value) :
    Flattens fields nested (flattened fields nested) := by
  intro f hf
  have hmem : ∀ v, (f.name, v) ∈ (fields.filterMap fun f => (foundAt f nested).map fun v => (f.name, v)) ↔
      foundAt f nested = some v := by
    intro v
    rw [List.mem_filterMap]
    constructor
    · rintro ⟨g, hg, hv⟩
      obtain ⟨w, hw, heq⟩ := Option.map_eq_some_iff.1 hv
      rw [Prod.mk.injEq] at heq
      rw [← eq_of_name_eq hnames hg hf heq.1, hw, heq.2]
    · exact fun hv => ⟨f, hf, by rw [hv]; rfl⟩
  have hfst : ((fields.filterMap fun f => (foundAt f nested).map fun v => (f.name, v)).map Prod.fst).Nodup := by
    refine hnames.sublist ?_
    clear hmem hnames hf
    induction fields with
    | nil => exact .slnil
    | cons g rest ih =>
      rw [List.filterMap_cons]
      cases foundAt g nested with
      | none => exact ih.cons _
      | some v => exact ih.cons_cons _
  exact Option.ext fun v => (Pairs.lookup_eq_some_iff_mem hfst).trans (hmem v)

/-! ## The plans of the two structs -/

open Compile Instruction Selector

variable {embedding direct : TypeId} {members members' : List Member}

/-- **The plans are parallel.** -/
theorem parallel_of_embedding (h : t.Sound) (hembedding : t.get? (t.base embedding) = some (.struct members))
    (hdirect : t.get? (t.base direct) = some (.struct members'))
    (hnames : ((t.fieldsOf (t.base embedding)).map Field.name).Nodup)
    (hfields : (t.fieldsOf (t.base direct)).Perm ((t.fieldsOf (t.base embedding)).map Field.direct))
    {name name' : String} {p q : Plan} (hp : result (t.compile name embedding) = .ok p)
    (hq : result (t.compile name' direct) = .ok q) :
    List.Forall₂ (Parallel (Rerouted (Field.wayIn (t.fieldsOf (t.base embedding)))
      ((t.fieldsOf (t.base embedding)).map Field.name))) q.body p.body := by
  obtain ⟨s, hs, hpbody⟩ := exists_shapes_of_compile h (lt_size_of_base hembedding) hp
  obtain ⟨s', hs', hqbody⟩ := exists_shapes_of_compile h (lt_size_of_base hdirect) hq
  obtain ⟨fields, rfl, hfs⟩ := hs.inv hembedding
  obtain ⟨fields', rfl, hfs'⟩ := hs'.inv hdirect
  have hnames' : ((t.fieldsOf (t.base direct)).map Field.name).Nodup := by
    rw [(hfields.map Field.name).nodup_iff, List.map_map]
    exact hnames
  rw [writingOrder_of_perm hfields hnames', writingOrder_direct] at hfs'
  rw [hpbody, hqbody]
  refine Shape.framed_parallel (Shape.planFields_parallel carries_rerouted _ (sameField_of_direct hfs' hfs ?_))
  intro f hf
  have hmem := mem_writingOrder.1 hf
  have hstart : Rerouted (Field.wayIn (t.fieldsOf (t.base embedding))) ((t.fieldsOf (t.base embedding)).map Field.name)
      (.field .root f.name) (Selector.root.fields (Field.wayIn (t.fieldsOf (t.base embedding)) f.name ++ [f.name])) :=
    .start (List.mem_map_of_mem hmem)
  rw [Field.wayIn_of_mem hnames hmem] at hstart
  exact hstart

end TypeTable

namespace Schema

open TypeTable Compile Instruction Selector

/-- **A struct that embeds others is written like one that declares their fields itself**, in whatever order.  Its plan has
the way to a field wherever the other has the field of that name, and on values that have the same in their fields the two
write the same bytes and fail together. -/
theorem plan_of_embedding {raw : RawSchema} {s : Schema} (hs : (ofRaw raw).value = .ok s) {embedding direct : TypeId}
    {members members' : List Member} (hembedding : s.table.get? (s.table.base embedding) = some (.struct members))
    (hdirect : s.table.get? (s.table.base direct) = some (.struct members'))
    (hnames : ((s.table.fieldsOf (s.table.base embedding)).map Field.name).Nodup)
    (hfields : (s.table.fieldsOf (s.table.base direct)).Perm
      ((s.table.fieldsOf (s.table.base embedding)).map Field.direct))
    {name name' : String} {p q : Plan} (hp : result (s.table.compile name embedding) = .ok p)
    (hq : result (s.table.compile name' direct) = .ok q) :
    p.body = withSelectorsAll (through (Field.wayIn (s.table.fieldsOf (s.table.base embedding)))) q.body ∧
    ∀ nested flat, Flattens (s.table.fieldsOf (s.table.base embedding)) nested flat → ∀ room,
      (p.run nested room).bytes = (q.run flat room).bytes ∧
      ((p.run nested room).error? = none ↔ (q.run flat room).error? = none) := by
  have hparallel := parallel_of_embedding (sound_of_ofRaw hs) hembedding hdirect hnames hfields hp hq
  refine ⟨parallelAll_eq_withSelectors (fun _ _ h => h.eq_through) q.body hparallel, fun nested flat hflat room => ?_⟩
  have hfound : ∀ name ∈ (s.table.fieldsOf (s.table.base embedding)).map Field.name,
      Value.member? (some flat) name = Value.along (some nested)
        (Field.wayIn (s.table.fieldsOf (s.table.base embedding)) name ++ [name]) := by
    intro name hname
    obtain ⟨f, hf, rfl⟩ := List.mem_map.1 hname
    rw [Field.wayIn_of_mem hnames hf]
    exact hflat f hf
  obtain ⟨hbytes, herror⟩ := runAll_rerouted hparallel hfound room
  exact ⟨hbytes.symm, herror.symm⟩

def entryDocument : RawSchema :=
  ⟨none, [⟨"Stamp", some [⟨"Scores", "Map<str, i64>", none, false⟩, ⟨"Id", "i64", some "n", false⟩], none, false⟩,
    ⟨"Entry", some [⟨"Stamp", "Stamp", none, true⟩, ⟨"Name", "str", none, false⟩], none, false⟩,
    ⟨"Row", some [⟨"Name", "str", none, false⟩, ⟨"Id", "i64", some "n", false⟩,
      ⟨"Scores", "Map<str, i64>", none, false⟩], none, false⟩]⟩

def stampBody : TypeDesc := .struct [⟨"Scores", 5, none, false⟩, ⟨"Id", 4, some "n", false⟩]

def entryBody : TypeDesc := .struct [⟨"Stamp", 0, none, true⟩, ⟨"Name", 3, none, false⟩]

def rowBody : TypeDesc :=
  .struct [⟨"Name", 3, none, false⟩, ⟨"Id", 4, some "n", false⟩, ⟨"Scores", 5, none, false⟩]

def entryTable : TypeTable :=
  ⟨[.named ⟨"Stamp", some 6⟩, .named ⟨"Entry", some 7⟩, .named ⟨"Row", some 8⟩, .scalar .str, .scalar (.int .i64),
      .mapping 3 4, stampBody, entryBody, rowBody],
    [(.scalar .str, 3), (.scalar (.int .i64), 4), (.mapping 3 4, 5), (stampBody, 6), (entryBody, 7), (rowBody, 8)],
    [("Stamp", 0), ("Entry", 1), ("Row", 2)]⟩

def entryInstructions (id name scores : Selector) : List Instruction :=
  [.ascii "d", .ascii "1:n", .ascii "i", .int id, .ascii "e", .ascii "4:name", .string name, .ascii "6:scores", .ascii "d",
    .map scores 0 none [.string (.key 0), .ascii "i", .int (.value scores 0), .ascii "e"], .ascii "e", .ascii "e"]

def entry : Value :=
  .struct [("Stamp", .struct [("Id", .int 7), ("Scores", .map [(.string [98], .int 2), (.string [97], .int 1)])]),
    ("Name", .string [120])]

theorem plan_of_entry : (ofRaw entryDocument).value = .ok ⟨none, entryTable⟩ ∧
    entryInstructions (.field (.field .root "Stamp") "Id") (.field .root "Name")
        (.field (.field .root "Stamp") "Scores") =
      withSelectorsAll (through (Field.wayIn (entryTable.fieldsOf 7)))
        (entryInstructions (.field .root "Id") (.field .root "Name") (.field .root "Scores")) ∧
    ((⟨"Entry", entryInstructions (.field (.field .root "Stamp") "Id") (.field .root "Name")
        (.field (.field .root "Stamp") "Scores")⟩ : Plan).run entry none).bytes =
      Wire.ascii "d1:ni7e4:name1:x6:scoresd1:ai1e1:bi2eee".toList := by
  have hs : (ofRaw entryDocument).value = .ok ⟨none, entryTable⟩ := ofRaw_eq_ok (by decide +kernel)
  have hp : result (entryTable.compile "Entry" 1) = .ok ⟨"Entry", entryInstructions (.field (.field .root "Stamp") "Id")
      (.field .root "Name") (.field (.field .root "Stamp") "Scores")⟩ := by cbv
  have hq : result (entryTable.compile "Row" 2) = .ok ⟨"Row", entryInstructions (.field .root "Id") (.field .root "Name")
      (.field .root "Scores")⟩ := by cbv
  have hentry : entryTable.fieldsOf 7 = [⟨"Scores", ["Stamp"], 5, none⟩, ⟨"Id", ["Stamp"], 4, some ⟨some "n", false⟩⟩,
      ⟨"Name", [], 3, none⟩] := by cbv
  have hrow : entryTable.fieldsOf 8 = [⟨"Name", [], 3, none⟩, ⟨"Id", [], 4, some ⟨some "n", false⟩⟩,
      ⟨"Scores", [], 5, none⟩] := by cbv
  have hbase : entryTable.base 1 = 7 := by decide
  have hbase' : entryTable.base 2 = 8 := by decide
  have hembedding : entryTable.get? (entryTable.base 1) = some entryBody := by rw [hbase]; rfl
  have hdirect : entryTable.get? (entryTable.base 2) = some rowBody := by rw [hbase']; rfl
  have hnames : ((entryTable.fieldsOf (entryTable.base 1)).map Field.name).Nodup := by
    rw [hbase, hentry]
    decide
  have hfields : (entryTable.fieldsOf (entryTable.base 2)).Perm ((entryTable.fieldsOf (entryTable.base 1)).map Field.direct) := by
    rw [hbase, hbase', hentry, hrow]
    decide
  obtain ⟨hbody, hrun⟩ := plan_of_embedding hs hembedding hdirect hnames hfields hp hq
  have hbytes := (hrun entry _ (flattens_flattened hnames entry) none).1
  rw [hbase] at hbody hbytes
  refine ⟨hs, hbody, hbytes.trans ?_⟩
  rw [hentry]
  cbv

end Schema
end BencodePlan
