import BencodePlan.Proofs.Encoding.OfType
import BencodePlan.Proofs.Generate.Isolation
import BencodePlan.Proofs.Generate.Tags
import BencodePlan.Proofs.Member.Flattening
import BencodePlan.Proofs.Source.Contents
import Mathlib
/-!
# Names in generated code

A name that an encoder is written with is one of the document: the type that it is of and the types of keys are declared,
and the fields on the way to a value are members of declared structs.  Such names are identifiers, but an identifier may be
a word that is reserved in generated code, and nothing keeps a document from declaring one (`reserved_names_written`).  If it
declares none, none is written (`names_declared`).
-/
namespace BencodePlan

open TypeTable
open Relation (ReflTransGen)

/-- **Words that generated code has a use for**, or may have one day, and that name nothing else there. -/
def Source.reservedWords : List String :=
  ["as", "break", "const", "continue", "crate", "else", "enum", "extern", "false", "fn", "for", "if", "impl", "in", "let",
    "loop", "match", "mod", "move", "mut", "pub", "ref", "return", "self", "Self", "static", "struct", "super", "trait",
    "true", "type", "unsafe", "use", "where", "while", "async", "await", "dyn", "abstract", "become", "box", "do", "final",
    "gen", "macro", "override", "priv", "try", "typeof", "unsized", "virtual", "yield"]

/-! ## Names in the document -/

namespace RawSchema

def typeNames (raw : RawSchema) : List String := raw.types.map RawDecl.name

def fieldNames (raw : RawSchema) : List String := raw.declaredFields.map fun p => p.2.name

end RawSchema

theorem RawSchema.Valid.isIdentifier_fieldName {raw : RawSchema} (h : raw.Valid) {name : String} (hname : name ∈ raw.fieldNames) :
    IsIdentifier name := by
  obtain ⟨⟨decl, f⟩, hf, rfl⟩ := List.mem_map.1 hname
  obtain ⟨hdecl, fields, hfields, hmem⟩ := RawSchema.mem_declaredFields.1 hf
  have hbody := h.bodies decl hdecl
  unfold RawDecl.HasBody at hbody
  rw [hfields] at hbody
  cases hsource : decl.body with
  | some source =>
    rw [hsource] at hbody
    exact hbody.elim
  | none =>
    rw [hsource] at hbody
    exact hbody.identifiers f hmem

/-! ## Names in the table -/

section

variable {raw : RawSchema} {t : TypeTable}

theorem mem_typeNames_of_nameOf (h : t.Lists raw.types) {id : TypeId} {name : String} (hname : t.nameOf id = some name) :
    name ∈ raw.typeNames := by
  obtain ⟨d, hd, rfl⟩ := Option.map_eq_some_iff.1 hname
  obtain ⟨decl, hdecl⟩ := (Lower.declared?_isSome_iff h).1 (Option.isSome_iff_exists.2 ⟨d, hd⟩)
  obtain ⟨b, hget, -⟩ := h.defined hdecl
  have hdname : d.name = decl.name := by
    rw [declared?_of_get? hget] at hd
    unfold RawDecl.entry at hd
    split at hd <;> cases hd <;> rfl
  rw [hdname]
  exact List.mem_map_of_mem (List.mem_of_getElem? hdecl)

/-- **The names on the way to a member** are those of members that are declared. -/
theorem mem_fieldNames_of_finds (h : t.Lists raw.types) (hsound : t.Sound) {opened : List TypeId} {body : TypeId}
    {way : List Nat} {path : List String} {m : Member} (hfinds : t.Finds opened body way path m) {owner : String}
    (hopens : OpensAs raw t owner body) : ∀ name ∈ path ++ [m.name], name ∈ raw.fieldNames := by
  have hdeclared {decl : RawDecl} {f : RawField} {m : Member} (hf : (decl, f) ∈ raw.declaredFields) (hmeans : t.MemberMeans f m) :
      m.name ∈ raw.fieldNames := by
    rw [hmeans.1]
    exact List.mem_map_of_mem hf
  induction hfinds generalizing owner with
  | here hget hi _ =>
    obtain ⟨decl, f, hf, -, hmeans⟩ := hopens.exists_field hget (List.mem_of_getElem? hi)
    exact List.forall_mem_singleton.2 (hdeclared hf hmeans)
  | inside hget hi hembedded hstruct _ _ ih =>
    obtain ⟨holder, f, hf, -, hmeans⟩ := hopens.exists_field hget (List.mem_of_getElem? hi)
    exact List.forall_mem_cons.2 ⟨hdeclared hf hmeans, ih (opensAs_of_embedded h hsound hf hmeans hembedded hstruct)⟩

theorem exists_names_of_base {id : TypeId} (hid : t.isStruct id = false) (hbase : t.isStruct (t.base id) = true) :
    ∃ owner, t.Names owner (t.base id) := by
  obtain ⟨ms, hms⟩ := (isStruct_iff _ _).1 hbase
  have hunderlying := base_eq_underlying hms rfl
  rcases (reflTransGen_underlying t id).cases_head with heq | ⟨c, hc, -⟩
  · rw [hunderlying, ← heq, hid] at hbase
    cases hbase
  · obtain ⟨d, hd⟩ := Option.isSome_iff_exists.1 (declared?_isSome_of_bodyOf hc)
    exact ⟨d.name, id, by rw [nameOf, hd, Option.map_some], hunderlying.symm⟩

/-- **The names on the way to a field** of a type. -/
theorem mem_fieldNames_of_fieldsOf (h : t.Lists raw.types) (hsound : t.Sound) {id : TypeId} (hid : t.isStruct id = false)
    {f : Field} (hf : f ∈ t.fieldsOf (t.base id)) : ∀ name ∈ f.path ++ [f.name], name ∈ raw.fieldNames := by
  cases hbase : t.isStruct (t.base id) with
  | false =>
    rw [fieldsOf, Field.value_collectFrom_of_not_struct hbase] at hf
    cases hf
  | true =>
    obtain ⟨owner, hnames⟩ := exists_names_of_base hid hbase
    obtain ⟨ms, hms⟩ := (isStruct_iff _ _).1 hbase
    obtain ⟨found, hfound, -, hmem⟩ := Field.inOrder_collectFrom [] [] "" (t.base id) List.not_mem_nil hms
    rw [fieldsOf, hfound] at hf
    obtain ⟨⟨way, f⟩, hp, rfl⟩ := List.mem_map.1 hf
    obtain ⟨path, m, hfinds, rfl⟩ := (hmem way f).1 hp
    exact mem_fieldNames_of_finds h hsound hfinds (opensAs_of_names h hsound hnames hbase)

end

/-! ## Names in plans -/

namespace Selector

theorem names_fields : ∀ (path : List String) (base : Selector), (base.fields path).names = base.names ++ path
  | [], base => (List.append_nil _).symm
  | name :: path, base => by
    have hnames := names_fields path (.field base name)
    rw [names, List.append_assoc] at hnames
    exact hnames

end Selector

namespace Instruction

def cast? : Instruction → Option String
  | map _ _ cast _ => cast
  | _ => none

/-- **The names in an instruction are among these**, apart from what it contains. -/
def NamedIn (types fields : List String) (i : Instruction) : Prop :=
  (∀ s ∈ i.source?, ∀ name ∈ s.names, name ∈ fields) ∧ ∀ type ∈ i.cast?, type ∈ types

end Instruction

section

open Instruction

variable {raw : RawSchema} {t : TypeTable}

theorem namedIn_of_source {types fields : List String} {i : Instruction} {s : Selector} (hsource : i.source? = some s)
    (hcast : i.cast? = none) (hs : ∀ name ∈ s.names, name ∈ fields) : i.NamedIn types fields := by
  refine ⟨fun s' hs' => ?_, fun type htype => ?_⟩
  · rw [hsource] at hs'
    cases hs'
    exact hs
  · rw [hcast] at htype
    cases htype

theorem namedIn_literal {types fields : List String} (bytes : Bytes) : (literal bytes).NamedIn types fields :=
  ⟨fun _ h => (nomatch h), fun _ h => (nomatch h)⟩

/-- **The names in instructions are among these**, at every depth. -/
def AllNamedIn (types fields : List String) (is : List Instruction) : Prop := ∀ i ∈ visitAll is, i.NamedIn types fields

theorem allNamedIn_cons {types fields : List String} {i : Instruction} {is : List Instruction} :
    AllNamedIn types fields (i :: is) ↔ (∀ j ∈ i.visit, j.NamedIn types fields) ∧ AllNamedIn types fields is :=
  List.forall_mem_append

theorem allNamedIn_append {types fields : List String} {is js : List Instruction} :
    AllNamedIn types fields (is ++ js) ↔ AllNamedIn types fields is ∧ AllNamedIn types fields js := by
  induction is with
  | nil => exact (and_iff_right (List.forall_mem_nil _)).symm
  | cons i is ih => rw [List.cons_append, allNamedIn_cons, allNamedIn_cons, ih, and_assoc]

theorem AllNamedIn.framed {types fields : List String} {is : List Instruction} (h : AllNamedIn types fields is) (a b : String) :
    AllNamedIn types fields (ascii a :: (is ++ [ascii b])) :=
  allNamedIn_cons.2 ⟨List.forall_mem_singleton.2 (namedIn_literal _),
    allNamedIn_append.2 ⟨h, List.forall_mem_singleton.2 (namedIn_literal _)⟩⟩

mutual
/-- **The plan of a shape has names of the document**, if the selector it begins at has. -/
theorem plan_namedIn (h : t.Lists raw.types) (hsound : t.Sound) : ∀ (shape : Shape) {id : TypeId} (source : Selector)
    (depth : Nat), t.isStruct id = false → t.Shapes shape id → (∀ name ∈ source.names, name ∈ raw.fieldNames) →
    AllNamedIn raw.typeNames raw.fieldNames (shape.plan source depth)
  | .native, _, _, _, _, _, hs | .string, _, _, _, _, _, hs => List.forall_mem_singleton.2 (namedIn_of_source rfl rfl hs)
  | .duration, _, source, _, _, _, hs => by
    have hnumber : AllNamedIn raw.typeNames raw.fieldNames [.int (.seconds source)] :=
      List.forall_mem_singleton.2 (namedIn_of_source rfl rfl hs)
    exact hnumber.framed "i" "e"
  | .bool, _, source, _, _, _, hs => by
    have hflag : AllNamedIn raw.typeNames raw.fieldNames [.bool source] :=
      List.forall_mem_singleton.2 (namedIn_of_source rfl rfl hs)
    exact hflag.framed "i" "e"
  | .int, _, source, _, _, _, hs => by
    have hnumber : AllNamedIn raw.typeNames raw.fieldNames [.int source] :=
      List.forall_mem_singleton.2 (namedIn_of_source rfl rfl hs)
    exact hnumber.framed "i" "e"
  | .optional inner, _, source, depth, _, hshape, hs => by
    rw [Shapes] at hshape
    obtain ⟨target, hget, hi⟩ := hshape
    exact plan_namedIn h hsound inner (.deref source) depth (hsound.part_struct hget (List.mem_singleton.2 rfl)) hi hs
  | .list element, _, source, depth, _, hshape, hs => by
    rw [Shapes] at hshape
    obtain ⟨c, kind, hget, hi⟩ := hshape
    have hbody := plan_namedIn h hsound element (.elem depth) (Shape.deeper depth)
      (hsound.part_struct hget (List.mem_singleton.2 rfl)) hi (fun _ hname => nomatch hname)
    have hloop : AllNamedIn raw.typeNames raw.fieldNames
        [.list source depth (element.plan (.elem depth) (Shape.deeper depth))] :=
      allNamedIn_cons.2 ⟨List.forall_mem_cons.2 ⟨namedIn_of_source rfl rfl hs, hbody⟩, List.forall_mem_nil _⟩
    exact hloop.framed "l" "e"
  | .map cast key value, _, source, depth, _, hshape, hs => by
    rw [Shapes] at hshape
    obtain ⟨k, v, hget, -, hcast, hk, hv⟩ := hshape
    have hkey := plan_namedIn h hsound key (.key depth) (Shape.deeper depth) (hsound.part_struct hget List.mem_cons_self) hk
      (fun _ hname => nomatch hname)
    have hvalue := plan_namedIn h hsound value (.value source depth) (Shape.deeper depth)
      (hsound.part_struct hget (List.mem_cons_of_mem _ (List.mem_singleton.2 rfl))) hv hs
    have hhere : (Instruction.map source depth cast (key.plan (.key depth) (Shape.deeper depth) ++
        value.plan (.value source depth) (Shape.deeper depth))).NamedIn raw.typeNames raw.fieldNames := by
      refine ⟨fun s hsource => ?_, fun type htype => ?_⟩
      · cases hsource
        exact hs
      · exact mem_typeNames_of_nameOf h (hcast.symm.trans htype)
    have hloop : AllNamedIn raw.typeNames raw.fieldNames [.map source depth cast
        (key.plan (.key depth) (Shape.deeper depth) ++ value.plan (.value source depth) (Shape.deeper depth))] :=
      allNamedIn_cons.2 ⟨List.forall_mem_cons.2 ⟨hhere, allNamedIn_append.2 ⟨hkey, hvalue⟩⟩, List.forall_mem_nil _⟩
    exact hloop.framed "d" "e"
  | .struct fields, _, source, depth, hid, hshape, hs => by
    rw [Shapes] at hshape
    obtain ⟨-, hfields⟩ := hshape
    have hfs : ∀ f ∈ writingOrder (t.fieldsOf (t.base _)),
        t.isStruct f.type = false ∧ ∀ name ∈ f.path ++ [f.name], name ∈ raw.fieldNames := fun f hf =>
      ⟨(isStruct_of_mem_fieldsOf hsound.toFormed (mem_writingOrder.1 hf)).2,
        mem_fieldNames_of_fieldsOf h hsound hid (mem_writingOrder.1 hf)⟩
    exact (planFields_namedIn h hsound fields source depth hfs hfields hs).framed "d" "e"
termination_by structural shape => shape

theorem planFields_namedIn (h : t.Lists raw.types) (hsound : t.Sound) : ∀ (fields : List (Slot × Shape)) {fs : List Field}
    (source : Selector) (depth : Nat),
    (∀ f ∈ fs, t.isStruct f.type = false ∧ ∀ name ∈ f.path ++ [f.name], name ∈ raw.fieldNames) → t.ShapesAll fields fs →
    (∀ name ∈ source.names, name ∈ raw.fieldNames) →
    AllNamedIn raw.typeNames raw.fieldNames (Shape.planFields source depth fields)
  | [], _, _, _, _, _, _ => List.forall_mem_nil _
  | (slot, shape) :: rest, _, source, depth, hfs, hshapes, hs => by
    rw [ShapesAll] at hshapes
    obtain ⟨f, more, rfl, rfl, -, hshape, hmore⟩ := hshapes
    obtain ⟨⟨hnot, hway⟩, hothers⟩ := List.forall_mem_cons.1 hfs
    have hselector : ∀ name ∈ ((t.slot f).selector source).names, name ∈ raw.fieldNames := by
      rw [Slot.selector, Selector.names_fields]
      exact List.forall_mem_append.2 ⟨hs, hway⟩
    have hvalue := plan_namedIn h hsound shape ((t.slot f).selector source) depth hnot hshape hselector
    have hwritten : AllNamedIn raw.typeNames raw.fieldNames
        (.literal (Wire.key (t.slot f).key) :: shape.plan ((t.slot f).selector source) depth) :=
      allNamedIn_cons.2 ⟨List.forall_mem_singleton.2 (namedIn_literal _), hvalue⟩
    rw [Shape.planFields]
    refine allNamedIn_append.2 ⟨?_, planFields_namedIn h hsound rest source depth hothers hmore hs⟩
    cases (t.slot f).test with
    | none => exact hwritten
    | some test =>
      exact allNamedIn_cons.2 ⟨List.forall_mem_cons.2 ⟨namedIn_of_source rfl rfl hselector, hwritten⟩, List.forall_mem_nil _⟩
termination_by structural fields => fields
end

/-- **An encoder is written with the names of its plan.** -/
theorem AllNamedIn.forall_mem_fieldNames {types fields : List String} {p : Plan} (h : AllNamedIn types fields p.body) :
    ∀ name ∈ Source.fieldNames p, name ∈ fields := by
  intro name hname
  rw [Source.fieldNames, Source.flatMap_statements] at hname
  obtain ⟨i, hi, hin⟩ := List.mem_flatMap.1 hname
  rw [Source.Statement.fieldNames_ofInstruction] at hin
  cases hsource : i.source? with
  | none =>
    rw [hsource] at hin
    cases hin
  | some s =>
    rw [hsource] at hin
    exact (h i hi).1 s hsource name hin

theorem AllNamedIn.forall_mem_typeNames {types fields : List String} {p : Plan} (h : AllNamedIn types fields p.body)
    (hname : p.name ∈ types) : ∀ name ∈ Source.typeNames p, name ∈ types := by
  refine List.forall_mem_cons.2 ⟨hname, fun type htype => ?_⟩
  rw [Source.flatMap_statements] at htype
  obtain ⟨i, hi, hin⟩ := List.mem_flatMap.1 htype
  refine (h i hi).2 type ?_
  cases i with
  | map s depth cast body => exact Option.mem_toList.1 hin
  | _ => cases hin

end

namespace Schema

open TypeTable Compile

variable {raw : RawSchema} {s : Schema}

theorem exists_plan_of_mem_plans {config : GeneratorConfig} {requested : List String} {p : Plan}
    (hp : p ∈ (s.generate config requested).value.plans) : ∃ chosen ∈ (s.select config requested).value, ∃ q,
      result (s.table.compile chosen.1 chosen.2) = .ok q ∧ q.name = chosen.1 ∧
      Source.typeNames p = Source.typeNames q ∧ Source.fieldNames p = Source.fieldNames q := by
  rw [plans_generate] at hp
  obtain ⟨chosen, hchosen, hplan⟩ := List.mem_filterMap.1 hp
  have hname := name_of_planOf hplan
  unfold planOf alone at hplan
  cases hq : result (s.table.compile chosen.1 chosen.2) with
  | error e =>
    rw [hq] at hplan
    cases hplan
  | ok q =>
    rw [hq] at hplan
    cases hplan
    have hfolded (fold : Bool) : (if fold then q.folded else q).name = q.name ∧
        Source.typeNames (if fold then q.folded else q) = Source.typeNames q ∧
        Source.fieldNames (if fold then q.folded else q) = Source.fieldNames q := by
      cases fold with
      | true => exact ⟨rfl, Source.typeNames_folded q, Source.fieldNames_folded q⟩
      | false => exact ⟨rfl, rfl, rfl⟩
    obtain ⟨hsame, htypes, hfields⟩ := hfolded config.fold
    exact ⟨chosen, hchosen, q, hq, hsame.symm.trans hname, htypes, hfields⟩

/-- **Generated code is written with names of the document.**  The types that an encoder is of or gives to keys are declared,
and its fields are members of declared structs; all their names are identifiers.  So no name is a reserved word if the document
declares none under a reserved word. -/
theorem names_declared (hs : (ofRaw raw).value = .ok s) (config : GeneratorConfig) (requested : List String) {p : Plan}
    (hp : p ∈ (s.generate config requested).value.plans) :
    (∀ name ∈ Source.typeNames p, name ∈ raw.typeNames ∧ IsIdentifier name) ∧
    (∀ name ∈ Source.fieldNames p, name ∈ raw.fieldNames ∧ IsIdentifier name) ∧
    ((∀ name ∈ raw.typeNames ++ raw.fieldNames, name ∉ Source.reservedWords) →
      ∀ name ∈ Source.typeNames p ++ Source.fieldNames p, name ∉ Source.reservedWords) := by
  have hlists := (coherent_of_ofRaw hs).2
  have hsound := sound_of_ofRaw hs
  have hvalid := valid_of_ofRaw hs
  obtain ⟨⟨name, id⟩, hchosen, q, hq, hqname, htypes, hfields⟩ := exists_plan_of_mem_plans hp
  obtain ⟨hid, hnot⟩ := place_of_mem_select hs hchosen
  obtain ⟨shape, hshape, hbody⟩ := exists_shapes_of_compile hsound hid hq
  have hnames : AllNamedIn raw.typeNames raw.fieldNames q.body := by
    rw [hbody]
    exact plan_namedIn hlists hsound shape .root 0 hnot hshape fun _ hname => nomatch hname
  have hself : q.name ∈ raw.typeNames := by
    obtain ⟨decl, hdecl, hdname⟩ := Lower.exists_decl_of_lookup hlists.names ((mem_select hs).1 hchosen).1
    rw [hqname, ← hdname]
    exact List.mem_map_of_mem (List.mem_of_getElem? hdecl)
  have htype : ∀ name ∈ Source.typeNames p, name ∈ raw.typeNames := htypes ▸ hnames.forall_mem_typeNames hself
  have hfield : ∀ name ∈ Source.fieldNames p, name ∈ raw.fieldNames := hfields ▸ hnames.forall_mem_fieldNames
  refine ⟨fun name hname => ⟨htype name hname, ?_⟩, fun name hname => ⟨hfield name hname, ?_⟩, fun hfree => ?_⟩
  · obtain ⟨decl, hdecl, rfl⟩ := List.mem_map.1 (htype name hname)
    exact (hvalid.names decl hdecl).1
  · exact hvalid.isIdentifier_fieldName (hfield name hname)
  · obtain ⟨hfreeTypes, hfreeFields⟩ := List.forall_mem_append.1 hfree
    exact List.forall_mem_append.2 ⟨fun name hname => hfreeTypes name (htype name hname),
      fun name hname => hfreeFields name (hfield name hname)⟩

def torrentDocument (member key : String) : RawSchema :=
  ⟨none, [⟨"Torrent", some [⟨member, "Map<" ++ key ++ ", i64>", none, false⟩], none, false⟩, ⟨key, none, some "str", false⟩]⟩

def torrentTable (member key : String) : TypeTable :=
  ⟨[.named ⟨"Torrent", some 4⟩, .named ⟨key, some 5⟩, .scalar (.int .i64), .mapping 1 2, .struct [⟨member, 3, none, false⟩],
      .scalar .str],
    [(.scalar (.int .i64), 2), (.mapping 1 2, 3), (.struct [⟨member, 3, none, false⟩], 4), (.scalar .str, 5)],
    [("Torrent", 0), (key, 1)]⟩

def torrent (member key : String) : Schema := ⟨none, torrentTable member key⟩

def torrentPlan (member key : String) : Plan :=
  ⟨"Torrent", [.literal (Wire.ascii "d".toList ++ Wire.key member ++ Wire.ascii "d".toList),
    .map (.field .root member) 0 (some key)
      [.string (.key 0), .ascii "i", .int (.value (.field .root member) 0), .ascii "e"], .ascii "ee"]⟩

theorem mem_plans_torrent {member key : String} (hselect : ((torrent member key).select ⟨true, false⟩ ["Torrent"]).value =
      [("Torrent", 0)]) (halone : (torrent member key).alone ⟨true, false⟩ "Torrent" 0 = .ok (torrentPlan member key)) :
    torrentPlan member key ∈ ((torrent member key).generate ⟨true, false⟩ ["Torrent"]).value.plans := by
  have hchosen : ("Torrent", 0) ∈ ((torrent member key).select ⟨true, false⟩ ["Torrent"]).value := by
    rw [hselect]
    exact List.mem_singleton_self _
  exact ((mem_plans_iff hchosen _).2 halone).1

/-- Words that are reserved are declared and written. -/
theorem reserved_names_written : (ofRaw (torrentDocument "type" "match")).value = .ok (torrent "type" "match") ∧
    torrentPlan "type" "match" ∈ ((torrent "type" "match").generate ⟨true, false⟩ ["Torrent"]).value.plans ∧
    ("match" ∈ Source.typeNames (torrentPlan "type" "match") ∧ "match" ∈ Source.reservedWords) ∧
    "type" ∈ Source.fieldNames (torrentPlan "type" "match") ∧ "type" ∈ Source.reservedWords := by
  have hs : (ofRaw (torrentDocument "type" "match")).value = .ok (torrent "type" "match") := ofRaw_eq_ok (by decide +kernel)
  exact ⟨hs, mem_plans_torrent (by cbv) (by cbv), by decide +kernel, by decide +kernel⟩

/-- With other names for the two, no reserved word is written. -/
theorem torrent_names_declared : (ofRaw (torrentDocument "sizes" "Hash")).value = .ok (torrent "sizes" "Hash") ∧
    torrentPlan "sizes" "Hash" ∈ ((torrent "sizes" "Hash").generate ⟨true, false⟩ ["Torrent"]).value.plans ∧
    Source.typeNames (torrentPlan "sizes" "Hash") = ["Torrent", "Hash"] ∧
    Source.fieldNames (torrentPlan "sizes" "Hash") = ["sizes", "sizes"] ∧
    ∀ name ∈ Source.typeNames (torrentPlan "sizes" "Hash") ++ Source.fieldNames (torrentPlan "sizes" "Hash"),
      name ∉ Source.reservedWords := by
  have hs : (ofRaw (torrentDocument "sizes" "Hash")).value = .ok (torrent "sizes" "Hash") := ofRaw_eq_ok (by decide +kernel)
  have hp : torrentPlan "sizes" "Hash" ∈ ((torrent "sizes" "Hash").generate ⟨true, false⟩ ["Torrent"]).value.plans :=
    mem_plans_torrent (by cbv) (by cbv)
  obtain ⟨-, -, hfree⟩ := names_declared hs ⟨true, false⟩ ["Torrent"] hp
  exact ⟨hs, hp, by decide +kernel, by decide +kernel, hfree (by decide +kernel)⟩

end Schema
end BencodePlan
