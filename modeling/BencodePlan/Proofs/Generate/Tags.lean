import BencodePlan.Proofs.Generate.Reports
import BencodePlan.Proofs.Schema.AliasCycles
import Mathlib
/-!
# How often a malformed tag is reported

A tag that cannot be read is reported wherever the struct that declares it is opened, and equal reports are kept once.  A
report is placed by the name that the struct goes by where it is opened, though: its own name, an alias of it, or the name of
an embedded member (`GoesBy`).  So there is one report for each of these names at most, and one in all only if there is just
one name (`malformedTags_bounded`).
-/
namespace BencodePlan

open TypeTable
open Relation (ReflTransGen)

/-! ## In the document -/

namespace RawSchema

def declaredFields (raw : RawSchema) : List (RawDecl × RawField) :=
  raw.types.flatMap fun decl => (decl.fields.getD []).map fun f => (decl, f)

theorem mem_declaredFields {raw : RawSchema} {decl : RawDecl} {f : RawField} : (decl, f) ∈ raw.declaredFields ↔
    decl ∈ raw.types ∧ ∃ fields, decl.fields = some fields ∧ f ∈ fields := by
  unfold declaredFields
  simp only [List.mem_flatMap, List.mem_map, Prod.mk.injEq]
  constructor
  · rintro ⟨decl', hdecl, f', hf, rfl, rfl⟩
    cases hfields : decl'.fields with
    | none =>
      rw [hfields] at hf
      cases hf
    | some fields =>
      rw [hfields] at hf
      exact ⟨hdecl, fields, rfl, hf⟩
  · rintro ⟨hdecl, fields, hfields, hf⟩
    exact ⟨decl, hdecl, f, by rwa [hfields], rfl, rfl⟩

/-- **The names that a declared struct goes by**: its own and those of its aliases, and those of the members that are
embedded under one of these. -/
inductive GoesBy (raw : RawSchema) (decl : RawDecl) : String → Prop
  | declared {owner : String} : ReflTransGen (Aliases raw.types) owner decl.name → GoesBy raw decl owner
  | embedded {holder : RawDecl} {f : RawField} {name : String} {span : Span} : (holder, f) ∈ raw.declaredFields →
      f.embedded = true → TypeExpr.parse f.type = .ok (.named name span) →
      ReflTransGen (Aliases raw.types) name decl.name → GoesBy raw decl f.name

end RawSchema

namespace RawField

/-- **The report of a tag that cannot be read**, under a name of the struct it stands in. -/
def tagReport? (owner : String) (f : RawField) : Option Diagnostic :=
  match f.tag with
  | none => none
  | some text =>
    match Tag.parse text with
    | .ok _ => none
    | .error e => some (Field.malformedTag (owner ++ "." ++ f.name) text e)

def isMistagged (f : RawField) : Bool :=
  match f.tag with
  | none => false
  | some text => !(Tag.parse text).isOk

theorem isMistagged_of_tagReport? {owner : String} {f : RawField} {d : Diagnostic} (h : f.tagReport? owner = some d) :
    f.isMistagged = true := by
  unfold tagReport? at h
  unfold isMistagged
  cases htag : f.tag with
  | none =>
    rw [htag] at h
    cases h
  | some text =>
    rw [htag] at h
    simp only at h ⊢
    cases hparse : Tag.parse text with
    | ok tag =>
      rw [hparse] at h
      cases h
    | error e => rfl

end RawField

/-! ## In the table -/

section

variable {raw : RawSchema} {t : TypeTable}

/-- A struct body of the document, under one of the names that it goes by. -/
def OpensAs (raw : RawSchema) (t : TypeTable) (owner : String) (body : TypeId) : Prop :=
  ∃ decl ∈ raw.types, raw.GoesBy decl owner ∧
    ∃ fields ms, decl.fields = some fields ∧ t.get? body = some (.struct ms) ∧ List.Forall₂ t.MemberMeans fields ms

/-- **A chain of bodies that ends at a struct follows the aliases to the declaration of the struct.** -/
theorem exists_decl_of_steps (h : t.Lists raw.types) (hsound : t.Sound) {id body : TypeId}
    (hsteps : ReflTransGen t.StepsTo id body) (hstruct : t.isStruct body = true) :
    ∀ {decl : RawDecl}, raw.types[id]? = some decl → ∃ last ∈ raw.types, ReflTransGen (Aliases raw.types) decl.name last.name ∧
      ∃ fields ms, last.fields = some fields ∧ t.get? body = some (.struct ms) ∧ List.Forall₂ t.MemberMeans fields ms := by
  induction hsteps using ReflTransGen.head_induction_on with
  | refl =>
    intro decl hdecl
    obtain ⟨d, hd⟩ := Option.isSome_iff_exists.1 ((Lower.declared?_isSome_iff h).2 ⟨decl, hdecl⟩)
    rw [isStruct_of_declared? hd] at hstruct
    cases hstruct
  | @head id c hstep hrest ih =>
    intro decl hdecl
    by_cases hdeclared : (t.declared? c).isSome = true
    · obtain ⟨first, other, hfirst, hother, halias⟩ := Lower.aliases_of_leads h ⟨hstep, hdeclared⟩
      rw [hdecl] at hfirst
      cases hfirst
      obtain ⟨last, hlast, hchain, hbody⟩ := ih hother
      exact ⟨last, hlast, .head halias hchain, hbody⟩
    · -- what is not declared has no body, so the chain ends here
      have hend : c = body := by
        rcases hrest.cases_head with heq | ⟨c', hc', -⟩
        · exact heq
        · exact absurd (declared?_isSome_of_bodyOf hc') hdeclared
      subst hend
      obtain ⟨b, hget, hmeans⟩ := h.defined hdecl
      have hb := Lower.bodyOf_of_entry hget
      rw [show t.bodyOf id = some c from hstep] at hb
      subst hb
      unfold BodyMeans at hmeans
      split at hmeans
      · rename_i fields hfields
        obtain ⟨_, ms, hc, hms, hall⟩ := hmeans
        cases hc
        exact ⟨decl, List.mem_of_getElem? hdecl, .refl, fields, ms, hfields, hms, hall⟩
      · obtain ⟨_, e, hc, -, hden⟩ := hmeans
        cases hc
        rw [(hden.isPart hsound.toFormed).2] at hstruct
        cases hstruct
      · cases hmeans

theorem OpensAs.exists_field {owner : String} {body : TypeId} {ms : List Member} {m : Member} (h : OpensAs raw t owner body)
    (hget : t.get? body = some (.struct ms)) (hm : m ∈ ms) :
    ∃ decl f, (decl, f) ∈ raw.declaredFields ∧ raw.GoesBy decl owner ∧ t.MemberMeans f m := by
  obtain ⟨decl, hdecl, hgoes, fields, ms', hfields, hget', hall⟩ := h
  cases hget.symm.trans hget'
  obtain ⟨f, hf, hmeans⟩ := exists_of_forall₂ hall.flip hm
  exact ⟨decl, f, RawSchema.mem_declaredFields.2 ⟨hdecl, fields, hfields, hf⟩, hgoes, hmeans⟩

theorem opensAs_of_names (h : t.Lists raw.types) (hsound : t.Sound) {owner : String} {body : TypeId}
    (hnames : t.Names owner body) (hstruct : t.isStruct body = true) : OpensAs raw t owner body := by
  obtain ⟨id, hname, rfl⟩ := hnames
  obtain ⟨d, hd, rfl⟩ := Option.map_eq_some_iff.1 hname
  obtain ⟨decl, hdecl⟩ := (Lower.declared?_isSome_iff h).1 (Option.isSome_iff_exists.2 ⟨d, hd⟩)
  obtain ⟨b, hget, -⟩ := h.defined hdecl
  have hdname : d.name = decl.name := by
    rw [declared?_of_get? hget] at hd
    unfold RawDecl.entry at hd
    split at hd <;> cases hd <;> rfl
  obtain ⟨last, hlast, hchain, hbody⟩ := exists_decl_of_steps h hsound (reflTransGen_underlying t id) hstruct hdecl
  exact ⟨last, hlast, .declared (hdname ▸ hchain), hbody⟩

/-- **An embedded member opens a struct under its own name.** -/
theorem opensAs_of_embedded (h : t.Lists raw.types) (hsound : t.Sound) {holder : RawDecl} {f : RawField} {m : Member}
    (hf : (holder, f) ∈ raw.declaredFields) (hmeans : t.MemberMeans f m) (hembedded : m.embedded = true)
    (hstruct : t.isStruct (t.underlying m.type) = true) : OpensAs raw t m.name (t.underlying m.type) := by
  obtain ⟨hname, -, hemb, e, hparse, hden⟩ := hmeans
  have hpart := (hden.isPart hsound.toFormed).2
  have hdeclared : (t.declared? m.type).isSome = true := by
    rcases (reflTransGen_underlying t m.type).cases_head with heq | ⟨c, hc, -⟩
    · rw [← heq, hpart] at hstruct
      cases hstruct
    · exact declared?_isSome_of_bodyOf hc
  obtain ⟨decl, hdecl⟩ := (Lower.declared?_isSome_iff h).1 hdeclared
  obtain ⟨b, hget, -⟩ := h.defined hdecl
  obtain ⟨span, rfl⟩ : ∃ span, e = .named decl.name span := by
    unfold RawDecl.entry at hget
    split at hget <;> exact hden.form hsound.toFormed hget
  obtain ⟨last, hlast, hchain, hbody⟩ := exists_decl_of_steps h hsound (reflTransGen_underlying t m.type) hstruct hdecl
  exact ⟨last, hlast, hname ▸ .embedded hf (hemb ▸ hembedded) hparse hchain, hbody⟩

/-- **A report of a malformed tag is that of a field in the document**, under a name that its struct goes by. -/
theorem exists_field_of_reported (h : t.Lists raw.types) (hsound : t.Sound) {owner : String} {body : TypeId} {d : Diagnostic}
    (hreported : Field.Reported t owner body d) (hkind : d.kind = .malformedTag) (hopens : OpensAs raw t owner body) :
    ∃ p ∈ raw.declaredFields, ∃ owner, raw.GoesBy p.1 owner ∧ p.2.tagReport? owner = some d := by
  induction hreported with
  | @tag owner text body ms m e hget hm htag hparse =>
    obtain ⟨decl, f, hf, hgoes, hname, hftag, -⟩ := hopens.exists_field hget hm
    refine ⟨(decl, f), hf, owner, hgoes, ?_⟩
    unfold RawField.tagReport?
    rw [← hftag, htag, hname]
    simp only [hparse]
  | embedding | embeddedTag => cases hkind
  | inside hget hm hembedded hstruct hd ih =>
    obtain ⟨holder, f, hf, -, hmeans⟩ := hopens.exists_field hget hm
    exact ih hkind (opensAs_of_embedded h hsound hf hmeans hembedded hstruct)

end

/-! ## Among the reports of a generation -/

namespace Schema

open Noted (diagnostics)

theorem kind_ne_malformedTag (e : CompileError) (name : String) : (e.diagnostic name).kind ≠ .malformedTag := by
  cases e <;> exact fun h => nomatch h

theorem exists_field_of_warned {raw : RawSchema} {t : TypeTable} (h : t.Lists raw.types) (hsound : t.Sound) {d : Diagnostic}
    (hd : Warned t d) (hkind : d.kind = .malformedTag) :
    ∃ p ∈ raw.declaredFields, ∃ owner, raw.GoesBy p.1 owner ∧ p.2.tagReport? owner = some d := by
  cases hd with
  | unknown | noStruct => cases hkind
  | @member owner body _ hnames hreported =>
    have hstruct : t.isStruct body = true := by
      cases hreported with
      | tag hget _ _ _ | embedding hget _ _ | embeddedTag hget _ _ | inside hget _ _ _ _ =>
        exact (isStruct_iff _ _).2 ⟨_, hget⟩
    exact exists_field_of_reported h hsound hreported hkind (opensAs_of_names h hsound hnames hstruct)

/-- The malformed tags among what a generation reports. -/
def malformedTags (s : Schema) (config : GeneratorConfig) (requested : List String) : List Diagnostic :=
  (s.generate config requested).diagnostics.messages.filter fun d => d.kind = .malformedTag

/-- Reports that differ and are each of a field under one of some names are at most as many as these names. -/
theorem length_le_sum_names {raw : RawSchema} {reports : List Diagnostic} (hnodup : reports.Nodup)
    {names : RawDecl → List String}
    (h : ∀ d ∈ reports, ∃ p ∈ raw.declaredFields, ∃ owner ∈ names p.1, p.2.tagReport? owner = some d) :
    reports.length ≤ ((raw.declaredFields.filter fun p => p.2.isMistagged).map fun p => (names p.1).length).sum := by
  have hsub : reports ⊆ (raw.declaredFields.filter fun p => p.2.isMistagged).flatMap
      fun p => (names p.1).filterMap p.2.tagReport? := by
    intro d hd
    obtain ⟨p, hp, owner, howner, hreport⟩ := h d hd
    have hbad := RawField.isMistagged_of_tagReport? hreport
    exact List.mem_flatMap.2 ⟨p, List.mem_filter.2 ⟨hp, hbad⟩, List.mem_filterMap.2 ⟨owner, howner, hreport⟩⟩
  refine (hnodup.subperm hsub).length_le.trans ?_
  rw [List.length_flatMap]
  exact List.sum_le_sum fun p _ => List.length_filterMap_le _ _

/-- **A malformed tag is reported once for each name of its struct at most.**  The reports of malformed tags differ, and each
is that of a field in the document under a name that its struct goes by.  So they are at most as many as the fields have such
names, and at most as many as the fields if none of these structs goes by another name than its own. -/
theorem malformedTags_bounded {raw : RawSchema} {s : Schema} (hs : (ofRaw raw).value = .ok s) (config : GeneratorConfig)
    (requested : List String) :
    (s.malformedTags config requested).Nodup ∧
    (∀ d ∈ s.malformedTags config requested,
      ∃ p ∈ raw.declaredFields, ∃ owner, raw.GoesBy p.1 owner ∧ p.2.tagReport? owner = some d) ∧
    (∀ names : RawDecl → List String,
      (∀ p ∈ raw.declaredFields, p.2.isMistagged = true → ∀ owner, raw.GoesBy p.1 owner → owner ∈ names p.1) →
      (s.malformedTags config requested).length ≤
        ((raw.declaredFields.filter fun p => p.2.isMistagged).map fun p => (names p.1).length).sum) ∧
    ((∀ p ∈ raw.declaredFields, p.2.isMistagged = true → ∀ owner, raw.GoesBy p.1 owner → owner = p.1.name) →
      (s.malformedTags config requested).length ≤ raw.declaredFields.countP fun p => p.2.isMistagged) := by
  obtain ⟨hnodup, hmem⟩ := Diagnostics.messages_ofReports (s.generate config requested).reports
  have hdistinct : (s.malformedTags config requested).Nodup := hnodup.filter _
  have hfields : ∀ d ∈ s.malformedTags config requested,
      ∃ p ∈ raw.declaredFields, ∃ owner, raw.GoesBy p.1 owner ∧ p.2.tagReport? owner = some d := by
    intro d hd
    obtain ⟨hreported, hkind⟩ := List.mem_filter.1 hd
    rw [decide_eq_true_iff] at hkind
    rcases generate_reports hs config requested d ((hmem d).1 hreported) with hwarned | ⟨e, name, rfl⟩
    · exact exists_field_of_warned (coherent_of_ofRaw hs).2 (sound_of_ofRaw hs) hwarned hkind
    · exact absurd hkind (kind_ne_malformedTag e name)
  have hnames : ∀ names : RawDecl → List String,
      (∀ p ∈ raw.declaredFields, p.2.isMistagged = true → ∀ owner, raw.GoesBy p.1 owner → owner ∈ names p.1) →
      (s.malformedTags config requested).length ≤
        ((raw.declaredFields.filter fun p => p.2.isMistagged).map fun p => (names p.1).length).sum := by
    intro names hall
    refine length_le_sum_names hdistinct fun d hd => ?_
    obtain ⟨p, hp, owner, hgoes, hreport⟩ := hfields d hd
    exact ⟨p, hp, owner, hall p hp (RawField.isMistagged_of_tagReport? hreport) owner hgoes, hreport⟩
  refine ⟨hdistinct, hfields, hnames, fun hown => ?_⟩
  have hone := hnames (fun decl => [decl.name]) fun p hp hbad owner hgoes => List.mem_singleton.2 (hown p hp hbad owner hgoes)
  rw [List.countP_eq_length_filter]
  simpa using hone

def holdingDocument (member : String) : RawSchema :=
  ⟨none, [⟨"Inner", some [⟨"x", "i64", some "a,", false⟩], none, false⟩,
    ⟨"Outer", some [⟨member, "Inner", none, true⟩], none, false⟩]⟩

def holdingTable (member : String) : TypeTable :=
  ⟨[.named ⟨"Inner", some 3⟩, .named ⟨"Outer", some 4⟩, .scalar (.int .i64), .struct [⟨"x", 2, some "a,", false⟩],
      .struct [⟨member, 0, none, true⟩]],
    [(.scalar (.int .i64), 2), (.struct [⟨"x", 2, some "a,", false⟩], 3), (.struct [⟨member, 0, none, true⟩], 4)],
    [("Inner", 0), ("Outer", 1)]⟩

def holding (member : String) : Schema := ⟨none, holdingTable member⟩

def holdingReport (owner : String) : Diagnostic := Field.malformedTag (owner ++ "." ++ "x") "a," ⟨.emptyOption, ⟨1, 2⟩⟩

section

variable (member owner : String)

theorem collectFrom_inner (opened : List TypeId) (h : 3 ∉ opened) (path : List String) :
    Field.collectFrom (holdingTable member) opened path owner 3 =
      ⟨[.reported (holdingReport owner)], [⟨"x", path, 2, none⟩]⟩ := by
  have hparse : Tag.parse "a," = .error ⟨.emptyOption, ⟨1, 2⟩⟩ := by cbv
  have hread : Field.readTag (owner ++ "." ++ "x") ⟨"x", 2, some "a,", false⟩ = ⟨[.reported (holdingReport owner)], none⟩ := by
    unfold Field.readTag
    simp only [hparse]
    rfl
  have hget : (holdingTable member).get? 3 = some (.struct [⟨"x", 2, some "a,", false⟩]) := rfl
  rw [Field.collectFrom, dif_pos ⟨get?_lt hget, h⟩]
  simp only [hget, List.mapM_cons, List.mapM_nil, hread]
  rfl

theorem collect_outer : Field.collect (holdingTable member) "Outer" 1 =
    ⟨[.flattened ("Outer" ++ "." ++ member), .reported (holdingReport member)], [⟨"x", [member], 2, none⟩]⟩ := by
  have hget : (holdingTable member).get? 4 = some (.struct [⟨member, 0, none, true⟩]) := rfl
  have hinner : (holdingTable member).underlying 0 = 3 := by cbv
  have houter : (holdingTable member).underlying 1 = 4 := by cbv
  have hstruct : (holdingTable member).isStruct 3 = true := rfl
  rw [Field.collect, houter, Field.collectFrom, dif_pos ⟨get?_lt hget, List.not_mem_nil⟩]
  simp only [hget, List.mapM_cons, List.mapM_nil, hinner, hstruct, collectFrom_inner member member [4] (by decide)]
  rfl

theorem reports_generate_holding (config : GeneratorConfig) :
    ((holding member).generate config []).reports = [holdingReport "Inner", holdingReport member] := by
  have hunderlying : (holdingTable member).underlying 0 = 3 := by cbv
  have hstructs : isStructBased (holdingTable member) 0 = true ∧ isStructBased (holdingTable member) 1 = true := by
    constructor <;> cbv
  have hinner : Field.collect (holdingTable member) "Inner" 0 = ⟨[.reported (holdingReport "Inner")], [⟨"x", [], 2, none⟩]⟩ := by
    rw [Field.collect, hunderlying, collectFrom_inner member "Inner" [] List.not_mem_nil]
  have htagged : taggedStructs (holdingTable member) = ⟨[.reported (holdingReport "Inner"),
      .flattened ("Outer" ++ "." ++ member), .reported (holdingReport member)], []⟩ := by
    have hnames : (holdingTable member).names = [("Inner", 0), ("Outer", 1)] := rfl
    unfold taggedStructs Field.hasTagged
    simp only [hnames, List.mapM_cons, List.mapM_nil, hinner, collect_outer, hstructs]
    rfl
  have hnone : (withoutRepeats (([] : List (String × TypeId)).mergeSort fun a b => a.1 ≤ b.1)) = [] := by
    rw [List.mergeSort_nil, withoutRepeats]
  have hselect : (holding member).select config [] = ⟨[.reported (holdingReport "Inner"),
      .flattened ("Outer" ++ "." ++ member), .reported (holdingReport member)], []⟩ := by
    have htable : (holding member).table = holdingTable member := rfl
    unfold select
    simp only [htable, htagged, List.isEmpty_nil, Bool.true_or, if_true]
    exact congrArg (Noted.mk _) hnone
  rw [generate, hselect]
  rfl

end

/-- Embedded under another name, the same tag is reported again. -/
theorem tag_reported_twice : (ofRaw (holdingDocument "in")).value = .ok (holding "in") ∧
    ((holdingDocument "in").declaredFields.countP fun p => p.2.isMistagged) = 1 ∧
    (holding "in").malformedTags ⟨true, false⟩ [] = [holdingReport "Inner", holdingReport "in"] := by
  refine ⟨ofRaw_eq_ok (by decide +kernel), by decide +kernel, ?_⟩
  unfold malformedTags diagnostics
  rw [reports_generate_holding]
  decide +kernel

/-- Embedded under its own name, it is reported once. -/
theorem tag_reported_once : (ofRaw (holdingDocument "Inner")).value = .ok (holding "Inner") ∧
    ((holding "Inner").malformedTags ⟨true, false⟩ []).length ≤ 1 ∧
    (holding "Inner").malformedTags ⟨true, false⟩ [] = [holdingReport "Inner"] := by
  have hs : (ofRaw (holdingDocument "Inner")).value = .ok (holding "Inner") := ofRaw_eq_ok (by decide +kernel)
  obtain ⟨-, -, -, hbound⟩ := malformedTags_bounded hs ⟨true, false⟩ []
  have hcount : ((holdingDocument "Inner").declaredFields.countP fun p => p.2.isMistagged) = 1 := by decide +kernel
  have hfields : ∀ p ∈ (holdingDocument "Inner").declaredFields, (p.2.isMistagged = true → p.1.name = "Inner") ∧
      (p.2.embedded = true → p.2.name = "Inner") := by
    decide +kernel
  have hbodies : ∀ decl ∈ (holdingDocument "Inner").types, decl.body = none := by decide
  refine ⟨hs, hcount ▸ hbound fun p hp hbad owner hgoes => ?_, ?_⟩
  · have hname := (hfields p hp).1 hbad
    cases hgoes with
    | declared hchain =>
      rcases hchain.cases_head with heq | ⟨_, ⟨decl, hdecl, -, source, _, hsource, -⟩, -⟩
      · exact heq
      · rw [hbodies decl hdecl] at hsource
        cases hsource
    | embedded hf hembedded _ _ => exact ((hfields _ hf).2 hembedded).trans hname.symm
  · unfold malformedTags diagnostics
    rw [reports_generate_holding]
    decide +kernel

end Schema
end BencodePlan
