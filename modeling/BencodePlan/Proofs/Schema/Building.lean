import BencodePlan.Proofs.Schema.Acceptance
/-!
# What lowering leaves behind

Whatever a document holds, and whichever errors it is told, its table is built the same way: structural types are entered
after their parts, the members of a struct have names of their own, and the body of a declared type is a place of the
table (`Built`).  `Leaves` is this for one work on a table, together with what the work has found.

A body that is declared itself is found exactly if the declaration is another name (`RefersTo`) and that name is declared.
Everything else that becomes a body is structural, and what is at fault becomes none.
-/
namespace BencodePlan

open TypeTable

def TypeExpr.IsName (e : TypeExpr) (name : String) : Prop := ∃ span, e = .named name span

def RawDecl.RefersTo (decl : RawDecl) (name : String) : Prop :=
  decl.fields = none ∧ ∃ source span, decl.body = some source ∧ TypeExpr.parse source = .ok (.named name span)

namespace TypeTable

/-- **A table that lowering has built**, up to any point. -/
structure Built (t : TypeTable) : Prop extends Formed t where
  distinct : ∀ {id ms}, t.get? id = some (.struct ms) → (ms.map Member.name).Nodup

variable {t : TypeTable}

theorem Built.intern (h : t.Built) {d : TypeDesc} (hd : d.isDeclared = false) (hparts : ∀ c ∈ d.parts, Lower.IsPart t c)
    (hdistinct : ∀ ms, d = .struct ms → (ms.map Member.name).Nodup) :
    (t.intern d).2.Built ∧ t.Extends (t.intern d).2 ∧ (t.intern d).2.get? (t.intern d).1 = some d := by
  refine ⟨⟨h.toFormed.intern hd hparts, fun hms => ?_⟩, ⟨develops_intern t hd, kept_intern t d⟩,
    h.toFormed.get?_intern_self d⟩
  obtain hold | ⟨-, -, heq⟩ := get?_intern.1 hms
  · exact h.distinct hold
  · exact hdistinct _ heq.symm

theorem Built.define (h : t.Built) {id body : TypeId} {d : TypeDesc} (hget : t.get? id = some d)
    (hd : d.isDeclared = true) (hbody : body < t.size) :
    (t.define id body).2.Built ∧ t.Develops (t.define id body).2 := by
  refine ⟨⟨h.toFormed.define hget hd hbody, fun hms => ?_⟩, develops_define hget hd body⟩
  rw [get?_define hget hd] at hms
  split at hms
  · have hstruct := d.isDeclared_withBody body
    rw [Option.some.inj hms, hd] at hstruct
    cases hstruct
  · exact h.distinct hms

theorem Develops.isSome_declared? {t' : TypeTable} (h : t.Develops t') {id : TypeId} (hlt : id < t.size) :
    (t'.declared? id).isSome = (t.declared? id).isSome := by
  obtain ⟨d, hd⟩ := exists_get? hlt
  rw [declared?_of_get? hd]
  rcases h.old hd with hd' | ⟨body, -, hd'⟩
  · rw [declared?_of_get? hd']
  · rw [declared?_of_get? hd']
    exact d.isDeclared_withBody body

end TypeTable

namespace Lower

variable {α β : Type}

theorem reports_bind (m : Lower α) (f : α → Lower β) (t : TypeTable) :
    ((m >>= f) t).reports = (m t).reports ++ (f (m t).value.1 (m t).value.2).reports :=
  Noted.reports_bind (m t) fun p => f p.1 p.2

/-- **What a work on a built table leaves behind**: a built table with no more than new structural types, a result, and no
report of a circle. -/
structure Leaves (m : Lower α) (t : TypeTable) (result : α → TypeTable → Prop) : Prop where
  quiet : ∀ d ∈ (m t).reports, d.kind ≠ .aliasCycle
  built : (m t).value.2.Built
  kept : t.Extends (m t).value.2
  result : result (m t).value.1 (m t).value.2

namespace Leaves

variable {m : Lower α} {f : α → Lower β} {t : TypeTable} {P : α → TypeTable → Prop} {Q : β → TypeTable → Prop}

theorem pure (h : t.Built) {a : α} (hP : P a t) : Leaves (Pure.pure a) t P :=
  ⟨fun _ hd => (nomatch hd), h, Extends.refl t, hP⟩

theorem bind (hm : Leaves m t P) (hf : ∀ a t', t'.Built → t.Extends t' → P a t' → Leaves (f a) t' Q) :
    Leaves (m >>= f) t Q := by
  have hnext := hf _ _ hm.built hm.kept hm.result
  refine ⟨fun d hd => ?_, hnext.built, hm.kept.trans hnext.kept, hnext.result⟩
  rw [reports_bind] at hd
  exact (List.mem_append.1 hd).elim (hm.quiet d) (hnext.quiet d)

theorem report {d : Diagnostic} (hd : d.kind ≠ .aliasCycle) {g : Unit → Lower α} (hg : Leaves (g ()) t P) :
    Leaves (Lower.report d >>= g) t P := by
  refine ⟨fun e he => ?_, hg.built, hg.kept, hg.result⟩
  rw [reports_bind] at he
  rcases List.mem_append.1 he with he | he
  · rw [List.mem_singleton.1 he]
    exact hd
  · exact hg.quiet e he

theorem imp (hm : Leaves m t P) {P' : α → TypeTable → Prop} (h : ∀ a t', t.Extends t' → P a t' → P' a t') :
    Leaves m t P' :=
  ⟨hm.quiet, hm.built, hm.kept, h _ _ hm.kept hm.result⟩

theorem of_eq {m' : Lower α} (h : m t = m' t) (hm : Leaves m' t P) : Leaves m t P := by
  obtain ⟨hquiet, hbuilt, hkept, hresult⟩ := hm
  rw [← h] at hquiet hbuilt hkept hresult
  exact ⟨hquiet, hbuilt, hkept, hresult⟩

end Leaves

theorem leaves_intern {t : TypeTable} (h : t.Built) {d : TypeDesc} (hd : d.isDeclared = false)
    (hparts : ∀ c ∈ d.parts, IsPart t c) (hdistinct : ∀ ms, d = .struct ms → (ms.map Member.name).Nodup) :
    Leaves (some <$> intern d) t fun found t' => ∃ id, found = some id ∧ t'.get? id = some d := by
  obtain ⟨hbuilt, hext, hget⟩ := h.intern hd hparts hdistinct
  exact ⟨fun _ hd => (nomatch hd), hbuilt, hext, _, rfl, hget⟩

/-! ## Type expressions -/

/-- **What has been found for a text that may be a name**: a place of the table, and a declared one exactly if the text is
a name and the name is declared. -/
structure Refers (t : TypeTable) (named : String → Prop) (found : Option TypeId) : Prop where
  lt : ∀ id, found = some id → id < t.size
  declared_iff : ∀ id, (found = some id ∧ (t.declared? id).isSome = true) ↔ ∃ name, named name ∧ t.lookup name = some id

structure RefersPart (t : TypeTable) (named : String → Prop) (found : Option TypeId) : Prop
    extends Refers t named found where
  part : ∀ id, found = some id → t.isStruct id = false

theorem RefersPart.isPart {t : TypeTable} {named : String → Prop} {found : Option TypeId} (h : RefersPart t named found)
    {id : TypeId} (hid : found = some id) : IsPart t id := ⟨h.lt id hid, h.part id hid⟩

theorem IsPart.kept {t t' : TypeTable} (h : t.Extends t') {id : TypeId} (hid : IsPart t id) : IsPart t' id :=
  ⟨Nat.lt_of_lt_of_le hid.1 h.size, by rw [h.isStruct hid.1]; exact hid.2⟩

theorem Refers.develops {t t' : TypeTable} (h : t.Develops t') {named : String → Prop} {found : Option TypeId}
    (hr : Refers t named found) : Refers t' named found := by
  refine ⟨fun id hid => Nat.lt_of_lt_of_le (hr.lt id hid) h.size, fun id => ?_⟩
  simp only [h.lookup]
  rw [← hr.declared_iff]
  exact and_congr_right fun hid => by rw [h.isSome_declared? (hr.lt id hid)]

theorem Refers.nothing {t : TypeTable} {named : String → Prop} (h : ∀ name, named name → t.lookup name = none) :
    Refers t named none := by
  refine ⟨fun id hid => (nomatch hid), fun id => iff_of_false (fun hno => (nomatch hno.1)) ?_⟩
  rintro ⟨name, hnamed, hl⟩
  rw [h name hnamed] at hl
  cases hl

theorem RefersPart.nothing {t : TypeTable} {named : String → Prop} (h : ∀ name, named name → t.lookup name = none) :
    RefersPart t named none :=
  ⟨.nothing h, fun _ hid => nomatch hid⟩

theorem Refers.structural {t : TypeTable} {named : String → Prop} {id : TypeId} {d : TypeDesc}
    (hget : t.get? id = some d) (hd : d.isDeclared = false) (h : ∀ name, ¬ named name) : Refers t named (some id) := by
  refine ⟨fun a ha => Option.some.inj ha ▸ get?_lt hget, fun a => iff_of_false ?_ ?_⟩
  · rintro ⟨ha, hdeclared⟩
    cases ha
    rw [declared?_of_get? hget, ← TypeDesc.isDeclared, hd] at hdeclared
    cases hdeclared
  · rintro ⟨name, hnamed, -⟩
    exact h name hnamed

theorem leaves_part {t : TypeTable} (h : t.Built) {d : TypeDesc} (hd : d.isDeclared = false)
    (hparts : ∀ c ∈ d.parts, IsPart t c) (hs : ∀ ms, d ≠ .struct ms) {named : String → Prop}
    (hnamed : ∀ name, ¬ named name) :
    Leaves (some <$> intern d) t fun found t' => RefersPart t' named found := by
  refine (leaves_intern h hd hparts fun ms heq => absurd heq (hs ms)).imp ?_
  rintro _ t' - ⟨id, rfl, hget⟩
  refine ⟨.structural hget hd hnamed, fun a ha => ?_⟩
  cases ha
  rw [Bool.eq_false_iff]
  intro hstruct
  obtain ⟨ms, hms⟩ := (isStruct_iff _ _).1 hstruct
  rw [hget] at hms
  exact hs ms (Option.some.inj hms)

theorem leaves_around {m : Lower (Option TypeId)} {t : TypeTable} {inner named : String → Prop}
    (hm : Leaves m t fun found t' => RefersPart t' inner found) (around : TypeId → TypeDesc)
    (hparts : ∀ id, (around id).parts = [id]) (hd : ∀ id, (around id).isDeclared = false)
    (hs : ∀ id ms, around id ≠ .struct ms) (hnamed : ∀ name, ¬ named name) :
    Leaves (m >>= fun found => match found with
      | some id => some <$> intern (around id)
      | none => pure none) t fun found t' => RefersPart t' named found := by
  refine hm.bind fun found t' hbuilt _ hfound => ?_
  cases found with
  | none => exact .pure hbuilt (.nothing fun name hname => absurd hname (hnamed name))
  | some id =>
    refine leaves_part hbuilt (hd id) (fun c hc => ?_) (hs id) hnamed
    rw [hparts, List.mem_singleton] at hc
    rw [hc]
    exact hfound.isPart rfl

theorem leaves_resolve (location source : String) : ∀ (e : TypeExpr) {t : TypeTable}, t.Built →
    Leaves (resolve location source e) t fun found t' => RefersPart t' e.IsName found
  | .scalar kind, t, h =>
    leaves_part h rfl (fun _ hc => by cases hc) (by nofun) fun _ ⟨_, hname⟩ => nomatch hname
  | .duration, t, h =>
    leaves_part h rfl (fun _ hc => by cases hc) (by nofun) fun _ ⟨_, hname⟩ => nomatch hname
  | .option inner, t, h =>
    leaves_around (leaves_resolve location source inner h) .pointer (fun _ => rfl) (fun _ => rfl)
      (by nofun) fun _ ⟨_, hname⟩ => nomatch hname
  | .vec element, t, h =>
    leaves_around (leaves_resolve location source element h) (.sequence · .slice) (fun _ => rfl) (fun _ => rfl)
      (by nofun) fun _ ⟨_, hname⟩ => nomatch hname
  | .array element length, t, h =>
    leaves_around (leaves_resolve location source element h) (.sequence · (.array length)) (fun _ => rfl)
      (fun _ => rfl) (by nofun) fun _ ⟨_, hname⟩ => nomatch hname
  | .map key value, t, h => by
    have hnamed : ∀ name, ¬ (TypeExpr.map key value).IsName name := fun _ ⟨_, hname⟩ => nomatch hname
    refine (leaves_resolve location source key h).bind fun k? t' hbuilt _ hk => ?_
    refine (leaves_resolve location source value hbuilt).bind fun v? t'' hbuilt' hext hv => ?_
    have hnothing : Leaves (pure none) t'' fun found u => RefersPart u (TypeExpr.map key value).IsName found :=
      .pure hbuilt' (.nothing fun name hname => absurd hname (hnamed name))
    match k?, v? with
    | none, _ => exact hnothing
    | some _, none => exact hnothing
    | some a, some b =>
      refine leaves_part hbuilt' rfl (fun c hc => ?_) (by nofun) hnamed
      rcases List.mem_cons.1 hc with rfl | hc
      · exact (hk.isPart rfl).kept hext
      · rw [List.mem_singleton.1 hc]
        exact hv.isPart rfl
  | .named name span, t, h => by
    have hiff (name' : String) : (TypeExpr.named name span).IsName name' ↔ name' = name := by
      unfold TypeExpr.IsName
      simp only [TypeExpr.named.injEq, exists_and_left, exists_eq', and_true]
      exact eq_comm
    cases hl : t.lookup name with
    | none =>
      have hnothing : Leaves (pure none) t fun found u => RefersPart u (TypeExpr.named name span).IsName found :=
        .pure h (.nothing fun name' hname => by rw [(hiff name').1 hname, hl])
      exact (Leaves.report (d := .pointing .unknownType location name source span "not declared")
        (by nofun) hnothing).of_eq (by rw [resolve, get_bind, hl])
    | some id =>
      obtain ⟨d, hd, -⟩ := h.names (lookup_mem hl)
      have hfound : RefersPart t (TypeExpr.named name span).IsName (some id) := by
        refine ⟨⟨fun a ha => ?_, fun a => ?_⟩, fun a ha => ?_⟩
        · cases ha
          exact lt_of_declared? hd
        · simp only [hiff, exists_eq_left, hl]
          exact and_iff_left_of_imp fun ha => by
            cases ha
            rw [hd]
            rfl
        · cases ha
          exact isStruct_of_declared? hd
      exact (Leaves.pure h hfound).of_eq (by rw [resolve, get_bind, hl])

def IsNameText (source name : String) : Prop := ∃ span, TypeExpr.parse source = .ok (.named name span)

theorem leaves_resolveText (location source : String) {t : TypeTable} (h : t.Built) :
    Leaves (resolveText location source) t fun found t' => RefersPart t' (IsNameText source) found := by
  unfold resolveText IsNameText
  cases hparse : TypeExpr.parse source with
  | ok e =>
    have hiff : (fun name => ∃ span, (Except.ok e : Except TypeExpr.Error TypeExpr) = .ok (.named name span)) =
        e.IsName := by
      funext name
      simp only [Except.ok.injEq, TypeExpr.IsName]
    rw [hiff]
    exact leaves_resolve location source e h
  | error e =>
    refine .report (by nofun) (.pure h (.nothing ?_))
    rintro name ⟨span, hname⟩
    cases hname

/-! ## Bodies -/

theorem leaves_lowerMember (owner : String) (seen : List String) (field : RawField) {t : TypeTable} (h : t.Built) :
    Leaves (lowerMember owner seen field) t fun found t' => ∀ m, found = some m →
      IsPart t' m.type ∧ m.name = field.name ∧ Text.isIdentifier field.name = true ∧ field.name ∉ seen := by
  unfold lowerMember
  split
  · exact .report (by nofun) (.pure h fun _ hm => nomatch hm)
  · rename_i hname
    split
    · exact .report (by nofun) (.pure h fun _ hm => nomatch hm)
    · rename_i hseen
      refine (leaves_resolveText _ field.type h).bind fun found t' hbuilt _ hfound => ?_
      cases found with
      | none => exact .pure hbuilt fun _ hm => nomatch hm
      | some id =>
        refine .pure hbuilt fun m hm => ?_
        cases hm
        exact ⟨hfound.isPart rfl, rfl, by simpa using hname, hseen⟩

theorem leaves_lowerMembers (owner : String) : ∀ (fields : List RawField) (seen : List String) {t : TypeTable},
    t.Built → Leaves (lowerMembers owner seen fields) t fun found t' => ∀ ms : List Member, found = ms.map some →
      (∀ m ∈ ms, IsPart t' m.type) ∧ (ms.map Member.name).Nodup ∧ ∀ m ∈ ms, m.name ∉ seen
  | [], seen, t, h => by
    refine .pure h fun ms hms => ?_
    rw [List.map_eq_nil_iff.1 hms.symm]
    exact ⟨List.forall_mem_nil _, List.nodup_nil, List.forall_mem_nil _⟩
  | field :: rest, seen, t, h => by
    refine (leaves_lowerMember owner seen field h).bind fun m? t' hbuilt _ hm => ?_
    refine (leaves_lowerMembers owner rest _ hbuilt).bind fun found t'' hbuilt' hext hfound => ?_
    refine .pure hbuilt' fun ms hms => ?_
    obtain ⟨m, ms, rfl, rfl, rfl⟩ := List.map_eq_cons_iff.1 hms.symm
    obtain ⟨hpart, hname, hid, hnew⟩ := hm m rfl
    obtain ⟨hparts, hdistinct, hnews⟩ := hfound ms rfl
    rw [if_pos hid] at hnews
    refine ⟨List.forall_mem_cons.2 ⟨hpart.kept hext, hparts⟩, ?_, List.forall_mem_cons.2 ⟨hname ▸ hnew, fun m' hm' =>
      fun hseen => hnews m' hm' (List.mem_cons_of_mem _ hseen)⟩⟩
    rw [List.map_cons, List.nodup_cons]
    refine ⟨fun hmem => ?_, hdistinct⟩
    obtain ⟨m', hm', heq⟩ := List.mem_map.1 hmem
    exact hnews m' hm' (heq ▸ hname ▸ List.mem_cons_self)

theorem leaves_lowerStruct (owner : String) (fields : List RawField) {t : TypeTable} (h : t.Built) :
    Leaves (lowerStruct owner fields) t fun found t' => Refers t' (fun _ => False) found := by
  unfold lowerStruct
  refine (leaves_lowerMembers owner fields [] h).bind fun found t' hbuilt _ hfound => ?_
  cases hms : found.mapM id with
  | none => exact .pure hbuilt (.nothing fun _ hno => hno.elim)
  | some ms =>
    obtain ⟨hparts, hdistinct, -⟩ := hfound ms (mapM_id_eq_some_iff.1 hms)
    refine (leaves_intern (d := .struct ms) hbuilt rfl (fun c hc => ?_) fun ms' heq => ?_).imp ?_
    · obtain ⟨m, hm, rfl⟩ := List.mem_map.1 hc
      exact hparts m hm
    · cases heq
      exact hdistinct
    · rintro _ t'' - ⟨id, rfl, hget⟩
      exact .structural hget rfl fun _ hno => hno

/-- **The body of a declaration is declared exactly if the declaration is another name** for a declared type. -/
theorem leaves_lowerBody (decl : RawDecl) {t : TypeTable} (h : t.Built) :
    Leaves (lowerBody decl) t fun body t' => Refers t' decl.RefersTo body := by
  have hstruct {fields : List RawField} (hfields : decl.fields = some fields) (name : String) :
      ¬ decl.RefersTo name := by
    rintro ⟨hno, -⟩
    rw [hfields] at hno
    cases hno
  have hbodyless (hbody : decl.body = none) (name : String) : ¬ decl.RefersTo name := by
    rintro ⟨-, source, _, hsource, -⟩
    rw [hbody] at hsource
    cases hsource
  unfold lowerBody
  cases hfields : decl.fields with
  | some fields =>
    cases decl.body with
    | some source =>
      exact .report (by nofun) (.pure h (.nothing fun name hname => absurd hname (hstruct hfields name)))
    | none =>
      refine (leaves_lowerStruct decl.name fields h).imp fun body t' _ hbody => ?_
      have hno : decl.RefersTo = fun _ => False := funext fun name => eq_false (hstruct hfields name)
      rw [hno]
      exact hbody
  | none =>
    cases hbody : decl.body with
    | some source =>
      refine (leaves_resolveText decl.name source h).imp fun found t' _ hfound => ?_
      have hname : decl.RefersTo = IsNameText source := by
        funext name
        simp only [RawDecl.RefersTo, IsNameText, hfields, hbody, Option.some.injEq, exists_and_left, exists_eq_left',
          true_and]
      rw [hname]
      exact hfound.toRefers
    | none =>
      have hnothing : Leaves (pure none) t fun body t' => Refers t' decl.RefersTo body :=
        .pure h (.nothing fun name hname => absurd hname (hbodyless hbody name))
      dsimp only
      split
      · exact hnothing
      · exact .report (by nofun) hnothing

/-! ## Declarations -/

/-- **A declaration at its place**, with or without a body. -/
def Stands (t : TypeTable) (decl : RawDecl) (id : TypeId) : Prop :=
  ∃ body, t.get? id = some (decl.entry body) ∧ Refers t decl.RefersTo body

/-- **What is left by giving declarations their bodies**: each stands at its place, and nothing else has changed. -/
structure Settles (m : Lower Unit) (t : TypeTable) (pairs : List (RawDecl × TypeId)) : Prop where
  quiet : ∀ d ∈ (m t).reports, d.kind ≠ .aliasCycle
  built : (m t).value.2.Built
  develops : t.Develops (m t).value.2
  stands : ∀ p ∈ pairs, Stands (m t).value.2 p.1 p.2
  others : ∀ i ∉ pairs.map Prod.snd, ∀ d, t.get? i = some d → (m t).value.2.get? i = some d

theorem reports_define (decl : RawDecl) (id : TypeId) (t : TypeTable) :
    (define decl id t).reports = (lowerBody decl t).reports := by
  unfold define
  rw [reports_bind]
  cases (lowerBody decl t).value.1 <;> exact List.append_nil _

theorem value_define (decl : RawDecl) (id : TypeId) (t : TypeTable) : (define decl id t).value.2 =
    match (lowerBody decl t).value.1 with
    | some body => ((lowerBody decl t).value.2.define id body).2
    | none => (lowerBody decl t).value.2 := by
  unfold define
  rw [value_bind]
  cases (lowerBody decl t).value.1 <;> rfl

theorem settles_define (decl : RawDecl) {id : TypeId} {t : TypeTable} (h : t.Built)
    (hid : t.get? id = some (decl.entry none)) : Settles (define decl id) t [(decl, id)] := by
  obtain ⟨hquiet, hbuilt, hext, hrefers⟩ := leaves_lowerBody decl h
  rw [← reports_define decl id] at hquiet
  have hvalue := value_define decl id t
  have hget := hext.kept hid
  cases hbody : (lowerBody decl t).value.1 with
  | none =>
    rw [hbody] at hvalue hrefers
    dsimp only at hvalue
    rw [← hvalue] at hbuilt hext hrefers hget
    exact ⟨hquiet, hbuilt, hext.toDevelops, List.forall_mem_singleton.2 ⟨none, hget, hrefers⟩,
      fun _ _ _ hd => hext.kept hd⟩
  | some body =>
    rw [hbody] at hvalue hrefers
    dsimp only at hvalue
    obtain ⟨hbuilt', hdev⟩ := hbuilt.define hget (decl.isDeclared_entry none) (hrefers.lt body rfl)
    have hgetAt := get?_define hget (decl.isDeclared_entry none) body
    have hrefers' := hrefers.develops hdev
    rw [← hvalue] at hbuilt' hdev hgetAt hrefers'
    refine ⟨hquiet, hbuilt', hext.toDevelops.trans hdev, List.forall_mem_singleton.2 ⟨some body, ?_, hrefers'⟩, ?_⟩
    · rw [hgetAt, if_pos rfl, decl.withBody_entry]
    · intro i hi d hd
      rw [hgetAt, if_neg (fun heq => hi (List.mem_singleton.2 heq.symm)), hext.kept hd]

/-- **Declarations at places of their own stand there**, whatever their bodies are. -/
theorem settles_defineAll : ∀ (pairs : List (RawDecl × TypeId)) {t : TypeTable}, t.Built →
    (∀ p ∈ pairs, t.get? p.2 = some (p.1.entry none)) → (pairs.map Prod.snd).Nodup →
    Settles (pairs.forM fun p => define p.1 p.2) t pairs
  | [], t, h, _, _ =>
    ⟨fun _ hd => (nomatch hd), h, Develops.refl t, List.forall_mem_nil _, fun _ _ _ hd => hd⟩
  | p :: rest, t, h, hentries, hdistinct => by
    rw [List.map_cons, List.nodup_cons] at hdistinct
    have hfirst := settles_define p.1 h (hentries p List.mem_cons_self)
    have hother : ∀ q ∈ rest, q.2 ∉ [(p.1, p.2)].map Prod.snd := fun q hq heq =>
      hdistinct.1 (List.mem_singleton.1 heq ▸ List.mem_map_of_mem hq)
    have hrest := settles_defineAll rest hfirst.built (fun q hq => hfirst.others _ (hother q hq) _
      (hentries q (List.mem_cons_of_mem _ hq))) hdistinct.2
    rw [forM_cons]
    refine ⟨fun d hd => ?_, hrest.built, hfirst.develops.trans hrest.develops, List.forall_mem_cons.2 ⟨?_, hrest.stands⟩,
      fun i hi d hd => ?_⟩
    · rw [reports_bind] at hd
      exact (List.mem_append.1 hd).elim (hfirst.quiet d) (hrest.quiet d)
    · obtain ⟨body, hget, hrefers⟩ := hfirst.stands _ List.mem_cons_self
      exact ⟨body, hrest.others _ hdistinct.1 _ hget, hrefers.develops hrest.develops⟩
    · rw [List.map_cons, List.mem_cons, not_or] at hi
      exact hrest.others i hi.2 d (hfirst.others i (fun heq => hi.1 (List.mem_singleton.1 heq)) d hd)

end Lower
end BencodePlan
