import BencodePlan.Proofs.Shape.Circles
/-!
# Which types are rejected

A type has a plan exactly if nothing in its expansion is at fault (`compile_ok_iff`).  Three faults are in the type itself:
a leaf, a map or a field that has no encoding (`Writable`), and a circle.  The fourth is in how often declared types are
opened in a row: with only references between them there may be two, and a third one is not opened (`Overstacked`), although
its body could be written like any other (`overstacked_rejected`).
-/
namespace BencodePlan
namespace TypeTable

open Compile Relation

variable {t : TypeTable}

/-- **Nothing about a type itself stands against its encoding.** -/
structure Writable (t : TypeTable) (id : TypeId) : Prop where
  leaf : ∀ kind, t.get? id ≠ some (.scalar (.float kind))
  key : ∀ k v, t.get? id = some (.mapping k v) → t.isStringKey k = true
  test : ∀ f ∈ t.fieldsOf id, f.omitEmpty = true → (t.emptinessTest f.type).isSome = true

/-- **The declared type that is met first** when references are followed. -/
inductive Heads (t : TypeTable) : TypeId → TypeId → Prop
  | named {id : TypeId} {d : Declared} : t.get? id = some (.named d) → Heads t id id
  | target {id target a : TypeId} : t.get? id = some (.pointer target) → Heads t target a → Heads t id a

/-- **Three declared types in a row**, of which the first two differ. -/
def Overstacked (t : TypeTable) (id : TypeId) : Prop :=
  ∃ a b c, a ≠ b ∧ t.Heads id a ∧ t.Heads (t.underlying a) b ∧ t.Heads (t.underlying b) c

/-- So many declared types in a row, whether they differ or not. -/
def Stacked (t : TypeTable) : Nat → TypeId → Prop
  | 0, _ => True
  | n + 1, id => ∃ a, t.Heads id a ∧ Stacked t n (t.underlying a)

theorem Overstacked.stacked {id : TypeId} (h : t.Overstacked id) : t.Stacked (maxUnwraps + 1) id := by
  obtain ⟨a, b, c, -, ha, hb, hc⟩ := h
  exact ⟨a, ha, b, hb, c, hc, trivial⟩

theorem Stacked.of_succ : ∀ (n : Nat) (id : TypeId), t.Stacked (n + 1) id → t.Stacked n id
  | 0, _, _ => trivial
  | n + 1, _, ⟨a, ha, h⟩ => ⟨a, ha, Stacked.of_succ n _ h⟩

theorem Stacked.of_le {n m : Nat} (hle : n ≤ m) {id : TypeId} (h : t.Stacked m id) : t.Stacked n id := by
  induction hle with
  | refl => exact h
  | step _ ih => exact ih (Stacked.of_succ _ _ h)

theorem Heads.inv {id a : TypeId} (h : t.Heads id a) {d : TypeDesc} (hd : t.get? id = some d) :
    match d with
    | .named _ => a = id
    | .pointer b => t.Heads b a
    | _ => False := by
  cases h with
  | named hget => rw [hd] at hget; cases hget; rfl
  | target hget ha => rw [hd] at hget; cases hget; exact ha

theorem fieldsOf_of_not_struct {id : TypeId} (h : t.isStruct id = false) : t.fieldsOf id = [] := by
  unfold fieldsOf
  rw [Field.value_collectFrom]
  split
  · split
    · rename_i members hget
      rw [(isStruct_iff _ _).2 ⟨members, hget⟩] at h
      cases h
    · rfl
  · rfl

theorem writable_of_get? {id : TypeId} {d : TypeDesc} (hget : t.get? id = some d)
    (hd : match d with
      | .scalar (.float _) => False
      | .mapping k _ => t.isStringKey k = true
      | .struct _ => ∀ f ∈ t.fieldsOf id, f.omitEmpty = true → (t.emptinessTest f.type).isSome = true
      | _ => True) : t.Writable id where
  leaf := by
    intro kind hk
    rw [hget] at hk
    cases hk
    exact hd
  key := by
    intro k v hm
    rw [hget] at hm
    cases hm
    exact hd
  test := by
    intro f hf
    cases hs : t.isStruct id with
    | true =>
      obtain ⟨ms, hms⟩ := (isStruct_iff _ _).1 hs
      rw [hget] at hms
      cases hms
      exact hd f hf
    | false =>
      rw [fieldsOf_of_not_struct hs] at hf
      cases hf

/-! ## What has a shape has none of the faults -/

theorem forall_expands {P : TypeId → Prop} {a : TypeId} (ha : P a)
    (hstep : ∀ b, t.Follows a b → ∀ c, t.Expands b c → P c) : ∀ c, t.Expands a c → P c := by
  intro c hc
  rcases hc.cases_head with rfl | ⟨b, hab, hbc⟩
  · exact ha
  · exact hstep b hab c hbc

/-- What holds throughout the expansion of the type that a declared one is built on holds throughout its own, if it holds
of declared types. -/
theorem Sound.forall_expands_named (h : t.Sound) {P : TypeId → Prop} {a : TypeId}
    (hend : ∀ c, t.Expands (t.underlying a) c → P c)
    (hnative : ∀ c d, t.get? c = some (.native d) → P c)
    (hnamed : ∀ c d, t.get? c = some (.named d) → t.underlying c = t.underlying a → P c) :
    ∀ c, t.Expands a c → P c := by
  refine h.chain_induction (P := fun a => ∀ c, t.Expands a c → P c) a hend (fun c d hd => ?_)
    (fun c d body hd hbody hu ih => ?_)
  · exact forall_expands (hnative c d hd) fun b hf => absurd hf (not_follows_of_native hd)
  · refine forall_expands (hnamed c d hd hu) fun b hf => ?_
    rcases hf.inv hd with hb | rfl
    · rw [hbody] at hb
      cases hb
      exact ih
    · rw [hu]
      exact hend

theorem not_stacked_of_not_heads {id : TypeId} (hh : ∀ a, ¬ t.Heads id a) {n : Nat} (hn : 0 < n) :
    ¬ t.Stacked n id := by
  obtain ⟨m, rfl⟩ := Nat.exists_eq_succ_of_ne_zero (Nat.ne_of_gt hn)
  rintro ⟨a, ha, -⟩
  exact hh a ha

/-- A type that is in order by itself and in how declared types are opened from it. -/
def InOrder (t : TypeTable) (id : TypeId) : Prop := t.Writable id ∧ ¬ t.Stacked (maxUnwraps + 1) id

/-- **What is known below a walk that has a shape.**  The second part counts what the walk may still open. -/
structure Accepted (t : TypeTable) (w : Walk) : Prop where
  below : ∀ b, t.Expands w.current b → t.InOrder b
  current : ¬ t.Stacked (maxUnwraps + 1 - w.unwraps) w.current

theorem accepted_of_follows {w : Walk} (hw : t.Writable w.current)
    (hcur : ¬ t.Stacked (maxUnwraps + 1 - w.unwraps) w.current)
    (hf : ∀ b, t.Follows w.current b → ∀ c, t.Expands b c → t.InOrder c) : t.Accepted w :=
  ⟨forall_expands ⟨hw, fun hs => hcur (hs.of_le (Nat.sub_le _ _))⟩ hf, hcur⟩

theorem accepted_of_structural {w : Walk} {d : TypeDesc} (hget : t.get? w.current = some d) (hd : d.isDeclared = false)
    (hp : ∀ target, d ≠ .pointer target) (hw : t.Writable w.current) (hu : w.unwraps ≤ maxUnwraps)
    (hf : ∀ b, t.Follows w.current b → ∀ c, t.Expands b c → t.InOrder c) : t.Accepted w := by
  refine accepted_of_follows hw (not_stacked_of_not_heads (fun a ha => ?_) (Nat.sub_pos_of_lt (Nat.lt_succ_of_le hu))) hf
  have hinv := ha.inv hget
  cases d with
  | pointer target => exact hp target rfl
  | named e => cases hd
  | _ => exact hinv

/-- **What has a shape has nothing at fault in its expansion.** -/
theorem accepted_of_result (h : t.Sound) {w : Walk} (hw : w.current < t.size) (hu : w.unwraps ≤ maxUnwraps) {s : Shape}
    (hs : result (t.shapeAt w) = .ok s) : t.Accepted w := by
  refine h.walk_induction (P := fun w => w.unwraps ≤ maxUnwraps → ∀ s, result (t.shapeAt w) = .ok s → t.Accepted w) ?_
    w hw hu s hs
  intro w hw ih hu s hs
  cases yields_of_result h hw hs with
  | native hget =>
    refine accepted_of_follows (writable_of_get? hget trivial) (not_stacked_of_not_heads (fun a ha => ha.inv hget)
      (Nat.sub_pos_of_lt (Nat.lt_succ_of_le hu))) fun b hf => absurd hf (not_follows_of_native hget)
  | duration hget =>
    exact accepted_of_structural hget rfl (fun _ hne => by cases hne) (writable_of_get? hget trivial) hu
      fun b hf => (hf.inv hget).elim
  | bool hget =>
    exact accepted_of_structural hget rfl (fun _ hne => by cases hne) (writable_of_get? hget trivial) hu
      fun b hf => (hf.inv hget).elim
  | int hget =>
    exact accepted_of_structural hget rfl (fun _ hne => by cases hne) (writable_of_get? hget trivial) hu
      fun b hf => (hf.inv hget).elim
  | string hget =>
    exact accepted_of_structural hget rfl (fun _ hne => by cases hne) (writable_of_get? hget trivial) hu
      fun b hf => (hf.inv hget).elim
  | @optional target inner hget hi =>
    -- a reference passes the count on
    have ht := ih _ (.target hget) hu _ hi
    refine accepted_of_follows (writable_of_get? hget trivial) (fun hst => ht.current ?_) fun b hf => ?_
    · change t.Stacked (maxUnwraps + 1 - w.unwraps) target
      rw [show maxUnwraps + 1 - w.unwraps = maxUnwraps - w.unwraps + 1 from Nat.sub_add_comm hu] at hst ⊢
      obtain ⟨a, ha, hst⟩ := hst
      exact ⟨a, ha.inv hget, hst⟩
    · rw [show b = target from hf.inv hget]
      exact ht.below
  | @list element kind inner hget hi =>
    refine accepted_of_structural hget rfl (fun _ hne => by cases hne) (writable_of_get? hget trivial) hu fun b hf => ?_
    rw [show b = element from hf.inv hget]
    exact (ih _ (.element hget) (Nat.zero_le _) _ hi).below
  | map hget hkey hk hv =>
    refine accepted_of_structural hget rfl (fun _ hne => by cases hne) (writable_of_get? hget hkey) hu fun b hf => ?_
    rcases hf.inv hget with rfl | rfl
    · exact (ih _ (.key hget) (Nat.zero_le _) _ hk).below
    · exact (ih _ (.value hget) (Nat.zero_le _) _ hv).below
  | struct hget hfs =>
    have hfield : ∀ f ∈ t.fieldsOf w.current, (∃ shape, result (t.shapeAt (t.startWalk w.expanding f.type)) = .ok shape) ∧
        ∃ slot, t.slotOf (w.owner.getD (t.display w.current)) f = .ok slot := by
      intro f hf
      obtain ⟨p, -, hsh, hsl⟩ := exists_of_forall₂ hfs (mem_writingOrder.2 hf)
      exact ⟨⟨_, hsh⟩, _, hsl⟩
    refine accepted_of_structural hget rfl (fun _ hne => by cases hne)
      (writable_of_get? hget fun f hf => ?_) hu fun b hf => ?_
    · obtain ⟨-, slot, hsl⟩ := hfield f hf
      exact (slotOf_ok hsl).2
    · obtain ⟨f, hmem, rfl⟩ := hf.inv hget
      obtain ⟨⟨shape, hsh⟩, -⟩ := hfield f hmem
      exact (ih _ (.field hget hmem) (Nat.zero_le _) _ hsh).below
  | @unwrap d s hget hmax hnew hs =>
    have hlt : w.unwraps < maxUnwraps := Nat.lt_of_le_of_ne hu hmax
    have hb := ih _ (.unwrap hget hmax hnew) hlt _ hs
    have hcur : ¬ t.Stacked (maxUnwraps - w.unwraps) (t.underlying w.current) := by
      have := hb.current
      rwa [show maxUnwraps + 1 - (t.unwrap w).unwraps = maxUnwraps - w.unwraps from Nat.add_sub_add_right _ 1 _] at this
    refine ⟨h.forall_expands_named hb.below (fun c e hc => ⟨writable_of_get? hc trivial, ?_⟩)
      (fun c e hc hu' => ⟨writable_of_get? hc trivial, ?_⟩), ?_⟩
    · exact not_stacked_of_not_heads (fun a ha => ha.inv hc) (Nat.succ_pos _)
    · rintro ⟨a, ha, hst⟩
      rw [show a = c from ha.inv hc, hu'] at hst
      exact hcur (hst.of_le (Nat.sub_le _ _))
    · rw [Nat.sub_add_comm hu]
      rintro ⟨a, ha, hst⟩
      rw [show a = w.current from ha.inv hget] at hst
      exact hcur hst

/-! ## What has none of the faults has a shape -/

/-- **The declared types opened since the last step down**: at most two, with references between them. -/
def Trail (t : TypeTable) (w : Walk) : Prop :=
  match w.unwraps with
  | 0 => ∀ c, t.Heads w.current c → t.Heads w.top c
  | 1 => ∃ a ∈ w.expanding, t.Heads w.top a ∧ ∀ c, t.Heads w.current c → t.Heads (t.underlying a) c
  | n + 2 => n = 0 ∧ ∃ a b, a ≠ b ∧ t.Heads w.top a ∧ t.Heads (t.underlying a) b ∧
    ∀ c, t.Heads w.current c → t.Heads (t.underlying b) c

theorem Trail.start (expanding : List TypeId) (id : TypeId) : t.Trail (t.startWalk expanding id) := fun _ hc => hc

theorem Trail.deref {w : Walk} (h : t.Trail w) {target : TypeId} (hget : t.get? w.current = some (.pointer target)) :
    t.Trail (t.deref w target) := by
  obtain ⟨expanding, top, unwraps, owner, current⟩ := w
  have hon : ∀ c, t.Heads target c → t.Heads current c := fun _ hc => .target hget hc
  match unwraps with
  | 0 => exact fun c hc => h c (hon c hc)
  | 1 =>
    obtain ⟨a, ha, htop, hcur⟩ := h
    exact ⟨a, ha, htop, fun c hc => hcur c (hon c hc)⟩
  | _ + 2 =>
    obtain ⟨hn, a, b, hne, htop, hb, hcur⟩ := h
    exact ⟨hn, a, b, hne, htop, hb, fun c hc => hcur c (hon c hc)⟩

theorem Trail.unwrap {w : Walk} (h : t.Trail w) {d : Declared} (hget : t.get? w.current = some (.named d))
    (hmax : w.unwraps ≠ maxUnwraps) (hnew : w.current ∉ w.expanding) : t.Trail (t.unwrap w) := by
  obtain ⟨expanding, top, unwraps, owner, current⟩ := w
  match unwraps with
  | 0 => exact ⟨current, List.mem_cons_self, h current (.named hget), fun _ hc => hc⟩
  | 1 =>
    obtain ⟨a, ha, htop, hcur⟩ := h
    refine ⟨rfl, a, current, ?_, htop, hcur current (.named hget), fun _ hc => hc⟩
    rintro rfl
    exact hnew ha
  | n + 2 =>
    obtain ⟨rfl, -⟩ := h
    exact absurd rfl hmax

theorem Trail.calls {w w' : Walk} (h : t.Trail w) (hc : t.Calls w w') : t.Trail w' := by
  cases hc with
  | target hget => exact h.deref hget
  | element => exact Trail.start _ _
  | key => exact Trail.start _ _
  | value => exact Trail.start _ _
  | field => exact Trail.start _ _
  | unwrap hget hmax hnew => exact h.unwrap hget hmax hnew

theorem Trail.overstacked {w : Walk} (h : t.Trail w) {d : Declared} (hget : t.get? w.current = some (.named d))
    (hmax : w.unwraps = maxUnwraps) : t.Overstacked w.top := by
  obtain ⟨expanding, top, unwraps, owner, current⟩ := w
  cases hmax
  obtain ⟨-, a, b, hne, htop, hb, hcur⟩ := h
  exact ⟨a, b, current, hne, htop, hb, hcur current (.named hget)⟩

/-- **Why a type has no shape.**  Whatever is reported, something in the expansion is at fault. -/
inductive Blames (t : TypeTable) (id : TypeId) : CompileError → Prop
  | unwritable {b : TypeId} {e : CompileError} : t.Expands id b → ¬ t.Writable b → Blames t id e
  | overstacked {b : TypeId} : t.Expands id b → t.Overstacked b → Blames t id (.unsupportedType (t.display b))
  | circle {b : TypeId} {d : Declared} : t.Expands id b → t.get? b = some (.named d) → t.ContainsItself b →
    Blames t id (.recursiveType d.name)

theorem blames_of_result (h : t.Sound) {id : TypeId} (hid : id < t.size) {e : CompileError}
    (he : result (t.shape id) = .error e) : t.Blames id e := by
  obtain ⟨w, ⟨hr, htr⟩, hf⟩ := exists_fails_of_result h (I := fun w => t.Reached id w ∧ t.Trail w)
    (fun _ _ hI hc => ⟨hI.1.calls hc, hI.2.calls hc⟩) (w := t.startWalk [] id) hid
    ⟨Reached.start t id, Trail.start [] id⟩ he
  cases hf with
  | float hget => exact .unwritable hr.current fun hw => hw.leaf _ hget
  | unwraps hget hmax => exact .overstacked hr.top (htr.overstacked hget hmax)
  | circle hget hmax hin =>
    rw [display_of_named hget]
    exact .circle hr.current hget (hr.expanding _ hin)
  | key hget hkey =>
    refine .unwritable hr.current fun hw => ?_
    rw [hw.key _ _ hget] at hkey
    cases hkey
  | test hget hmem homit htest =>
    refine .unwritable hr.current fun hw => ?_
    have := hw.test _ hmem homit
    rw [htest] at this
    cases this

/-- **A type has a shape exactly if nothing in its expansion is at fault.** -/
theorem shape_ok_iff (h : t.Sound) {id : TypeId} (hid : id < t.size) : (∃ s, result (t.shape id) = .ok s) ↔
    ∀ b, t.Expands id b → t.Writable b ∧ ¬ t.ContainsItself b ∧ ¬ t.Overstacked b := by
  constructor
  · rintro ⟨s, hs⟩ b hb
    have hacc := accepted_of_result h (w := t.startWalk [] id) hid (Nat.zero_le _) hs
    exact ⟨(hacc.below b hb).1, not_containsItself_of_result h hid hs hb, fun ho => (hacc.below b hb).2 ho.stacked⟩
  · intro hall
    cases hr : result (t.shape id) with
    | ok s => exact ⟨s, rfl⟩
    | error e =>
      cases blames_of_result h hid hr with
      | unwritable hb hw => exact absurd (hall _ hb).1 hw
      | overstacked hb ho => exact absurd ho (hall _ hb).2.2
      | circle hb _ hc => exact absurd hc (hall _ hb).2.1

theorem exists_result_compile_iff (t : TypeTable) (name : String) (id : TypeId) :
    (∃ p, result (t.compile name id) = .ok p) ↔ ∃ s, result (t.shape id) = .ok s := by
  rw [result_compile]
  cases result (t.shape id) with
  | ok s => exact ⟨fun _ => ⟨s, rfl⟩, fun _ => ⟨_, rfl⟩⟩
  | error e => exact ⟨fun ⟨_, hp⟩ => (nomatch hp), fun ⟨_, hs⟩ => (nomatch hs)⟩

end TypeTable

namespace Schema

open TypeTable Compile

/-- **Compilation succeeds exactly where nothing in the expansion is at fault**, and if there are only circles or only
declared types in a row, it says so. -/
theorem compile_ok_iff {raw : RawSchema} {s : Schema} (hs : (ofRaw raw).value = .ok s) (name : String) {id : TypeId}
    (hid : id < s.table.size) :
    ((∃ p, result (s.table.compile name id) = .ok p) ↔
      ∀ b, s.table.Expands id b → s.table.Writable b ∧ ¬ s.table.ContainsItself b ∧ ¬ s.table.Overstacked b) ∧
    ((∀ b, s.table.Expands id b → s.table.Writable b ∧ ¬ s.table.Overstacked b) →
      (∃ b, s.table.Expands id b ∧ s.table.ContainsItself b) →
      ∃ type, result (s.table.compile name id) = .error (.recursiveType type)) ∧
    ((∀ b, s.table.Expands id b → s.table.Writable b ∧ ¬ s.table.ContainsItself b) →
      (∃ b, s.table.Expands id b ∧ s.table.Overstacked b) →
      ∃ type, result (s.table.compile name id) = .error (.unsupportedType type)) := by
  have h := sound_of_ofRaw hs
  refine ⟨(exists_result_compile_iff _ name id).trans (shape_ok_iff h hid), ?_, ?_⟩
  · rintro hall ⟨b, hb, hcyc⟩
    cases hr : result (s.table.shape id) with
    | ok shape => exact absurd hcyc (not_containsItself_of_result h hid hr hb)
    | error e =>
      rw [result_compile, hr]
      cases blames_of_result h hid hr with
      | unwritable hc hw => exact absurd (hall _ hc).1 hw
      | overstacked hc ho => exact absurd ho (hall _ hc).2
      | circle => exact ⟨_, rfl⟩
  · rintro hall ⟨b, hb, hover⟩
    cases hr : result (s.table.shape id) with
    | ok shape => exact absurd hover (((shape_ok_iff h hid).1 ⟨shape, hr⟩ b hb).2.2)
    | error e =>
      rw [result_compile, hr]
      cases blames_of_result h hid hr with
      | unwritable hc hw => exact absurd (hall _ hc).1 hw
      | overstacked => exact ⟨_, rfl⟩
      | circle hc _ hcyc => exact absurd hcyc (hall _ hc).2

def optionalTwiceDocument : RawSchema :=
  ⟨none, [⟨"A", none, some "Option<B>", false⟩, ⟨"B", none, some "Option<i32>", false⟩]⟩

def optionalTwiceTable : TypeTable :=
  ⟨[.named ⟨"A", some 2⟩, .named ⟨"B", some 4⟩, .pointer 1, .scalar (.int .i32), .pointer 3],
    [(.pointer 1, 2), (.scalar (.int .i32), 3), (.pointer 3, 4)], [("A", 0), ("B", 1)]⟩

theorem optionalTwice_in_order : (ofRaw optionalTwiceDocument).value = .ok ⟨none, optionalTwiceTable⟩ ∧
    ∀ b, optionalTwiceTable.Expands 0 b →
      optionalTwiceTable.Writable b ∧ ¬ optionalTwiceTable.ContainsItself b ∧ ¬ optionalTwiceTable.Overstacked b := by
  have hs : (ofRaw optionalTwiceDocument).value = .ok ⟨none, optionalTwiceTable⟩ := ofRaw_eq_ok (by decide +kernel)
  exact ⟨hs, (compile_ok_iff hs "A" (show 0 < optionalTwiceTable.size by decide)).1.1
    ⟨⟨"A", [.ascii "i", .int (.deref (.deref .root)), .ascii "e"]⟩, by cbv⟩⟩

def optionalThriceDocument : RawSchema :=
  ⟨none, [⟨"A", none, some "Option<B>", false⟩, ⟨"B", none, some "Option<C>", false⟩,
    ⟨"C", none, some "Option<i32>", false⟩]⟩

def optionalThriceTable : TypeTable :=
  ⟨[.named ⟨"A", some 3⟩, .named ⟨"B", some 4⟩, .named ⟨"C", some 6⟩, .pointer 1, .pointer 2, .scalar (.int .i32),
    .pointer 5], [(.pointer 1, 3), (.pointer 2, 4), (.scalar (.int .i32), 5), (.pointer 5, 6)],
    [("A", 0), ("B", 1), ("C", 2)]⟩

def optionalThriceHeight : TypeId → Nat
  | 0 => 6
  | 3 => 5
  | 1 => 4
  | 4 => 3
  | 2 => 2
  | 6 => 1
  | _ => 0

theorem optionalThrice_follows {a b : TypeId} (h : optionalThriceTable.Follows a b) :
    optionalThriceHeight b < optionalThriceHeight a := by
  match a with
  | 0 => rcases h.inv (d := .named ⟨"A", some 3⟩) rfl with hb | rfl <;> first | (cases hb; decide) | decide
  | 1 => rcases h.inv (d := .named ⟨"B", some 4⟩) rfl with hb | rfl <;> first | (cases hb; decide) | decide
  | 2 => rcases h.inv (d := .named ⟨"C", some 6⟩) rfl with hb | rfl <;> first | (cases hb; decide) | decide
  | 3 => rw [show b = 1 from h.inv (d := .pointer 1) rfl]; decide
  | 4 => rw [show b = 2 from h.inv (d := .pointer 2) rfl]; decide
  | 5 => exact (h.inv (d := .scalar (.int .i32)) rfl).elim
  | 6 => rw [show b = 5 from h.inv (d := .pointer 5) rfl]; decide
  | n + 7 => cases h with
    | holds hh => cases hh <;> contradiction
    | base hget => cases hget

theorem optionalThrice_not_containsItself (a : TypeId) : ¬ optionalThriceTable.ContainsItself a := by
  intro hcyc
  have hlt : ∀ b, Relation.TransGen optionalThriceTable.Follows a b →
      optionalThriceHeight b < optionalThriceHeight a := by
    intro b hab
    induction hab with
    | single h => exact optionalThrice_follows h
    | tail _ h ih => exact Nat.lt_trans (optionalThrice_follows h) ih
  exact Nat.lt_irrefl _ (hlt a hcyc)

theorem optionalThrice_writable (b : TypeId) : optionalThriceTable.Writable b := by
  match b with
  | 0 => exact writable_of_get? (d := .named ⟨"A", some 3⟩) rfl trivial
  | 1 => exact writable_of_get? (d := .named ⟨"B", some 4⟩) rfl trivial
  | 2 => exact writable_of_get? (d := .named ⟨"C", some 6⟩) rfl trivial
  | 3 => exact writable_of_get? (d := .pointer 1) rfl trivial
  | 4 => exact writable_of_get? (d := .pointer 2) rfl trivial
  | 5 => exact writable_of_get? (d := .scalar (.int .i32)) rfl trivial
  | 6 => exact writable_of_get? (d := .pointer 5) rfl trivial
  | n + 7 =>
    refine ⟨fun _ h => (nomatch h), fun _ _ h => (nomatch h), fun f hf => ?_⟩
    rw [fieldsOf_of_not_struct rfl] at hf
    cases hf

/-- **A type that could be written is rejected** for how many declared types are in a row. -/
theorem overstacked_rejected : (ofRaw optionalThriceDocument).value = .ok ⟨none, optionalThriceTable⟩ ∧
    result (optionalThriceTable.compile "A" 0) = .error (.unsupportedType "A") ∧
    ∀ b, optionalThriceTable.Writable b ∧ ¬ optionalThriceTable.ContainsItself b :=
  ⟨ofRaw_eq_ok (by decide +kernel), by cbv, fun b => ⟨optionalThrice_writable b, optionalThrice_not_containsItself b⟩⟩

end Schema
end BencodePlan
