import BencodePlan.Proofs.Encoding.OfType
import BencodePlan.Proofs.Encoding.WellTyped
import BencodePlan.Proofs.Shape.Rejection
/-!
# Where values and plans disagree

A plan that was made for a type does not always write the values that suit the type.  The test of a field that may be left
out, the keys of a map, the embedding of a struct and the opening of an alias look at the type that a native type is built
on, and there they find a native value where they look for something else.  `Clash` lists these places, and a value that
suits its type is written exactly if it has none of them (`run_of_wellTyped`).
-/
namespace BencodePlan
namespace Value

theorem exists_stringKeys : ∀ {pairs : List (Value × Value)}, (∀ p ∈ pairs, ∃ k, p.1 = .string k) →
    ∃ keys, stringKeys? pairs = some keys ∧ ∀ k, k ∈ keys ↔ ∃ p ∈ pairs, p.1 = .string k
  | [], _ => ⟨[], rfl, fun _ => ⟨fun h => (nomatch h), fun ⟨_, hm, _⟩ => (nomatch hm)⟩⟩
  | (first, x) :: rest, h => by
    obtain ⟨k, rfl⟩ : ∃ k, first = .string k := h _ List.mem_cons_self
    obtain ⟨keys, hkeys, hmem⟩ := exists_stringKeys fun p hp => h p (List.mem_cons_of_mem _ hp)
    refine ⟨k :: keys, by rw [stringKeys?, hkeys]; rfl, fun k' => ?_⟩
    rw [List.mem_cons, hmem, List.exists_mem_cons_iff (fun p : Value × Value => p.1 = .string k')]
    exact or_congr_left ⟨fun heq => heq ▸ rfl, fun heq => (Value.string.inj heq).symm⟩

theorem stringKeys_of_native : ∀ {pairs : List (Value × Value)}, (∃ p ∈ pairs, ∃ bytes, p.1 = .native bytes) →
    stringKeys? pairs = none
  | [], ⟨_, hm, _⟩ => nomatch hm
  | (first, x) :: rest, ⟨p, hm, bytes, hp⟩ => by
    rcases List.mem_cons.1 hm with rfl | hrest
    · cases hp
      rfl
    · cases first with
      | string k =>
        rw [stringKeys?, stringKeys_of_native ⟨p, hrest, bytes, hp⟩]
        rfl
      | _ => rfl

theorem valueAt_of_mem : ∀ {pairs : List (Value × Value)}, (pairs.map Prod.fst).Nodup → ∀ {k : Bytes} {x : Value},
    (.string k, x) ∈ pairs → valueAt? k pairs = some x
  | [], _, _, _, hm => nomatch hm
  | (first, y) :: rest, hnd, k, x, hm => by
    rw [List.map_cons, List.nodup_cons] at hnd
    rcases List.mem_cons.1 hm with heq | hin
    · cases heq
      rw [valueAt?, if_pos rfl]
    · have hrest := valueAt_of_mem hnd.2 hin
      have hne : first ≠ .string k := by
        rintro rfl
        exact hnd.1 (List.mem_map.2 ⟨_, hin, rfl⟩)
      cases first with
      | string k' =>
        rw [valueAt?, if_neg (fun heq => hne (by rw [heq]))]
        exact hrest
      | _ => exact hrest

end Value

namespace TypeTable

variable {t : TypeTable}

/-- **The places where a native value stands in the way of a plan.** -/
inductive Clash (t : TypeTable) : TypeId → Value → Prop
  /-- The plan looks for something else. -/
  | form {id : TypeId} {d : TypeDesc} {bytes : Bytes} : t.get? (t.base id) = some d → isRead d = true →
    Clash t id (.native bytes)
  /-- A key is no string. -/
  | key {id k x : TypeId} {pairs : List (Value × Value)} {p : Value × Value} {bytes : Bytes} :
    t.get? (t.base id) = some (.mapping k x) → p ∈ pairs → p.1 = .native bytes → Clash t id (.map pairs)
  /-- The way to a field leads through a native value, and the field has to be read. -/
  | way {id : TypeId} {members : List Member} {f : Field} {v : Value} : t.get? (t.base id) = some (.struct members) →
    f ∈ t.fieldsOf (t.base id) → foundAt f v = none → (f.omitEmpty = true ∨ t.encode f.type none = none) → Clash t id v
  /-- The test of a field is made on a native value. -/
  | test {id : TypeId} {members : List Member} {f : Field} {v : Value} {bytes : Bytes} :
    t.get? (t.base id) = some (.struct members) → f ∈ t.fieldsOf (t.base id) → foundAt f v = some (.native bytes) →
    f.omitEmpty = true → t.emptinessTest f.type ≠ some .nil → Clash t id v
  | target {id target : TypeId} {v : Value} : t.get? (t.base id) = some (.pointer target) → Clash t target v →
    Clash t id v
  | element {id element : TypeId} {kind : SequenceKind} {items : List Value} {v : Value} :
    t.get? (t.base id) = some (.sequence element kind) → v ∈ items → Clash t element v → Clash t id (.list items)
  | value {id k x : TypeId} {pairs : List (Value × Value)} {p : Value × Value} :
    t.get? (t.base id) = some (.mapping k x) → p ∈ pairs → Clash t x p.2 → Clash t id (.map pairs)
  | field {id : TypeId} {members : List Member} {f : Field} {v w : Value} :
    t.get? (t.base id) = some (.struct members) → f ∈ t.fieldsOf (t.base id) → foundAt f v = some w → w ≠ .null →
    Clash t f.type w → Clash t id v

def FieldClash (t : TypeTable) (v : Value) (f : Field) : Prop :=
  (foundAt f v = none ∧ (f.omitEmpty = true ∨ t.encode f.type none = none)) ∨
  (∃ bytes, foundAt f v = some (.native bytes) ∧ f.omitEmpty = true ∧ t.emptinessTest f.type ≠ some .nil) ∨
  ∃ w, foundAt f v = some w ∧ w ≠ .null ∧ t.Clash f.type w

theorem FieldClash.clash {id : TypeId} {members : List Member} {v : Value} {f : Field}
    (hget : t.get? (t.base id) = some (.struct members)) (hf : f ∈ t.fieldsOf (t.base id)) (h : t.FieldClash v f) :
    t.Clash id v := by
  rcases h with ⟨hfound, hread⟩ | ⟨bytes, hfound, homit, htest⟩ | ⟨w, hfound, hnull, hw⟩
  · exact .way hget hf hfound hread
  · exact .test hget hf hfound homit htest
  · exact .field hget hf hfound hnull hw

theorem fieldClash_of_none {v : Value} {f : Field} (hv : foundAt f v = none) :
    t.FieldClash v f ↔ f.omitEmpty = true ∨ t.encode f.type none = none := by
  unfold FieldClash
  rw [hv]
  simp only [true_and, reduceCtorEq, false_and, exists_false, or_false]

theorem fieldClash_of_some {v w : Value} {f : Field} (hv : foundAt f v = some w) :
    t.FieldClash v f ↔ (∃ bytes, w = .native bytes ∧ f.omitEmpty = true ∧ t.emptinessTest f.type ≠ some .nil) ∨
      w ≠ .null ∧ t.Clash f.type w := by
  unfold FieldClash
  rw [hv]
  simp only [reduceCtorEq, false_and, false_or, Option.some.injEq, exists_eq_left']

theorem Clash.inv {id : TypeId} {v : Value} (h : t.Clash id v) {d : TypeDesc} (hd : t.get? (t.base id) = some d) :
    match d with
    | .named _ | .native _ => False
    | .duration | .scalar _ => ∃ bytes, v = .native bytes
    | .pointer b => t.Clash b v
    | .sequence b _ => (∃ bytes, v = .native bytes) ∨ ∃ items, v = .list items ∧ ∃ w ∈ items, t.Clash b w
    | .mapping _ x => (∃ bytes, v = .native bytes) ∨ ∃ pairs, v = .map pairs ∧
      ((∃ p ∈ pairs, ∃ bytes, p.1 = .native bytes) ∨ ∃ p ∈ pairs, t.Clash x p.2)
    | .struct _ => ∃ f ∈ t.fieldsOf (t.base id), t.FieldClash v f := by
  cases h with
  | form hget hread =>
    rw [hd] at hget
    cases hget
    cases d with
    | named e => cases hread
    | native e => cases hread
    | pointer b => cases hread
    | struct members => cases hread
    | duration => exact ⟨_, rfl⟩
    | scalar kind => exact ⟨_, rfl⟩
    | sequence b kind => exact Or.inl ⟨_, rfl⟩
    | mapping k x => exact Or.inl ⟨_, rfl⟩
  | key hget hp hk => rw [hd] at hget; cases hget; exact Or.inr ⟨_, rfl, Or.inl ⟨_, hp, _, hk⟩⟩
  | way hget hf hfound hread => rw [hd] at hget; cases hget; exact ⟨_, hf, Or.inl ⟨hfound, hread⟩⟩
  | test hget hf hfound homit htest =>
    rw [hd] at hget; cases hget; exact ⟨_, hf, Or.inr (Or.inl ⟨_, hfound, homit, htest⟩)⟩
  | target hget hv => rw [hd] at hget; cases hget; exact hv
  | element hget hm hv => rw [hd] at hget; cases hget; exact Or.inr ⟨_, rfl, _, hm, hv⟩
  | value hget hm hv => rw [hd] at hget; cases hget; exact Or.inr ⟨_, rfl, Or.inr ⟨_, hm, hv⟩⟩
  | field hget hf hfound hnull hw =>
    rw [hd] at hget; cases hget; exact ⟨_, hf, Or.inr (Or.inr ⟨_, hfound, hnull, hw⟩)⟩

/-! ## Tests of values that suit a type -/

theorem presence_nil {v : Value} (hv : v ≠ .null) : EmptinessTest.nil.presence? v = some true := by
  cases v with
  | null => exact absurd rfl hv
  | _ => rfl

theorem presence_native {test : EmptinessTest} (ht : test ≠ .nil) (bytes : Bytes) :
    test.presence? (.native bytes) = none := by
  cases test with
  | nil => exact absurd rfl ht
  | _ => rfl

/-- **The test of a type can be made on its values**, native ones apart, and where it finds nothing to write there is no
clash. -/
theorem presence_of_wellTyped (h : t.Sound) {id : TypeId} {v : Value} (hv : t.WellTyped id v)
    (hn : ∀ bytes, v ≠ .native bytes) {test : EmptinessTest} (ht : t.emptinessTest id = some test) :
    ∃ present, test.presence? v = some present ∧ (present = false → ¬ t.Clash id v) := by
  rcases hv.settles h with ⟨n, bytes, heq, -⟩ | ⟨hb, hw⟩
  · exact absurd heq (hn bytes)
  · unfold emptinessTest underlyingDesc at ht
    cases hget : t.get? (t.underlying id) with
    | none =>
      rw [hget] at ht
      cases ht
    | some d =>
      rw [hget] at ht
      have hbase : t.get? (t.base id) = some d := by
        rw [hb]
        exact hget
      have hform := hw.inv hget
      cases d with
      | sequence element kind =>
        cases ht
        obtain ⟨items, rfl, -⟩ := hform
        refine ⟨_, rfl, fun hp hc => ?_⟩
        rcases hc.inv hbase with ⟨bytes, heq⟩ | ⟨items', heq, w, hmem, -⟩
        · cases heq
        · cases heq
          cases items with
          | nil => cases hmem
          | cons x xs => cases hp
      | mapping key value =>
        cases ht
        obtain ⟨pairs, rfl, -⟩ := hform
        refine ⟨_, rfl, fun hp hc => ?_⟩
        cases pairs with
        | nil =>
          rcases hc.inv hbase with ⟨bytes, heq⟩ | ⟨pairs', heq, ⟨p, hmem, -⟩ | ⟨p, hmem, -⟩⟩
          · cases heq
          · cases heq
            cases hmem
          · cases heq
            cases hmem
        | cons x xs => cases hp
      | scalar kind =>
        cases kind with
        | bool =>
          cases ht
          obtain ⟨b, rfl⟩ := hform
          exact ⟨_, rfl, fun _ hc => (hc.inv hbase).elim fun _ heq => nomatch heq⟩
        | int kind =>
          cases ht
          obtain ⟨n, rfl⟩ := hform
          exact ⟨_, rfl, fun _ hc => (hc.inv hbase).elim fun _ heq => nomatch heq⟩
        | str =>
          cases ht
          obtain ⟨bytes, rfl⟩ := hform
          exact ⟨_, rfl, fun _ hc => (hc.inv hbase).elim fun _ heq => nomatch heq⟩
        | float kind => exact hform.elim
      | duration =>
        cases ht
        obtain ⟨seconds, nanoseconds, rfl⟩ := hform
        exact ⟨_, rfl, fun _ hc => (hc.inv hbase).elim fun _ heq => nomatch heq⟩
      | pointer target =>
        cases ht
        refine ⟨true, presence_nil hv.ne_null, fun hp => ?_⟩
        cases hp
      | struct members => cases ht
      | named e => cases ht
      | native e => cases ht

/-! ## Fields that are not written -/

theorem keyed_eq_none_iff {key : String} {r : Option Bytes} :
    Encoder.append (some (Wire.key key)) r = none ↔ r = none := by
  rw [Encoder.append_eq_none]
  exact ⟨fun h => h.resolve_left (fun h => nomatch h), Or.inr⟩

theorem field_eq_none_iff_of_required {f : Field} {v : Value} {e : Encoder} (henc : t.encode f.type none = e none)
    (homit : f.omitEmpty = false) (hinner : ∀ w, t.WellTyped f.type w → (e (some w) = none ↔ t.Clash f.type w))
    (hfound : ∀ w, foundAt f v = some w → t.WellTyped f.type w ∨ w = .null ∧ t.MayBeAbsent f) :
    Encoder.field (t.slot f) e (some v) = none ↔ t.FieldClash v f := by
  have hfield : Encoder.field (t.slot f) e (some v) =
      Encoder.append (some (Wire.key f.key)) (e (foundAt f v)) := by
    unfold Encoder.field slot
    simp only [homit, Bool.false_eq_true, if_false]
    rfl
  rw [hfield, keyed_eq_none_iff]
  cases hv : foundAt f v with
  | none =>
    rw [fieldClash_of_none hv, henc, homit]
    simp only [Bool.false_eq_true, false_or]
  | some w =>
    have hw : t.WellTyped f.type w := (hfound w hv).resolve_right fun habsent => by
      rw [habsent.2.1] at homit
      cases homit
    rw [fieldClash_of_some hv, hinner w hw, homit]
    simp only [Bool.false_eq_true, false_and, and_false, exists_false, false_or, ne_eq, hw.ne_null,
      not_false_eq_true, true_and]

theorem field_eq_none_iff_of_omitEmpty (h : t.Sound) {f : Field} {v : Value} {e : Encoder} (homit : f.omitEmpty = true)
    {test : EmptinessTest} (ht : t.emptinessTest f.type = some test)
    (hinner : ∀ w, t.WellTyped f.type w → (e (some w) = none ↔ t.Clash f.type w))
    (hfound : ∀ w, foundAt f v = some w → t.WellTyped f.type w ∨ w = .null ∧ t.MayBeAbsent f) :
    Encoder.field (t.slot f) e (some v) = none ↔ t.FieldClash v f := by
  have hfield : Encoder.field (t.slot f) e (some v) = ((foundAt f v).bind test.presence?).bind fun present =>
      if present then Encoder.append (some (Wire.key f.key)) (e (foundAt f v)) else some [] := by
    unfold Encoder.field slot
    simp only [homit, ht, if_true]
    rfl
  rw [hfield]
  cases hv : foundAt f v with
  | none =>
    rw [fieldClash_of_none hv]
    exact ⟨fun _ => Or.inl homit, fun _ => rfl⟩
  | some w =>
    rw [fieldClash_of_some hv, ht]
    rcases hfound w hv with hw | ⟨rfl, -, target, htarget⟩
    · by_cases hnative : ∃ bytes, w = .native bytes
      · obtain ⟨bytes, rfl⟩ := hnative
        by_cases hnil : test = .nil
        · -- the test for absence can be made on everything
          subst hnil
          rw [Option.bind_some, presence_nil hw.ne_null, Option.bind_some, if_pos rfl, keyed_eq_none_iff, hinner _ hw]
          simp only [ne_eq, not_true_eq_false, and_false, exists_false, false_or, reduceCtorEq, not_false_eq_true,
            true_and]
        · rw [Option.bind_some, presence_native hnil]
          exact ⟨fun _ => Or.inl ⟨bytes, rfl, homit, fun heq => hnil (Option.some.inj heq)⟩, fun _ => rfl⟩
      · obtain ⟨present, hp, hempty⟩ := presence_of_wellTyped h hw (fun bytes heq => hnative ⟨bytes, heq⟩) ht
        have hno : ¬ ∃ bytes, w = .native bytes ∧ f.omitEmpty = true ∧ some test ≠ some .nil :=
          fun ⟨bytes, heq, _⟩ => hnative ⟨bytes, heq⟩
        rw [Option.bind_some, hp, Option.bind_some]
        cases present with
        | true =>
          rw [if_pos rfl, keyed_eq_none_iff, hinner w hw]
          exact ⟨fun hc => Or.inr ⟨hw.ne_null, hc⟩, fun hc => (hc.resolve_left hno).2⟩
        | false =>
          exact ⟨fun hne => (nomatch hne), fun hc => absurd (hc.resolve_left hno).2 (hempty rfl)⟩
    · -- a reference that is absent is left out
      have hnil : test = .nil := by
        unfold emptinessTest at ht
        rw [htarget] at ht
        exact (Option.some.inj ht).symm
      subst hnil
      refine ⟨fun hne => (nomatch hne), fun hc => ?_⟩
      rcases hc with ⟨bytes, heq, -⟩ | ⟨hne, -⟩
      · cases heq
      · exact absurd rfl hne

/-- **A field is not written where it clashes**, if that is so of its type. -/
theorem field_eq_none_iff (h : t.Sound) {f : Field} {v : Value} {e : Encoder} (henc : t.encode f.type none = e none)
    (htest : f.omitEmpty = true → (t.emptinessTest f.type).isSome = true)
    (hinner : ∀ w, t.WellTyped f.type w → (e (some w) = none ↔ t.Clash f.type w))
    (hfound : ∀ w, foundAt f v = some w → t.WellTyped f.type w ∨ w = .null ∧ t.MayBeAbsent f) :
    Encoder.field (t.slot f) e (some v) = none ↔ t.FieldClash v f := by
  cases homit : f.omitEmpty with
  | false => exact field_eq_none_iff_of_required henc homit hinner hfound
  | true =>
    obtain ⟨test, ht⟩ := Option.isSome_iff_exists.1 (htest homit)
    exact field_eq_none_iff_of_omitEmpty h homit ht hinner hfound

theorem mem_sortedKeys {keys : List Bytes} {k : Bytes} : k ∈ Wire.sortedKeys keys ↔ k ∈ keys := List.mem_mergeSort

/-! ## Shapes that are not written -/

theorem eq_none_iff_of_isRead (h : t.Sound) {id : TypeId} {v : Value} (hv : t.WellTyped id v ∨ ∃ bytes, v = .native bytes)
    {d : TypeDesc} (hget : t.get? (t.base id) = some d) (hread : isRead d = true) {e : Encoder}
    (hnative : ∀ bytes, e (some (.native bytes)) = none)
    (hform : t.WellTyped (t.base id) v → (e (some v) = none ↔ t.Clash id v)) : e (some v) = none ↔ t.Clash id v := by
  rcases settled_or_native h hv with ⟨bytes, rfl⟩ | hw
  · exact ⟨fun _ => .form hget hread, fun _ => hnative bytes⟩
  · exact hform hw

theorem list_eq_none_iff {id element : TypeId} {kind : SequenceKind} {e : Encoder} {items : List Value}
    (hget : t.get? (t.base id) = some (.sequence element kind))
    (hinner : ∀ w ∈ items, (e (some w) = none ↔ t.Clash element w)) :
    Encoder.list e (some (.list items)) = none ↔ t.Clash id (.list items) := by
  rw [Encoder.list, Encoder.framed_eq_none, Encoder.concat_map_eq_none]
  constructor
  · rintro ⟨w, hm, hw⟩
    exact .element hget hm ((hinner w hm).1 hw)
  · intro hc
    rcases hc.inv hget with ⟨bytes, heq⟩ | ⟨items', heq, w, hm, hw⟩
    · cases heq
    · cases heq
      exact ⟨w, hm, (hinner w hm).2 hw⟩

theorem map_eq_none_iff (h : t.Sound) {id k x : TypeId} {key value : Encoder} {pairs : List (Value × Value)}
    (hget : t.get? (t.base id) = some (.mapping k x)) (hstr : t.isStringKey k = true) (hnd : (pairs.map Prod.fst).Nodup)
    (hkeys : ∀ p ∈ pairs, t.WellTyped k p.1) (hkey : ∀ p ∈ pairs, (key (some p.1) = none ↔ t.Clash k p.1))
    (hvalue : ∀ p ∈ pairs, (value (some p.2) = none ↔ t.Clash x p.2)) :
    Encoder.map key value (some (.map pairs)) = none ↔ t.Clash id (.map pairs) := by
  rw [Encoder.map]
  by_cases hnative : ∃ p ∈ pairs, ∃ bytes, p.1 = .native bytes
  · obtain ⟨p, hp, bytes, heq⟩ := hnative
    rw [Value.stringKeys_of_native ⟨p, hp, bytes, heq⟩]
    exact ⟨fun _ => .key hget hp heq, fun _ => rfl⟩
  · have hstring : ∀ p ∈ pairs, t.get? (t.base k) = some (.scalar .str) ∧ ∃ bytes, p.1 = .string bytes := by
      intro p hp
      rcases key_of_wellTyped h hstr (hkeys p hp) with ⟨_, bytes, heq, -⟩ | hstring
      · exact absurd ⟨p, hp, bytes, heq⟩ hnative
      · exact hstring
    have hwritten : ∀ p ∈ pairs, key (some p.1) ≠ none := by
      intro p hp hne
      obtain ⟨hbase, bytes, heq⟩ := hstring p hp
      obtain ⟨bytes', heq'⟩ := ((hkey p hp).1 hne).inv hbase
      rw [heq] at heq'
      cases heq'
    obtain ⟨keys, hks, hmem⟩ := Value.exists_stringKeys fun p hp => (hstring p hp).2
    rw [hks]
    change Encoder.framed _ _ = none ↔ _
    rw [Encoder.framed_eq_none, Encoder.concat_map_eq_none]
    constructor
    · rintro ⟨bytes, hb, hne⟩
      obtain ⟨⟨first, w⟩, hp, heq⟩ := (hmem bytes).1 (mem_sortedKeys.1 hb)
      cases heq
      rw [Encoder.append_eq_none, Value.valueAt_of_mem hnd hp] at hne
      exact .value hget hp ((hvalue _ hp).1 (hne.resolve_left (hwritten _ hp)))
    · intro hc
      rcases hc.inv hget with ⟨bytes, heq⟩ | ⟨pairs', heq, ⟨p, hp, bytes, heq'⟩ | ⟨⟨first, w⟩, hp, hw⟩⟩
      · cases heq
      · cases heq
        exact absurd ⟨p, hp, bytes, heq'⟩ hnative
      · cases heq
        obtain ⟨bytes, heq⟩ := (hstring _ hp).2
        cases heq
        refine ⟨bytes, mem_sortedKeys.2 ((hmem bytes).2 ⟨_, hp, rfl⟩), ?_⟩
        rw [Encoder.append_eq_none, Value.valueAt_of_mem hnd hp]
        exact Or.inr ((hvalue _ hp).2 hw)

mutual
/-- **A value that suits its type is not written exactly where it clashes.**  Native values are among those considered, as
they may stand where the plan looks for something else. -/
theorem encode_eq_none_iff (h : t.Sound) : ∀ (s : Shape) {id : TypeId} {v : Value}, id < t.size → t.Shapes s id →
    (t.WellTyped id v ∨ ∃ bytes, v = .native bytes) → (s.encode (some v) = none ↔ t.Clash id v)
  | .native, id, v, _, hs, hv => by
    rw [Shapes] at hs
    obtain ⟨d, hget⟩ := (isNative_iff _ _).1 hs
    rcases settled_or_native h hv with ⟨bytes, rfl⟩ | hw
    · exact ⟨fun hne => (nomatch hne), fun hc => (hc.inv hget).elim⟩
    · obtain ⟨bytes, rfl⟩ := hw.inv hget
      exact ⟨fun hne => (nomatch hne), fun hc => (hc.inv hget).elim⟩
  | .duration, id, v, _, hs, hv => by
    rw [Shapes] at hs
    refine eq_none_iff_of_isRead h hv hs rfl (fun _ => rfl) fun hw => ?_
    obtain ⟨seconds, nanoseconds, rfl⟩ := hw.inv hs
    exact ⟨fun hne => (nomatch hne), fun hc => (hc.inv hs).elim fun _ heq => nomatch heq⟩
  | .bool, id, v, _, hs, hv => by
    rw [Shapes] at hs
    refine eq_none_iff_of_isRead h hv hs rfl (fun _ => rfl) fun hw => ?_
    obtain ⟨b, rfl⟩ := hw.inv hs
    exact ⟨fun hne => (nomatch hne), fun hc => (hc.inv hs).elim fun _ heq => nomatch heq⟩
  | .int, id, v, _, hs, hv => by
    rw [Shapes] at hs
    obtain ⟨kind, hget⟩ := hs
    refine eq_none_iff_of_isRead h hv hget rfl (fun _ => rfl) fun hw => ?_
    obtain ⟨n, rfl⟩ := hw.inv hget
    exact ⟨fun hne => (nomatch hne), fun hc => (hc.inv hget).elim fun _ heq => nomatch heq⟩
  | .string, id, v, _, hs, hv => by
    rw [Shapes] at hs
    refine eq_none_iff_of_isRead h hv hs rfl (fun _ => rfl) fun hw => ?_
    obtain ⟨bytes, rfl⟩ := hw.inv hs
    exact ⟨fun hne => (nomatch hne), fun hc => (hc.inv hs).elim fun _ heq => nomatch heq⟩
  | .optional inner, id, v, _, hs, hv => by
    rw [Shapes] at hs
    obtain ⟨target, hget, hi⟩ := hs
    have hlt : target < t.size := Follows.lt_size h (.holds (.target hget))
    have htarget : t.WellTyped target v ∨ ∃ bytes, v = .native bytes :=
      (settled_or_native h hv).elim Or.inr fun hw => Or.inl (hw.inv hget)
    have hnull : Value.target? (some v) = some v := by
      rcases htarget with hw | ⟨bytes, rfl⟩
      · have := hw.ne_null
        cases v with
        | null => exact absurd rfl this
        | _ => rfl
      · rfl
    rw [Shape.encode, Encoder.optional, hnull, encode_eq_none_iff h inner hlt hi htarget]
    exact ⟨.target hget, fun hc => hc.inv hget⟩
  | .list inner, id, v, _, hs, hv => by
    rw [Shapes] at hs
    obtain ⟨element, kind, hget, hi⟩ := hs
    have hlt : element < t.size := Follows.lt_size h (.holds (.element hget))
    refine eq_none_iff_of_isRead h hv hget rfl (fun _ => rfl) fun hw => ?_
    obtain ⟨items, rfl, hall⟩ := hw.inv hget
    exact list_eq_none_iff hget fun w hm => encode_eq_none_iff h inner hlt hi (Or.inl (hall w hm))
  | .map cast key value, id, v, _, hs, hv => by
    rw [Shapes] at hs
    obtain ⟨k, x, hget, hstr, -, hk, hx⟩ := hs
    have hltk : k < t.size := Follows.lt_size h (.holds (.key hget))
    have hltx : x < t.size := Follows.lt_size h (.holds (.value hget))
    refine eq_none_iff_of_isRead h hv hget rfl (fun _ => rfl) fun hw => ?_
    obtain ⟨pairs, rfl, hnd, hkeys, hvalues⟩ := hw.inv hget
    exact map_eq_none_iff h hget hstr hnd hkeys (fun p hp => encode_eq_none_iff h key hltk hk (Or.inl (hkeys p hp)))
      fun p hp => encode_eq_none_iff h value hltx hx (Or.inl (hvalues p hp))
  | .struct fields, id, v, _, hs, hv => by
    rw [Shapes] at hs
    obtain ⟨⟨members, hget⟩, hfs⟩ := hs
    have hlt : ∀ f ∈ writingOrder (t.fieldsOf (t.base id)), f.type < t.size :=
      fun f hf => Follows.lt_size h (.holds (.field hget (mem_writingOrder.1 hf)))
    rw [Shape.encode, Encoder.struct, Encoder.framed_eq_none,
      fields_eq_none_iff h fields hlt hfs fun f hf w hw => found_of_settled h hv (mem_writingOrder.1 hf) hw]
    constructor
    · rintro ⟨f, hf, hc⟩
      exact hc.clash hget (mem_writingOrder.1 hf)
    · intro hc
      obtain ⟨f, hf, hc⟩ := hc.inv hget
      exact ⟨f, mem_writingOrder.2 hf, hc⟩
termination_by structural s => s

theorem fields_eq_none_iff (h : t.Sound) : ∀ (fields : List (Slot × Shape)) {fs : List Field} {v : Value},
    (∀ f ∈ fs, f.type < t.size) → t.ShapesAll fields fs →
    (∀ f ∈ fs, ∀ w, foundAt f v = some w → t.WellTyped f.type w ∨ w = .null ∧ t.MayBeAbsent f) →
    (Encoder.concat ((Shape.encoders fields).map fun p => Encoder.field p.1 p.2 (some v)) = none ↔
      ∃ f ∈ fs, t.FieldClash v f)
  | [], fs, v, _, hs, _ => by
    rw [ShapesAll] at hs
    rw [hs]
    exact ⟨fun hne => (nomatch hne), fun ⟨_, hm, _⟩ => (nomatch hm)⟩
  | (slot, s) :: rest, fs, v, hlt, hs, hfound => by
    rw [ShapesAll] at hs
    obtain ⟨f, more, rfl, rfl, htest, hf, hmore⟩ := hs
    have hltf := hlt f List.mem_cons_self
    rw [Shape.encoders, List.map_cons, Encoder.concat, Encoder.append_eq_none,
      field_eq_none_iff h (congrFun (encode_of_shapes h hltf hf) none) htest
        (fun w hw => encode_eq_none_iff h s hltf hf (Or.inl hw)) (hfound f List.mem_cons_self),
      fields_eq_none_iff h rest (fun g hg => hlt g (List.mem_cons_of_mem _ hg)) hmore
        (fun g hg => hfound g (List.mem_cons_of_mem _ hg))]
    exact (List.exists_mem_cons_iff (fun f => t.FieldClash v f) f more).symm
termination_by structural fields => fields
end

/-- **Without native types that have a body there are no clashes.** -/
theorem not_clash_of_wellTyped (h : t.Sound) (hn : ¬ t.HasNativeBody) {id : TypeId} {v : Value} (hid : id < t.size)
    (hw : ∀ b, t.Expands id b → t.Writable b) (hv : t.WellTyped id v) : ¬ t.Clash id v := by
  intro hc
  -- the parts of a type that can be written can be written
  have hparts : ∀ {id b : TypeId}, id < t.size → (∀ c, t.Expands id c → t.Writable c) → t.Follows (t.base id) b →
      b < t.size ∧ ∀ c, t.Expands b c → t.Writable c := fun hid hw hf =>
    ⟨hf.lt_size h, fun c hc => hw c (((expands_base hid).follows hf).trans hc)⟩
  induction hc with
  | form hget hread =>
    have hwt := wellTyped_base h hn hv hget (isDeclared_of_isRead hread)
    rw [isRead_of_native hwt hget] at hread
    cases hread
  | @key id k x pairs p bytes hget hp heq =>
    obtain ⟨_, hpairs, -, hkeys, -⟩ := (wellTyped_base h hn hv hget rfl).inv hget
    cases hpairs
    have hstr : t.isStringKey k = true := (hw _ (expands_base hid)).key k x hget
    rcases key_of_wellTyped h hstr (hkeys p hp) with ⟨n, _, -, hnat, hu⟩ | ⟨-, _, heq'⟩
    · refine hn (hasNativeBody_of_underlying hnat ?_)
      rw [hu]
      have hget : t.get? (t.underlying k) = some (.scalar .str) := of_decide_eq_true hstr
      exact isNative_of_get? hget fun _ hne => by cases hne
    · rw [heq] at heq'
      cases heq'
  | way hget hf hfound _ =>
    rcases found_of_mem_fieldsOf h hf (wellTyped_base h hn hv hget rfl) with ⟨w, heq, -⟩ | ⟨-, hn'⟩
    · rw [hfound] at heq
      cases heq
    · exact hn hn'
  | test hget hf hfound homit htest =>
    rcases found_of_mem_fieldsOf h hf (wellTyped_base h hn hv hget rfl) with ⟨w, heq, hwt⟩ | ⟨-, hn'⟩
    · rw [hfound] at heq
      cases heq
      rcases hwt with hwt | ⟨hne, -⟩
      · exact htest (emptinessTest_of_native h hn hwt ((hw _ (expands_base hid)).test _ hf homit))
      · cases hne
    · exact hn hn'
  | target hget _ ih =>
    have hpart := hparts hid hw (.holds (.target hget))
    exact ih hpart.1 hpart.2 ((wellTyped_base h hn hv hget rfl).inv hget)
  | element hget hm _ ih =>
    obtain ⟨_, heq, hall⟩ := (wellTyped_base h hn hv hget rfl).inv hget
    cases heq
    have hpart := hparts hid hw (.holds (.element hget))
    exact ih hpart.1 hpart.2 (hall _ hm)
  | value hget hp _ ih =>
    obtain ⟨_, heq, -, -, hvalues⟩ := (wellTyped_base h hn hv hget rfl).inv hget
    cases heq
    have hpart := hparts hid hw (.holds (.value hget))
    exact ih hpart.1 hpart.2 (hvalues _ hp)
  | field hget hf hfound hnull _ ih =>
    rcases found_of_mem_fieldsOf h hf (wellTyped_base h hn hv hget rfl) with ⟨w, heq, hwt⟩ | ⟨-, hn'⟩
    · rw [hfound] at heq
      cases heq
      have hpart := hparts hid hw (.holds (.field hget hf))
      exact ih hpart.1 hpart.2 (hwt.resolve_right fun habsent => hnull habsent.1)
    · exact hn hn'

end TypeTable

namespace Schema

open TypeTable Compile

/-- **A value that suits its type is written exactly if it clashes nowhere**, as is every such value where no native type
has a body. -/
theorem run_of_wellTyped {raw : RawSchema} {s : Schema} (hs : (ofRaw raw).value = .ok s) {name : String} {id : TypeId}
    (hid : id < s.table.size) {p : Plan} (hp : result (s.table.compile name id) = .ok p) (hn : p.nesting < 65536)
    {v : Value} (hv : s.table.WellTyped id v) : ((p.run v none).error? = none ↔ ¬ s.table.Clash id v) ∧
      (¬ s.table.HasNativeBody → (p.run v none).error? = none) := by
  have h := sound_of_ofRaw hs
  obtain ⟨shape, hshape, -⟩ := exists_shapes_of_compile h hid hp
  have hiff : (p.run v none).error? = none ↔ ¬ s.table.Clash id v := by
    rw [(gives_of_compile h hid hp hn v).error?_eq_none_iff, encode_of_shapes h hid hshape, ne_eq,
      encode_eq_none_iff h shape hid hshape (Or.inl hv)]
  refine ⟨hiff, fun hbody => hiff.2 (not_clash_of_wellTyped h hbody hid (fun b hb => ?_) hv)⟩
  exact ((shape_ok_iff h hid).1 ((exists_result_compile_iff _ name id).1 ⟨p, hp⟩) b hb).1

def blobsDocument : RawSchema :=
  ⟨none, [⟨"Blobs", none, some "Vec<Blob>", false⟩, ⟨"Blob", none, some "Vec<u8>", true⟩]⟩

def blobsTable : TypeTable :=
  ⟨[.named ⟨"Blobs", some 2⟩, .native ⟨"Blob", some 4⟩, .sequence 1 .slice, .scalar (.int .u8), .sequence 3 .slice],
    [(.sequence 1 .slice, 2), (.scalar (.int .u8), 3), (.sequence 3 .slice, 4)], [("Blobs", 0), ("Blob", 1)]⟩

def blobsPlan : Plan := ⟨"Blobs", [.ascii "l", .list .root 0 [.native (.elem 0)], .ascii "e"]⟩

def blobs : Value := .list [.native [48, 58], .native []]

theorem blobs_not_clash : (ofRaw blobsDocument).value = .ok ⟨none, blobsTable⟩ ∧ blobsTable.WellTyped 0 blobs ∧
    ¬ blobsTable.Clash 0 blobs := by
  have hs : (ofRaw blobsDocument).value = .ok ⟨none, blobsTable⟩ := ofRaw_eq_ok (by decide +kernel)
  have hv : blobsTable.WellTyped 0 blobs := by
    have hlist : blobsTable.get? 2 = some (.sequence 1 .slice) := rfl
    refine .named (d := ⟨"Blobs", some 2⟩) rfl rfl (.list hlist fun v hv => ?_)
    simp only [List.mem_cons, List.not_mem_nil, or_false] at hv
    rcases hv with rfl | rfl
    · exact .native (d := ⟨"Blob", some 4⟩) rfl
    · exact .native (d := ⟨"Blob", some 4⟩) rfl
  have hp : result (blobsTable.compile "Blobs" 0) = .ok blobsPlan := by cbv
  exact ⟨hs, hv, (run_of_wellTyped hs (by decide) hp (by decide) hv).1.1 (by decide +kernel)⟩

def nativeKeysDocument : RawSchema :=
  ⟨none, [⟨"M", none, some "Map<K, bool>", false⟩, ⟨"K", none, some "str", true⟩]⟩

def nativeKeysTable : TypeTable :=
  ⟨[.named ⟨"M", some 3⟩, .native ⟨"K", some 4⟩, .scalar .bool, .mapping 1 2, .scalar .str],
    [(.scalar .bool, 2), (.mapping 1 2, 3), (.scalar .str, 4)], [("M", 0), ("K", 1)]⟩

def nativeKeys : Value := .map [(.native [48, 58], .bool true)]

/-- **A value that suits its type is not written**, though the type has a plan: its keys write themselves, and strings are
looked for. -/
theorem nativeKeys_not_written : (ofRaw nativeKeysDocument).value = .ok ⟨none, nativeKeysTable⟩ ∧
    nativeKeysTable.WellTyped 0 nativeKeys ∧ ∃ p, result (nativeKeysTable.compile "M" 0) = .ok p ∧ p.nesting < 65536 ∧
      (p.run nativeKeys none).error? = some (.typeMismatch "x" "string key" "native") := by
  have hv : nativeKeysTable.WellTyped 0 nativeKeys := by
    have hmap : nativeKeysTable.get? 3 = some (.mapping 1 2) := rfl
    refine .named (d := ⟨"M", some 3⟩) rfl rfl (.map hmap (List.nodup_singleton _) (fun p hp => ?_) fun p hp => ?_)
    · rw [List.mem_singleton.1 hp]
      exact .native (d := ⟨"K", some 4⟩) rfl
    · rw [List.mem_singleton.1 hp]
      exact .bool rfl
  exact ⟨ofRaw_eq_ok (by decide +kernel), hv,
    ⟨"M", [.ascii "d", .map .root 0 (some "K") [.native (.key 0), .ascii "i", .bool (.value .root 0), .ascii "e"],
      .ascii "e"]⟩, by cbv, by decide, by decide +kernel⟩

end Schema
end BencodePlan
