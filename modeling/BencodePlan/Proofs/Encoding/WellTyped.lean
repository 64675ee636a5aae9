import BencodePlan.Proofs.Shape.Shapes
/-!
# Values that suit their types

A value suits a type if it has the form that the type declares: a native value for a native type, whatever its body is
(`WellTyped`).  The form is decided by the first native type of the chain of bodies, and otherwise at its end
(`WellTyped.settles`).  Plans are made for the end alone, and the two are the same where no native type has a body
(`wellTyped_base`).
-/
namespace BencodePlan
namespace TypeTable

variable {t : TypeTable}

/-- A field that may be absent: it may be left out, and is a reference. -/
def MayBeAbsent (t : TypeTable) (f : Field) : Prop :=
  f.omitEmpty = true ∧ ∃ target, t.underlyingDesc f.type = some (.pointer target)

def fieldOf (m : Member) : Field := ⟨m.name, [], m.type, (Field.readTag "" m).value⟩

/-- **The value suits the type.**  An absent value suits none, but may stand in a struct for a field that may be absent. -/
inductive WellTyped (t : TypeTable) : TypeId → Value → Prop
  | native {id : TypeId} {d : Declared} {bytes : Bytes} : t.get? id = some (.native d) → WellTyped t id (.native bytes)
  | named {id body : TypeId} {d : Declared} {v : Value} : t.get? id = some (.named d) → d.body = some body →
    WellTyped t body v → WellTyped t id v
  | duration {id : TypeId} {seconds nanoseconds : Nat} : t.get? id = some .duration →
    WellTyped t id (.duration seconds nanoseconds)
  | bool {id : TypeId} {b : Bool} : t.get? id = some (.scalar .bool) → WellTyped t id (.bool b)
  | int {id : TypeId} {kind : IntKind} {n : Int} : t.get? id = some (.scalar (.int kind)) → WellTyped t id (.int n)
  | string {id : TypeId} {bytes : Bytes} : t.get? id = some (.scalar .str) → WellTyped t id (.string bytes)
  | optional {id target : TypeId} {v : Value} : t.get? id = some (.pointer target) → WellTyped t target v →
    WellTyped t id v
  | list {id element : TypeId} {kind : SequenceKind} {items : List Value} :
    t.get? id = some (.sequence element kind) → (∀ v ∈ items, WellTyped t element v) → WellTyped t id (.list items)
  | map {id key value : TypeId} {pairs : List (Value × Value)} : t.get? id = some (.mapping key value) →
    (pairs.map Prod.fst).Nodup → (∀ p ∈ pairs, WellTyped t key p.1) → (∀ p ∈ pairs, WellTyped t value p.2) →
    WellTyped t id (.map pairs)
  | struct {id : TypeId} {members : List Member} {fields : List (String × Value)} {value : Member → Value} :
    t.get? id = some (.struct members) → (∀ m ∈ members, fields.lookup m.name = some (value m)) →
    (∀ m ∈ members, ¬ (value m = .null ∧ m.embedded = false ∧ t.MayBeAbsent (fieldOf m)) →
      WellTyped t m.type (value m)) → WellTyped t id (.struct fields)

/-- **What a value that suits a type looks like**, by its descriptor. -/
theorem WellTyped.inv {id : TypeId} {v : Value} (h : t.WellTyped id v) {d : TypeDesc} (hd : t.get? id = some d) :
    match d with
    | .native _ => ∃ bytes, v = .native bytes
    | .named e => ∃ body, e.body = some body ∧ t.WellTyped body v
    | .duration => ∃ seconds nanoseconds, v = .duration seconds nanoseconds
    | .scalar .bool => ∃ b, v = .bool b
    | .scalar (.int _) => ∃ n, v = .int n
    | .scalar .str => ∃ bytes, v = .string bytes
    | .scalar (.float _) => False
    | .pointer target => t.WellTyped target v
    | .sequence element _ => ∃ items, v = .list items ∧ ∀ w ∈ items, t.WellTyped element w
    | .mapping key value => ∃ pairs, v = .map pairs ∧ (pairs.map Prod.fst).Nodup ∧
      (∀ p ∈ pairs, t.WellTyped key p.1) ∧ ∀ p ∈ pairs, t.WellTyped value p.2
    | .struct members => ∃ (fields : List (String × Value)) (value : Member → Value), v = .struct fields ∧
      (∀ m ∈ members, fields.lookup m.name = some (value m)) ∧
      ∀ m ∈ members, ¬ (value m = .null ∧ m.embedded = false ∧ t.MayBeAbsent (fieldOf m)) →
        t.WellTyped m.type (value m) := by
  cases h with
  | native hget => rw [hd] at hget; cases hget; exact ⟨_, rfl⟩
  | named hget hb hv => rw [hd] at hget; cases hget; exact ⟨_, hb, hv⟩
  | duration hget => rw [hd] at hget; cases hget; exact ⟨_, _, rfl⟩
  | bool hget => rw [hd] at hget; cases hget; exact ⟨_, rfl⟩
  | int hget => rw [hd] at hget; cases hget; exact ⟨_, rfl⟩
  | string hget => rw [hd] at hget; cases hget; exact ⟨_, rfl⟩
  | optional hget hv => rw [hd] at hget; cases hget; exact hv
  | list hget hall => rw [hd] at hget; cases hget; exact ⟨_, rfl, hall⟩
  | map hget hnodup hk hv => rw [hd] at hget; cases hget; exact ⟨_, rfl, hnodup, hk, hv⟩
  | struct hget hl hv => rw [hd] at hget; cases hget; exact ⟨_, _, rfl, hl, hv⟩

theorem WellTyped.ne_null {id : TypeId} {v : Value} (h : t.WellTyped id v) : v ≠ .null := by
  induction h with
  | named _ _ _ ih => exact ih
  | optional _ _ ih => exact ih
  | _ => exact fun hne => by cases hne

theorem settled_of_structural {id : TypeId} {v : Value} {d : TypeDesc} (hget : t.get? id = some d)
    (hd : d.isDeclared = false) (hv : t.WellTyped id v) :
    t.base id = t.underlying id ∧ t.WellTyped (t.underlying id) v := by
  rw [base_of_structural hget hd, underlying_of_not_declared hget hd]
  exact ⟨rfl, hv⟩

/-- **Where the form of a value is decided**: by the first native type of the chain, or else by its end. -/
theorem WellTyped.settles (h : t.Sound) {id : TypeId} {v : Value} (hv : t.WellTyped id v) :
    (∃ n bytes, v = .native bytes ∧ t.isNative n = true ∧ t.underlying n = t.underlying id) ∨
      t.base id = t.underlying id ∧ t.WellTyped (t.underlying id) v := by
  induction hv with
  | @native id d bytes hget => exact Or.inl ⟨id, bytes, rfl, (isNative_iff _ _).2 ⟨d, hget⟩, rfl⟩
  | @named id body d v hget hb hv ih =>
    have hu : t.underlying body = t.underlying id := by
      rw [← h.underlying_next id, next_of_some (by rw [bodyOf_named hget, hb])]
    rcases ih with ⟨n, bytes, heq, hn, hun⟩ | ⟨-, hw⟩
    · exact Or.inl ⟨n, bytes, heq, hn, hun.trans hu⟩
    · rw [hu] at hw
      exact Or.inr ⟨base_of_not_native hget (fun _ hne => by cases hne), hw⟩
  | duration hget => exact Or.inr (settled_of_structural hget rfl (.duration hget))
  | bool hget => exact Or.inr (settled_of_structural hget rfl (.bool hget))
  | int hget => exact Or.inr (settled_of_structural hget rfl (.int hget))
  | string hget => exact Or.inr (settled_of_structural hget rfl (.string hget))
  | optional hget hv => exact Or.inr (settled_of_structural hget rfl (.optional hget hv))
  | list hget hall => exact Or.inr (settled_of_structural hget rfl (.list hget hall))
  | map hget hnodup hk hv => exact Or.inr (settled_of_structural hget rfl (.map hget hnodup hk hv))
  | struct hget hl hv => exact Or.inr (settled_of_structural hget rfl (.struct hget hl hv))

theorem settled_or_native (h : t.Sound) {id : TypeId} {v : Value}
    (hv : t.WellTyped id v ∨ ∃ bytes, v = .native bytes) :
    (∃ bytes, v = .native bytes) ∨ t.WellTyped (t.base id) v := by
  rcases hv with hw | hn
  · rcases hw.settles h with ⟨-, bytes, heq, -⟩ | ⟨hb, hw⟩
    · exact Or.inl ⟨bytes, heq⟩
    · rw [hb]
      exact Or.inr hw
  · exact Or.inl hn

/-! ## Fields of values that suit a struct -/

/-- What is found for a field of a struct. -/
def foundAt (f : Field) (v : Value) : Option Value := Value.along (some v) (f.path ++ [f.name])

theorem along_none : ∀ path : List String, Value.along none path = none
  | [] => rfl
  | _ :: path => along_none path

theorem along_native (bytes : Bytes) (path : List String) (name : String) :
    Value.along (some (.native bytes)) (path ++ [name]) = none := by
  cases path with
  | nil => rfl
  | cons first path => exact along_none (path ++ [name])

/-- A native type with a body, behind which plans look. -/
def HasNativeBody (t : TypeTable) : Prop := ∃ n, t.isNative n = true ∧ (t.bodyOf n).isSome = true

theorem hasNativeBody_of_underlying {n : TypeId} (hn : t.isNative n = true)
    (hu : t.isNative (t.underlying n) = false) : t.HasNativeBody := by
  refine ⟨n, hn, Option.isSome_iff_ne_none.2 fun hb => ?_⟩
  rw [underlying_of_none hb, hn] at hu
  cases hu

/-- What is found for a field in a value of a struct: a value that suits it, an absent one if it may be absent, or nothing if
a native value stands in the way. -/
def Found (t : TypeTable) (f : Field) (found : Option Value) : Prop :=
  (∃ w, found = some w ∧ (t.WellTyped f.type w ∨ w = .null ∧ t.MayBeAbsent f)) ∨ found = none ∧ t.HasNativeBody

/-- **Collected fields are found** in a value of their struct. -/
theorem found_of_wellTyped (h : t.Sound) (opened : List TypeId) (path : List String) (owner : String) (body : TypeId)
    {f : Field} (hf : f ∈ (Field.collectFrom t opened path owner body).value) :
    ∃ rel, f.path = path ++ rel ∧ ∀ v, t.WellTyped body v → t.Found f (Value.along (some v) (rel ++ [f.name])) := by
  rw [Field.value_collectFrom] at hf
  by_cases hnew : body < t.size ∧ body ∉ opened
  · rw [if_pos hnew] at hf
    cases hget : t.get? body with
    | none =>
      rw [hget] at hf
      cases hf
    | some d =>
      rw [hget] at hf
      cases d with
      | struct members =>
        obtain ⟨m, hm, hfm⟩ := List.mem_flatMap.1 hf
        unfold Field.ofMember at hfm
        cases he : m.embedded with
        | false =>
          simp only [he, Bool.false_eq_true, if_false, List.mem_singleton] at hfm
          subst hfm
          refine ⟨[], (List.append_nil path).symm, fun v hv => Or.inl ?_⟩
          obtain ⟨fields, value, rfl, hl, hw⟩ := hv.inv hget
          refine ⟨value m, hl m hm, ?_⟩
          by_cases habsent : value m = .null ∧ m.embedded = false ∧ t.MayBeAbsent (fieldOf m)
          · exact Or.inr ⟨habsent.1, habsent.2.2⟩
          · exact Or.inl (hw m hm habsent)
        | true =>
          simp only [he, if_true] at hfm
          split at hfm
          · rename_i hs
            obtain ⟨rel, hpath, hfound⟩ := found_of_wellTyped h _ _ _ _ hfm
            refine ⟨m.name :: rel, by rw [hpath, List.append_assoc]; rfl, fun v hv => ?_⟩
            obtain ⟨fields, value, rfl, hl, hw⟩ := hv.inv hget
            have hinner : t.WellTyped m.type (value m) := hw m hm fun habsent => by
              rw [he] at habsent
              exact Bool.noConfusion habsent.2.1
            have halong : Value.along (some (.struct fields)) (m.name :: rel ++ [f.name]) =
                Value.along (some (value m)) (rel ++ [f.name]) := by
              change Value.along (fields.lookup m.name) (rel ++ [f.name]) = _
              rw [hl m hm]
            rw [halong]
            rcases hinner.settles h with ⟨n, bytes, heq, hn, hu⟩ | ⟨-, hw'⟩
            · rw [heq, along_native]
              obtain ⟨ms, hms⟩ := (isStruct_iff _ _).1 hs.1
              exact Or.inr ⟨rfl, hasNativeBody_of_underlying hn
                (by rw [hu]; exact isNative_of_get? hms fun _ hne => by cases hne)⟩
            · exact hfound _ hw'
          · cases hfm
      | _ => cases hf
  · rw [if_neg hnew] at hf
    cases hf
termination_by t.unseen opened
decreasing_by exact t.unseen_cons_lt hnew.1 hnew.2

theorem found_of_mem_fieldsOf (h : t.Sound) {body : TypeId} {f : Field} (hf : f ∈ t.fieldsOf body) {v : Value}
    (hv : t.WellTyped body v) : t.Found f (foundAt f v) := by
  obtain ⟨rel, hpath, hfound⟩ := found_of_wellTyped h [] [] "" body hf
  unfold foundAt
  rw [hpath]
  exact hfound v hv

theorem found_of_settled (h : t.Sound) {id : TypeId} {v : Value} (hv : t.WellTyped id v ∨ ∃ bytes, v = .native bytes)
    {f : Field} (hf : f ∈ t.fieldsOf (t.base id)) {w : Value} (hw : foundAt f v = some w) :
    t.WellTyped f.type w ∨ w = .null ∧ t.MayBeAbsent f := by
  rcases settled_or_native h hv with ⟨bytes, rfl⟩ | hwt
  · unfold foundAt at hw
    rw [along_native] at hw
    cases hw
  · rcases found_of_mem_fieldsOf h hf hwt with ⟨w', heq, hw'⟩ | ⟨heq, -⟩
    · rw [hw] at heq
      cases heq
      exact hw'
    · rw [hw] at heq
      cases heq

/-! ## Keys of values that suit a map -/

theorem key_of_wellTyped (h : t.Sound) {k : TypeId} (hk : t.isStringKey k = true) {v : Value} (hv : t.WellTyped k v) :
    (∃ n bytes, v = .native bytes ∧ t.isNative n = true ∧ t.underlying n = t.underlying k) ∨
      t.get? (t.base k) = some (.scalar .str) ∧ ∃ bytes, v = .string bytes := by
  have hstr : t.get? (t.underlying k) = some (.scalar .str) := of_decide_eq_true hk
  refine (hv.settles h).imp id fun ⟨hb, hw⟩ => ?_
  rw [hb]
  exact ⟨hstr, hw.inv hstr⟩

/-! ## Native types with a body -/

def isRead : TypeDesc → Bool
  | .named _ | .native _ | .pointer _ | .struct _ => false
  | _ => true

theorem isRead_of_native {id : TypeId} {d : TypeDesc} {bytes : Bytes} (hv : t.WellTyped id (.native bytes))
    (hget : t.get? id = some d) : isRead d = false := by
  have hform := hv.inv hget
  cases d with
  | named e => rfl
  | native e => rfl
  | pointer target => rfl
  | struct members => rfl
  | duration => exact hform.elim fun _ h => h.elim fun _ heq => nomatch heq
  | sequence element kind => exact hform.elim fun _ h => nomatch h.1
  | mapping key value => exact hform.elim fun _ h => nomatch h.1
  | scalar kind =>
    cases kind with
    | float kind => exact hform.elim
    | bool => exact hform.elim fun _ heq => nomatch heq
    | int kind => exact hform.elim fun _ heq => nomatch heq
    | str => exact hform.elim fun _ heq => nomatch heq

theorem isDeclared_of_isRead {d : TypeDesc} (hread : isRead d = true) : d.isDeclared = false := by
  cases d with
  | named e => cases hread
  | native e => cases hread
  | _ => rfl

/-- Where a type is written as a structural one, its values have that form, unless a native type with a body is in
between. -/
theorem wellTyped_base (h : t.Sound) (hn : ¬ t.HasNativeBody) {id : TypeId} {v : Value} (hv : t.WellTyped id v)
    {d : TypeDesc} (hget : t.get? (t.base id) = some d) (hd : d.isDeclared = false) : t.WellTyped (t.base id) v := by
  rcases hv.settles h with ⟨n, bytes, -, hnat, hu⟩ | ⟨hb, hw⟩
  · refine absurd (hasNativeBody_of_underlying hnat ?_) hn
    rw [hu, ← base_eq_underlying hget hd]
    refine isNative_of_get? hget fun e hne => ?_
    rw [hne] at hd
    cases hd
  · rw [hb]
    exact hw

/-- A native value suits no type whose values are tested, unless the test is for absence. -/
theorem emptinessTest_of_native (h : t.Sound) (hn : ¬ t.HasNativeBody) {id : TypeId} {bytes : Bytes}
    (hv : t.WellTyped id (.native bytes)) (hsome : (t.emptinessTest id).isSome = true) :
    t.emptinessTest id = some .nil := by
  unfold emptinessTest underlyingDesc at hsome ⊢
  cases hget : t.get? (t.underlying id) with
  | none =>
    rw [hget] at hsome
    cases hsome
  | some d =>
    rw [hget] at hsome
    rcases hv.settles h with ⟨n, -, -, hnat, hu⟩ | ⟨-, hw⟩
    · refine absurd (hasNativeBody_of_underlying hnat ?_) hn
      rw [hu]
      refine isNative_of_get? hget fun e hne => ?_
      rw [hne] at hsome
      cases hsome
    · have hread := isRead_of_native hw hget
      cases d with
      | named e => cases hsome
      | native e => cases hsome
      | struct members => cases hsome
      | pointer target => rfl
      | _ => cases hread

end TypeTable
end BencodePlan
