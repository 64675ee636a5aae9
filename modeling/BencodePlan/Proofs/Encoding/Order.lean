import BencodePlan.Proofs.Encoding.Content
import Mathlib
/-!
# Dictionaries in order

Two places put keys in order, and neither looks at the other: a struct sorts its fields by their declared names when its
plan is made, a map sorts its keys as bytes when it is written.  If the keys of the fields ascend with the names, and no map
has a key twice, every dictionary that is written has its keys in strictly ascending order, at every depth and whatever
fields are left out (`output_canonical`).

The structs that count are those the plan comes to, also past native declarations: a plan for an alias of a native type
writes the struct behind it (`alias_not_canonical`).
-/
namespace BencodePlan

namespace Wire

theorem keyLe_iff : ∀ {a b : Bytes}, keyLe a b = true ↔ a < b ∨ a = b
  | [], [] => by simp [keyLe]
  | [], _ :: _ => by simp [keyLe]
  | _ :: _, [] => by simp [keyLe]
  | a :: as, b :: bs => by
    rw [keyLe, List.cons_lt_cons_iff, List.cons.injEq, Bool.or_eq_true, Bool.and_eq_true, decide_eq_true_iff,
      decide_eq_true_iff, keyLe_iff (a := as)]
    grind

theorem keyLe_trans (a b c : Bytes) (hab : keyLe a b = true) (hbc : keyLe b c = true) : keyLe a c = true := by
  rw [keyLe_iff] at hab hbc ⊢
  rcases hab with hab | rfl
  · rcases hbc with hbc | rfl
    · exact Or.inl (List.lt_trans hab hbc)
    · exact Or.inl hab
  · exact hbc

theorem keyLe_total : ∀ a b : Bytes, (keyLe a b || keyLe b a) = true
  | [], _ => by simp [keyLe]
  | _ :: _, [] => by simp [keyLe]
  | a :: as, b :: bs => by
    have ih := keyLe_total as bs
    simp only [keyLe, Bool.or_eq_true, Bool.and_eq_true, decide_eq_true_iff] at ih ⊢
    rcases Nat.lt_trichotomy a.toNat b.toNat with h | h | h
    · exact .inl (.inl h)
    · have hab : a = b := UInt8.toNat_inj.1 h
      exact ih.imp (fun ih => .inr ⟨hab, ih⟩) fun ih => .inr ⟨hab.symm, ih⟩
    · exact .inr (.inl h)

/-- **Keys that differ are written in ascending order.** -/
theorem sortedKeys_ascend {keys : List Bytes} (h : keys.Nodup) : (sortedKeys keys).Pairwise (· < ·) := by
  have hle : (sortedKeys keys).Pairwise fun a b => keyLe a b = true := List.pairwise_mergeSort keyLe_trans keyLe_total keys
  have hne : (sortedKeys keys).Pairwise (· ≠ ·) := (List.mergeSort_perm keys keyLe).nodup_iff.2 h
  exact (hle.and hne).imp fun hab => (keyLe_iff.1 hab.1).resolve_right hab.2

end Wire

/-! ## Values whose maps have no key twice -/

namespace Value

/-- **No map in the value has a key twice**, at whatever depth it stands. -/
inductive DistinctKeys : Value → Prop
  | null : DistinctKeys null
  | bool (b : Bool) : DistinctKeys (bool b)
  | int (n : Int) : DistinctKeys (int n)
  | string (bytes : Bytes) : DistinctKeys (string bytes)
  | duration (seconds nanoseconds : Nat) : DistinctKeys (duration seconds nanoseconds)
  | native (bytes : Bytes) : DistinctKeys (native bytes)
  | list {items : List Value} : (∀ v ∈ items, DistinctKeys v) → DistinctKeys (list items)
  | map {pairs : List (Value × Value)} : (pairs.map Prod.fst).Nodup → (∀ p ∈ pairs, DistinctKeys p.1) →
    (∀ p ∈ pairs, DistinctKeys p.2) → DistinctKeys (map pairs)
  | struct {fields : List (String × Value)} : (∀ f ∈ fields, DistinctKeys f.2) → DistinctKeys (struct fields)

/-- The value, if there is one, has no map with a key twice. -/
def Distinct (v : Option Value) : Prop := ∀ x, v = some x → x.DistinctKeys

theorem distinct_some {x : Value} : Distinct (some x) ↔ x.DistinctKeys :=
  ⟨fun h => h x rfl, fun h _ he => Option.some.inj he ▸ h⟩

theorem distinct_member {v : Option Value} (h : Distinct v) (name : String) : Distinct (member? v name) := by
  intro x hx
  unfold member? at hx
  split at hx
  · rename_i fields
    obtain ⟨l₁, l₂, rfl, -⟩ := List.lookup_eq_some_iff.1 hx
    cases h _ rfl with
    | struct hfields => exact hfields (name, x) (by simp)
  · cases hx

theorem distinct_along : ∀ (path : List String) {v : Option Value}, Distinct v → Distinct (along v path)
  | [], _, h => h
  | name :: path, _, h => distinct_along path (distinct_member h name)

theorem distinct_target {v : Option Value} (h : Distinct v) : Distinct (target? v) := by
  unfold target?
  split
  · exact fun _ hx => nomatch hx
  · exact h

theorem distinct_valueAt (key : Bytes) : ∀ {pairs : List (Value × Value)}, (∀ p ∈ pairs, p.2.DistinctKeys) →
    Distinct (valueAt? key pairs)
  | [], _ => fun _ hx => nomatch hx
  | (k, v) :: rest, h => by
    have hrest : Distinct (valueAt? key rest) := distinct_valueAt key fun p hp => h p (by simp [hp])
    unfold valueAt?
    split
    · cases ‹_ :: _ = _›
    · rename_i heq
      cases heq
      split
      · exact distinct_some.2 (h _ List.mem_cons_self)
      · exact hrest
    · rename_i heq
      cases heq
      exact hrest

theorem map_fst_of_stringKeys : ∀ {pairs : List (Value × Value)} {keys : List Bytes}, stringKeys? pairs = some keys →
    pairs.map Prod.fst = keys.map string
  | [], _, h => by
    cases h
    rfl
  | (k, v) :: rest, keys, h => by
    cases k with
    | string k =>
      obtain ⟨ks, hks, h⟩ := Option.bind_eq_some_iff.1 h
      cases h
      rw [List.map_cons, List.map_cons, map_fst_of_stringKeys hks]
    | _ => cases h

end Value

/-! ## Builders that keep keys in order -/

namespace Content

/-- **Every dictionary has its keys in strictly ascending order**, at whatever depth it stands.  Native values are not looked
into. -/
inductive Ascending : Content → Prop
  | int (n : Int) : Ascending (int n)
  | string (bytes : Bytes) : Ascending (string bytes)
  | native (bytes : Bytes) : Ascending (native bytes)
  | list {items : List Content} : (∀ c ∈ items, Ascending c) → Ascending (list items)
  | dict {entries : List (Bytes × Content)} : (entries.map Prod.fst).Pairwise (· < ·) →
    (∀ e ∈ entries, Ascending e.2) → Ascending (dict entries)

end Content

def Builder.Ascends (b : Builder) : Prop := ∀ v c, Value.Distinct v → b v = some c → c.Ascending

namespace Builder

open Value

theorem ascends_none : Ascends fun _ => none := fun _ _ _ h => nomatch h

theorem native_ascends : Ascends native := by
  intro v c _ h
  unfold native at h
  split at h <;> cases h
  exact .native _

theorem duration_ascends : Ascends duration := by
  intro v c _ h
  unfold duration at h
  split at h <;> cases h
  exact .int _

theorem bool_ascends : Ascends bool := by
  intro v c _ h
  unfold bool at h
  split at h <;> cases h
  exact .int _

theorem int_ascends : Ascends int := by
  intro v c _ h
  unfold int at h
  split at h <;> cases h
  exact .int _

theorem string_ascends : Ascends string := by
  intro v c _ h
  unfold string at h
  split at h <;> cases h
  exact .string _

theorem optional_ascends {inner : Builder} (h : inner.Ascends) : (optional inner).Ascends :=
  fun v c hv hc => h (target? v) c (distinct_target hv) hc

theorem list_ascends {element : Builder} (h : element.Ascends) : (list element).Ascends := by
  intro v c hv hc
  unfold list at hc
  split at hc
  · rename_i items
    obtain ⟨cs, hcs, rfl⟩ := Option.map_eq_some_iff.1 hc
    cases hv _ rfl with
    | list hitems =>
      refine .list fun c hc => ?_
      obtain ⟨x, hx, hb⟩ := exists_of_mem_mapM hcs hc
      exact h _ c (distinct_some.2 (hitems x hx)) hb
  · cases hc

theorem map_ascends {key value : Builder} (hvalue : value.Ascends)
    (hstring : ∀ k x, key (some (.string k)) = some x → x = .string k) : (map key value).Ascends := by
  intro v c hv hc
  unfold map at hc
  split at hc
  · rename_i pairs
    obtain ⟨keys, hkeys, hc⟩ := Option.bind_eq_some_iff.1 hc
    obtain ⟨entries, hentries, hc⟩ := Option.bind_eq_some_iff.1 hc
    cases hc
    have hentry : ∀ k e, entry (key (some (.string k))) (value (valueAt? k pairs)) = some e →
        k = e.1 ∧ value (valueAt? k pairs) = some e.2 := by
      intro k e he
      unfold entry at he
      split at he
      · rename_i k' hk
        obtain ⟨c, hc, rfl⟩ := Option.map_eq_some_iff.1 he
        cases hstring k _ hk
        exact ⟨rfl, hc⟩
      · cases he
    cases hv _ rfl with
    | map hnodup _ hvalues =>
      rw [map_fst_of_stringKeys hkeys] at hnodup
      -- the keys that are written are those that were sorted
      have hfst : entries.map Prod.fst = Wire.sortedKeys keys := by
        have hall := (forall₂_of_mapM hentries).imp fun k e he => (hentry k e he).1
        rw [← List.forall₂_eq_eq_eq, List.forall₂_map_left_iff]
        exact hall.flip.imp fun _ _ => Eq.symm
      refine .dict (hfst ▸ Wire.sortedKeys_ascend hnodup.of_map) fun e he => ?_
      obtain ⟨k, -, hk⟩ := exists_of_mem_mapM hentries he
      exact hvalue _ _ (distinct_valueAt k hvalues) (hentry k e hk).2
  · cases hc

theorem field_cases {slot : Slot} {inner : Builder} {v : Option Value} {entries : List (Bytes × Content)}
    (h : field slot inner v = some entries) :
    entries = [] ∨ ∃ c, inner (along v (slot.path ++ [slot.name])) = some c ∧ entries = [(Wire.utf8 slot.key, c)] := by
  have hwritten : ∀ r : Option Content, r.map (fun c => [(Wire.utf8 slot.key, c)]) = some entries →
      ∃ c, r = some c ∧ entries = [(Wire.utf8 slot.key, c)] := by
    intro r hr
    obtain ⟨c, hc, rfl⟩ := Option.map_eq_some_iff.1 hr
    exact ⟨c, hc, rfl⟩
  unfold field at h
  simp only at h
  split at h
  · exact Or.inr (hwritten _ h)
  · obtain ⟨present, -, h⟩ := Option.bind_eq_some_iff.1 h
    cases present with
    | true => exact Or.inr (hwritten _ h)
    | false =>
      cases h
      exact Or.inl rfl

theorem fst_flatten_sublist {v : Option Value} {fields : List (Slot × Builder)} {written : List (List (Bytes × Content))}
    (h : List.Forall₂ (fun p es => field p.1 p.2 v = some es) fields written) :
    (written.flatten.map Prod.fst).Sublist (fields.map fun p => Wire.utf8 p.1.key) := by
  induction h with
  | nil => exact .slnil
  | cons hfield _ ih =>
    rcases field_cases hfield with rfl | ⟨c, -, rfl⟩
    · exact ih.cons _
    · exact ih.cons_cons _

theorem struct_ascends {fields : List (Slot × Builder)} (hkeys : (fields.map fun p => Wire.utf8 p.1.key).Pairwise (· < ·))
    (h : ∀ p ∈ fields, p.2.Ascends) : (struct fields).Ascends := by
  intro v c hv hc
  obtain ⟨written, hwritten, rfl⟩ := Option.map_eq_some_iff.1 hc
  refine .dict (hkeys.sublist (fst_flatten_sublist (forall₂_of_mapM hwritten))) fun e he => ?_
  obtain ⟨es, hes, he⟩ := List.mem_flatten.1 he
  obtain ⟨p, hp, hfield⟩ := exists_of_mem_mapM hwritten hes
  rcases field_cases hfield with rfl | ⟨c, hc, rfl⟩
  · cases he
  · rw [List.mem_singleton.1 he]
    exact h p hp _ c (distinct_along _ hv) hc

end Builder

namespace TypeTable

open Compile

variable {t : TypeTable}

/-- The keys of the fields of a struct ascend with the names of the fields. -/
def NamesAscend (t : TypeTable) (id : TypeId) : Prop :=
  ((writingOrder (t.fieldsOf id)).map fun f => Wire.utf8 f.key).Pairwise (· < ·)

/-- **What a value comes to has its keys in order**, if the names of every struct on the way are. -/
theorem contentFrom_ascends (opened : List TypeId) (id : TypeId)
    (hkeys : ∀ a, t.Expands id a → ∀ k v, t.get? a = some (.mapping k v) → t.isStringKey k = true)
    (hnames : ∀ a, t.Expands id a → ∀ members, t.get? a = some (.struct members) → t.NamesAscend a) :
    (t.contentFrom opened id).Ascends := by
  rw [contentFrom]
  by_cases hnew : id < t.size ∧ id ∉ opened
  · have hinner : ∀ b, t.Follows id b → (t.contentFrom (id :: opened) b).Ascends := fun b hb =>
      contentFrom_ascends (id :: opened) b (fun a ha => hkeys a (.head hb ha)) fun a ha => hnames a (.head hb ha)
    rw [dif_pos hnew]
    cases hget : t.get? id with
    | none => exact Builder.ascends_none
    | some d =>
      cases d with
      | native e => exact Builder.native_ascends
      | duration => exact Builder.duration_ascends
      | pointer target => exact Builder.optional_ascends (hinner _ (.holds (.target hget)))
      | sequence element kind => exact Builder.list_ascends (hinner _ (.holds (.element hget)))
      | mapping key value =>
        exact Builder.map_ascends (hinner _ (.holds (.value hget)))
          (contentFrom_key (hkeys id (.refl id) key value hget) _)
      | struct members =>
        refine Builder.struct_ascends ?_ ?_
        · rw [List.map_map]
          exact hnames id (.refl id) members hget
        · intro p hp
          obtain ⟨f, hf, rfl⟩ := List.mem_map.1 hp
          exact hinner _ (.holds (.field hget (mem_writingOrder.1 hf)))
      | named e => exact hinner _ (.base hget)
      | scalar kind =>
        cases kind with
        | bool => exact Builder.bool_ascends
        | int kind => exact Builder.int_ascends
        | str => exact Builder.string_ascends
        | float kind => exact Builder.ascends_none
  · rw [dif_neg hnew]
    exact Builder.ascends_none
termination_by t.unseen opened
decreasing_by exact t.unseen_cons_lt hnew.1 hnew.2

end TypeTable

namespace Schema

open TypeTable Compile

/-- **What a run writes has its keys in order**, in every dictionary, if the keys of every struct of the expansion are in
order by the names of its fields and no map of the value has a key twice. -/
theorem output_canonical {raw : RawSchema} {s : Schema} (hs : (ofRaw raw).value = .ok s) {name : String} {id : TypeId}
    (hid : id < s.table.size) {p : Plan} (hp : result (s.table.compile name id) = .ok p) (hn : p.nesting < 65536)
    (hnames : ∀ a, s.table.Expands id a → ∀ members, s.table.get? a = some (.struct members) → s.table.NamesAscend a)
    {v : Value} (hv : v.DistinctKeys) {out : Bytes}
    (hrun : (p.run v none).written? = some out ∨ (p.folded.run v none).written? = some out) :
    ∃ c, s.table.content id (some v) = some c ∧ c.bytes = out ∧ c.Ascending := by
  have h := sound_of_ofRaw hs
  obtain ⟨hplain, hfolded⟩ := written?_eq_content h hid hp hn v
  rw [hplain, hfolded, or_self] at hrun
  obtain ⟨c, hc, rfl⟩ := Option.map_eq_some_iff.1 hrun
  have hwritable := (shape_ok_iff h hid).1 ((exists_result_compile_iff s.table name id).1 ⟨p, hp⟩)
  exact ⟨c, hc, rfl, contentFrom_ascends [] id (fun a ha => (hwritable a ha).1.key) hnames _ c (Value.distinct_some.2 hv) hc⟩

def pointsDocument : RawSchema :=
  ⟨none, [⟨"Points", none, some "Map<str, Point>", false⟩,
    ⟨"Point", some [⟨"Y", "i64", none, false⟩, ⟨"X", "i64", none, false⟩], none, false⟩]⟩

def pointBody : TypeDesc := .struct [⟨"Y", 4, none, false⟩, ⟨"X", 4, none, false⟩]

def pointsTable : TypeTable :=
  ⟨[.named ⟨"Points", some 3⟩, .named ⟨"Point", some 5⟩, .scalar .str, .mapping 2 1, .scalar (.int .i64), pointBody],
    [(.scalar .str, 2), (.mapping 2 1, 3), (.scalar (.int .i64), 4), (pointBody, 5)], [("Points", 0), ("Point", 1)]⟩

def pointsPlan : Plan :=
  ⟨"Points", [.ascii "d", .map .root 0 none [.string (.key 0), .ascii "d",
    .ascii "1:x", .ascii "i", .int (.field (.value .root 0) "X"), .ascii "e",
    .ascii "1:y", .ascii "i", .int (.field (.value .root 0) "Y"), .ascii "e", .ascii "e"], .ascii "e"]⟩

def points : Value :=
  .map [(.string [98], .struct [("Y", .int 2), ("X", .int 1)]), (.string [97], .struct [("X", .int 0), ("Y", .int 0)])]

theorem points_canonical : (ofRaw pointsDocument).value = .ok ⟨none, pointsTable⟩ ∧ points.DistinctKeys ∧
    ∃ c, pointsTable.content 0 (some points) = some c ∧
      c.bytes = Wire.ascii "d1:ad1:xi0e1:yi0ee1:bd1:xi1e1:yi2eee".toList ∧ c.Ascending := by
  have hs : (ofRaw pointsDocument).value = .ok ⟨none, pointsTable⟩ := ofRaw_eq_ok (by decide +kernel)
  have hp : result (pointsTable.compile "Points" 0) = .ok pointsPlan := by cbv
  have hkeys : ((writingOrder (pointsTable.fieldsOf 5)).map fun f => Wire.utf8 f.key) = [[120], [121]] := by cbv
  have hnames : ∀ a, ∀ members, pointsTable.get? a = some (.struct members) → pointsTable.NamesAscend a := by
    intro a members hget
    obtain rfl : a = 5 := by
      rcases a with _ | _ | _ | _ | _ | _ | a <;> first | rfl | cases hget
    rw [NamesAscend, hkeys]
    decide
  have hv : points.DistinctKeys := .map (by simp) (by simp [Value.DistinctKeys.string]) <| by
    simp only [List.forall_mem_cons, List.not_mem_nil, false_implies, implies_true, and_true]
    exact ⟨.struct (by simp [Value.DistinctKeys.int]), .struct (by simp [Value.DistinctKeys.int])⟩
  exact ⟨hs, hv, output_canonical hs (by decide) hp (by decide) (fun a _ => hnames a) hv (Or.inl (by cbv))⟩

/-- An alias of a native type that has the body of a struct. -/
def aliasDocument : RawSchema :=
  ⟨none, [⟨"Alias", none, some "Page", false⟩,
    ⟨"Page", some [⟨"B", "i64", none, false⟩, ⟨"a", "i64", none, false⟩], none, true⟩]⟩

def pageBody : TypeDesc := .struct [⟨"B", 2, none, false⟩, ⟨"a", 2, none, false⟩]

def aliasTable : TypeTable :=
  ⟨[.named ⟨"Alias", some 1⟩, .native ⟨"Page", some 3⟩, .scalar (.int .i64), pageBody],
    [(.scalar (.int .i64), 2), (pageBody, 3)], [("Alias", 0), ("Page", 1)]⟩

def aliasPlan : Plan :=
  ⟨"Alias", [.ascii "d", .ascii "1:b", .ascii "i", .int (.field .root "B"), .ascii "e",
    .ascii "1:a", .ascii "i", .int (.field .root "a"), .ascii "e", .ascii "e"]⟩

def page : Value := .struct [("B", .int 1), ("a", .int 2)]

def pageContent : Content := .dict [([98], .int 1), ([97], .int 2)]

/-- Nothing that the alias is made of is a struct, and yet it is written as one, with its keys out of order. -/
theorem alias_not_canonical : (ofRaw aliasDocument).value = .ok ⟨none, aliasTable⟩ ∧
    (∀ a, Relation.ReflTransGen aliasTable.Holds 0 a → ∀ members, aliasTable.get? a ≠ some (.struct members)) ∧
    page.DistinctKeys ∧ (∃ p, result (aliasTable.compile "Alias" 0) = .ok p ∧ p.nesting < 65536 ∧
      (p.run page none).written? = some pageContent.bytes) ∧
    aliasTable.content 0 (some page) = some pageContent ∧ ¬ pageContent.Ascending := by
  have hpage : page.DistinctKeys := .struct (by simp [Value.DistinctKeys.int])
  refine ⟨ofRaw_eq_ok (by decide +kernel), fun a ha members hget => ?_, hpage, ⟨aliasPlan, by cbv, by decide, by cbv⟩,
    by cbv, fun h => ?_⟩
  · -- the alias holds the native type, which holds nothing
    rcases ha.cases_head with rfl | ⟨b, hb, ha⟩
    · cases hget
    · obtain rfl : 1 = b := Option.some.inj (hb.eq_body (d := ⟨"Alias", some 1⟩) rfl)
      rcases ha.cases_head with rfl | ⟨c, hc, -⟩
      · cases hget
      · exact not_follows_of_native (d := ⟨"Page", some 3⟩) rfl (.holds hc)
  · cases h with
    | dict hkeys _ => exact absurd hkeys (by decide)

end Schema
end BencodePlan
