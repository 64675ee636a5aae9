import BencodePlan.Proofs.Encoding.OfType
import BencodePlan.Proofs.Shape.Rejection
import BencodePlan.Proofs.Wire.Item
/-!
# What a value comes to on the wire

Encoding joins bytes, and does not say where an item in them begins.  Here the same recursion on the type builds a tree: the
integers, strings, lists and dictionaries that a value of the type is written as, with native values as they write
themselves.  A type that compiles encodes a value as the bytes of its tree (`written?_eq_content`).
-/
namespace BencodePlan

/-- **What is written for a value**, as a tree. -/
inductive Content
  | int (n : Int)
  | string (bytes : Bytes)
  /-- A native value, which is not looked into. -/
  | native (bytes : Bytes)
  | list (items : List Content)
  | dict (entries : List (Bytes × Content))
  deriving Repr

namespace Content

open Wire

mutual
def bytes : Content → Bytes
  | int n => letter 'i' :: Wire.int n ++ [letter 'e']
  | string k => Wire.string k
  | native b => b
  | list items => letter 'l' :: bytesAll items ++ [letter 'e']
  | dict entries => letter 'd' :: bytesOfEntries entries ++ [letter 'e']
termination_by structural c => c

def bytesAll : List Content → Bytes
  | [] => []
  | c :: rest => c.bytes ++ bytesAll rest
termination_by structural items => items

def bytesOfEntries : List (Bytes × Content) → Bytes
  | [] => []
  | (k, c) :: rest => Wire.string k ++ c.bytes ++ bytesOfEntries rest
termination_by structural entries => entries
end

theorem bytesAll_eq_flatMap : ∀ items : List Content, bytesAll items = items.flatMap bytes
  | [] => rfl
  | c :: rest => by rw [bytesAll, bytesAll_eq_flatMap rest, List.flatMap_cons]

def entryBytes (e : Bytes × Content) : Bytes := Wire.string e.1 ++ e.2.bytes

theorem bytesOfEntries_eq_flatMap : ∀ entries : List (Bytes × Content), bytesOfEntries entries = entries.flatMap entryBytes
  | [] => rfl
  | (k, c) :: rest => by rw [bytesOfEntries, bytesOfEntries_eq_flatMap rest, List.flatMap_cons, entryBytes]

end Content

abbrev Builder := Option Value → Option Content

namespace Builder

def native : Builder
  | some (.native bytes) => some (.native bytes)
  | _ => none

def duration : Builder
  | some (.duration seconds _) => some (.int seconds)
  | _ => none

def bool : Builder
  | some (.bool b) => some (.int (if b then 1 else 0))
  | _ => none

def int : Builder
  | some (.int n) => some (.int n)
  | _ => none

def string : Builder
  | some (.string bytes) => some (.string bytes)
  | _ => none

def optional (inner : Builder) : Builder := fun v => inner (Value.target? v)

def list (element : Builder) : Builder
  | some (.list items) => (items.mapM fun v => element (some v)).map .list
  | _ => none

def entry (key value : Option Content) : Option (Bytes × Content) :=
  match key with
  | some (.string k) => value.map fun c => (k, c)
  | _ => none

def map (key value : Builder) : Builder
  | some (.map pairs) => do
    let keys ← Value.stringKeys? pairs
    let entries ← (Wire.sortedKeys keys).mapM fun k => entry (key (some (.string k))) (value (Value.valueAt? k pairs))
    return .dict entries
  | _ => none

def field (slot : Slot) (inner : Builder) : Option Value → Option (List (Bytes × Content)) := fun v =>
  let found := Value.along v (slot.path ++ [slot.name])
  let written := (inner found).map fun c => [(Wire.utf8 slot.key, c)]
  match slot.test with
  | none => written
  | some test => do if ← found.bind test.presence? then written else some []

def struct (fields : List (Slot × Builder)) : Builder := fun v =>
  (fields.mapM fun p => field p.1 p.2 v).map fun entries => .dict entries.flatten

end Builder

namespace TypeTable

def contentFrom (t : TypeTable) (opened : List TypeId) (id : TypeId) : Builder :=
  if _new : id < t.size ∧ id ∉ opened then
    match t.get? id with
    | some (.native _) => Builder.native
    | some .duration => Builder.duration
    | some (.scalar .bool) => Builder.bool
    | some (.scalar (.int _)) => Builder.int
    | some (.scalar .str) => Builder.string
    | some (.pointer target) => Builder.optional (t.contentFrom (id :: opened) target)
    | some (.sequence element _) => Builder.list (t.contentFrom (id :: opened) element)
    | some (.mapping key value) => Builder.map (t.contentFrom (id :: opened) key) (t.contentFrom (id :: opened) value)
    | some (.struct _) =>
      Builder.struct ((writingOrder (t.fieldsOf id)).map fun f => (t.slot f, t.contentFrom (id :: opened) f.type))
    | some (.named _) => t.contentFrom (id :: opened) (t.underlying id)
    | some (.scalar (.float _)) | none => fun _ => none
  else fun _ => none
termination_by t.unseen opened
decreasing_by all_goals exact t.unseen_cons_lt _new.1 _new.2

/-- **What a value of a type comes to.** -/
def content (t : TypeTable) (id : TypeId) : Builder := t.contentFrom [] id

end TypeTable

/-! ## Encoders write what builders build -/

def Encoder.Writes (e : Encoder) (b : Builder) : Prop := ∀ v, e v = (b v).map Content.bytes

namespace Encoder

open Wire

theorem framed_some (opening : Char) (body : Bytes) :
    framed opening (some body) = some (letter opening :: body ++ [letter 'e']) := rfl

theorem concat_map_eq {α β : Type} {f : α → Option Bytes} {g : α → Option β} {w : β → Bytes} : ∀ {l : List α},
    (∀ a ∈ l, f a = (g a).map w) → concat (l.map f) = (l.mapM g).map fun bs => bs.flatMap w
  | [], _ => rfl
  | a :: l, h => by
    have ha := h a (by simp)
    have hl := concat_map_eq (l := l) fun x hx => h x (by simp [hx])
    rw [List.map_cons, concat, ha, hl, List.mapM_cons]
    cases g a with
    | none => rfl
    | some b => cases l.mapM g <;> rfl

theorem writes_none : Writes (fun _ => none) (fun _ => none) := fun _ => rfl

theorem native_writes : Writes native Builder.native := by
  intro v
  cases v with
  | none => rfl
  | some x => cases x <;> rfl

theorem duration_writes : Writes duration Builder.duration := by
  intro v
  cases v with
  | none => rfl
  | some x => cases x <;> rfl

theorem bool_writes : Writes bool Builder.bool := by
  intro v
  cases v with
  | none => rfl
  | some x =>
    cases x with
    | bool b =>
      have hdigit : Wire.bool b = Wire.int (if b then 1 else 0) := by cases b <;> decide +kernel
      rw [bool, hdigit]
      rfl
    | _ => rfl

theorem int_writes : Writes int Builder.int := by
  intro v
  cases v with
  | none => rfl
  | some x => cases x <;> rfl

theorem string_writes : Writes string Builder.string := by
  intro v
  cases v with
  | none => rfl
  | some x => cases x <;> rfl

theorem optional_writes {inner : Encoder} {b : Builder} (h : inner.Writes b) : (optional inner).Writes (.optional b) :=
  fun v => h (Value.target? v)

theorem list_writes {element : Encoder} {b : Builder} (h : element.Writes b) : (list element).Writes (.list b) := by
  intro v
  cases v with
  | none => rfl
  | some x =>
    cases x with
    | list items =>
      rw [list, Builder.list, concat_map_eq fun x _ => h (some x)]
      cases items.mapM fun v => b (some v) with
      | none => rfl
      | some cs => rw [Option.map_some, framed_some, ← Content.bytesAll_eq_flatMap]; rfl
    | _ => rfl

theorem map_writes {key value : Encoder} {b c : Builder} (hkey : key.Writes b) (hvalue : value.Writes c)
    (hstring : ∀ k x, b (some (.string k)) = some x → x = .string k) : (map key value).Writes (.map b c) := by
  intro v
  cases v with
  | none => rfl
  | some x =>
    cases x with
    | map pairs =>
      -- a key is written as the string that it is built as, so an entry is its key and its value
      have hentry : ∀ k, append (key (some (.string k))) (value (Value.valueAt? k pairs)) =
          (Builder.entry (b (some (.string k))) (c (Value.valueAt? k pairs))).map Content.entryBytes := by
        intro k
        rw [hkey, hvalue]
        cases hb : b (some (.string k)) with
        | none => rfl
        | some x =>
          obtain rfl := hstring k x hb
          cases c (Value.valueAt? k pairs) <;> rfl
      rw [map, Builder.map]
      cases Value.stringKeys? pairs with
      | none => rfl
      | some keys =>
        simp only [Option.bind_eq_bind, Option.bind_some]
        rw [concat_map_eq fun k _ => hentry k]
        cases (sortedKeys keys).mapM fun k => Builder.entry (b (some (.string k))) (c (Value.valueAt? k pairs)) with
        | none => rfl
        | some es => rw [Option.map_some, framed_some, ← Content.bytesOfEntries_eq_flatMap]; rfl
    | _ => rfl

theorem field_writes {slot : Slot} {inner : Encoder} {b : Builder} (h : inner.Writes b) (v : Option Value) :
    field slot inner v = (Builder.field slot b v).map fun es => es.flatMap Content.entryBytes := by
  unfold field Builder.field
  simp only [h (Value.along v (slot.path ++ [slot.name]))]
  have hwritten : ∀ r : Option Content, append (some (key slot.key)) (r.map Content.bytes) =
      (r.map fun c => [(utf8 slot.key, c)]).map fun es => es.flatMap Content.entryBytes := by
    intro r
    cases r with
    | none => rfl
    | some c => simp [append, key, Content.entryBytes]
  rw [hwritten]
  cases slot.test with
  | none => rfl
  | some test =>
    simp only [Option.bind_eq_bind]
    cases (Value.along v (slot.path ++ [slot.name])).bind test.presence? with
    | none => rfl
    | some present => cases present <;> rfl

theorem struct_writes {α : Type} {l : List α} {slot : α → Slot} {e : α → Encoder} {b : α → Builder}
    (h : ∀ a ∈ l, (e a).Writes (b a)) :
    (struct (l.map fun a => (slot a, e a))).Writes (.struct (l.map fun a => (slot a, b a))) := by
  intro v
  have hconcat : concat (l.map fun a => field (slot a) (e a) v) =
      (l.mapM fun a => Builder.field (slot a) (b a) v).map fun es => es.flatMap fun e => e.flatMap Content.entryBytes :=
    concat_map_eq fun a ha => field_writes (h a ha) v
  unfold struct Builder.struct
  rw [List.map_map, List.mapM_map]
  simp only [Function.comp_def, hconcat]
  cases l.mapM fun a => Builder.field (slot a) (b a) v with
  | none => rfl
  | some es =>
    have hflat : es.flatten.flatMap Content.entryBytes = es.flatMap fun e => e.flatMap Content.entryBytes := by
      rw [List.flatten_eq_flatMap, List.flatMap_assoc]
      rfl
    simp [framed_some, Content.bytes, Content.bytesOfEntries_eq_flatMap, hflat]

end Encoder

namespace TypeTable

open Compile

variable {t : TypeTable}

/-- **What is built for the key of a map is the key**, if its type is built on strings. -/
theorem contentFrom_key {key : TypeId} (hkey : t.isStringKey key = true) (opened : List TypeId) (k : Bytes) (c : Content)
    (hc : t.contentFrom opened key (some (.string k)) = some c) : c = .string k := by
  have hstr : t.get? (t.underlying key) = some (.scalar .str) := of_decide_eq_true hkey
  have hstring : Builder.string (some (.string k)) = some c → c = .string k := by
    intro h
    cases h
    rfl
  rw [contentFrom] at hc
  split at hc
  · cases hget : t.get? key with
    | none =>
      rw [hget] at hc
      cases hc
    | some d =>
      cases hd : d.isDeclared with
      | false =>
        rw [underlying_of_not_declared hget hd] at hstr
        simp only [hstr] at hc
        exact hstring hc
      | true =>
        cases d with
        | native e =>
          simp only [hget] at hc
          cases hc
        | named e =>
          simp only [hget] at hc
          rw [contentFrom] at hc
          split at hc
          · simp only [hstr] at hc
            exact hstring hc
          · cases hc
        | _ => cases hd
  · cases hc

/-- **Encoding writes what a value comes to**, by the same recursion, where the keys of maps are strings. -/
theorem encodeFrom_writes (opened : List TypeId) (id : TypeId)
    (hkeys : ∀ a, t.Expands id a → ∀ k v, t.get? a = some (.mapping k v) → t.isStringKey k = true) :
    (t.encodeFrom opened id).Writes (t.contentFrom opened id) := by
  rw [encodeFrom, contentFrom]
  by_cases hnew : id < t.size ∧ id ∉ opened
  · have hinner : ∀ b, t.Follows id b → (t.encodeFrom (id :: opened) b).Writes (t.contentFrom (id :: opened) b) :=
      fun b hb => encodeFrom_writes (id :: opened) b fun a ha => hkeys a (.head hb ha)
    rw [dif_pos hnew, dif_pos hnew]
    cases hget : t.get? id with
    | none => exact Encoder.writes_none
    | some d =>
      cases d with
      | native e => exact Encoder.native_writes
      | duration => exact Encoder.duration_writes
      | pointer target => exact Encoder.optional_writes (hinner _ (.holds (.target hget)))
      | sequence element kind => exact Encoder.list_writes (hinner _ (.holds (.element hget)))
      | mapping key value =>
        exact Encoder.map_writes (hinner _ (.holds (.key hget))) (hinner _ (.holds (.value hget)))
          (contentFrom_key (hkeys id (.refl id) key value hget) _)
      | struct members =>
        exact Encoder.struct_writes fun f hf => hinner _ (.holds (.field hget (mem_writingOrder.1 hf)))
      | named e => exact hinner _ (.base hget)
      | scalar kind =>
        cases kind with
        | bool => exact Encoder.bool_writes
        | int kind => exact Encoder.int_writes
        | str => exact Encoder.string_writes
        | float kind => exact Encoder.writes_none
  · rw [dif_neg hnew, dif_neg hnew]
    exact Encoder.writes_none
termination_by t.unseen opened
decreasing_by exact t.unseen_cons_lt hnew.1 hnew.2

/-- **A plan writes what the value comes to**, folded or not. -/
theorem written?_eq_content (h : t.Sound) {name : String} {id : TypeId} (hid : id < t.size) {p : Plan}
    (hp : result (t.compile name id) = .ok p) (hn : p.nesting < 65536) (v : Value) :
    (p.run v none).written? = (t.content id (some v)).map Content.bytes ∧
      (p.folded.run v none).written? = (t.content id (some v)).map Content.bytes := by
  have hwritable := (shape_ok_iff h hid).1 ((exists_result_compile_iff t name id).1 ⟨p, hp⟩)
  have hwrites := encodeFrom_writes [] id fun a ha => (hwritable a ha).1.key
  rw [Plan.run_folded, and_self, (gives_of_compile h hid hp hn v).written?]
  exact hwrites (some v)

end TypeTable
end BencodePlan
