import BencodePlan.Proofs.Encoding.Plan
import BencodePlan.Proofs.Shape.Circles
/-!
# Plans encode values by their types

A shape that fits a type encodes as the type does (`encodeFrom_of_shapes`): on the way down no type is opened inside itself,
as the expansion of a type that has a shape is well-founded.  With what the plan of a shape gives this makes compiling and
running the same as encoding by the type (`run_eq_encode`), for every value, whether it suits the type or not.
-/
namespace BencodePlan
namespace TypeTable

open Relation

variable {t : TypeTable}

theorem not_mem_of_endsAt {opened : List TypeId} {id : TypeId} (hends : t.EndsAt id)
    (hopened : ∀ a ∈ opened, TransGen t.Follows a id) : id ∉ opened :=
  fun hm => not_containsItself_of_endsAt hends (hopened id hm)

theorem encodeFrom_base (h : t.Sound) {opened : List TypeId} {id : TypeId} (hid : id < t.size) (hends : t.EndsAt id)
    (hopened : ∀ a ∈ opened, TransGen t.Follows a id) :
    ∃ opened', t.base id < t.size ∧ t.base id ∉ opened' ∧
      (∀ a ∈ opened', TransGen t.Follows a (t.base id)) ∧ t.encodeFrom opened id = t.encodeFrom opened' (t.base id) := by
  have hnew := not_mem_of_endsAt hends hopened
  obtain ⟨d, hget⟩ := exists_get? hid
  by_cases hb : t.base id = id
  · rw [hb]
    exact ⟨opened, hid, hnew, hopened, rfl⟩
  · cases d with
    | named d =>
      have hf : t.Follows id (t.underlying id) := .base hget
      have hbase : t.base id = t.underlying id := base_of_not_native hget fun _ hne => by cases hne
      have hopened' : ∀ a ∈ id :: opened, TransGen t.Follows a (t.underlying id) := by
        intro a ha
        rcases List.mem_cons.1 ha with rfl | ha
        · exact .single hf
        · exact (hopened a ha).tail hf
      rw [hbase]
      refine ⟨id :: opened, hf.lt_size h, not_mem_of_endsAt (hends.inv hf) hopened', hopened', ?_⟩
      rw [encodeFrom, dif_pos ⟨hid, hnew⟩]
      simp only [hget]
    | native d => exact absurd (base_of_native hget) hb
    | _ => exact absurd (base_of_structural hget rfl) hb

theorem opened_cons {opened : List TypeId} {a b : TypeId} (hopened : ∀ c ∈ opened, TransGen t.Follows c a)
    (hf : t.Follows a b) : ∀ c ∈ a :: opened, TransGen t.Follows c b := by
  intro c hc
  rcases List.mem_cons.1 hc with rfl | hc
  · exact .single hf
  · exact (hopened c hc).tail hf

mutual
/-- **A shape encodes as the type it fits.** -/
theorem encodeFrom_of_shapes (h : t.Sound) : ∀ (s : Shape) {opened : List TypeId} {id : TypeId}, id < t.size →
    (∀ a ∈ opened, TransGen t.Follows a id) → t.Shapes s id → t.encodeFrom opened id = s.encode
  | .native, opened, id, hid, hopened, hs => by
    obtain ⟨opened', hlt, hnew, -, heq⟩ := encodeFrom_base h hid (Shapes.endsAt h _ id hs) hopened
    rw [Shapes] at hs
    obtain ⟨d, hget⟩ := (isNative_iff _ _).1 hs
    rw [heq, encodeFrom, dif_pos ⟨hlt, hnew⟩, Shape.encode]
    simp only [hget]
  | .duration, opened, id, hid, hopened, hs => by
    obtain ⟨opened', hlt, hnew, -, heq⟩ := encodeFrom_base h hid (Shapes.endsAt h _ id hs) hopened
    rw [Shapes] at hs
    rw [heq, encodeFrom, dif_pos ⟨hlt, hnew⟩, Shape.encode]
    simp only [hs]
  | .bool, opened, id, hid, hopened, hs => by
    obtain ⟨opened', hlt, hnew, -, heq⟩ := encodeFrom_base h hid (Shapes.endsAt h _ id hs) hopened
    rw [Shapes] at hs
    rw [heq, encodeFrom, dif_pos ⟨hlt, hnew⟩, Shape.encode]
    simp only [hs]
  | .int, opened, id, hid, hopened, hs => by
    obtain ⟨opened', hlt, hnew, -, heq⟩ := encodeFrom_base h hid (Shapes.endsAt h _ id hs) hopened
    rw [Shapes] at hs
    obtain ⟨kind, hget⟩ := hs
    rw [heq, encodeFrom, dif_pos ⟨hlt, hnew⟩, Shape.encode]
    simp only [hget]
  | .string, opened, id, hid, hopened, hs => by
    obtain ⟨opened', hlt, hnew, -, heq⟩ := encodeFrom_base h hid (Shapes.endsAt h _ id hs) hopened
    rw [Shapes] at hs
    rw [heq, encodeFrom, dif_pos ⟨hlt, hnew⟩, Shape.encode]
    simp only [hs]
  | .optional inner, opened, id, hid, hopened, hs => by
    obtain ⟨opened', hlt, hnew, hopened', heq⟩ := encodeFrom_base h hid (Shapes.endsAt h _ id hs) hopened
    rw [Shapes] at hs
    obtain ⟨target, hget, hi⟩ := hs
    have hf : t.Follows (t.base id) target := .holds (.target hget)
    rw [heq, encodeFrom, dif_pos ⟨hlt, hnew⟩, Shape.encode]
    simp only [hget]
    rw [encodeFrom_of_shapes h inner (hf.lt_size h) (opened_cons hopened' hf) hi]
  | .list inner, opened, id, hid, hopened, hs => by
    obtain ⟨opened', hlt, hnew, hopened', heq⟩ := encodeFrom_base h hid (Shapes.endsAt h _ id hs) hopened
    rw [Shapes] at hs
    obtain ⟨element, kind, hget, hi⟩ := hs
    have hf : t.Follows (t.base id) element := .holds (.element hget)
    rw [heq, encodeFrom, dif_pos ⟨hlt, hnew⟩, Shape.encode]
    simp only [hget]
    rw [encodeFrom_of_shapes h inner (hf.lt_size h) (opened_cons hopened' hf) hi]
  | .map cast key value, opened, id, hid, hopened, hs => by
    obtain ⟨opened', hlt, hnew, hopened', heq⟩ := encodeFrom_base h hid (Shapes.endsAt h _ id hs) hopened
    rw [Shapes] at hs
    obtain ⟨k, v, hget, -, -, hk, hv⟩ := hs
    have hfk : t.Follows (t.base id) k := .holds (.key hget)
    have hfv : t.Follows (t.base id) v := .holds (.value hget)
    rw [heq, encodeFrom, dif_pos ⟨hlt, hnew⟩, Shape.encode]
    simp only [hget]
    rw [encodeFrom_of_shapes h key (hfk.lt_size h) (opened_cons hopened' hfk) hk,
      encodeFrom_of_shapes h value (hfv.lt_size h) (opened_cons hopened' hfv) hv]
  | .struct fields, opened, id, hid, hopened, hs => by
    obtain ⟨opened', hlt, hnew, hopened', heq⟩ := encodeFrom_base h hid (Shapes.endsAt h _ id hs) hopened
    rw [Shapes] at hs
    obtain ⟨⟨ms, hget⟩, hfs⟩ := hs
    have hf : ∀ f ∈ writingOrder (t.fieldsOf (t.base id)), t.Follows (t.base id) f.type :=
      fun f hm => .holds (.field hget (mem_writingOrder.1 hm))
    rw [heq, encodeFrom, dif_pos ⟨hlt, hnew⟩, Shape.encode]
    simp only [hget]
    rw [encoders_of_shapesAll h fields (fun f hm => (hf f hm).lt_size h) (fun f hm => opened_cons hopened' (hf f hm)) hfs]
termination_by structural s => s

theorem encoders_of_shapesAll (h : t.Sound) : ∀ (fields : List (Slot × Shape)) {opened : List TypeId} {fs : List Field},
    (∀ f ∈ fs, f.type < t.size) → (∀ f ∈ fs, ∀ a ∈ opened, TransGen t.Follows a f.type) → t.ShapesAll fields fs →
    fs.map (fun f => (t.slot f, t.encodeFrom opened f.type)) = Shape.encoders fields
  | [], opened, fs, _, _, hs => by
    rw [ShapesAll] at hs
    rw [hs]
    rfl
  | (slot, s) :: rest, opened, fs, hlt, hopened, hs => by
    rw [ShapesAll] at hs
    obtain ⟨f, more, rfl, rfl, -, hf, hmore⟩ := hs
    rw [List.map_cons, Shape.encoders,
      encodeFrom_of_shapes h s (hlt f List.mem_cons_self) (hopened f List.mem_cons_self) hf,
      encoders_of_shapesAll h rest (fun g hg => hlt g (List.mem_cons_of_mem _ hg))
        (fun g hg => hopened g (List.mem_cons_of_mem _ hg)) hmore]
termination_by structural fields => fields
end

theorem encode_of_shapes (h : t.Sound) {s : Shape} {id : TypeId} (hid : id < t.size) (hs : t.Shapes s id) :
    t.encode id = s.encode :=
  encodeFrom_of_shapes h s hid (fun _ ha => nomatch ha) hs

theorem exists_shapes_of_compile (h : t.Sound) {name : String} {id : TypeId} (hid : id < t.size) {p : Plan}
    (hp : (t.compile name id).result = .ok p) : ∃ s, t.Shapes s id ∧ p.body = s.plan .root 0 := by
  rw [result_compile] at hp
  cases hr : (t.shape id).result with
  | error e =>
    rw [hr] at hp
    cases hp
  | ok s =>
    rw [hr] at hp
    cases hp
    exact ⟨s, shapes_of_result h (w := t.startWalk [] id) hid hr, rfl⟩

/-- **A plan gives what its type encodes.** -/
theorem gives_of_compile (h : t.Sound) {name : String} {id : TypeId} (hid : id < t.size) {p : Plan}
    (hp : (t.compile name id).result = .ok p) (hn : p.nesting < 65536) (v : Value) :
    (p.run v none).Gives (.start none) (t.encode id (some v)) := by
  obtain ⟨shape, hshape, hbody⟩ := exists_shapes_of_compile h hid hp
  rw [encode_of_shapes h hid hshape]
  unfold Plan.nesting at hn
  unfold Plan.run
  rw [hbody] at hn ⊢
  exact Shape.plan_gives v shape State.inside_start (Reads.root v 0 _) (by rw [Nat.zero_add]; exact hn)

end TypeTable

namespace Schema

open TypeTable Compile

/-- **Compiling a type and running its plan is encoding by the type.** -/
theorem run_eq_encode {raw : RawSchema} {s : Schema} (hs : (ofRaw raw).value = .ok s) {name : String} {id : TypeId}
    (hid : id < s.table.size) {p : Plan} (hp : result (s.table.compile name id) = .ok p) (hn : p.nesting < 65536)
    (v : Value) : (p.run v none).written? = s.table.encode id (some v) ∧
      (p.folded.run v none).written? = s.table.encode id (some v) := by
  rw [Plan.run_folded, and_self]
  exact (gives_of_compile (sound_of_ofRaw hs) hid hp hn v).written?

def rowsDocument : RawSchema := ⟨none, [⟨"Rows", none, some "Vec<Vec<i64>>", false⟩]⟩

def rowsTable : TypeTable :=
  ⟨[.named ⟨"Rows", some 3⟩, .scalar (.int .i64), .sequence 1 .slice, .sequence 2 .slice],
    [(.scalar (.int .i64), 1), (.sequence 1 .slice, 2), (.sequence 2 .slice, 3)], [("Rows", 0)]⟩

def rowsPlan : Plan :=
  ⟨"Rows", [.ascii "l",
    .list .root 0 [.ascii "l", .list (.elem 0) 1 [.ascii "i", .int (.elem 1), .ascii "e"], .ascii "e"], .ascii "e"]⟩

def rows : Value := .list [.list [.int 1, .int (-2)], .list []]

theorem rows_encoded : (ofRaw rowsDocument).value = .ok ⟨none, rowsTable⟩ ∧
    rowsTable.encode 0 (some rows) = some (Wire.ascii "lli1ei-2eelee".toList) := by
  have hs : (ofRaw rowsDocument).value = .ok ⟨none, rowsTable⟩ := ofRaw_eq_ok (by decide +kernel)
  have hp : result (rowsTable.compile "Rows" 0) = .ok rowsPlan := by cbv
  refine ⟨hs, ?_⟩
  rw [← (run_eq_encode hs (by decide) hp (by decide) rows).1]
  decide +kernel

def emptyDocument : RawSchema :=
  ⟨none, [⟨"Empty", some [], none, false⟩, ⟨"Maybe", none, some "Option<Empty>", false⟩]⟩

def emptyTable : TypeTable :=
  ⟨[.named ⟨"Empty", some 2⟩, .named ⟨"Maybe", some 3⟩, .struct [], .pointer 0], [(.struct [], 2), (.pointer 0, 3)],
    [("Empty", 0), ("Maybe", 1)]⟩

/-- **An absent value is written** where nothing of it has to be read, although the reference to it is not there. -/
theorem absent_written : (ofRaw emptyDocument).value = .ok ⟨none, emptyTable⟩ ∧
    emptyTable.underlyingDesc 1 = some (.pointer 0) ∧
    ∃ p, result (emptyTable.compile "Maybe" 1) = .ok p ∧ (p.run .null none).written? = some (Wire.ascii ['d', 'e']) :=
  ⟨ofRaw_eq_ok (by decide +kernel), rfl, ⟨"Maybe", [.ascii "d", .ascii "e"]⟩, by cbv, by decide +kernel⟩

end Schema
end BencodePlan
