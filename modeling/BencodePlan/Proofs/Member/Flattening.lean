import BencodePlan.Proofs.Member.Collected
import BencodePlan.Proofs.Schema.AliasCycles
/-!
# Collection is flattening

`Finds` says without the collection which members a struct has: its own, and in the place of an embedded one those of the
struct that is embedded, as long as its body is not open already.  A way to a member is the places of the members passed
on it, so the order of ways is depth-first declaration order.

Collection gives the members that are found in the order of the ways to them (`inOrder_collectFrom`).  As the members of a
struct have names of their own, the names along a way determine it (`way_unique`) and lead to the member again
(`memberAlong_of_finds`).
-/
namespace BencodePlan

/-! ## Lists in the order of ways -/

/-- **A list in the order of the ways to its entries**, which are those with a property. -/
def InOrder {α : Type} (P : List Nat → α → Prop) (l : List α) : Prop :=
  ∃ found : List (List Nat × α), l = found.map Prod.snd ∧ (found.map Prod.fst).Pairwise (· < ·) ∧
    ∀ way a, (way, a) ∈ found ↔ P way a

namespace InOrder

variable {α β : Type} {P Q : List Nat → α → Prop} {l : List α}

theorem congr (h : InOrder P l) (hPQ : ∀ way a, P way a ↔ Q way a) : InOrder Q l := by
  obtain ⟨found, hl, horder, hmem⟩ := h
  exact ⟨found, hl, horder, fun way a => (hmem way a).trans (hPQ way a)⟩

theorem nil (h : ∀ way a, ¬ P way a) : InOrder P [] :=
  ⟨[], rfl, .nil, fun way a => iff_of_false List.not_mem_nil (h way a)⟩

theorem singleton {a : α} (h : ∀ way b, P way b ↔ way = [] ∧ b = a) : InOrder P [a] := by
  refine ⟨[([], a)], rfl, List.pairwise_singleton _ _, fun way b => ?_⟩
  rw [List.mem_singleton, Prod.mk.injEq, h]

/-- **Lists in order, one after the other**, are in order when the place of each comes first in its ways. -/
theorem flatMap {g : β → List α} {R : β → List Nat → α → Prop} : ∀ (l : List β) (k : Nat),
    (∀ b ∈ l, InOrder (R b) (g b)) →
    InOrder (fun way a => ∃ i b w, l[i]? = some b ∧ way = (k + i) :: w ∧ R b w a) (l.flatMap g)
  | [], k, _ => .nil fun _ _ ⟨_, _, _, hi, _⟩ => by cases hi
  | b :: l, k, h => by
    obtain ⟨found, hfound, horder, hmem⟩ := h b List.mem_cons_self
    obtain ⟨more, hmore, horder', hmem'⟩ := flatMap l (k + 1) fun c hc => h c (List.mem_cons_of_mem _ hc)
    have hlater : ∀ p ∈ more, ∃ i w, p.1 = (k + 1 + i) :: w := by
      rintro ⟨way, a⟩ hp
      obtain ⟨i, -, w, -, rfl, -⟩ := (hmem' way a).1 hp
      exact ⟨i, w, rfl⟩
    refine ⟨found.map (fun p => (k :: p.1, p.2)) ++ more, ?_, ?_, fun way a => ?_⟩
    · rw [List.flatMap_cons, List.map_append, List.map_map, hfound, hmore]
      rfl
    · rw [List.map_append, List.map_map, List.pairwise_append]
      refine ⟨?_, horder', ?_⟩
      · rw [List.pairwise_map] at horder ⊢
        exact horder.imp fun hlt => List.cons_lt_cons_iff.2 (Or.inr ⟨rfl, hlt⟩)
      · intro w hw w' hw'
        obtain ⟨p, -, rfl⟩ := List.mem_map.1 hw
        obtain ⟨q, hq, rfl⟩ := List.mem_map.1 hw'
        obtain ⟨i, v, hv⟩ := hlater q hq
        rw [hv]
        exact List.cons_lt_cons_iff.2 (Or.inl (by omega))
    · rw [List.mem_append, hmem', List.mem_map]
      constructor
      · rintro (⟨⟨w, c⟩, hp, heq⟩ | ⟨i, c, w, hi, rfl, hR⟩)
        · cases heq
          exact ⟨0, b, w, rfl, rfl, (hmem w c).1 hp⟩
        · exact ⟨i + 1, c, w, hi, by rw [Nat.add_right_comm, Nat.add_assoc], hR⟩
      · rintro ⟨i, c, w, hi, rfl, hR⟩
        cases i with
        | zero =>
          cases hi
          exact Or.inl ⟨(w, a), (hmem w a).2 hR, rfl⟩
        | succ i => exact Or.inr ⟨i, c, w, hi, by rw [Nat.add_right_comm, Nat.add_assoc], hR⟩

end InOrder

/-! ## Members -/

namespace TypeTable

/-- **The members of a struct body that are not embedded**, each with the way to it and with the names of the embedded
members passed on it.  No body is entered that is open already. -/
inductive Finds (t : TypeTable) : List TypeId → TypeId → List Nat → List String → Member → Prop
  | here {opened : List TypeId} {body : TypeId} {ms : List Member} {i : Nat} {m : Member} :
      t.get? body = some (.struct ms) → ms[i]? = some m → m.embedded = false → Finds t opened body [i] [] m
  | inside {opened : List TypeId} {body : TypeId} {ms : List Member} {i : Nat} {e m : Member} {way : List Nat}
      {path : List String} : t.get? body = some (.struct ms) → ms[i]? = some e → e.embedded = true →
      t.isStruct (t.underlying e.type) = true → t.underlying e.type ∉ body :: opened →
      Finds t (body :: opened) (t.underlying e.type) way path m → Finds t opened body (i :: way) (e.name :: path) m

def memberOf (t : TypeTable) (type : TypeId) (name : String) : Option Member :=
  match t.get? (t.underlying type) with
  | some (.struct ms) => ms.find? fun m => m.name = name
  | _ => none

/-- **The member at the end of a path**, from one declared type to the next. -/
def memberAlong (t : TypeTable) : TypeId → List String → String → Option Member
  | type, [], name => t.memberOf type name
  | type, step :: path, name => (t.memberOf type step).bind fun m => t.memberAlong m.type path name

variable {t : TypeTable}

theorem Built.member_unique (h : t.Built) {body : TypeId} {ms ms' : List Member} (hget : t.get? body = some (.struct ms))
    (hget' : t.get? body = some (.struct ms')) {i j : Nat} {m n : Member} (hi : ms[i]? = some m) (hj : ms'[j]? = some n)
    (hname : m.name = n.name) : i = j ∧ m = n := by
  cases hget.symm.trans hget'
  have hname' : (ms.map Member.name)[i]? = (ms.map Member.name)[j]? := by
    rw [List.getElem?_map, List.getElem?_map, hi, hj, Option.map_some, Option.map_some, hname]
  have hlt : i < (ms.map Member.name).length := by
    rw [List.length_map]
    exact (List.getElem?_eq_some_iff.1 hi).1
  obtain rfl := (List.getElem?_inj hlt (h.distinct hget)).1 hname'
  exact ⟨rfl, Option.some.inj (hi.symm.trans hj)⟩

theorem memberOf_eq (h : t.Built) {type : TypeId} {ms : List Member} (hget : t.get? (t.underlying type) = some (.struct ms))
    {i : Nat} {m : Member} (hi : ms[i]? = some m) : t.memberOf type m.name = some m := by
  unfold memberOf
  rw [hget]
  have hfound : (ms.find? fun n => n.name = m.name).isSome = true :=
    List.find?_isSome.2 ⟨m, List.mem_of_getElem? hi, decide_eq_true rfl⟩
  obtain ⟨n, hn⟩ := Option.isSome_iff_exists.1 hfound
  have hname : n.name = m.name := by simpa using List.find?_some hn
  obtain ⟨j, hj⟩ := List.mem_iff_getElem?.1 (List.mem_of_find?_eq_some hn)
  rw [(h.member_unique hget hget hj hi hname).2] at hn
  exact hn

/-- **A path leads to the member that was found along it.** -/
theorem memberAlong_of_finds (h : t.Built) {opened : List TypeId} {body : TypeId} {way : List Nat} {path : List String}
    {m : Member} (hfinds : t.Finds opened body way path m) {type : TypeId} (htype : t.underlying type = body) :
    t.memberAlong type path m.name = some m := by
  induction hfinds generalizing type with
  | here hget hi _ =>
    subst htype
    exact memberOf_eq h hget hi
  | inside hget hi _ _ _ _ ih =>
    subst htype
    rw [memberAlong, memberOf_eq h hget hi]
    exact ih rfl

theorem embedded_of_finds {opened : List TypeId} {body : TypeId} {way : List Nat} {path : List String} {m : Member}
    (hfinds : t.Finds opened body way path m) : m.embedded = false := by
  induction hfinds with
  | here _ _ he => exact he
  | inside _ _ _ _ _ _ ih => exact ih

/-- **The names along a way determine it.** -/
theorem way_unique (h : t.Built) {opened : List TypeId} {body : TypeId} {way way' : List Nat} {path path' : List String}
    {m m' : Member} (hfinds : t.Finds opened body way path m) (hfinds' : t.Finds opened body way' path' m')
    (hnames : path ++ [m.name] = path' ++ [m'.name]) : way = way' := by
  induction hfinds generalizing way' path' m' with
  | here hget hi he =>
    cases hfinds' with
    | here hget' hi' _ => rw [(h.member_unique hget hget' hi hi' (List.cons.inj hnames).1).1]
    | inside hget' hi' he' _ _ _ =>
      obtain ⟨-, rfl⟩ := h.member_unique hget hget' hi hi' (List.cons.inj hnames).1
      rw [he] at he'
      cases he'
  | inside hget hi he _ _ _ ih =>
    cases hfinds' with
    | here hget' hi' he' =>
      obtain ⟨-, rfl⟩ := h.member_unique hget hget' hi hi' (List.cons.inj hnames).1
      rw [he] at he'
      cases he'
    | inside hget' hi' _ _ _ hinner =>
      obtain ⟨hname, hrest⟩ := List.cons.inj hnames
      obtain ⟨rfl, rfl⟩ := h.member_unique hget hget' hi hi' hname
      rw [ih hinner hrest]

/-- **No way is longer than the table**: each body on it is another one. -/
theorem length_path_lt {opened : List TypeId} {body : TypeId} {way : List Nat} {path : List String} {m : Member}
    (hfinds : t.Finds opened body way path m) (hdistinct : (body :: opened).Nodup)
    (hlt : ∀ id ∈ body :: opened, id < t.size) : opened.length + path.length < t.size := by
  induction hfinds with
  | here _ _ _ =>
    have hle := (hdistinct.subperm fun id hid => List.mem_range.2 (hlt id hid)).length_le
    rw [List.length_range, List.length_cons] at hle
    exact hle
  | inside _ _ _ hstruct hnew _ ih =>
    obtain ⟨ms, hms⟩ := (isStruct_iff _ _).1 hstruct
    have hlater := ih (List.nodup_cons.2 ⟨hnew, hdistinct⟩) (List.forall_mem_cons.2 ⟨get?_lt hms, hlt⟩)
    rw [List.length_cons] at hlater ⊢
    omega

end TypeTable

namespace Field

open TypeTable

variable {t : TypeTable}

def written (m : Member) (path : List String) : Field := ⟨m.name, path, m.type, (readTag "" m).value⟩

theorem tag_written (m : Member) (path : List String) (tag : Tag) :
    (written m path).tag = some tag ↔ ∃ text, m.tag = some text ∧ Tag.parse text = .ok tag := by
  unfold written readTag
  cases m.tag with
  | none => exact iff_of_false (fun h => by cases h) fun ⟨_, h, _⟩ => by cases h
  | some text =>
    simp only [Option.some.injEq, exists_eq_left']
    cases Tag.parse text with
    | ok tag' => simp only [Noted.value_pure, Option.some.injEq, Except.ok.injEq]
    | error e => exact iff_of_false (fun h => by cases h) fun h => by cases h

/-- **Collection gives the members that are found**, in the order of the ways to them. -/
theorem inOrder_collectFrom (opened : List TypeId) (path : List String) (owner : String) (body : TypeId)
    (hopened : body ∉ opened) {ms : List Member} (hget : t.get? body = some (.struct ms)) :
    InOrder (fun way f => ∃ inner m, t.Finds opened body way inner m ∧ f = written m (path ++ inner))
      (collectFrom t opened path owner body).value := by
  rw [value_collectFrom, if_pos ⟨get?_lt hget, hopened⟩, hget]
  have hmember : ∀ m ∈ ms, InOrder (fun way f => (m.embedded = false ∧ way = [] ∧ f = written m path) ∨
      (m.embedded = true ∧ t.isStruct (t.underlying m.type) = true ∧ t.underlying m.type ∉ body :: opened ∧
        ∃ inner n, t.Finds (body :: opened) (t.underlying m.type) way inner n ∧
          f = written n (path ++ m.name :: inner))) (ofMember t opened path body m) := by
    intro m hm
    unfold ofMember
    cases he : m.embedded with
    | false =>
      refine InOrder.singleton fun way f => ?_
      simp only [true_and, Bool.false_eq_true, false_and, or_false]
      exact Iff.rfl
    | true =>
      by_cases hopen : t.isStruct (t.underlying m.type) = true ∧ t.underlying m.type ∉ body :: opened
      · obtain ⟨inners, hinner⟩ := (isStruct_iff _ _).1 hopen.1
        rw [if_pos rfl, if_pos hopen]
        refine (inOrder_collectFrom (body :: opened) (path ++ [m.name]) m.name _ hopen.2 hinner).congr fun way f => ?_
        simp only [Bool.true_eq_false, false_and, false_or, true_and, hopen.1, hopen.2, not_false_eq_true,
          List.append_assoc, List.singleton_append]
      · rw [if_pos rfl, if_neg hopen]
        refine InOrder.nil fun way f => ?_
        rintro (⟨hno, -⟩ | ⟨-, hstruct, hnew, -⟩)
        · cases hno
        · exact hopen ⟨hstruct, hnew⟩
  refine (InOrder.flatMap ms 0 hmember).congr fun way f => ?_
  simp only [Nat.zero_add]
  constructor
  · rintro ⟨i, m, w, hi, rfl, ⟨he, rfl, rfl⟩ | ⟨he, hstruct, hnew, inner, n, hfinds, rfl⟩⟩
    · exact ⟨[], m, .here hget hi he, by rw [List.append_nil]⟩
    · exact ⟨m.name :: inner, n, .inside hget hi he hstruct hnew hfinds, rfl⟩
  · rintro ⟨inner, n, hfinds, rfl⟩
    cases hfinds with
    | here hget' hi he =>
      cases hget.symm.trans hget'
      exact ⟨_, n, [], hi, rfl, Or.inl ⟨he, rfl, by rw [List.append_nil]⟩⟩
    | inside hget' hi he hstruct hnew hfinds =>
      cases hget.symm.trans hget'
      exact ⟨_, _, _, hi, rfl, Or.inr ⟨he, hstruct, hnew, _, n, hfinds, rfl⟩⟩
termination_by t.unseen opened
decreasing_by exact t.unseen_cons_lt (get?_lt hget) hopened

end Field

namespace Schema

open TypeTable

theorem built_of_ofRaw {raw : RawSchema} {s : Schema} (hs : (ofRaw raw).value = .ok s) : s.table.Built := by
  obtain ⟨-, rfl⟩ := ofRaw_eq_ok_iff.1 hs
  exact (Lower.lowerAll_eq raw).1.built

/-- **Collection is exact flattening.**  A type that is built on a struct has the members that are found in the struct and
in those embedded in it, in depth-first declaration order.  The path of a field leads to its member, which gives it its name,
its type and its tag, is not embedded itself and is under that path alone.  Every other type has none. -/
theorem collect_flattens {raw : RawSchema} {s : Schema} (hs : (ofRaw raw).value = .ok s) (owner : String) (id : TypeId) :
    (s.table.isStruct (s.table.underlying id) = false → (Field.collect s.table owner id).value = []) ∧
    (s.table.isStruct (s.table.underlying id) = true →
      InOrder (fun way f => ∃ m, s.table.Finds [] (s.table.underlying id) way f.path m ∧ f = Field.written m f.path)
        (Field.collect s.table owner id).value ∧
      (∀ f ∈ (Field.collect s.table owner id).value, f.path.length < s.table.size ∧
        ∃ m, s.table.memberAlong id f.path f.name = some m ∧ m.embedded = false ∧ m.name = f.name ∧ m.type = f.type ∧
          ∀ tag, f.tag = some tag ↔ ∃ text, m.tag = some text ∧ Tag.parse text = .ok tag) ∧
      ((Field.collect s.table owner id).value.map fun f => f.path ++ [f.name]).Nodup) := by
  have hbuilt := built_of_ofRaw hs
  refine ⟨fun hno => Field.value_collectFrom_of_not_struct hno [] [] owner, fun hstruct => ?_⟩
  obtain ⟨ms, hms⟩ := (isStruct_iff _ _).1 hstruct
  have hroot : (s.table.underlying id :: []).Nodup ∧ ∀ a ∈ s.table.underlying id :: [], a < s.table.size :=
    ⟨List.nodup_singleton _, List.forall_mem_singleton.2 (get?_lt hms)⟩
  have horder : InOrder (fun way f => ∃ m, s.table.Finds [] (s.table.underlying id) way f.path m ∧
      f = Field.written m f.path) (Field.collect s.table owner id).value := by
    refine (Field.inOrder_collectFrom [] [] owner _ List.not_mem_nil hms).congr fun way f => ?_
    constructor
    · rintro ⟨inner, m, hfinds, rfl⟩
      exact ⟨m, hfinds, rfl⟩
    · rintro ⟨m, hfinds, hf⟩
      exact ⟨f.path, m, hfinds, hf⟩
  obtain ⟨found, hfound, hways, hmem⟩ := horder
  rw [hfound]
  refine ⟨⟨found, rfl, hways, hmem⟩, fun f hf => ?_, ?_⟩
  · obtain ⟨⟨way, f⟩, hp, rfl⟩ := List.mem_map.1 hf
    obtain ⟨m, hfinds, hf⟩ := (hmem way f).1 hp
    obtain ⟨name, path, type, tag⟩ := f
    cases hf
    refine ⟨?_, m, memberAlong_of_finds hbuilt hfinds rfl, embedded_of_finds hfinds, rfl, rfl,
      Field.tag_written m path⟩
    have hlt := length_path_lt hfinds hroot.1 hroot.2
    rwa [List.length_nil, Nat.zero_add] at hlt
  · rw [List.map_map, List.Nodup, List.pairwise_map]
    rw [List.pairwise_map] at hways
    refine hways.imp_of_mem ?_
    rintro ⟨way, f⟩ ⟨way', f'⟩ hp hp' hlt hnames
    obtain ⟨m, hfinds, hf⟩ := (hmem way f).1 hp
    obtain ⟨m', hfinds', hf'⟩ := (hmem way' f').1 hp'
    have hname : f.name = m.name := by rw [hf]; rfl
    have hname' : f'.name = m'.name := by rw [hf']; rfl
    have heq := way_unique hbuilt hfinds hfinds' (by rw [← hname, ← hname']; exact hnames)
    exact List.lt_irrefl way' (heq ▸ hlt)

def pageDocument : RawSchema :=
  ⟨none, [⟨"Stamp", some [⟨"Id", "i64", some "n", false⟩, ⟨"Note", "str", some "x,", false⟩], none, false⟩,
    ⟨"Page", some [⟨"Front", "Stamp", none, true⟩, ⟨"Title", "str", none, false⟩, ⟨"Back", "Seal", none, true⟩,
      ⟨"Next", "Page", none, true⟩], none, false⟩,
    ⟨"Seal", none, some "Stamp", false⟩]⟩

def pageTable : TypeTable :=
  let stamp : TypeDesc := .struct [⟨"Id", 3, some "n", false⟩, ⟨"Note", 4, some "x,", false⟩]
  let page : TypeDesc := .struct [⟨"Front", 0, none, true⟩, ⟨"Title", 4, none, false⟩, ⟨"Back", 2, none, true⟩,
    ⟨"Next", 1, none, true⟩]
  ⟨[.named ⟨"Stamp", some 5⟩, .named ⟨"Page", some 6⟩, .named ⟨"Seal", some 0⟩, .scalar (.int .i64), .scalar .str, stamp,
      page],
    [(.scalar (.int .i64), 3), (.scalar .str, 4), (stamp, 5), (page, 6)], [("Stamp", 0), ("Page", 1), ("Seal", 2)]⟩

theorem pageDocument_flattened : (ofRaw pageDocument).value = .ok ⟨none, pageTable⟩ ∧
    (Field.collect pageTable "Page" 1).value = [⟨"Id", ["Front"], 3, some ⟨some "n", false⟩⟩, ⟨"Note", ["Front"], 4, none⟩,
      ⟨"Title", [], 4, none⟩, ⟨"Id", ["Back"], 3, some ⟨some "n", false⟩⟩, ⟨"Note", ["Back"], 4, none⟩] ∧
    ∃ m, pageTable.memberAlong 1 ["Back"] "Id" = some m ∧ m.type = 3 ∧ ∃ text, m.tag = some text := by
  have hs : (ofRaw pageDocument).value = .ok ⟨none, pageTable⟩ := ofRaw_eq_ok (by decide +kernel)
  have hfields : (Field.collect pageTable "Page" 1).value = [⟨"Id", ["Front"], 3, some ⟨some "n", false⟩⟩,
      ⟨"Note", ["Front"], 4, none⟩, ⟨"Title", [], 4, none⟩, ⟨"Id", ["Back"], 3, some ⟨some "n", false⟩⟩,
      ⟨"Note", ["Back"], 4, none⟩] := by
    decide +kernel
  obtain ⟨-, hstruct⟩ := collect_flattens hs "Page" 1
  obtain ⟨-, hpaths, -⟩ := hstruct (by decide)
  obtain ⟨-, m, hm, -, -, htype, htag⟩ := hpaths ⟨"Id", ["Back"], 3, some ⟨some "n", false⟩⟩ (by rw [hfields]; decide)
  obtain ⟨text, htext, -⟩ := (htag _).1 rfl
  exact ⟨hs, hfields, m, hm, htype, text, htext⟩

end Schema
end BencodePlan
