import BencodePlan.Proofs.Encoding.Content
import Mathlib
/-!
# What is written reads back

Whatever a run writes is one item of the wire format, if the native values that it writes are: the reader goes through all
of it, and finds the tree that the value comes to (`output_reads_back`).  The framing letters are written by themselves, and
some of them may be merged with keys, so this is not a fact about single instructions.  It comes from the tree: each of its
nodes is written as the item is that it stands for (`exists_item`).
-/
namespace BencodePlan
namespace Content

open Wire

mutual
/-- **The item that stands for a tree**, with native values as what they decode to. -/
def item? : Content → Option Item
  | int n => some (.int n)
  | string k => some (.string k)
  | native b =>
    match Item.read b with
    | some (i, []) => some i
    | _ => none
  | list items => (itemsOf? items).map .list
  | dict entries => (entriesOf? entries).map .dict
termination_by structural c => c

def itemsOf? : List Content → Option (List Item)
  | [] => some []
  | c :: rest => do return (← c.item?) :: (← itemsOf? rest)
termination_by structural items => items

def entriesOf? : List (Bytes × Content) → Option (List (Bytes × Item))
  | [] => some []
  | (k, c) :: rest => do return (k, ← c.item?) :: (← entriesOf? rest)
termination_by structural entries => entries
end

mutual
/-- **The native values in a tree.** -/
def natives : Content → List Bytes
  | int _ => []
  | string _ => []
  | native b => [b]
  | list items => nativesOfAll items
  | dict entries => nativesOfEntries entries
termination_by structural c => c

def nativesOfAll : List Content → List Bytes
  | [] => []
  | c :: rest => c.natives ++ nativesOfAll rest
termination_by structural items => items

def nativesOfEntries : List (Bytes × Content) → List Bytes
  | [] => []
  | (_, c) :: rest => c.natives ++ nativesOfEntries rest
termination_by structural entries => entries
end

def IsItem (b : Bytes) : Prop := ∃ i, Item.read b = some (i, [])

mutual
/-- **A tree is written as its item is**, if its native values are items. -/
theorem exists_item : ∀ c : Content, (∀ b ∈ c.natives, IsItem b) → ∃ i, c.item? = some i ∧ c.bytes = i.bytes
  | .int n, _ => ⟨.int n, rfl, rfl⟩
  | .string k, _ => ⟨.string k, rfl, rfl⟩
  | .native b, h => by
    obtain ⟨i, hi⟩ := h b (by simp [natives])
    have hb := Item.read_eq_some_iff.1 hi
    rw [List.append_nil] at hb
    exact ⟨i, by simp only [item?, hi], hb⟩
  | .list items, h => by
    obtain ⟨is, his, hb⟩ := exists_itemsOf items h
    exact ⟨.list is, by rw [item?, his]; rfl, by rw [bytes, Item.bytes, hb]⟩
  | .dict entries, h => by
    obtain ⟨es, hes, hb⟩ := exists_entriesOf entries h
    exact ⟨.dict es, by rw [item?, hes]; rfl, by rw [bytes, Item.bytes, hb]⟩
termination_by structural c => c

theorem exists_itemsOf : ∀ items : List Content, (∀ b ∈ nativesOfAll items, IsItem b) →
    ∃ is, itemsOf? items = some is ∧ bytesAll items = Item.bytesAll is
  | [], _ => ⟨[], rfl, rfl⟩
  | c :: rest, h => by
    obtain ⟨i, hi, hb⟩ := exists_item c fun b hb => h b (by simp [nativesOfAll, hb])
    obtain ⟨is, his, hbs⟩ := exists_itemsOf rest fun b hb => h b (by simp [nativesOfAll, hb])
    exact ⟨i :: is, by rw [itemsOf?, hi, his]; rfl, by rw [bytesAll, Item.bytesAll, hb, hbs]⟩
termination_by structural items => items

theorem exists_entriesOf : ∀ entries : List (Bytes × Content), (∀ b ∈ nativesOfEntries entries, IsItem b) →
    ∃ es, entriesOf? entries = some es ∧ bytesOfEntries entries = Item.bytesOfEntries es
  | [], _ => ⟨[], rfl, rfl⟩
  | (k, c) :: rest, h => by
    obtain ⟨i, hi, hb⟩ := exists_item c fun b hb => h b (by simp [nativesOfEntries, hb])
    obtain ⟨es, hes, hbs⟩ := exists_entriesOf rest fun b hb => h b (by simp [nativesOfEntries, hb])
    exact ⟨(k, i) :: es, by rw [entriesOf?, hi, hes]; rfl,
      by rw [bytesOfEntries, Item.bytesOfEntries, hb, hbs]⟩
termination_by structural entries => entries
end

theorem read_bytes_of_natives {c : Content} (h : ∀ b ∈ c.natives, IsItem b) :
    ∃ i, c.item? = some i ∧ Item.read c.bytes = some (i, []) := by
  obtain ⟨i, hi, hb⟩ := exists_item c h
  exact ⟨i, hi, Item.read_eq_some_iff.2 (by rw [hb, List.append_nil])⟩

end Content

namespace Schema

open TypeTable Compile Wire

/-- **What a run writes is one item**, the one that the value comes to, if the native values it writes are items. -/
theorem output_reads_back {raw : RawSchema} {s : Schema} (hs : (ofRaw raw).value = .ok s) {name : String} {id : TypeId}
    (hid : id < s.table.size) {p : Plan} (hp : result (s.table.compile name id) = .ok p) (hn : p.nesting < 65536)
    {v : Value} {out : Bytes} (hrun : (p.run v none).written? = some out ∨ (p.folded.run v none).written? = some out) :
    ∃ c, s.table.content id (some v) = some c ∧ c.bytes = out ∧
      ((∀ b ∈ c.natives, Content.IsItem b) → ∃ i, c.item? = some i ∧ Item.read out = some (i, [])) := by
  obtain ⟨hplain, hfolded⟩ := written?_eq_content (sound_of_ofRaw hs) hid hp hn v
  rw [hplain, hfolded, or_self] at hrun
  obtain ⟨c, hc, rfl⟩ := Option.map_eq_some_iff.1 hrun
  exact ⟨c, hc, rfl, Content.read_bytes_of_natives⟩

def shelfDocument : RawSchema :=
  ⟨none, [⟨"Blob", none, none, true⟩, ⟨"Shelf", none, some "Map<str, Vec<Blob>>", false⟩]⟩

def shelfTable : TypeTable :=
  ⟨[.native ⟨"Blob", none⟩, .named ⟨"Shelf", some 4⟩, .scalar .str, .sequence 0 .slice, .mapping 2 3],
    [(.scalar .str, 2), (.sequence 0 .slice, 3), (.mapping 2 3, 4)], [("Blob", 0), ("Shelf", 1)]⟩

def shelfPlan : Plan :=
  ⟨"Shelf", [.ascii "d", .map .root 0 none [.string (.key 0), .ascii "l",
    .list (.value .root 0) 1 [.native (.elem 1)], .ascii "e"], .ascii "e"]⟩

def shelf : Value := .map [(.string [98], .list [.native (ascii "i7e".toList)]), (.string [97], .list [])]

def shelfContent : Content := .dict [([97], .list []), ([98], .list [.native (ascii "i7e".toList)])]

theorem shelf_reads_back : (ofRaw shelfDocument).value = .ok ⟨none, shelfTable⟩ ∧
    Item.read (ascii "d1:ale1:bli7eee".toList) = some (.dict [([97], .list []), ([98], .list [.int 7])], []) := by
  have hs : (ofRaw shelfDocument).value = .ok ⟨none, shelfTable⟩ := ofRaw_eq_ok (by decide +kernel)
  have hp : result (shelfTable.compile "Shelf" 1) = .ok shelfPlan := by cbv
  have hcontent : shelfTable.content 1 (some shelf) = some shelfContent := by cbv
  have hrun : (shelfPlan.folded.run shelf none).written? = some (ascii "d1:ale1:bli7eee".toList) := by cbv
  have hblob : Item.read (ascii "i7e".toList) = some (.int 7, []) := Item.read_eq_some_iff.2 (by decide +kernel)
  obtain ⟨c, hc, -, hread⟩ := output_reads_back hs (by decide) hp (by decide) (Or.inr hrun)
  obtain rfl : shelfContent = c := Option.some.inj (hcontent.symm.trans hc)
  obtain ⟨i, hi, hout⟩ := hread fun b hb => ⟨.int 7, by rw [List.mem_singleton.1 hb, hblob]⟩
  simp only [shelfContent, Content.item?, Content.itemsOf?, Content.entriesOf?, hblob] at hi
  refine ⟨hs, ?_⟩
  rw [hout]
  cases hi
  rfl

end Schema
end BencodePlan
