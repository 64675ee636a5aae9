import BencodePlan.Wire
import BencodePlan.Proofs.Text.Decimal
/-!
# Items and their reader

An item of the wire format is an integer, a byte string, a list of items, or a dictionary, whose keys are byte strings and
each followed by an item.  The reader goes through bytes from the front and says what item they begin with and what comes
after it.  It takes no second spelling: numbers have no zero in front and no plus sign, there is no negative zero, and a
string is as long as its mark says.  So it reads exactly what items are written as, whatever follows (`read_eq_some_iff`).
Dictionaries may have their keys in any order, and a key more than once.
-/
namespace BencodePlan
namespace Wire

inductive Item
  | int (n : Int)
  | string (bytes : Bytes)
  | list (items : List Item)
  | dict (entries : List (Bytes × Item))
  deriving Repr

/-! ## Numbers and marks -/

def letter (c : Char) : UInt8 := UInt8.ofNat c.toNat

def after? (c : Char) : Bytes → Option Bytes
  | x :: rest => if x = letter c then some rest else none
  | [] => none

def isDigit (x : UInt8) : Bool := 48 ≤ x && x ≤ 57

def numberTo? (stop : Char) (b : Bytes) : Option (Nat × Bytes) := do
  let n ← Text.number? ((b.takeWhile isDigit).map fun x => Char.ofNat x.toNat)
  return (n, ← after? stop (b.dropWhile isDigit))

def int? (b : Bytes) : Option (Int × Bytes) :=
  match after? '-' b with
  | some more => do
    let (n, rest) ← numberTo? 'e' more
    if n = 0 then none else some (-(n : Int), rest)
  | none => do
    let (n, rest) ← numberTo? 'e' b
    return ((n : Int), rest)

def string? (b : Bytes) : Option (Bytes × Bytes) := do
  let (n, rest) ← numberTo? ':' b
  if n ≤ rest.length then some (rest.take n, rest.drop n) else none

theorem after?_eq_some_iff {c : Char} {b rest : Bytes} : after? c b = some rest ↔ b = letter c :: rest := by
  cases b with
  | nil => simp [after?]
  | cons x b => by_cases h : x = letter c <;> simp [after?, h]

theorem after?_self (c : Char) (rest : Bytes) : after? c (letter c :: rest) = some rest := after?_eq_some_iff.2 rfl

@[simp] theorem ascii_cons (c : Char) (cs : List Char) : ascii (c :: cs) = letter c :: ascii cs := rfl

@[simp] theorem ascii_nil : ascii [] = [] := rfl

@[simp] theorem ascii_append (cs ds : List Char) : ascii (cs ++ ds) = ascii cs ++ ascii ds := List.map_append

theorem ascii_letters (b : Bytes) : ascii (b.map fun x => Char.ofNat x.toNat) = b := by
  have hone : ∀ n < 256, UInt8.ofNat (Char.ofNat n).toNat = UInt8.ofNat n := by decide +kernel
  unfold ascii
  rw [List.map_map]
  conv_rhs => rw [← List.map_id b]
  refine List.map_congr_left fun x _ => ?_
  exact (hone x.toNat x.toNat_lt).trans UInt8.ofNat_toNat

theorem letters_ascii {cs : List Char} (h : ∀ c ∈ cs, c.isDigit = true) :
    ((ascii cs).map fun x => Char.ofNat x.toNat) = cs := by
  unfold ascii
  rw [List.map_map]
  conv_rhs => rw [← List.map_id cs]
  refine List.map_congr_left fun c hc => ?_
  have hd : 48 ≤ c.toNat ∧ c.toNat ≤ 57 := Char.isDigit_iff_toNat.1 (h c hc)
  have hn : (UInt8.ofNat c.toNat).toNat = c.toNat := by
    rw [UInt8.toNat_ofNat']
    omega
  simp only [Function.comp_apply, hn, Char.ofNat_toNat, id_eq]

theorem isDigit_ascii {cs : List Char} (h : ∀ c ∈ cs, c.isDigit = true) : ∀ x ∈ ascii cs, isDigit x = true := by
  intro x hx
  obtain ⟨c, hc, rfl⟩ := List.mem_map.1 hx
  have hd : 48 ≤ c.toNat ∧ c.toNat ≤ 57 := Char.isDigit_iff_toNat.1 (h c hc)
  simp only [isDigit, Bool.and_eq_true, decide_eq_true_eq, UInt8.le_iff_toNat_le, UInt8.toNat_ofNat']
  simp
  omega

theorem numberTo?_eq_some_iff {stop : Char} (hstop : isDigit (letter stop) = false) {b rest : Bytes} {n : Nat} :
    numberTo? stop b = some (n, rest) ↔ b = ascii (Text.decimal n) ++ letter stop :: rest := by
  unfold numberTo?
  constructor
  · intro h
    obtain ⟨m, hm, h⟩ := Option.bind_eq_some_iff.1 h
    obtain ⟨rest', hrest, h⟩ := Option.bind_eq_some_iff.1 h
    cases h
    have hdigits : b.takeWhile isDigit = ascii (Text.decimal n) := by
      rw [← ascii_letters (b.takeWhile isDigit), Text.number?_eq_some_iff.1 hm]
    rw [← hdigits, ← after?_eq_some_iff.1 hrest, List.takeWhile_append_dropWhile]
  · rintro rfl
    have hdigits := isDigit_ascii (Text.isDigit_of_mem_decimal n)
    have htake : (ascii (Text.decimal n) ++ letter stop :: rest).takeWhile isDigit = ascii (Text.decimal n) := by
      rw [List.takeWhile_append_of_pos hdigits]
      simp [hstop]
    have hdrop : (ascii (Text.decimal n) ++ letter stop :: rest).dropWhile isDigit = letter stop :: rest := by
      rw [List.dropWhile_append_of_pos hdigits]
      simp [hstop]
    rw [htake, hdrop, letters_ascii (Text.isDigit_of_mem_decimal n), Text.number?_eq_some_iff.2 rfl, after?_self]
    rfl

theorem int?_eq_some_iff {b rest : Bytes} {i : Int} : int? b = some (i, rest) ↔ b = int i ++ letter 'e' :: rest := by
  have hend : isDigit (letter 'e') = false := by decide
  -- a number does not begin with a minus sign
  have hminus : ∀ n, after? '-' (ascii (Text.decimal n) ++ letter 'e' :: rest) = none := by
    intro n
    obtain ⟨c, cs, hcs⟩ := List.exists_cons_of_ne_nil (Text.decimal_ne_nil n)
    have hc := isDigit_ascii (Text.isDigit_of_mem_decimal n) (letter c) (by simp [hcs])
    have hne : letter c ≠ letter '-' := by
      intro heq
      rw [heq] at hc
      exact absurd hc (by decide)
    rw [hcs]
    simp [after?, hne]
  unfold int? int Text.signedDecimal
  constructor
  · intro h
    split at h
    · rename_i more hmore
      obtain ⟨⟨n, rest'⟩, hn, h⟩ := Option.bind_eq_some_iff.1 h
      have hread := (numberTo?_eq_some_iff hend).1 hn
      simp only at h
      split at h
      · cases h
      · rename_i hpos
        cases h
        rw [if_pos (by omega), after?_eq_some_iff.1 hmore, hread]
        simp
    · obtain ⟨⟨n, rest'⟩, hn, h⟩ := Option.bind_eq_some_iff.1 h
      have hread := (numberTo?_eq_some_iff hend).1 hn
      cases h
      rw [if_neg (by omega), hread, Int.natAbs_natCast]
  · intro h
    split at h
    · rename_i hneg
      have hcons : b = letter '-' :: (ascii (Text.decimal i.natAbs) ++ letter 'e' :: rest) := h
      rw [hcons, after?_self]
      simp only [(numberTo?_eq_some_iff hend).2 rfl, Option.bind_eq_bind, Option.bind_some]
      rw [if_neg (by omega), show (-(i.natAbs : Int)) = i by omega]
    · rename_i hpos
      rw [h, hminus]
      simp only [(numberTo?_eq_some_iff hend).2 rfl, Option.bind_eq_bind, Option.bind_some]
      rw [show (i.natAbs : Int) = i by omega]
      rfl

theorem string?_eq_some_iff {b rest k : Bytes} : string? b = some (k, rest) ↔ b = string k ++ rest := by
  have hcolon : isDigit (letter ':') = false := by decide
  have hstring : ∀ r, string k ++ r = ascii (Text.decimal k.length) ++ letter ':' :: (k ++ r) := by
    intro r
    simp [string, lengthMark]
  unfold string?
  constructor
  · intro h
    obtain ⟨⟨n, more⟩, hn, h⟩ := Option.bind_eq_some_iff.1 h
    have hread := (numberTo?_eq_some_iff hcolon).1 hn
    simp only at h
    split at h
    · rename_i hlen
      cases h
      rw [hstring, List.length_take, Nat.min_eq_left hlen, List.take_append_drop, hread]
    · cases h
  · rintro rfl
    rw [hstring, (numberTo?_eq_some_iff hcolon).2 rfl]
    simp

/-! ## Items -/

theorem string_eq_cons (k : Bytes) : ∃ x more, string k = x :: more ∧ isDigit x = true := by
  obtain ⟨c, cs, hcs⟩ := List.exists_cons_of_ne_nil (Text.decimal_ne_nil k.length)
  refine ⟨letter c, ascii cs ++ letter ':' :: k, by simp [string, lengthMark, hcs], ?_⟩
  exact isDigit_ascii (Text.isDigit_of_mem_decimal k.length) _ (by simp [hcs])

namespace Item

mutual
/-- **What an item is written as.** -/
def bytes : Item → Bytes
  | int n => letter 'i' :: Wire.int n ++ [letter 'e']
  | string k => Wire.string k
  | list items => letter 'l' :: bytesAll items ++ [letter 'e']
  | dict entries => letter 'd' :: bytesOfEntries entries ++ [letter 'e']
termination_by structural i => i

def bytesAll : List Item → Bytes
  | [] => []
  | i :: rest => i.bytes ++ bytesAll rest
termination_by structural items => items

def bytesOfEntries : List (Bytes × Item) → Bytes
  | [] => []
  | (k, i) :: rest => Wire.string k ++ i.bytes ++ bytesOfEntries rest
termination_by structural entries => entries
end

mutual
/-- **Read the item that bytes begin with**, and say what comes after it. -/
def read (b : Bytes) : Option (Item × Bytes) :=
  match b with
  | [] => none
  | x :: more =>
    if x = letter 'i' then (int? more).map fun p => (int p.1, p.2)
    else if x = letter 'l' then (readAll more).map fun p => (list p.1, p.2)
    else if x = letter 'd' then (readEntries more).map fun p => (dict p.1, p.2)
    else (string? (x :: more)).map fun p => (string p.1, p.2)
termination_by (b.length, 0)

def readAll (b : Bytes) : Option (List Item × Bytes) :=
  match after? 'e' b with
  | some rest => some ([], rest)
  | none =>
    match read b with
    | some (i, rest) => if rest.length < b.length then (readAll rest).map fun p => (i :: p.1, p.2) else none
    | none => none
termination_by (b.length, 1)

def readEntries (b : Bytes) : Option (List (Bytes × Item) × Bytes) :=
  match after? 'e' b with
  | some rest => some ([], rest)
  | none =>
    match string? b with
    | some (k, more) =>
      if more.length < b.length then
        match read more with
        | some (i, rest) => if rest.length < b.length then (readEntries rest).map fun p => ((k, i) :: p.1, p.2) else none
        | none => none
      else none
    | none => none
termination_by (b.length, 1)
end

/-! ## Items are read back, whatever follows -/

theorem read_cons_int (more : Bytes) : read (letter 'i' :: more) = (int? more).map fun p => (int p.1, p.2) := by
  rw [read, if_pos rfl]

theorem read_cons_list (more : Bytes) : read (letter 'l' :: more) = (readAll more).map fun p => (list p.1, p.2) := by
  rw [read, if_neg (by decide), if_pos rfl]

theorem read_cons_dict (more : Bytes) : read (letter 'd' :: more) = (readEntries more).map fun p => (dict p.1, p.2) := by
  rw [read, if_neg (by decide), if_neg (by decide), if_pos rfl]

theorem ne_letter_of_isDigit {x : UInt8} (hx : isDigit x = true) {c : Char} (hc : isDigit (letter c) = false) :
    x ≠ letter c := by
  rintro rfl
  rw [hc] at hx
  cases hx

theorem read_string (k rest : Bytes) : read (Wire.string k ++ rest) = some (string k, rest) := by
  have hread := string?_eq_some_iff.2 (rfl : Wire.string k ++ rest = Wire.string k ++ rest)
  obtain ⟨x, more, hx, hdigit⟩ := string_eq_cons k
  rw [hx, List.cons_append] at hread ⊢
  rw [read, if_neg (ne_letter_of_isDigit hdigit (by decide)), if_neg (ne_letter_of_isDigit hdigit (by decide)),
    if_neg (ne_letter_of_isDigit hdigit (by decide)), hread]
  rfl

theorem after?_bytes (i : Item) (rest : Bytes) : after? 'e' (i.bytes ++ rest) = none := by
  cases i with
  | int n => simp [bytes, after?, letter]
  | list items => simp [bytes, after?, letter]
  | dict entries => simp [bytes, after?, letter]
  | string k =>
    obtain ⟨x, more, hx, hdigit⟩ := string_eq_cons k
    simp [bytes, hx, after?, ne_letter_of_isDigit hdigit (show isDigit (letter 'e') = false by decide)]

theorem length_bytes_pos (i : Item) : 0 < i.bytes.length := by
  cases i with
  | string k =>
    obtain ⟨x, more, hx, -⟩ := string_eq_cons k
    simp [bytes, hx]
  | _ => simp [bytes]

mutual
theorem read_bytes : ∀ (i : Item) (rest : Bytes), read (i.bytes ++ rest) = some (i, rest)
  | .int n, rest => by
    have hread := int?_eq_some_iff.2 (rfl : Wire.int n ++ letter 'e' :: rest = _)
    simp only [bytes, List.cons_append, List.append_assoc, List.nil_append, read_cons_int, hread, Option.map_some]
  | .string k, rest => by rw [bytes, read_string]
  | .list items, rest => by
    simp only [bytes, List.cons_append, List.append_assoc, List.nil_append, read_cons_list, readAll_bytes items rest,
      Option.map_some]
  | .dict entries, rest => by
    simp only [bytes, List.cons_append, List.append_assoc, List.nil_append, read_cons_dict,
      readEntries_bytes entries rest, Option.map_some]
termination_by structural i => i

theorem readAll_bytes : ∀ (items : List Item) (rest : Bytes),
    readAll (bytesAll items ++ letter 'e' :: rest) = some (items, rest)
  | [], rest => by
    rw [readAll, bytesAll, List.nil_append, after?_self]
  | i :: items, rest => by
    have hread := read_bytes i (bytesAll items ++ letter 'e' :: rest)
    have hall := readAll_bytes items rest
    have hpos := length_bytes_pos i
    rw [readAll, bytesAll, List.append_assoc, after?_bytes]
    simp only [hread]
    rw [if_pos (by simp only [List.length_append]; omega), hall]
    rfl
termination_by structural items => items

theorem readEntries_bytes : ∀ (entries : List (Bytes × Item)) (rest : Bytes),
    readEntries (bytesOfEntries entries ++ letter 'e' :: rest) = some (entries, rest)
  | [], rest => by
    rw [readEntries, bytesOfEntries, List.nil_append, after?_self]
  | (k, i) :: entries, rest => by
    have hkey := string?_eq_some_iff.2
      (rfl : Wire.string k ++ (i.bytes ++ (bytesOfEntries entries ++ letter 'e' :: rest)) = _)
    have hread := read_bytes i (bytesOfEntries entries ++ letter 'e' :: rest)
    have hall := readEntries_bytes entries rest
    have hend := after?_bytes (.string k) (i.bytes ++ (bytesOfEntries entries ++ letter 'e' :: rest))
    have hpos := length_bytes_pos i
    have hposKey := length_bytes_pos (.string k)
    rw [bytes] at hend hposKey
    rw [readEntries, bytesOfEntries, List.append_assoc, List.append_assoc, hend]
    simp only [hkey]
    rw [if_pos (by simp only [List.length_append]; omega)]
    simp only [hread]
    rw [if_pos (by simp only [List.length_append]; omega), hall]
    rfl
termination_by structural entries => entries
end

/-! ## Nothing else is read -/

mutual
theorem eq_bytes_of_read {b rest : Bytes} {i : Item} (h : read b = some (i, rest)) : b = i.bytes ++ rest := by
  rw [read.eq_def] at h
  split at h
  · cases h
  · rename_i x more
    split at h
    · rename_i hx
      obtain ⟨⟨n, rest'⟩, hn, heq⟩ := Option.map_eq_some_iff.1 h
      cases heq
      rw [hx, int?_eq_some_iff.1 hn, bytes]
      simp
    · split at h
      · rename_i hx
        obtain ⟨⟨items, rest'⟩, hitems, heq⟩ := Option.map_eq_some_iff.1 h
        cases heq
        rw [hx, eq_bytes_of_readAll hitems, bytes]
        simp
      · split at h
        · rename_i hx
          obtain ⟨⟨entries, rest'⟩, hentries, heq⟩ := Option.map_eq_some_iff.1 h
          cases heq
          rw [hx, eq_bytes_of_readEntries hentries, bytes]
          simp
        · obtain ⟨⟨k, rest'⟩, hk, heq⟩ := Option.map_eq_some_iff.1 h
          cases heq
          rw [string?_eq_some_iff.1 hk, bytes]
termination_by (b.length, 0)

theorem eq_bytes_of_readAll {b rest : Bytes} {items : List Item} (h : readAll b = some (items, rest)) :
    b = bytesAll items ++ letter 'e' :: rest := by
  rw [readAll.eq_def] at h
  split at h
  · rename_i rest' hend
    cases h
    rw [after?_eq_some_iff.1 hend, bytesAll, List.nil_append]
  · split at h
    · rename_i i more hi
      split at h
      · rename_i hlt
        obtain ⟨⟨items', rest'⟩, hitems, heq⟩ := Option.map_eq_some_iff.1 h
        cases heq
        rw [eq_bytes_of_read hi, eq_bytes_of_readAll hitems, bytesAll, List.append_assoc]
      · cases h
    · cases h
termination_by (b.length, 1)

theorem eq_bytes_of_readEntries {b rest : Bytes} {entries : List (Bytes × Item)}
    (h : readEntries b = some (entries, rest)) : b = bytesOfEntries entries ++ letter 'e' :: rest := by
  rw [readEntries.eq_def] at h
  split at h
  · rename_i rest' hend
    cases h
    rw [after?_eq_some_iff.1 hend, bytesOfEntries, List.nil_append]
  · split at h
    · rename_i k more hk
      split at h
      · rename_i hlt
        split at h
        · rename_i i mid hi
          split at h
          · rename_i hlt'
            obtain ⟨⟨entries', rest'⟩, hentries, heq⟩ := Option.map_eq_some_iff.1 h
            cases heq
            rw [string?_eq_some_iff.1 hk, eq_bytes_of_read hi, eq_bytes_of_readEntries hentries, bytesOfEntries]
            simp
          · cases h
        · cases h
      · cases h
    · cases h
termination_by (b.length, 1)
end

/-- **Reading accepts exactly what items are written as.** -/
theorem read_eq_some_iff {b rest : Bytes} {i : Item} : read b = some (i, rest) ↔ b = i.bytes ++ rest :=
  ⟨eq_bytes_of_read, fun h => h ▸ read_bytes i rest⟩

end Item
end Wire
end BencodePlan
