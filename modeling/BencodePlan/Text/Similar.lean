/-!
# Words that look alike

How alike two words are, from 0 to 1, after Jaro: letters match if they are the same and not far apart, and the measure is
the mean of the matched share of each word and of the share of matched letters that stand in the same order.  A mistyped
word is close to the word that was meant, so the best of a list is worth naming in a message.
-/
namespace BencodePlan
namespace Text

/-- The first place of a letter that is not taken, from `low` up to and not including `high`. -/
def matchingPlace (word : List Char) (taken : List Nat) (low high : Nat) (c : Char) : Option Nat :=
  (List.range' low (min high word.length - low)).find? fun j => word[j]? = some c && !taken.contains j

/-- The letters of a word that have a match in another, from place `i` on, and the places taken for them. -/
def matching (other : List Char) (reach : Nat) (i : Nat) (taken : List Nat) : List Char → List Char × List Nat
  | [] => ([], taken)
  | c :: rest =>
    match matchingPlace other taken (i - reach) (i + reach + 1) c with
    | none => matching other reach (i + 1) taken rest
    | some j =>
      let more := matching other reach (i + 1) (j :: taken) rest
      (c :: more.1, more.2)

/-- **How alike two words are.** -/
def likeness (a b : List Char) : Float :=
  if a.isEmpty && b.isEmpty then 1
  else
    let found := matching b (max a.length b.length / 2 - 1) 0 [] a
    let inOrder := (List.range b.length).filterMap fun j => if found.2.contains j then b[j]? else none
    let swapped := ((found.1.zip inOrder).countP fun (x, y) => x != y) / 2
    let count := found.1.length
    if count = 0 then 0
    else
      (count.toFloat / a.length.toFloat + count.toFloat / b.length.toFloat +
        (count - swapped).toFloat / count.toFloat) / 3

def likenessFloor : Float := 0.7

/-- **The words that a word may be meant for**, the likeliest last. -/
def similar (word : String) (candidates : List String) : List String :=
  let rated := candidates.map fun c => (c, likeness word.toList c.toList)
  ((rated.filter fun r => likenessFloor < r.2).mergeSort fun a b => a.2 ≤ b.2).map (·.1)

end Text
end BencodePlan
