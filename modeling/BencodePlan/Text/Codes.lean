/-!
# Terminal codes in a text

What a user wrote may hold codes that a terminal would obey instead of showing them: the escape character and what
belongs to it, which may be a single character, a sequence with numbers, or a whole string with an end of its own.  Where
a message repeats such a text to a reader of plain text, the codes are taken out (`withoutCodes`), and with them every
control character that is no space.

A code ends where its form says.  A text that breaks off inside a code loses what stands there.  What is left is plain
(`isPlain_of_mem_shownFrom`), and a plain text stays as it is (`withoutCodes_of_plain`).
-/
namespace BencodePlan
namespace Text

/-- Where in a text and its codes a character stands. -/
inductive CodePlace
  /-- Outside every code. -/
  | outside
  /-- After the escape character. -/
  | escape
  /-- In a code that began with a mark after the escape character. -/
  | marked
  /-- In a sequence of numbers, which a letter ends. -/
  | sequence
  /-- At the beginning of a string for a device, which has numbers and marks before it. -/
  | device
  | deviceNumbers
  | deviceMarks
  /-- In a string that only an escape character or a string terminator ends. -/
  | string
  /-- In a string that a bell may end. -/
  | title
  deriving DecidableEq, Repr

/-- Controls that are spaces: a code may hold them, and they are shown for all that. -/
def isSpaceControl (c : Char) : Bool :=
  c = '\t' || c = '\n' || c.toNat = 0x0c || c = '\r'

def isPlain (c : Char) : Bool :=
  isSpaceControl c || (0x20 ≤ c.toNat && c.toNat < 0x7f) || 0x80 ≤ c.toNat

/-- A character that the string terminator, the byte 9c, is a part of. -/
def holdsTerminator (c : Char) : Bool :=
  (String.utf8EncodeChar c).contains 0x9c

namespace CodePlace

/-- Where the next character stands, and whether this one is shown. -/
def step (p : CodePlace) (c : Char) : CodePlace × Bool :=
  let n := c.toNat
  if n = 0x1b then (.escape, false)
  else if n = 0x18 || n = 0x1a then (.outside, false)
  else
    match p with
    | .outside => (.outside, isPlain c)
    | .escape =>
      if n < 0x20 then (.escape, isSpaceControl c)
      else if n < 0x30 then (.marked, false)
      else if c = '[' then (.sequence, false)
      else if c = ']' then (.title, false)
      else if c = 'P' then (.device, false)
      else if c = 'X' || c = '^' || c = '_' then (.string, false)
      else if n < 0x7f then (.outside, false)
      else (.escape, false)
    | .marked =>
      if 0x30 ≤ n && n < 0x7f then (.outside, false) else (.marked, isSpaceControl c)
    | .sequence =>
      if 0x40 ≤ n && n < 0x7f then (.outside, false) else (.sequence, isSpaceControl c)
    | .device =>
      if n < 0x20 || 0x7f ≤ n then (.device, false)
      else if n < 0x30 then (.deviceMarks, false)
      else if n < 0x40 then (.deviceNumbers, false)
      else (.string, false)
    | .deviceNumbers =>
      if n < 0x20 || 0x7f ≤ n then (.deviceNumbers, false)
      else if n < 0x30 then (.deviceMarks, false)
      else if n < 0x3c then (.deviceNumbers, false)
      else (.string, false)
    | .deviceMarks =>
      if n < 0x30 || 0x7f ≤ n then (.deviceMarks, false) else (.string, false)
    | .string => (if 0x80 ≤ n && holdsTerminator c then .outside else .string, false)
    | .title => (if n = 0x07 then .outside else .title, false)

/-- Only what is plain is ever shown. -/
theorem isPlain_of_step (p : CodePlace) (c : Char) (h : (p.step c).2 = true) : isPlain c = true := by
  have space : ∀ c : Char, isSpaceControl c = true → isPlain c = true := fun c hc => by simp [isPlain, hc]
  cases p <;> grind [step]

end CodePlace

/-- The characters that are shown of a text from some place on.  A space inside a code interrupts it (`running`): what
is plain after the space is shown, and the code goes on at the next character that is not; a character beyond ASCII
ends it. -/
def shownFrom (p : CodePlace) (running : Bool) : List Char → List Char
  | [] => []
  | c :: cs =>
    if running && isPlain c then c :: shownFrom (if c.toNat < 0x80 then p else .outside) true cs
    else if (p.step c).2 then c :: shownFrom (p.step c).1 true cs
    else shownFrom (p.step c).1 false cs

theorem isPlain_of_mem_shownFrom : ∀ (p : CodePlace) (running : Bool) (cs : List Char),
    ∀ c ∈ shownFrom p running cs, isPlain c = true
  | _, _, [], _, h => absurd h List.not_mem_nil
  | p, running, d :: ds, c, h => by
    rw [shownFrom] at h
    split at h
    · rename_i hd
      rcases List.mem_cons.1 h with rfl | h
      · exact (Bool.and_eq_true_iff.1 hd).2
      · exact isPlain_of_mem_shownFrom _ _ ds c h
    · split at h
      · rename_i hk
        rcases List.mem_cons.1 h with rfl | h
        · exact p.isPlain_of_step c hk
        · exact isPlain_of_mem_shownFrom _ _ ds c h
      · exact isPlain_of_mem_shownFrom _ _ ds c h

theorem shownFrom_of_plain : ∀ (p : CodePlace) (cs : List Char), (∀ c ∈ cs, isPlain c = true) →
    shownFrom p true cs = cs
  | _, [], _ => rfl
  | p, c :: cs, h => by
    have hc : isPlain c = true := h c List.mem_cons_self
    rw [shownFrom, hc, Bool.true_and, if_pos rfl,
      shownFrom_of_plain _ cs fun d hd => h d (List.mem_cons_of_mem c hd)]

/-- **A text without terminal codes.** -/
def withoutCodes (s : String) : String :=
  String.ofList (shownFrom .outside true s.toList)

/-- A text that has no code in it stays as it is. -/
theorem withoutCodes_of_plain (s : String) (h : ∀ c ∈ s.toList, isPlain c = true) : withoutCodes s = s := by
  rw [withoutCodes, shownFrom_of_plain _ _ h, String.ofList_toList]

end Text
end BencodePlan
