import BencodePlan.Member.Tag
import BencodePlan.Proofs.Text.Span
/-!
# Reading a tag

A tag that can be read is clean and has nothing but `omitempty` after its first comma (`parse_eq_ok_iff`).  What is wrong
with any other is said by `Blames`: the first character that no tag holds, wherever it stands, or else the first option that
is not `omitempty`.  What is pointed at is that character, or that option, or the comma before it if there is nothing to
point at in the option itself (`parse_eq_error_iff`).
-/
namespace BencodePlan
namespace Tag

open Text

theorem exists_first {α : Type} {p : α → Prop} {l : List α} (h : ¬ ∀ a ∈ l, p a) :
    ∃ before a rest, l = before ++ a :: rest ∧ (∀ b ∈ before, p b) ∧ ¬ p a := by
  induction l with
  | nil => exact absurd (List.forall_mem_nil p) h
  | cons a l ih =>
    by_cases ha : p a
    · obtain ⟨before, b, rest, rfl, hbefore, hb⟩ := ih fun hl => h (List.forall_mem_cons.2 ⟨ha, hl⟩)
      exact ⟨a :: before, b, rest, rfl, List.forall_mem_cons.2 ⟨ha, hbefore⟩, hb⟩
    · exact ⟨[], a, l, rfl, List.forall_mem_nil p, ha⟩

/-! ## Characters -/

/-- **A character that no tag holds**: a control, or the double quote. -/
def IsBarred (c : Char) : Prop := c.toNat < 0x20 ∨ (0x7f ≤ c.toNat ∧ c.toNat < 0xa0) ∨ c = '"'

def IsClean (cs : List Char) : Prop := ∀ c ∈ cs, ¬ IsBarred c

theorem isForbidden_iff {c : Char} : isForbidden c = true ↔ IsBarred c := by
  unfold isForbidden IsBarred
  simp only [Bool.or_eq_true, Bool.and_eq_true, decide_eq_true_eq, or_assoc]

theorem firstForbidden_eq_none_iff (cs : List Char) (offset : Nat) : firstForbidden offset cs = none ↔ IsClean cs := by
  induction cs generalizing offset with
  | nil => simp [firstForbidden, IsClean]
  | cons c cs ih =>
    rw [firstForbidden, IsClean, List.forall_mem_cons, ← isForbidden_iff]
    by_cases hc : isForbidden c = true
    · simp [hc]
    · rw [if_neg hc, ih]
      exact (and_iff_right hc).symm

/-- **The first character that no tag holds** is found, and the bytes before it are counted. -/
theorem firstForbidden_append {before : List Char} {c : Char} (hbefore : IsClean before) (hc : IsBarred c)
    (rest : List Char) (offset : Nat) : firstForbidden offset (before ++ c :: rest) =
      some ⟨.character c, ⟨offset + byteLength before, offset + byteLength before + c.utf8Size⟩⟩ := by
  induction before generalizing offset with
  | nil => rw [List.nil_append, firstForbidden, if_pos (isForbidden_iff.2 hc), byteLength, Nat.add_zero]
  | cons d before ih =>
    obtain ⟨hd, hmore⟩ := List.forall_mem_cons.1 hbefore
    rw [List.cons_append, firstForbidden, if_neg (mt isForbidden_iff.1 hd), ih hmore, byteLength, Nat.add_assoc]

/-! ## Segments -/

theorem exists_splitOn (cs : List Char) : ∃ name options, cs.splitOn ',' = name :: options :=
  List.exists_cons_of_ne_nil (List.splitOn_ne_nil ',' cs)

theorem segments_eq_splitOn (cs : List Char) : segments cs = cs.splitOn ',' := by
  induction cs with
  | nil => rfl
  | cons c cs ih =>
    rw [List.splitOn_cons_eq_if_modifyHead]
    by_cases hc : c = ','
    · subst hc
      rw [segments, ih]
      simp
    · obtain ⟨name, options, hsplit⟩ := exists_splitOn cs
      rw [segments, ih, hsplit] <;> simp [hc]

def commaed (pieces : List (List Char)) : List Char := pieces.flatMap (· ++ [','])

/-- **A text is its segments** with commas between them. -/
theorem exists_intercalate (pieces : List (List Char)) (piece : List Char) (rest : List (List Char)) :
    ∃ after, [','].intercalate (pieces ++ piece :: rest) = commaed pieces ++ (piece ++ after) := by
  induction pieces with
  | nil =>
    cases rest with
    | nil => exact ⟨[], by simp [commaed]⟩
    | cons next rest => exact ⟨',' :: [','].intercalate (next :: rest), by simp [commaed]⟩
  | cons first pieces ih =>
    obtain ⟨after, hafter⟩ := ih
    obtain ⟨next, more, hmore⟩ := List.exists_cons_of_ne_nil (l := pieces ++ piece :: rest) (by simp)
    refine ⟨after, ?_⟩
    rw [List.cons_append, hmore, List.intercalate_cons_cons, ← hmore, hafter]
    simp [commaed]

theorem commaed_eq (name : List Char) (options : List (List Char)) :
    commaed (name :: options) = [','].intercalate (name :: options) ++ [','] := by
  induction options generalizing name with
  | nil => simp [commaed]
  | cons next options ih =>
    have hnext := ih next
    rw [List.intercalate_cons_cons, List.append_assoc, ← hnext]
    simp [commaed]

theorem exists_of_splitOn {cs name option : List Char} {before rest : List (List Char)}
    (h : cs.splitOn ',' = name :: (before ++ option :: rest)) :
    ∃ after, cs = [','].intercalate (name :: before) ++ ([','] ++ (option ++ after)) := by
  obtain ⟨after, hafter⟩ := exists_intercalate (name :: before) option rest
  have htext : [','].intercalate (cs.splitOn ',') = cs := List.intercalate_splitOn ','
  rw [commaed_eq, List.append_assoc, List.cons_append, ← h, htext] at hafter
  exact ⟨after, hafter⟩

/-! ## Options -/

def omitOption : List Char := "omitempty".toList

theorem omitOption_ne_nil : omitOption ≠ [] := by decide

theorem firstBadOption_omitOption (offset : Nat) (options : List (List Char)) :
    firstBadOption offset (omitOption :: options) = firstBadOption (offset + byteLength omitOption + 1) options := by
  have hoption : omitOption = "omitempty".toList := rfl
  rw [firstBadOption, if_neg omitOption_ne_nil, if_pos hoption]

theorem firstBadOption_of_ne {option : List Char} (h : option ≠ omitOption) (offset : Nat) (rest : List (List Char)) :
    firstBadOption offset (option :: rest) = some (if option = [] then ⟨.emptyOption, ⟨offset - 1, offset⟩⟩
      else ⟨.unknownOption (String.ofList option), ⟨offset, offset + byteLength option⟩⟩) := by
  rw [firstBadOption]
  by_cases hnil : option = []
  · rw [if_pos hnil, if_pos hnil]
  · have hoption : option ≠ "omitempty".toList := h
    rw [if_neg hnil, if_neg hoption, if_neg hnil]

theorem byteLength_commaed_cons (piece : List Char) (pieces : List (List Char)) :
    byteLength (commaed (piece :: pieces)) = byteLength piece + 1 + byteLength (commaed pieces) := by
  rw [commaed, List.flatMap_cons, byteLength_append, byteLength_append]
  rfl

theorem firstBadOption_eq_none {options : List (List Char)} (h : ∀ o ∈ options, o = omitOption) (offset : Nat) :
    firstBadOption offset options = none := by
  induction options generalizing offset with
  | nil => rfl
  | cons option options ih =>
    obtain ⟨rfl, hrest⟩ := List.forall_mem_cons.1 h
    rw [firstBadOption_omitOption, ih hrest]

theorem firstBadOption_append {good : List (List Char)} (hgood : ∀ o ∈ good, o = omitOption) (offset : Nat)
    (rest : List (List Char)) :
    firstBadOption offset (good ++ rest) = firstBadOption (offset + byteLength (commaed good)) rest := by
  induction good generalizing offset with
  | nil => rfl
  | cons option good ih =>
    obtain ⟨rfl, hmore⟩ := List.forall_mem_cons.1 hgood
    rw [List.cons_append, firstBadOption_omitOption, ih hmore, byteLength_commaed_cons]
    congr 1
    omega

/-! ## Tags -/

/-- **What is wrong with a tag, and where.**  The first segment is the name, the options come after it; where nothing stands
between two commas, the first of them is pointed at. -/
inductive Blames (raw : String) : Error → Prop
  | character {before rest : List Char} {c : Char} : raw.toList = before ++ c :: rest → IsClean before → IsBarred c →
      Blames raw ⟨.character c, .after before [c]⟩
  | emptyOption {name : List Char} {good rest : List (List Char)} : IsClean raw.toList →
      raw.toList.splitOn ',' = name :: (good ++ [] :: rest) → (∀ o ∈ good, o = omitOption) →
      Blames raw ⟨.emptyOption, .after ([','].intercalate (name :: good)) [',']⟩
  | unknownOption {name bad : List Char} {good rest : List (List Char)} : IsClean raw.toList →
      raw.toList.splitOn ',' = name :: (good ++ bad :: rest) → (∀ o ∈ good, o = omitOption) → bad ≠ omitOption → bad ≠ [] →
      Blames raw ⟨.unknownOption (String.ofList bad), .after ([','].intercalate (name :: good) ++ [',']) bad⟩

/-- **A tag that can be read**: clean text, and one option however often after the name. -/
def Reads (raw : String) (tag : Tag) : Prop :=
  IsClean raw.toList ∧ ∃ name options, raw.toList.splitOn ',' = name :: options ∧ (∀ o ∈ options, o = omitOption) ∧
    tag.name = (if name = [] then none else some (String.ofList name)) ∧ (tag.omitEmpty = true ↔ options ≠ [])

theorem parse_of_clean {raw : String} (hclean : IsClean raw.toList) {name : List Char} {options : List (List Char)}
    (hsplit : raw.toList.splitOn ',' = name :: options) : parse raw =
      match firstBadOption (byteLength name + 1) options with
      | some e => .error e
      | none => .ok (ofSegments (name :: options)) := by
  rw [parse, (firstForbidden_eq_none_iff _ 0).2 hclean, segments_eq_splitOn, hsplit]
  rfl

/-- **What is blamed is refused.** -/
theorem Blames.parse_eq {raw : String} {e : Error} (h : Blames raw e) : parse raw = .error e := by
  cases h with
  | @character before rest c htext hbefore hc =>
    rw [parse, htext, firstForbidden_append hbefore hc, Span.after, Nat.zero_add]
    rfl
  | @emptyOption name good rest hclean hsplit hgood =>
    have hbad := firstBadOption_append hgood (byteLength name + 1) ([] :: rest)
    rw [firstBadOption_of_ne omitOption_ne_nil.symm, if_pos rfl, ← byteLength_commaed_cons, commaed_eq, byteLength_append] at hbad
    rw [parse_of_clean hclean hsplit, hbad]
    rfl
  | @unknownOption name bad good rest hclean hsplit hgood hbad hne =>
    have hfound := firstBadOption_append hgood (byteLength name + 1) (bad :: rest)
    rw [firstBadOption_of_ne hbad, if_neg hne, ← byteLength_commaed_cons, commaed_eq] at hfound
    rw [parse_of_clean hclean hsplit, hfound]
    rfl

theorem Reads.parse_eq {raw : String} {tag : Tag} (h : Reads raw tag) : parse raw = .ok tag := by
  obtain ⟨hclean, name, options, hsplit, hgood, hname, homit⟩ := h
  have htag : ofSegments (name :: options) = tag := by
    have hempty : (!options.isEmpty) = tag.omitEmpty := by
      rw [Bool.eq_iff_iff, homit]
      simp
    rw [ofSegments, hempty, ← hname]
  rw [parse_of_clean hclean hsplit, firstBadOption_eq_none hgood, htag]

/-- **Every text is a tag, or there is something to blame.** -/
theorem exists_reads_or_blames (raw : String) : (∃ tag, Reads raw tag) ∨ ∃ e, Blames raw e := by
  by_cases hclean : IsClean raw.toList
  · obtain ⟨name, options, hsplit⟩ := exists_splitOn raw.toList
    by_cases hgood : ∀ o ∈ options, o = omitOption
    · refine Or.inl ⟨⟨if name = [] then none else some (String.ofList name), !options.isEmpty⟩, hclean, name, options, hsplit,
        hgood, rfl, ?_⟩
      simp
    · obtain ⟨good, bad, rest, rfl, hbefore, hbad⟩ := exists_first hgood
      by_cases hnil : bad = []
      · subst hnil
        exact Or.inr ⟨_, .emptyOption hclean hsplit hbefore⟩
      · exact Or.inr ⟨_, .unknownOption hclean hsplit hbefore hbad hnil⟩
  · obtain ⟨before, c, rest, htext, hbefore, hc⟩ := exists_first hclean
    exact Or.inr ⟨_, .character htext hbefore (not_not.1 hc)⟩

theorem parse_eq_ok_iff {raw : String} {tag : Tag} : parse raw = .ok tag ↔ Reads raw tag := by
  refine ⟨fun h => ?_, Reads.parse_eq⟩
  rcases exists_reads_or_blames raw with ⟨tag', htag⟩ | ⟨e, he⟩
  · rw [htag.parse_eq] at h
    cases h
    exact htag
  · rw [he.parse_eq] at h
    cases h

theorem parse_eq_error_iff {raw : String} {e : Error} : parse raw = .error e ↔ Blames raw e := by
  refine ⟨fun h => ?_, Blames.parse_eq⟩
  rcases exists_reads_or_blames raw with ⟨tag, htag⟩ | ⟨e', he⟩
  · rw [htag.parse_eq] at h
    cases h
  · rw [he.parse_eq] at h
    cases h
    exact he

theorem Blames.exists_piece {raw : String} {e : Error} (h : Blames raw e) :
    ∃ before piece rest, piece ≠ [] ∧ raw.toList = before ++ (piece ++ rest) ∧ e.span = .after before piece := by
  cases h with
  | @character before rest c htext _ _ => exact ⟨before, [c], rest, by simp, htext, rfl⟩
  | @emptyOption name good rest _ hsplit _ =>
    obtain ⟨after, hafter⟩ := exists_of_splitOn hsplit
    exact ⟨_, [','], [] ++ after, by simp, hafter, rfl⟩
  | @unknownOption name bad good rest _ hsplit _ _ hne =>
    obtain ⟨after, hafter⟩ := exists_of_splitOn hsplit
    exact ⟨_, bad, after, hne, hafter.trans (List.append_assoc _ _ _).symm, rfl⟩

/-- **Tags are read exactly, and what is wrong with others is pointed at.**  A text is a tag if it is clean and has nothing
but `omitempty` after its first comma; the name is what comes before, if anything does, and an option makes the difference
between a field that may be left out and one that may not.  Every other text is refused for what `Blames` says, and the
span of it has something in it, lies within the text and cuts no character. -/
theorem parse_reads (raw : String) :
    (∀ tag, parse raw = .ok tag ↔ Reads raw tag) ∧ (∀ e, parse raw = .error e ↔ Blames raw e) ∧
      ∀ e, parse raw = .error e → e.span.start < e.span.stop ∧ e.span.Within raw := by
  refine ⟨fun tag => parse_eq_ok_iff, fun e => parse_eq_error_iff, fun e he => ?_⟩
  obtain ⟨before, piece, rest, hne, htext, hspan⟩ := (parse_eq_error_iff.1 he).exists_piece
  have hpos := byteLength_pos hne
  rw [hspan]
  refine ⟨?_, Span.within_of_append htext⟩
  simp only [Span.after]
  omega

/-- Places are counted in bytes, and a barred character comes before any option. -/
example : parse "grün,omitempty,,x" = .error ⟨.emptyOption, ⟨15, 16⟩⟩ ∧
    parse "a,,b\tc" = .error ⟨.character '\t', ⟨4, 5⟩⟩ := by
  decide +kernel

end Tag
end BencodePlan
