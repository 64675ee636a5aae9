import BencodePlan.Proofs.Diagnostic.Places
import BencodePlan.Proofs.Member.Tag
import BencodePlan.Proofs.Types.Faults
/-!
# The places of names and of faults

Each token of a text covers a piece of it (`Layout.marks`).  The names in an expression stand where their tokens do, and what
is wrong with a text is a token, the character that is part of none, or its end; so all of these mark the text that was read
(`marks_of_parse_ok`, `marks_of_parse_error`).
-/
namespace BencodePlan
namespace TypeExpr

open Text (byteLength byteLength_append)

/-- **Where the names of declared types stand** in an expression. -/
def places : TypeExpr → List Span
  | .scalar _ | .duration => []
  | .option e | .vec e | .array e _ => e.places
  | .map k v => k.places ++ v.places
  | .named _ span => [span]

theorem Spelled.places_subset {e : TypeExpr} {ts : List Located} (h : Spelled e ts) :
    ∀ s ∈ e.places, s ∈ ts.map Located.span := by
  induction h with
  | scalar | duration => exact List.forall_mem_nil _
  | named s => exact fun _ hs => hs
  | option _ _ _ _ ih | vec _ _ _ _ ih =>
    intro s hs
    simp only [List.map_cons, List.map_append, List.mem_cons, List.mem_append, ih s hs, true_or, or_true]
  | array _ _ _ _ _ _ _ _ ih =>
    intro s hs
    simp only [List.map_cons, List.map_append, List.mem_cons, List.mem_append, ih s hs, true_or, or_true]
  | map _ _ _ _ _ _ ihk ihv =>
    intro s hs
    simp only [List.map_cons, List.map_append, List.mem_cons, List.mem_append]
    rcases List.mem_append.1 hs with hs | hs
    · simp only [ihk s hs, true_or, or_true]
    · simp only [ihv s hs, true_or, or_true]

/-- **Tokens cover what they are written as**, in a text that goes on from what stands before them. -/
theorem Layout.marks {offset : Nat} {cs : List Char} {ts : List Located} (h : Layout offset cs ts)
    (hproper : ∀ t ∈ ts, t.token.IsProper) {text : String} {before : List Char} (hoffset : offset = byteLength before)
    (htext : text.toList = before ++ cs) : ∀ t ∈ ts, t.span.Marks text := by
  induction h generalizing before with
  | finish => exact List.forall_mem_nil _
  | @token offset blanks rest t ts hblanks hrest ih =>
    subst hoffset
    rw [List.forall_mem_cons] at hproper ⊢
    have htext' : text.toList = (before ++ blanks) ++ (t.text.toList ++ rest) := by
      rw [htext, List.append_assoc]
    refine ⟨⟨before ++ blanks, t.text.toList, rest, htext', ?_, fun hnil => ?_⟩, ih hproper.2 ?_
      (htext'.trans (List.append_assoc _ _ _).symm)⟩
    · rw [Span.after, byteLength_append]
    · exact absurd hnil (Token.text_ne_nil hproper.1)
    · rw [byteLength_append, byteLength_append]

theorem Layout.marks_all {text : String} {ts : List Located} (h : Layout 0 text.toList ts)
    (hproper : ∀ t ∈ ts, t.token.IsProper) : ∀ t ∈ ts, t.span.Marks text :=
  h.marks hproper rfl (List.nil_append _).symm

theorem marks_of_parse_ok {text : String} {e : TypeExpr} (h : parse text = .ok e) : ∀ s ∈ e.places, s.Marks text := by
  intro s hs
  obtain ⟨ts, hspelled, hlayout⟩ := parse_eq_ok_iff.1 h
  obtain ⟨t, ht, rfl⟩ := List.mem_map.1 (hspelled.places_subset s hs)
  exact hlayout.marks_all hspelled.proper t ht

/-- **The lexer stops at one character only**, and its error covers that character. -/
theorem exists_of_lex_error {cs : List Char} {e : Error} (h : lex 0 cs = .error e) :
    ∃ before c rest, cs = before ++ c :: rest ∧ e = ⟨.character c, .after before [c]⟩ := by
  by_cases hcs : ∀ c ∈ cs, ¬ IsForeign c
  · obtain ⟨ts, hlex⟩ := exists_lex 0 hcs
    rw [hlex] at h
    cases h
  · obtain ⟨before, c, rest, rfl, hbefore, hc⟩ := Tag.exists_first hcs
    rw [lex_of_isForeign hbefore (not_not.1 hc) rest 0, Nat.zero_add] at h
    cases h
    exact ⟨before, c, rest, rfl, rfl⟩

theorem marks_end (text : String) : (⟨byteLength text.toList, byteLength text.toList⟩ : Span).Marks text :=
  ⟨text.toList, [], [], by simp, rfl, fun _ => rfl⟩

theorem marks_of_parse_error {text : String} {e : Error} (h : parse text = .error e) : e.span.Marks text := by
  unfold parse at h
  cases hlex : lex 0 text.toList with
  | error e' =>
    rw [hlex] at h
    cases h
    obtain ⟨before, c, rest, htext, rfl⟩ := exists_of_lex_error hlex
    exact ⟨before, [c], rest, htext, rfl, fun hnil => nomatch hnil⟩
  | ok ts =>
    rw [hlex] at h
    obtain ⟨hlayout, hproper⟩ := layout_of_lex hlex
    have hbegin : IsOpen [.type] [] := ⟨_, .duration, .duration, _, [], .duration ⟨0, 0⟩, rfl, rfl, rfl⟩
    rcases stops_of_read h hproper hbegin with ⟨i, t, hi, hspan, -⟩ | ⟨hspan, -⟩
    · rw [hspan]
      exact hlayout.marks_all hproper t (List.mem_of_getElem? hi)
    · rw [hspan]
      exact marks_end text

end TypeExpr

namespace Tag

theorem marks_of_parse_error {raw : String} {e : Error} (h : parse raw = .error e) : e.span.Marks raw := by
  obtain ⟨before, piece, rest, hne, htext, hspan⟩ := (parse_eq_error_iff.1 h).exists_piece
  exact ⟨before, piece, rest, htext, hspan, fun hnil => absurd hnil hne⟩

end Tag
end BencodePlan
