import BencodePlan.Proofs.Types.Spelling
/-!
# The reader accepts the grammar

The reader works on what must still come and on the trees that are finished.  `Completes` says what tokens these ask for
in terms of the grammar: for a type an expression that is spelled there, for a token that token, and so on.  A run that
succeeds has read such tokens (`completes_of_read`), and the tokens of an expression are read as it
(`read_spelled`).

So a text is read as an expression exactly if it is a written form of it (`parse_eq_ok_iff`), and how it is laid out
decides nothing but the places of its names (`parse_reads_spellings`).
-/
namespace BencodePlan
namespace TypeExpr

/-! ## Words and numbers -/

theorem ofName?_eq_some_iff {name : String} {kind : ScalarKind} :
    ScalarKind.ofName? name = some kind ↔ kind.name = name := by
  constructor
  · intro h
    unfold ScalarKind.ofName? at h
    split_ifs at h with h₁ h₂ h₃ h₄
    · cases h; exact h₁.symm
    · cases h; exact h₂.symm
    · cases h; exact h₃.symm
    · cases h; exact h₄.symm
    · obtain ⟨k, hk, rfl⟩ := Option.map_eq_some_iff.1 h
      unfold IntKind.ofName? at hk
      have hname := List.find?_some hk
      exact of_decide_eq_true hname
  · rintro rfl
    rcases kind with _ | k | k | _
    · rfl
    · cases k <;> rfl
    · cases k <;> rfl
    · rfl

theorem openWord_scalar (kind : ScalarKind) (s : Span) : openWord kind.name s = ([], [.scalar kind]) := by
  rw [openWord, ofName?_eq_some_iff.2 rfl]

theorem openWord_named {name : String} (h : ¬ IsKeyword name) (s : Span) :
    openWord name s = ([], [.named name s]) := by
  have hscalar : ScalarKind.ofName? name = none := Option.eq_none_iff_forall_ne_some.2 fun kind hkind =>
    h (Or.inl ⟨kind, ofName?_eq_some_iff.1 hkind⟩)
  have hother : name ∉ ["duration", "Option", "Vec", "Map"] := fun hmem => h (Or.inr hmem)
  simp only [List.mem_cons, List.not_mem_nil, or_false, not_or] at hother
  obtain ⟨hduration, hoption, hvec, hmap⟩ := hother
  rw [openWord, hscalar]
  simp only [if_neg hduration, if_neg hoption, if_neg hvec, if_neg hmap]

theorem numberOf_zeros (zeros : Nat) (cs : List Char) :
    Text.numberOf (List.replicate zeros '0' ++ cs) = Text.numberOf cs := by
  induction zeros with
  | zero => rfl
  | succ zeros ih => exact ih

theorem lengthOf_numeral (zeros n : Nat) : lengthOf (String.ofList (numeral zeros n)) = n := by
  have hdigits : lengthOf (String.ofList (numeral zeros n)) = Text.numberOf (numeral zeros n) := by
    rw [lengthOf, String.toList_ofList, Text.numberOf]
  rw [hdigits, numeral, numberOf_zeros, Text.numberOf_decimal]

theorem exists_numeral {cs : List Char} (hne : cs ≠ []) (hdigits : ∀ c ∈ cs, c.isDigit = true) :
    ∃ zeros, cs = numeral zeros (Text.numberOf cs) := by
  induction cs with
  | nil => exact absurd rfl hne
  | cons c cs ih =>
    by_cases hzero : c = '0' ∧ cs ≠ []
    · obtain ⟨rfl, hcs⟩ := hzero
      obtain ⟨zeros, hzeros⟩ := ih hcs fun d hd => hdigits d (List.mem_cons_of_mem _ hd)
      refine ⟨zeros + 1, ?_⟩
      rw [show Text.numberOf ('0' :: cs) = Text.numberOf cs from rfl, numeral, List.replicate_succ, List.cons_append,
        ← numeral, ← hzeros]
    · refine ⟨0, (Text.decimal_numberOf _ hne hdigits fun hhead => ?_).symm⟩
      cases hhead
      rw [not_and, ne_eq, not_not] at hzero
      rw [hzero rfl]

/-! ## From the grammar to the reader -/

theorem settle_settle (items : List Item) (done : List TypeExpr) :
    settle (settle items done).1 (settle items done).2 = settle items done := by
  fun_induction settle items done with
  | case1 items e done ih => exact ih
  | case2 items e done ih => exact ih
  | case3 n items e done ih => exact ih
  | case4 items v k done ih => exact ih
  | case5 items done => rw [settle] <;> assumption

theorem read_settle (textEnd : Nat) (ts : List Located) (items : List Item) (done : List TypeExpr) :
    read textEnd ts (settle items done).1 (settle items done).2 = read textEnd ts items done := by
  cases ts with
  | nil => rw [read, read, settle_settle]
  | cons t ts => rw [read, read, settle_settle]

/-- **One token is read** for the item that must come first. -/
theorem read_accept (item : Item) (t : Located) {more : List Item} {finished : List TypeExpr}
    (h : item.accept t = .ok (more, finished)) (textEnd : Nat) (rest : List Located) (items : List Item)
    (done : List TypeExpr) :
    read textEnd (t :: rest) (item :: items) done = read textEnd rest (more ++ items) (finished ++ done) := by
  have hsettle : settle (item :: items) done = (item :: items, done) := by
    cases item with
    | type | token | length => rfl
    | wrapOption | wrapVec | wrapArray | wrapMap => cases h
  rw [read, hsettle]
  simp only [h]

theorem read_token (wanted : Token) (s : Span) (textEnd : Nat) (rest : List Located) (items : List Item)
    (done : List TypeExpr) :
    read textEnd (⟨wanted, s⟩ :: rest) (.token wanted :: items) done = read textEnd rest items done :=
  read_accept (.token wanted) ⟨wanted, s⟩ (if_pos rfl) ..

theorem read_word (name : String) (s : Span) (textEnd : Nat) (rest : List Located) (items : List Item)
    (done : List TypeExpr) :
    read textEnd (⟨.word name, s⟩ :: rest) (.type :: items) done =
      read textEnd rest ((openWord name s).1 ++ items) ((openWord name s).2 ++ done) :=
  read_accept .type ⟨.word name, s⟩ rfl ..

theorem read_bracket (s : Span) (textEnd : Nat) (rest : List Located) (items : List Item) (done : List TypeExpr) :
    read textEnd (⟨.leftBracket, s⟩ :: rest) (.type :: items) done =
      read textEnd rest (.type :: .token .semicolon :: .length :: items) done :=
  read_accept .type ⟨.leftBracket, s⟩ rfl ..

theorem read_length (zeros : Nat) {n : Nat} (hn : n ≤ maxLength) (s : Span) (textEnd : Nat) (rest : List Located)
    (items : List Item) (done : List TypeExpr) :
    read textEnd (⟨.number (String.ofList (numeral zeros n)), s⟩ :: rest) (.length :: items) done =
      read textEnd rest (.token .rightBracket :: .wrapArray n :: items) done := by
  have haccept : Item.length.accept ⟨.number (String.ofList (numeral zeros n)), s⟩ =
      .ok ([.token .rightBracket, .wrapArray n], []) := by
    simp only [Item.accept, lengthOf_numeral, if_pos hn]
  exact read_accept _ _ haccept ..

theorem read_wrap {items items' : List Item} {done done' : List TypeExpr} (h : settle items done = settle items' done')
    (textEnd : Nat) (rest : List Located) : read textEnd rest items done = read textEnd rest items' done' := by
  rw [← read_settle textEnd rest items, h, read_settle]

/-- **The tokens of an expression are read as it**, whatever must come after them. -/
theorem read_spelled {e : TypeExpr} {ts : List Located} (h : Spelled e ts) (textEnd : Nat) (rest : List Located)
    (items : List Item) (done : List TypeExpr) :
    read textEnd (ts ++ rest) (.type :: items) done = read textEnd rest items (e :: done) := by
  have hoption (s : Span) : openWord "Option" s = ([.token .leftAngle, .type, .token .rightAngle, .wrapOption], []) := rfl
  have hvec (s : Span) : openWord "Vec" s = ([.token .leftAngle, .type, .token .rightAngle, .wrapVec], []) := rfl
  have hmap (s : Span) : openWord "Map" s =
    ([.token .leftAngle, .type, .token .comma, .type, .token .rightAngle, .wrapMap], []) := rfl
  induction h generalizing rest items done with
  | scalar kind s => rw [List.singleton_append, read_word, openWord_scalar]; rfl
  | duration s => rw [List.singleton_append, read_word]; rfl
  | named s _ hname => rw [List.singleton_append, read_word, openWord_named hname]; rfl
  | @option e ts s₁ s₂ s₃ _ ih =>
    simp only [List.cons_append, List.append_assoc, List.nil_append, read_word, hoption, read_token, ih]
    exact read_wrap (settle.eq_1 ..) ..
  | @vec e ts s₁ s₂ s₃ _ ih =>
    simp only [List.cons_append, List.append_assoc, List.nil_append, read_word, hvec, read_token, ih]
    exact read_wrap (settle.eq_2 ..) ..
  | @array e ts zeros n s₁ s₂ s₃ s₄ _ hn ih =>
    simp only [List.cons_append, List.append_assoc, List.nil_append, read_bracket, ih, read_token, read_length zeros hn]
    exact read_wrap (settle.eq_3 ..) ..
  | @map k v ks vs s₁ s₂ s₃ s₄ _ _ ihk ihv =>
    simp only [List.cons_append, List.append_assoc, List.nil_append, read_word, hmap, read_token, ihk, ihv]
    exact read_wrap (settle.eq_4 ..) ..

/-! ## From the reader to the grammar -/

/-- **The tokens that are asked for** by what must come and what is finished, and the tree that comes of them. -/
def Completes : List Item → List TypeExpr → List Located → TypeExpr → Prop
  | [], done, ts, e => ts = [] ∧ done.head? = some e
  | .type :: items, done, ts, e =>
    ∃ a us vs, Spelled a us ∧ ts = us ++ vs ∧ Completes items (a :: done) vs e
  | .token wanted :: items, done, ts, e => ∃ s vs, ts = ⟨wanted, s⟩ :: vs ∧ Completes items done vs e
  | .length :: items, done, ts, e =>
    ∃ a done', done = a :: done' ∧ ∃ zeros n s s' vs, n ≤ maxLength ∧
      ts = ⟨.number (String.ofList (numeral zeros n)), s⟩ :: ⟨.rightBracket, s'⟩ :: vs ∧
      Completes items (.array a n :: done') vs e
  | .wrapOption :: items, done, ts, e => ∃ a done', done = a :: done' ∧ Completes items (.option a :: done') ts e
  | .wrapVec :: items, done, ts, e => ∃ a done', done = a :: done' ∧ Completes items (.vec a :: done') ts e
  | .wrapArray n :: items, done, ts, e => ∃ a done', done = a :: done' ∧ Completes items (.array a n :: done') ts e
  | .wrapMap :: items, done, ts, e => ∃ v k done', done = v :: k :: done' ∧ Completes items (.map k v :: done') ts e

theorem completes_of_settle (items : List Item) (done : List TypeExpr) {ts : List Located} {e : TypeExpr}
    (h : Completes (settle items done).1 (settle items done).2 ts e) : Completes items done ts e := by
  fun_induction settle items done with
  | case1 items a done ih | case2 items a done ih => exact ⟨a, done, rfl, ih h⟩
  | case3 n items a done ih => exact ⟨a, done, rfl, ih h⟩
  | case4 items v k done ih => exact ⟨v, k, done, rfl, ih h⟩
  | case5 items done => exact h

theorem completes_word {name : String} (hname : IsWord name.toList) {s : Span} {items : List Item}
    {done : List TypeExpr} {ts : List Located} {e : TypeExpr}
    (h : Completes ((openWord name s).1 ++ items) ((openWord name s).2 ++ done) ts e) :
    Completes (.type :: items) done (⟨.word name, s⟩ :: ts) e := by
  by_cases hkey : IsKeyword name
  · rcases hkey with ⟨kind, rfl⟩ | hkey
    · rw [openWord_scalar] at h
      exact ⟨_, _, _, .scalar kind s, rfl, h⟩
    · simp only [List.mem_cons, List.not_mem_nil, or_false] at hkey
      rcases hkey with rfl | rfl | rfl | rfl
      · exact ⟨_, _, _, .duration s, rfl, h⟩
      · obtain ⟨s₂, _, rfl, a, us, _, ha, rfl, s₃, vs, rfl, _, _, heq, h⟩ := h
        cases heq
        exact ⟨_, _, vs, .option s s₂ s₃ ha, by simp, h⟩
      · obtain ⟨s₂, _, rfl, a, us, _, ha, rfl, s₃, vs, rfl, _, _, heq, h⟩ := h
        cases heq
        exact ⟨_, _, vs, .vec s s₂ s₃ ha, by simp, h⟩
      · obtain ⟨s₂, _, rfl, k, ks, _, hk, rfl, s₃, _, rfl, v, vs, _, hv, rfl, s₄, us, rfl, _, _, _, heq, h⟩ := h
        cases heq
        exact ⟨_, _, us, .map s s₂ s₃ s₄ hk hv, by simp, h⟩
  · rw [openWord_named hkey] at h
    exact ⟨_, _, _, .named s hname hkey, rfl, h⟩

/-- **What takes the place of an item** asks for the rest of what the item asked for. -/
theorem completes_of_accept {item : Item} {t : Located} {more : List Item} {finished : List TypeExpr}
    (haccept : item.accept t = .ok (more, finished)) (hproper : t.token.IsProper) {items : List Item}
    {done : List TypeExpr} {ts : List Located} {e : TypeExpr}
    (h : Completes (more ++ items) (finished ++ done) ts e) : Completes (item :: items) done (t :: ts) e := by
  obtain ⟨token, s⟩ := t
  cases item with
  | type =>
    cases token with
    | word name =>
      have hopen : openWord name s = (more, finished) := Except.ok.inj haccept
      exact completes_word hproper (by rw [hopen]; exact h)
    | leftBracket =>
      cases haccept
      obtain ⟨a, us, _, ha, rfl, s₂, _, rfl, _, _, heq, zeros, n, s₃, s₄, vs, hn, rfl, h⟩ := h
      cases heq
      exact ⟨_, _, vs, .array zeros n s s₂ s₃ s₄ ha hn, by simp, h⟩
    | rightAngle | leftAngle | rightBracket | semicolon | comma | number => cases haccept
  | token wanted =>
    simp only [Item.accept] at haccept
    split at haccept
    · rename_i heq
      cases heq
      cases haccept
      exact ⟨s, ts, rfl, h⟩
    · cases haccept
  | length =>
    cases token with
    | number digits =>
      simp only [Item.accept] at haccept
      split at haccept
      · rename_i hn
        cases haccept
        obtain ⟨zeros, hzeros⟩ := exists_numeral hproper.1 hproper.2
        obtain ⟨s', vs, rfl, a, done', rfl, h⟩ := h
        refine ⟨a, done', rfl, zeros, lengthOf digits, s, s', vs, hn, ?_, h⟩
        rw [show lengthOf digits = Text.numberOf digits.toList from rfl, ← hzeros, String.ofList_toList]
      · cases haccept
    | leftBracket | rightAngle | leftAngle | rightBracket | semicolon | comma | word => cases haccept
  | wrapOption | wrapVec | wrapArray | wrapMap => cases haccept

/-- **A run that succeeds has read what was asked for.** -/
theorem completes_of_read {textEnd : Nat} {ts : List Located} {items : List Item} {done : List TypeExpr} {e : TypeExpr}
    (h : read textEnd ts items done = .ok e) (hproper : ∀ t ∈ ts, t.token.IsProper) : Completes items done ts e := by
  induction ts generalizing items done with
  | nil =>
    rw [read] at h
    refine completes_of_settle items done ?_
    split at h
    · rename_i a done' heq
      cases h
      rw [heq]
      exact ⟨rfl, rfl⟩
    · cases h
    · cases h
  | cons t ts ih =>
    rw [read] at h
    refine completes_of_settle items done ?_
    split at h
    · cases h
    · rename_i item later done' heq
      rw [heq]
      split at h
      · rename_i more finished haccept
        exact completes_of_accept haccept (hproper t List.mem_cons_self)
          (ih h fun u hu => hproper u (List.mem_cons_of_mem _ hu))
      · cases h

/-- **A text is read as an expression exactly if it is a written form of it.** -/
theorem parse_eq_ok_iff {text : String} {e : TypeExpr} :
    parse text = .ok e ↔ ∃ ts, Spelled e ts ∧ Layout 0 text.toList ts := by
  unfold parse
  constructor
  · intro h
    split at h
    · rename_i ts hlex
      obtain ⟨hlayout, hproper⟩ := layout_of_lex hlex
      obtain ⟨a, us, vs, ha, rfl, rfl, heq⟩ := completes_of_read h hproper
      cases heq
      rw [List.append_nil] at hlayout
      exact ⟨us, ha, hlayout⟩
    · cases h
  · rintro ⟨ts, hspelled, hlayout⟩
    rw [lex_of_layout hlayout hspelled.proper hspelled.apart]
    have hread := read_spelled hspelled (Text.byteLength text.toList) [] [] []
    rw [List.append_nil] at hread
    exact hread

/-! ## Layouts -/

def bare : TypeExpr → TypeExpr
  | .scalar kind => .scalar kind
  | .duration => .duration
  | .option e => .option e.bare
  | .vec e => .vec e.bare
  | .array e n => .array e.bare n
  | .map k v => .map k.bare v.bare
  | .named name _ => .named name ⟨0, 0⟩

/-- Names that are words and no keywords, and lengths that fit in 64 bits. -/
def Admissible : TypeExpr → Prop
  | .scalar _ | .duration => True
  | .option e | .vec e => e.Admissible
  | .array e n => e.Admissible ∧ n ≤ maxLength
  | .map k v => k.Admissible ∧ v.Admissible
  | .named name _ => IsWord name.toList ∧ ¬ IsKeyword name

theorem Admissible.exists_spelled {e : TypeExpr} (h : e.Admissible) : ∃ ts, Spelled e ts := by
  induction e with
  | scalar kind => exact ⟨_, .scalar kind ⟨0, 0⟩⟩
  | duration => exact ⟨_, .duration ⟨0, 0⟩⟩
  | option e ih =>
    obtain ⟨ts, hts⟩ := ih h
    exact ⟨_, .option ⟨0, 0⟩ ⟨0, 0⟩ ⟨0, 0⟩ hts⟩
  | vec e ih =>
    obtain ⟨ts, hts⟩ := ih h
    exact ⟨_, .vec ⟨0, 0⟩ ⟨0, 0⟩ ⟨0, 0⟩ hts⟩
  | array e n ih =>
    obtain ⟨ts, hts⟩ := ih h.1
    exact ⟨_, .array 0 n ⟨0, 0⟩ ⟨0, 0⟩ ⟨0, 0⟩ ⟨0, 0⟩ hts h.2⟩
  | map k v ihk ihv =>
    obtain ⟨ks, hks⟩ := ihk h.1
    obtain ⟨vs, hvs⟩ := ihv h.2
    exact ⟨_, .map ⟨0, 0⟩ ⟨0, 0⟩ ⟨0, 0⟩ ⟨0, 0⟩ hks hvs⟩
  | named name s => exact ⟨_, .named s h.1 h.2⟩

theorem Spelled.admissible {e : TypeExpr} {ts : List Located} (h : Spelled e ts) : e.Admissible := by
  induction h with
  | scalar | duration => trivial
  | option _ _ _ _ ih | vec _ _ _ _ ih => exact ih
  | array _ _ _ _ _ _ _ hn ih => exact ⟨ih, hn⟩
  | map _ _ _ _ _ _ ihk ihv => exact ⟨ihk, ihv⟩
  | named _ hword hkey => exact ⟨hword, hkey⟩

/-- **The tokens of an expression at other places** spell the same expression with its names at theirs. -/
theorem Spelled.move {e : TypeExpr} {ts : List Located} (h : Spelled e ts) {us : List Located}
    (hsame : us.map Located.token = ts.map Located.token) : ∃ e', e'.bare = e.bare ∧ Spelled e' us := by
  induction h generalizing us with
  | scalar kind s =>
    obtain ⟨⟨_, s'⟩, rfl, rfl⟩ := List.map_eq_singleton_iff.1 hsame
    exact ⟨_, rfl, .scalar kind s'⟩
  | duration s =>
    obtain ⟨⟨_, s'⟩, rfl, rfl⟩ := List.map_eq_singleton_iff.1 hsame
    exact ⟨_, rfl, .duration s'⟩
  | named s hword hkey =>
    obtain ⟨⟨_, s'⟩, rfl, rfl⟩ := List.map_eq_singleton_iff.1 hsame
    exact ⟨.named _ s', rfl, .named s' hword hkey⟩
  | option s₁ s₂ s₃ _ ih =>
    simp only [List.map_cons, List.map_append, List.map_nil, List.map_eq_cons_iff, List.map_eq_append_iff,
      List.map_eq_nil_iff] at hsame
    obtain ⟨⟨_, t₁⟩, _, rfl, rfl, ⟨_, t₂⟩, _, rfl, rfl, vs, _, rfl, hvs, ⟨_, t₃⟩, _, rfl, rfl, rfl⟩ := hsame
    obtain ⟨e', he', hs⟩ := ih hvs
    exact ⟨.option e', by rw [bare, he', bare], .option t₁ t₂ t₃ hs⟩
  | vec s₁ s₂ s₃ _ ih =>
    simp only [List.map_cons, List.map_append, List.map_nil, List.map_eq_cons_iff, List.map_eq_append_iff,
      List.map_eq_nil_iff] at hsame
    obtain ⟨⟨_, t₁⟩, _, rfl, rfl, ⟨_, t₂⟩, _, rfl, rfl, vs, _, rfl, hvs, ⟨_, t₃⟩, _, rfl, rfl, rfl⟩ := hsame
    obtain ⟨e', he', hs⟩ := ih hvs
    exact ⟨.vec e', by rw [bare, he', bare], .vec t₁ t₂ t₃ hs⟩
  | array zeros n s₁ s₂ s₃ s₄ _ hn ih =>
    simp only [List.map_cons, List.map_append, List.map_nil, List.map_eq_cons_iff, List.map_eq_append_iff,
      List.map_eq_nil_iff] at hsame
    obtain ⟨⟨_, t₁⟩, _, rfl, rfl, vs, _, rfl, hvs, ⟨_, t₂⟩, _, rfl, rfl, ⟨_, t₃⟩, _, rfl, rfl, ⟨_, t₄⟩, _, rfl, rfl, rfl⟩ := hsame
    obtain ⟨e', he', hs⟩ := ih hvs
    exact ⟨.array e' n, by rw [bare, he', bare], .array zeros n t₁ t₂ t₃ t₄ hs hn⟩
  | map s₁ s₂ s₃ s₄ _ _ ihk ihv =>
    simp only [List.map_cons, List.map_append, List.map_nil, List.map_eq_cons_iff, List.map_eq_append_iff,
      List.map_eq_nil_iff] at hsame
    obtain ⟨⟨_, t₁⟩, _, rfl, rfl, ⟨_, t₂⟩, _, rfl, rfl, ks, _, rfl, hks, ⟨_, t₃⟩, _, rfl, rfl, vs, _, rfl, hvs,
      ⟨_, t₄⟩, _, rfl, rfl, rfl⟩ := hsame
    obtain ⟨k', hk', hsk⟩ := ihk hks
    obtain ⟨v', hv', hsv⟩ := ihv hvs
    exact ⟨.map k' v', by rw [bare, hk', hv', bare], .map t₁ t₂ t₃ t₄ hsk hsv⟩

/-- **Reading inverts writing.**  An expression with admissible names and lengths has written forms.  A text with the
tokens of such a form, laid out in any way, is read as that expression with each name at its place; and every text that
is read at all is a written form of what it is read as. -/
theorem parse_reads_spellings :
    (∀ e : TypeExpr, e.Admissible ↔ ∃ ts, Spelled e ts) ∧
    (∀ (e : TypeExpr) (ts : List Located) (text : String) (placed : List Located), Spelled e ts →
      placed.map Located.token = ts.map Located.token → Layout 0 text.toList placed →
      ∃ e', e'.bare = e.bare ∧ Spelled e' placed ∧ parse text = .ok e') ∧
    ∀ (text : String) (e : TypeExpr), parse text = .ok e → ∃ placed, Spelled e placed ∧ Layout 0 text.toList placed := by
  refine ⟨fun e => ⟨Admissible.exists_spelled, fun ⟨_, h⟩ => h.admissible⟩, ?_, fun text e => parse_eq_ok_iff.1⟩
  intro e ts text placed hspelled hsame hlayout
  obtain ⟨e', hbare, hplaced⟩ := hspelled.move hsame
  exact ⟨e', hbare, hplaced, parse_eq_ok_iff.2 ⟨placed, hplaced, hlayout⟩⟩

def peersTokens : List Located :=
  [⟨.leftBracket, ⟨0, 1⟩⟩, ⟨.word "Peer", ⟨2, 6⟩⟩, ⟨.semicolon, ⟨6, 7⟩⟩, ⟨.number "07", ⟨7, 9⟩⟩,
    ⟨.rightBracket, ⟨10, 11⟩⟩]

theorem peers_read : Spelled (.array (.named "Peer" ⟨2, 6⟩) 7) peersTokens ∧
    Layout 0 "[ Peer;07 ]".toList peersTokens ∧
    ∃ e, e.bare = (array (.named "Peer" ⟨2, 6⟩) 7).bare ∧ Spelled e peersTokens ∧ parse "[ Peer;07 ]" = .ok e := by
  have hword : IsWord "Peer".toList := ⟨'P', ['e', 'e', 'r'], rfl, rfl, List.all_eq_true.1 rfl⟩
  have hkeyword : ¬ IsKeyword "Peer" := by
    rintro (⟨kind, hkind⟩ | hmem)
    · rw [← ofName?_eq_some_iff] at hkind
      cases hkind
    · exact absurd hmem (by decide)
  have hseven : String.ofList (numeral 1 7) = "07" := by decide +kernel
  have hspelled : Spelled (.array (.named "Peer" ⟨2, 6⟩) 7) peersTokens := by
    unfold peersTokens
    rw [← hseven]
    exact .array 1 7 _ _ _ _ (.named _ hword hkeyword) (by decide)
  have hnone : Blanks [] := List.forall_mem_nil _
  have hspace : Blanks [' '] := List.forall_mem_singleton.2 rfl
  have hlayout : Layout 0 "[ Peer;07 ]".toList peersTokens :=
    .token (t := .leftBracket) hnone (.token (t := .word "Peer") hspace (.token (t := .semicolon) hnone
      (.token (t := .number "07") hnone (.token (t := .rightBracket) hspace (.finish hnone)))))
  exact ⟨hspelled, hlayout, parse_reads_spellings.2.1 _ _ _ _ hspelled rfl hlayout⟩

end TypeExpr
end BencodePlan
