import BencodePlan.Proofs.Types.Reading
/-!
# Where reading stops

A text that is no type expression is refused at one place.  If it has a character that is in no token, that is the place
(`lex_of_isForeign`).  Otherwise the text has tokens, and the place is the first of them that no type expression could have
there, or the end of the text if each of them could stand where it does (`parse_error_located`).

What the reader keeps of the tokens before is what must still come and the trees that are finished.  Something can always
follow (`IsOpen`): a run begins in such a state, and no token that is taken leads out of them (`isOpen_of_accept`).
-/
namespace BencodePlan
namespace TypeExpr

open Text (byteLength_append byteLength_eq_length byteLength_pos)

/-! ## Characters without a token -/

/-- **A character that is in no token** and does not stand between tokens. -/
def IsForeign (c : Char) : Prop := isBlank c = false ∧ ∀ t : Token, t.IsProper → c ∉ t.text.toList

theorem isForeign_iff {c : Char} :
    IsForeign c ↔ isBlank c = false ∧ symbol? c = none ∧ Text.isNamePart c = false := by
  refine and_congr_right fun _ => ⟨fun hno => ⟨?_, ?_⟩, ?_⟩
  · rw [Option.eq_none_iff_forall_ne_some]
    intro t ht
    obtain ⟨htext, hs⟩ := of_symbol? ht
    exact hno t (Token.isProper_of_isSymbol hs) (htext ▸ List.mem_singleton_self c)
  · rw [Bool.eq_false_iff]
    intro hpart
    by_cases hdigit : c.isDigit = true
    · refine hno (.number (String.singleton c)) ⟨?_, ?_⟩ ?_ <;> simp [hdigit, Token.text]
    · have hstart : Text.isNameStart c = true := by
        simpa [Text.isNameStart, Text.isNamePart, Char.isAlphanum, hdigit] using hpart
      refine hno (.word (String.singleton c)) ⟨c, [], ?_, hstart, List.forall_mem_nil _⟩ ?_ <;> simp [Token.text]
  · rintro ⟨hsymbol, hpart⟩ t ht hmem
    cases hs : t.isSymbol with
    | true =>
      obtain ⟨d, htext, hd, -⟩ := Token.text_of_isSymbol hs
      rw [htext, List.mem_singleton] at hmem
      subst hmem
      rw [hsymbol] at hd
      cases hd
    | false =>
      have hpart' : Text.isNamePart c = true := by
        cases t with
        | number digits => exact isNamePart_of_isDigit (ht.2 c hmem)
        | word name =>
          obtain ⟨d, rest, hname, hd, hrest⟩ := ht
          rw [Token.text, hname] at hmem
          rcases List.mem_cons.1 hmem with rfl | hmem
          · exact isNamePart_of_isNameStart hd
          · exact hrest c hmem
        | leftAngle | rightAngle | leftBracket | rightBracket | semicolon | comma => cases hs
      rw [hpart] at hpart'
      cases hpart'

/-- **A text without such characters has tokens.** -/
theorem exists_lex (offset : Nat) {cs : List Char} (h : ∀ c ∈ cs, ¬ IsForeign c) : ∃ ts, lex offset cs = .ok ts := by
  fun_induction lex offset cs with
  | case1 => exact ⟨[], rfl⟩
  | case2 offset c cs _ ih => exact ih fun d hd => h d (List.mem_cons_of_mem _ hd)
  | case3 offset c cs _ t _ ih =>
    obtain ⟨ts, hts⟩ := ih fun d hd => h d (List.mem_cons_of_mem _ hd)
    exact ⟨_, by rw [hts]; rfl⟩
  | case4 offset c cs _ _ _ run ih =>
    obtain ⟨ts, hts⟩ := ih fun d hd => h d (List.mem_cons_of_mem _ ((List.dropWhile_sublist _).mem hd))
    exact ⟨_, by rw [hts]; rfl⟩
  | case5 offset c cs _ _ _ _ run ih =>
    obtain ⟨ts, hts⟩ := ih fun d hd => h d (List.mem_cons_of_mem _ ((List.dropWhile_sublist _).mem hd))
    exact ⟨_, by rw [hts]; rfl⟩
  | case6 offset c cs hblank hsymbol hdigit hstart =>
    refine absurd (isForeign_iff.2 ⟨by simpa using hblank, hsymbol, ?_⟩) (h c List.mem_cons_self)
    simpa [Text.isNameStart, Text.isNamePart, Char.isAlphanum, hdigit] using hstart

theorem run_before {p : Char → Bool} {c : Char} (hc : p c = false) (cs after : List Char) :
    (cs ++ c :: after).takeWhile p = cs.takeWhile p ∧
      (cs ++ c :: after).dropWhile p = cs.dropWhile p ++ c :: after := by
  have hstop : ∀ d ∈ (cs.dropWhile p ++ c :: after).head?, p d = false := by
    intro d hd
    cases hdrop : cs.dropWhile p with
    | nil =>
      rw [hdrop] at hd
      cases hd
      exact hc
    | cons e rest =>
      rw [hdrop] at hd
      cases hd
      have hnot := List.head?_dropWhile_not p cs
      rw [hdrop] at hnot
      simpa using hnot
  have htaken : ∀ d ∈ cs.takeWhile p, p d = true := fun _ => List.mem_takeWhile_imp
  have hrun := run_append htaken hstop
  rw [← List.append_assoc, List.takeWhile_append_dropWhile] at hrun
  exact hrun

theorem byteLength_run {p : Char → Bool} (hsize : ∀ c, p c = true → c.utf8Size = 1) {c : Char} (hc : p c = true)
    (cs : List Char) :
    (c :: cs.takeWhile p).length + Text.byteLength (cs.dropWhile p) = Text.byteLength (c :: cs) := by
  have hrun : ∀ d ∈ c :: cs.takeWhile p, d.utf8Size = 1 :=
    List.forall_mem_cons.2 ⟨hsize c hc, fun d hd => hsize d (List.mem_takeWhile_imp hd)⟩
  rw [← byteLength_eq_length hrun, ← byteLength_append, List.cons_append, List.takeWhile_append_dropWhile]

/-- **The lexer stops at the first character that is in no token**, whatever tokens stand before it. -/
theorem lex_of_isForeign {before : List Char} {c : Char} (hbefore : ∀ d ∈ before, ¬ IsForeign d)
    (hc : IsForeign c) (after : List Char) (offset : Nat) : lex offset (before ++ c :: after) =
      .error ⟨.character c, ⟨offset + Text.byteLength before, offset + Text.byteLength before + c.utf8Size⟩⟩ := by
  obtain ⟨hblank, hsymbol, hpart⟩ := isForeign_iff.1 hc
  have hdigit : c.isDigit = false := Bool.eq_false_iff.2 fun h => by
    rw [isNamePart_of_isDigit h] at hpart
    cases hpart
  have hstart : Text.isNameStart c = false := Bool.eq_false_iff.2 fun h => by
    rw [isNamePart_of_isNameStart h] at hpart
    cases hpart
  induction hn : before.length using Nat.strongRecOn generalizing before offset with
  | ind n ih =>
    cases before with
    | nil =>
      rw [List.nil_append, lex, hblank, hsymbol, hdigit, hstart]
      rfl
    | cons d before =>
      obtain ⟨hd, hrest⟩ := List.forall_mem_cons.1 hbefore
      have hlt : before.length < n := by rw [← hn]; exact Nat.lt_succ_self _
      rw [List.cons_append, lex]
      split
      · rename_i hb
        rw [ih _ hlt hrest (offset + 1) rfl, Text.byteLength, utf8Size_of_isBlank hb, Nat.add_assoc]
      · rename_i hb
        split
        · rename_i t ht
          obtain ⟨htext, hs⟩ := of_symbol? ht
          obtain ⟨e, he, -, -, -, hsize⟩ := Token.text_of_isSymbol hs
          rw [htext] at he
          cases he
          rw [ih _ hlt hrest (offset + 1) rfl, Text.byteLength, hsize, Nat.add_assoc]
          rfl
        · rename_i hs
          have hdrop {p : Char → Bool} : (before.dropWhile p).length < n :=
            Nat.lt_of_le_of_lt (List.dropWhile_sublist p).length_le hlt
          have hkept {p : Char → Bool} : ∀ e ∈ before.dropWhile p, ¬ IsForeign e := fun e he =>
            hrest e ((List.dropWhile_sublist _).mem he)
          split
          · rename_i hdig
            obtain ⟨htake, hdropped⟩ := run_before hdigit before after
            rw [htake, hdropped]
            dsimp only
            rw [ih _ hdrop hkept _ rfl, Nat.add_assoc offset,
              byteLength_run (fun e he => utf8Size_of_isNamePart (isNamePart_of_isDigit he)) hdig]
            rfl
          · rename_i hdig
            split
            · rename_i hst
              obtain ⟨htake, hdropped⟩ := run_before hpart before after
              rw [htake, hdropped]
              dsimp only
              rw [ih _ hdrop hkept _ rfl, Nat.add_assoc offset,
                byteLength_run (fun e he => utf8Size_of_isNamePart he) (isNamePart_of_isNameStart hst)]
              rfl
            · rename_i hst
              refine absurd (isForeign_iff.2 ⟨by simpa using hb, hs, ?_⟩) hd
              simpa [Text.isNameStart, Text.isNamePart, Char.isAlphanum, hdig] using hst

/-! ## Places of tokens -/

theorem Token.text_ne_nil {t : Token} (h : t.IsProper) : t.text.toList ≠ [] := by
  cases t with
  | number digits => exact h.1
  | word name =>
    obtain ⟨c, rest, hname, -⟩ := h
    rw [Token.text, hname]
    exact List.cons_ne_nil _ _
  | leftAngle | rightAngle | leftBracket | rightBracket | semicolon | comma => decide

/-- **Tokens stand one after the other**, each at some bytes of the text. -/
theorem Layout.spans {offset : Nat} {cs : List Char} {ts : List Located} (h : Layout offset cs ts)
    (hproper : ∀ t ∈ ts, t.token.IsProper) :
    ts.Pairwise (fun a b => a.span.start < b.span.start) ∧
      ∀ t ∈ ts, offset ≤ t.span.start ∧ t.span.start < t.span.stop ∧ t.span.stop ≤ offset + Text.byteLength cs := by
  induction h with
  | finish _ => exact ⟨.nil, List.forall_mem_nil _⟩
  | @token offset blanks rest t ts _ _ ih =>
    rw [List.forall_mem_cons] at hproper
    obtain ⟨hascend, hwithin⟩ := ih hproper.2
    have hpos : 0 < Text.byteLength t.text.toList := byteLength_pos (Token.text_ne_nil hproper.1)
    have hlength := byteLength_append blanks (t.text.toList ++ rest)
    rw [byteLength_append t.text.toList] at hlength
    refine ⟨List.pairwise_cons.2 ⟨fun u hu => ?_, hascend⟩, List.forall_mem_cons.2 ⟨?_, fun u hu => ?_⟩⟩
    · have := hwithin u hu
      simp only
      omega
    · simp only
      omega
    · have := hwithin u hu
      omega

theorem index_eq_of_span_eq {ts : List Located} (h : ts.Pairwise fun a b => a.span.start < b.span.start) {i j : Nat}
    {t u : Located} (hi : ts[i]? = some t) (hj : ts[j]? = some u) (hspan : t.span = u.span) : i = j := by
  rw [List.pairwise_iff_getElem] at h
  obtain ⟨hi', rfl⟩ := List.getElem?_eq_some_iff.1 hi
  obtain ⟨hj', rfl⟩ := List.getElem?_eq_some_iff.1 hj
  rcases Nat.lt_trichotomy i j with hlt | heq | hgt
  · exact absurd (congrArg Span.start hspan) (Nat.ne_of_lt (h i j hi' hj' hlt))
  · exact heq
  · exact absurd (congrArg Span.start hspan).symm (Nat.ne_of_lt (h j i hj' hi' hgt))

/-! ## What can still follow -/

/-- **Something can follow** that is asked for by what must come and what is finished. -/
def IsOpen (items : List Item) (done : List TypeExpr) : Prop := ∃ ts e, Completes items done ts e

theorem exists_cons_of_length {α : Type} {a : α} {l l' : List α} (h : (a :: l).length = l'.length) :
    ∃ b rest, l' = b :: rest ∧ l.length = rest.length := by
  obtain ⟨b, rest, rfl⟩ := List.exists_cons_of_length_eq_add_one h.symm
  exact ⟨b, rest, rfl, Nat.succ.inj h⟩

/-- Which trees are finished decides nothing but the tree that comes of them, as long as there are so many. -/
theorem completes_of_length_eq {items : List Item} {done : List TypeExpr} (done' : List TypeExpr) {ts : List Located}
    {e : TypeExpr} (h : Completes items done ts e) (hlength : done.length = done'.length) :
    ∃ e', Completes items done' ts e' := by
  induction items generalizing done done' ts e with
  | nil =>
    obtain ⟨rfl, hhead⟩ := h
    cases done with
    | nil => cases hhead
    | cons a rest =>
      obtain ⟨a', rest', rfl, -⟩ := exists_cons_of_length hlength
      exact ⟨a', rfl, rfl⟩
  | cons item items ih =>
    cases item with
    | type =>
      obtain ⟨a, us, vs, ha, rfl, h⟩ := h
      obtain ⟨e', h'⟩ := ih (a :: done') h (congrArg Nat.succ hlength)
      exact ⟨e', a, us, vs, ha, rfl, h'⟩
    | token wanted =>
      obtain ⟨s, vs, rfl, h⟩ := h
      obtain ⟨e', h'⟩ := ih done' h hlength
      exact ⟨e', s, vs, rfl, h'⟩
    | length =>
      obtain ⟨a, rest, rfl, zeros, n, s, s', vs, hn, rfl, h⟩ := h
      obtain ⟨a', rest', rfl, hrest⟩ := exists_cons_of_length hlength
      obtain ⟨e', h'⟩ := ih (.array a' n :: rest') h (congrArg Nat.succ hrest)
      exact ⟨e', a', rest', rfl, zeros, n, s, s', vs, hn, rfl, h'⟩
    | wrapOption =>
      obtain ⟨a, rest, rfl, h⟩ := h
      obtain ⟨a', rest', rfl, hrest⟩ := exists_cons_of_length hlength
      obtain ⟨e', h'⟩ := ih (.option a' :: rest') h (congrArg Nat.succ hrest)
      exact ⟨e', a', rest', rfl, h'⟩
    | wrapVec =>
      obtain ⟨a, rest, rfl, h⟩ := h
      obtain ⟨a', rest', rfl, hrest⟩ := exists_cons_of_length hlength
      obtain ⟨e', h'⟩ := ih (.vec a' :: rest') h (congrArg Nat.succ hrest)
      exact ⟨e', a', rest', rfl, h'⟩
    | wrapArray n =>
      obtain ⟨a, rest, rfl, h⟩ := h
      obtain ⟨a', rest', rfl, hrest⟩ := exists_cons_of_length hlength
      obtain ⟨e', h'⟩ := ih (.array a' n :: rest') h (congrArg Nat.succ hrest)
      exact ⟨e', a', rest', rfl, h'⟩
    | wrapMap =>
      obtain ⟨v, k, rest, rfl, h⟩ := h
      obtain ⟨v', others, rfl, hothers⟩ := exists_cons_of_length hlength
      obtain ⟨k', rest', rfl, hrest⟩ := exists_cons_of_length hothers
      obtain ⟨e', h'⟩ := ih (.map k' v' :: rest') h (congrArg Nat.succ hrest)
      exact ⟨e', v', k', rest', rfl, h'⟩

theorem isOpen_settle {items : List Item} {done : List TypeExpr} (h : IsOpen items done) :
    IsOpen (settle items done).1 (settle items done).2 := by
  fun_induction settle items done with
  | case1 items a done ih | case2 items a done ih | case3 n items a done ih =>
    obtain ⟨ts, e, _, _, heq, h⟩ := h
    cases heq
    exact ih ⟨ts, e, h⟩
  | case4 items v k done ih =>
    obtain ⟨ts, e, _, _, _, heq, h⟩ := h
    cases heq
    exact ih ⟨ts, e, h⟩
  | case5 items done => exact h

theorem openWord_cases (name : String) (s : Span) :
    (∃ e, openWord name s = ([], [e])) ∨
    (∃ wrap, (wrap = .wrapOption ∨ wrap = .wrapVec) ∧
      openWord name s = ([.token .leftAngle, .type, .token .rightAngle, wrap], [])) ∨
    openWord name s = ([.token .leftAngle, .type, .token .comma, .type, .token .rightAngle, .wrapMap], []) := by
  unfold openWord
  split
  · exact Or.inl ⟨_, rfl⟩
  · split_ifs
    · exact Or.inl ⟨_, rfl⟩
    · exact Or.inr (Or.inl ⟨_, Or.inl rfl, rfl⟩)
    · exact Or.inr (Or.inl ⟨_, Or.inr rfl, rfl⟩)
    · exact Or.inr (Or.inr rfl)
    · exact Or.inl ⟨_, rfl⟩

/-- **No token that is taken leads to where nothing can follow.** -/
theorem isOpen_of_accept {item : Item} {t : Located} {more : List Item} {finished : List TypeExpr}
    (haccept : item.accept t = .ok (more, finished)) {items : List Item} {done : List TypeExpr}
    (h : IsOpen (item :: items) done) : IsOpen (more ++ items) (finished ++ done) := by
  let place : Span := ⟨0, 0⟩
  obtain ⟨token, s⟩ := t
  obtain ⟨ts, e, h⟩ := h
  cases item with
  | type =>
    obtain ⟨a, us, vs, ha, rfl, h⟩ := h
    have hlater (b : TypeExpr) : ∃ e', Completes items (b :: done) vs e' :=
      completes_of_length_eq (b :: done) h rfl
    cases token with
    | word name =>
      have hopen : openWord name s = (more, finished) := Except.ok.inj haccept
      rcases openWord_cases name s with ⟨b, hword⟩ | ⟨wrap, hwrap, hword⟩ | hword
      · rw [hword] at hopen
        cases hopen
        exact ⟨vs, hlater b⟩
      · rw [hword] at hopen
        cases hopen
        rcases hwrap with rfl | rfl
        · obtain ⟨e', h'⟩ := hlater (.option a)
          exact ⟨_, e', place, _, rfl, a, us, _, ha, rfl, place, vs, rfl, a, done, rfl, h'⟩
        · obtain ⟨e', h'⟩ := hlater (.vec a)
          exact ⟨_, e', place, _, rfl, a, us, _, ha, rfl, place, vs, rfl, a, done, rfl, h'⟩
      · rw [hword] at hopen
        cases hopen
        obtain ⟨e', h'⟩ := hlater (.map a a)
        exact ⟨_, e', place, _, rfl, a, us, _, ha, rfl, place, _, rfl, a, us, _, ha, rfl, place, vs, rfl, a, a, done, rfl,
          h'⟩
    | leftBracket =>
      cases haccept
      obtain ⟨e', h'⟩ := hlater (.array a 0)
      exact ⟨_, e', a, us, _, ha, rfl, place, _, rfl, a, done, rfl, 0, 0, place, place, vs, Nat.zero_le _, rfl, h'⟩
    | rightAngle | leftAngle | rightBracket | semicolon | comma | number => cases haccept
  | token wanted =>
    obtain ⟨_, vs, rfl, h⟩ := h
    simp only [Item.accept] at haccept
    split at haccept
    · cases haccept
      exact ⟨vs, e, h⟩
    · cases haccept
  | length =>
    obtain ⟨a, rest, rfl, zeros, n, _, _, vs, _, rfl, h⟩ := h
    cases token with
    | number digits =>
      simp only [Item.accept] at haccept
      split at haccept
      · cases haccept
        obtain ⟨e', h'⟩ := completes_of_length_eq (.array a (lengthOf digits) :: rest) h rfl
        exact ⟨_, e', place, vs, rfl, a, rest, rfl, h'⟩
      · cases haccept
    | leftBracket | rightAngle | leftAngle | rightBracket | semicolon | comma | word => cases haccept
  | wrapOption | wrapVec | wrapArray | wrapMap => cases haccept

/-! ## Faults -/

/-- **Where a run stops.**  Either at a token, before which something else could stand, but not that token, whatever comes
after it; or at the end, where something is missing. -/
theorem stops_of_read {textEnd : Nat} {ts : List Located} {items : List Item} {done : List TypeExpr} {fault : Error}
    (h : read textEnd ts items done = .error fault) (hproper : ∀ t ∈ ts, t.token.IsProper) (hopen : IsOpen items done) :
    (∃ i t, ts[i]? = some t ∧ fault.span = t.span ∧ (∃ vs e, Completes items done (ts.take i ++ vs) e) ∧
      ∀ vs, ∃ fault', read textEnd (ts.take (i + 1) ++ vs) items done = .error fault') ∨
    fault.span = ⟨textEnd, textEnd⟩ ∧ ∃ vs e, Completes items done (ts ++ vs) e := by
  induction ts generalizing items done with
  | nil =>
    refine Or.inr ⟨?_, hopen⟩
    rw [read] at h
    split at h
    · cases h
    · cases h
      rfl
    · cases h
      rfl
  | cons t ts ih =>
    rw [List.forall_mem_cons] at hproper
    have hnow (hspan : fault.span = t.span)
        (hstop : ∀ vs, ∃ fault', read textEnd (t :: vs) items done = .error fault') :
        ∃ i u, (t :: ts)[i]? = some u ∧ fault.span = u.span ∧
          (∃ vs e, Completes items done ((t :: ts).take i ++ vs) e) ∧
          ∀ vs, ∃ fault', read textEnd ((t :: ts).take (i + 1) ++ vs) items done = .error fault' :=
      ⟨0, t, rfl, hspan, hopen, hstop⟩
    rw [read] at h
    cases hsettle : settle items done with
    | mk items' done' =>
      rw [hsettle] at h
      cases items' with
      | nil =>
        cases h
        exact Or.inl (hnow rfl fun vs => ⟨_, by rw [read, hsettle]⟩)
      | cons item later =>
        cases haccept : item.accept t with
        | error wrong =>
          simp only [haccept] at h
          cases h
          exact Or.inl (hnow rfl fun vs => ⟨_, by rw [read, hsettle]; simp only [haccept]; rfl⟩)
        | ok taken =>
          obtain ⟨more, finished⟩ := taken
          simp only [haccept] at h
          have hsettled := isOpen_settle hopen
          rw [hsettle] at hsettled
          -- what the rest of the tokens can be continued to, they can be continued to after this one
          have hback {us : List Located} {e : TypeExpr} (hus : Completes (more ++ later) (finished ++ done') us e) :
              Completes items done (t :: us) e :=
            completes_of_settle items done (by rw [hsettle]; exact completes_of_accept haccept hproper.1 hus)
          rcases ih h hproper.2 (isOpen_of_accept haccept hsettled) with ⟨i, u, hi, hspan, ⟨vs, e, hvs⟩, hstop⟩ |
            ⟨hspan, vs, e, hvs⟩
          · refine Or.inl ⟨i + 1, u, hi, hspan, ⟨vs, e, hback hvs⟩, fun vs => ?_⟩
            obtain ⟨fault', hfault⟩ := hstop vs
            refine ⟨fault', ?_⟩
            rw [List.take_succ_cons, List.cons_append, read, hsettle]
            simp only [haccept]
            exact hfault
          · exact Or.inr ⟨hspan, vs, e, hback hvs⟩

/-- **Tokens that are a type expression**, wherever they stand. -/
def IsExpression (ts : List Token) : Prop := ∃ e placed, Spelled e placed ∧ placed.map Located.token = ts

/-- Tokens that a type expression can begin with. -/
def CanGoOn (ts : List Token) : Prop := ∃ more, IsExpression (ts ++ more)

theorem canGoOn_of_completes {ts vs : List Located} {e : TypeExpr} (h : Completes [.type] [] (ts ++ vs) e) :
    CanGoOn (ts.map Located.token) := by
  obtain ⟨a, us, _, ha, heq, rfl, -⟩ := h
  rw [List.append_nil] at heq
  exact ⟨vs.map Located.token, a, us, ha, by rw [← heq, List.map_append]⟩

theorem exists_read_of_isExpression {ts : List Located} (h : IsExpression (ts.map Located.token)) (textEnd : Nat) :
    ∃ e, read textEnd ts [.type] [] = .ok e := by
  obtain ⟨e, placed, hspelled, hsame⟩ := h
  obtain ⟨e', -, hts⟩ := hspelled.move hsame.symm
  have hread := read_spelled hts textEnd [] [] []
  rw [List.append_nil] at hread
  exact ⟨e', hread⟩

/-- **A fault is reported where no type expression can go on.**  A character that is in no token is reported, the first of
them, whatever stands before it.  In other texts the place of the fault is a token, which cannot stand there although the
tokens before it can be gone on from; or it is the end, and then more must come after the tokens, which are no expression
yet. -/
theorem parse_error_located (text : String) :
    (∀ before c after, text.toList = before ++ c :: after → (∀ d ∈ before, ¬ IsForeign d) → IsForeign c →
      parse text = .error ⟨.character c, ⟨Text.byteLength before, Text.byteLength before + c.utf8Size⟩⟩) ∧
    ((∀ c ∈ text.toList, ¬ IsForeign c) → ∃ ts, lex 0 text.toList = .ok ts ∧ Layout 0 text.toList ts ∧
      ∀ fault, parse text = .error fault →
        (∀ i t, ts[i]? = some t → fault.span = t.span →
          CanGoOn ((ts.take i).map Located.token) ∧ ¬ CanGoOn ((ts.take (i + 1)).map Located.token)) ∧
        ((∀ t ∈ ts, fault.span ≠ t.span) →
          fault.span = ⟨Text.byteLength text.toList, Text.byteLength text.toList⟩ ∧
          CanGoOn (ts.map Located.token) ∧ ¬ IsExpression (ts.map Located.token))) := by
  refine ⟨fun before c after htext hbefore hc => ?_, fun htext => ?_⟩
  · have hlex := lex_of_isForeign hbefore hc after 0
    rw [Nat.zero_add] at hlex
    rw [parse, htext, hlex]
  · obtain ⟨ts, hlex⟩ := exists_lex 0 htext
    obtain ⟨hlayout, hproper⟩ := layout_of_lex hlex
    obtain ⟨hascend, hwithin⟩ := hlayout.spans hproper
    refine ⟨ts, hlex, hlayout, fun fault hfault => ?_⟩
    rw [parse, hlex] at hfault
    have hbegin : IsOpen [.type] [] := ⟨_, .duration, .duration, _, [], .duration ⟨0, 0⟩, rfl, rfl, rfl⟩
    rcases stops_of_read hfault hproper hbegin with ⟨i, t, hi, hspan, ⟨vs, e, hvs⟩, hstop⟩ | ⟨hspan, vs, e, hvs⟩
    · refine ⟨fun j u hj hspan' => ?_, fun hno => absurd hspan (hno t (List.mem_of_getElem? hi))⟩
      obtain rfl := index_eq_of_span_eq hascend hi hj (hspan.symm.trans hspan')
      refine ⟨canGoOn_of_completes hvs, ?_⟩
      rintro ⟨more, hmore⟩
      let somewhere (u : Token) : Located := ⟨u, ⟨0, 0⟩⟩
      have hplaced : (ts.take (i + 1) ++ more.map somewhere).map Located.token =
          (ts.take (i + 1)).map Located.token ++ more := by
        rw [List.map_append, List.map_map]
        exact congrArg _ (List.map_id more)
      rw [← hplaced] at hmore
      obtain ⟨e', hread⟩ := exists_read_of_isExpression hmore (Text.byteLength text.toList)
      obtain ⟨fault', hfault'⟩ := hstop (more.map somewhere)
      rw [hread] at hfault'
      cases hfault'
    · refine ⟨fun i t hi hspan' => ?_, fun _ => ⟨hspan, canGoOn_of_completes hvs, fun hexpr => ?_⟩⟩
      · have hlt := (hwithin t (List.mem_of_getElem? hi)).2.1
        rw [← hspan', hspan] at hlt
        exact absurd hlt (Nat.lt_irrefl _)
      · obtain ⟨e', hread⟩ := exists_read_of_isExpression hexpr (Text.byteLength text.toList)
        have hfault' := hread.symm.trans hfault
        cases hfault'

def nTimesTokens : List Located :=
  [⟨.leftBracket, ⟨0, 1⟩⟩, ⟨.word "u8", ⟨1, 3⟩⟩, ⟨.semicolon, ⟨3, 4⟩⟩, ⟨.word "N", ⟨5, 6⟩⟩, ⟨.rightBracket, ⟨6, 7⟩⟩]

/-- A name stands where a length is wanted. -/
theorem nTimes_located : parse "[u8; N]" = .error ⟨.expectedLength, ⟨5, 6⟩⟩ ∧
    CanGoOn [.leftBracket, .word "u8", .semicolon] ∧ ¬ CanGoOn [.leftBracket, .word "u8", .semicolon, .word "N"] := by
  have hfault : parse "[u8; N]" = .error ⟨.expectedLength, ⟨5, 6⟩⟩ := by decide +kernel
  have htokens : lex 0 "[u8; N]".toList = .ok nTimesTokens := by decide +kernel
  have hplain : ∀ c ∈ "[u8; N]".toList, ¬ IsForeign c := by
    have htext : "[u8; N]".toList = ['[', 'u', '8', ';', ' ', 'N', ']'] := by decide
    simp only [htext, List.forall_mem_cons, isForeign_iff]
    exact ⟨by decide, by decide, by decide, by decide, by decide, by decide, by decide, List.forall_mem_nil _⟩
  obtain ⟨ts, hlex, -, hlocated⟩ := (parse_error_located "[u8; N]").2 hplain
  rw [htokens] at hlex
  cases hlex
  exact ⟨hfault, (hlocated _ hfault).1 3 _ rfl rfl⟩

end TypeExpr
end BencodePlan
