import BencodePlan.Proofs.Schema.Validity
/-!
# Types shown and read back

What a table shows of a type is a written form of each expression for it: `written` is that form, and showing an id opens
its parts the way an expression is built (`displayFrom_of_denotes`).  In a coherent table an expression for a type is
resolved to it and nothing new is entered (`resolve_of_denotes`).  A schema has an expression for each type but the
struct bodies, which no expression is for, so what it shows of a type leads back to it (`display_reads_back`).
-/
namespace BencodePlan

namespace TypeExpr

def Token.glyphs (t : Token) : List Char := t.text.toList

/-- **The written form that is shown**: a blank after a comma and a semicolon, no others, and no zeros in front. -/
def written : TypeExpr → List Char
  | .scalar kind => (Token.word kind.name).glyphs
  | .duration => (Token.word "duration").glyphs
  | .option e => (Token.word "Option").glyphs ++ (Token.leftAngle.glyphs ++ (e.written ++ Token.rightAngle.glyphs))
  | .vec e => (Token.word "Vec").glyphs ++ (Token.leftAngle.glyphs ++ (e.written ++ Token.rightAngle.glyphs))
  | .array e n =>
    Token.leftBracket.glyphs ++ (e.written ++ (Token.semicolon.glyphs ++ ([' '] ++ (Text.decimal n ++
      Token.rightBracket.glyphs))))
  | .map k v =>
    (Token.word "Map").glyphs ++ (Token.leftAngle.glyphs ++ (k.written ++ (Token.comma.glyphs ++ ([' '] ++ (v.written ++
      Token.rightAngle.glyphs)))))
  | .named name _ => (Token.word name).glyphs

/-- **Characters that are these tokens**, wherever in a text they stand. -/
def LaysOut (cs : List Char) (tokens : List Token) : Prop :=
  ∀ offset, ∃ placed : List Located, placed.map Located.token = tokens ∧
    ∀ rest ts, Layout (offset + Text.byteLength cs) rest ts → Layout offset (cs ++ rest) (placed ++ ts)

namespace LaysOut

theorem append {as bs : List Char} {ts us : List Token} (ha : LaysOut as ts) (hb : LaysOut bs us) :
    LaysOut (as ++ bs) (ts ++ us) := by
  intro offset
  obtain ⟨placed, hplaced, hlayout⟩ := ha offset
  obtain ⟨placed', hplaced', hlayout'⟩ := hb (offset + Text.byteLength as)
  refine ⟨placed ++ placed', by rw [List.map_append, hplaced, hplaced'], fun rest ts h => ?_⟩
  rw [Text.byteLength_append, ← Nat.add_assoc] at h
  rw [List.append_assoc, List.append_assoc]
  exact hlayout _ _ (hlayout' rest ts h)

theorem token (t : Token) : LaysOut t.glyphs [t] :=
  fun _ => ⟨[⟨t, _⟩], rfl, fun _ _ hrest => Layout.cons rfl rfl hrest⟩

theorem blank : LaysOut [' '] [] :=
  fun _ => ⟨[], rfl, fun _ _ hrest => Layout.blank rfl hrest⟩

end LaysOut

theorem laysOut_written {e : TypeExpr} (h : e.Admissible) :
    ∃ ts, Spelled e ts ∧ LaysOut e.written (ts.map Located.token) := by
  let s : Span := ⟨0, 0⟩
  induction e with
  | scalar kind => exact ⟨_, .scalar kind s, .token _⟩
  | duration => exact ⟨_, .duration s, .token _⟩
  | option e ih =>
    obtain ⟨ts, hts, hlay⟩ := ih h
    refine ⟨_, .option s s s hts, ?_⟩
    rw [List.map_cons, List.map_cons, List.map_append]
    exact .append (.token _) (.append (.token _) (.append hlay (.token _)))
  | vec e ih =>
    obtain ⟨ts, hts, hlay⟩ := ih h
    refine ⟨_, .vec s s s hts, ?_⟩
    rw [List.map_cons, List.map_cons, List.map_append]
    exact .append (.token _) (.append (.token _) (.append hlay (.token _)))
  | array e n ih =>
    obtain ⟨ts, hts, hlay⟩ := ih h.1
    refine ⟨_, .array 0 n s s s s hts h.2, ?_⟩
    rw [List.map_cons, List.map_append]
    have hnumber := LaysOut.token (.number (String.ofList (numeral 0 n)))
    rw [Token.glyphs, Token.text, String.toList_ofList] at hnumber
    have hlength := LaysOut.blank.append (hnumber.append (.token .rightBracket))
    exact .append (.token _) (.append hlay (.append (.token .semicolon) hlength))
  | map k v ihk ihv =>
    obtain ⟨ks, hks, hlayk⟩ := ihk h.1
    obtain ⟨vs, hvs, hlayv⟩ := ihv h.2
    refine ⟨_, .map s s s s hks hvs, ?_⟩
    rw [List.map_cons, List.map_cons, List.map_append, List.map_cons, List.map_append]
    have hvalue := LaysOut.blank.append (hlayv.append (.token .rightAngle))
    exact .append (.token _) (.append (.token _) (.append hlayk (.append (.token .comma) hvalue)))
  | named name s => exact ⟨_, .named s h.1 h.2, .token _⟩

/-- **What is shown of an expression is read as it**, with each name at its place. -/
theorem parse_of_written {e : TypeExpr} (h : e.Admissible) {text : String} (htext : text.toList = e.written) :
    ∃ e', parse text = .ok e' ∧ e'.bare = e.bare := by
  obtain ⟨ts, hspelled, hlay⟩ := laysOut_written h
  obtain ⟨placed, hplaced, hlayout⟩ := hlay 0
  obtain ⟨e', hbare, hspelled'⟩ := hspelled.move hplaced
  have htokens := hlayout [] [] (.finish fun _ hc => nomatch hc)
  rw [List.append_nil, List.append_nil, ← htext] at htokens
  exact ⟨e', parse_eq_ok_iff.2 ⟨placed, hspelled', htokens⟩, hbare⟩

end TypeExpr

namespace TypeTable

theorem toList_toString (n : Nat) : (toString n).toList = Text.decimal n := by
  have hdigit : ∀ d < 10, Nat.digitChar d = Char.ofNat (48 + d) := by decide
  rw [Nat.toString_eq_repr, Nat.toList_repr]
  induction n using Nat.strongRecOn with
  | ind n ih =>
    rw [Nat.toDigits_eq_if (by decide), Text.decimal]
    split
    · rename_i hn
      rw [hdigit n hn]
    · rename_i hn
      rw [ih (n / 10) (by omega), hdigit (n % 10) (Nat.mod_lt _ (by decide))]

/-- **Showing a type writes each expression for it**, below types that are no parts of it. -/
theorem displayFrom_of_denotes {t : TypeTable} (h : t.Formed) {e : TypeExpr} {id : TypeId} (hden : t.Denotes e id) :
    ∀ opened : List TypeId, (∀ o ∈ opened, id < o) → (t.displayFrom opened id).toList = e.written := by
  have hnew {id : TypeId} (hid : id < t.size) {opened : List TypeId} (hopened : ∀ o ∈ opened, id < o) :
      id < t.size ∧ id ∉ opened := ⟨hid, fun hm => Nat.lt_irrefl _ (hopened id hm)⟩
  -- the parts of a type come before it
  have hbelow {id : TypeId} {d : TypeDesc} (hd : t.get? id = some d) {c : TypeId} (hc : c ∈ d.parts)
      {opened : List TypeId} (hopened : ∀ o ∈ opened, id < o) : ∀ o ∈ id :: opened, c < o :=
    List.forall_mem_cons.2 ⟨h.part_lt hd hc, fun o ho => Nat.lt_trans (h.part_lt hd hc) (hopened o ho)⟩
  have hOption : "Option<".toList = (TypeExpr.Token.word "Option").glyphs ++ TypeExpr.Token.leftAngle.glyphs := rfl
  have hVec : "Vec<".toList = (TypeExpr.Token.word "Vec").glyphs ++ TypeExpr.Token.leftAngle.glyphs := rfl
  have hMap : "Map<".toList = (TypeExpr.Token.word "Map").glyphs ++ TypeExpr.Token.leftAngle.glyphs := rfl
  have hSemicolon : "; ".toList = TypeExpr.Token.semicolon.glyphs ++ [' '] := rfl
  have hComma : ", ".toList = TypeExpr.Token.comma.glyphs ++ [' '] := rfl
  induction hden with
  | scalar hd | duration hd =>
    intro opened hopened
    rw [displayFrom, dif_pos (hnew (get?_lt hd) hopened)]
    simp only [hd, TypeExpr.written]
    rfl
  | option _ hd ih | vec _ hd ih =>
    intro opened hopened
    rw [displayFrom, dif_pos (hnew (get?_lt hd) hopened)]
    simp only [hd, String.toList_append, ih _ (hbelow hd List.mem_cons_self hopened), TypeExpr.written, hOption, hVec,
      List.append_assoc]
    rfl
  | array _ hd ih =>
    intro opened hopened
    rw [displayFrom, dif_pos (hnew (get?_lt hd) hopened)]
    simp only [hd, String.toList_append, ih _ (hbelow hd List.mem_cons_self hopened), TypeExpr.written, hSemicolon,
      toList_toString, List.append_assoc]
    rfl
  | map _ _ hd ihk ihv =>
    intro opened hopened
    rw [displayFrom, dif_pos (hnew (get?_lt hd) hopened)]
    simp only [hd, String.toList_append, ihk _ (hbelow hd List.mem_cons_self hopened),
      ihv _ (hbelow hd (List.mem_cons_of_mem _ List.mem_cons_self) hopened), TypeExpr.written, hMap, hComma,
      List.append_assoc]
    rfl
  | named hl =>
    intro opened hopened
    obtain ⟨d, hd, hname⟩ := h.names (lookup_mem hl)
    rw [displayFrom, dif_pos (hnew (lt_of_declared? hd) hopened), TypeExpr.written]
    rcases get?_of_declared? hd with hget | hget <;> simp only [hget, hname, TypeExpr.Token.glyphs, TypeExpr.Token.text]

/-- **An expression for a type is resolved to it**, and the table stays as it is. -/
theorem resolve_of_denotes {t : TypeTable} (h : t.Coherent) (location source : String) {e : TypeExpr} {id : TypeId}
    (hden : t.Denotes e id) : Lower.resolve location source e t = ⟨[], some id, t⟩ := by
  have hintern {d : TypeDesc} {id : TypeId} (hd : t.get? id = some d) (hnot : d.isDeclared = false) :
      (some <$> Lower.intern d : Lower (Option TypeId)) t = ⟨[], some id, t⟩ := by
    show Noted.mk [] (some (t.intern d).1, (t.intern d).2) = _
    rw [intern_of_found (h.found hd hnot)]
  have hbind {m : Lower (Option TypeId)} {f : Option TypeId → Lower (Option TypeId)} {a : TypeId}
      (hm : m t = ⟨[], some a, t⟩) : (m >>= f) t = f (some a) t := by
    show Noted.mk ((m t).notices ++ (f (m t).value.1 (m t).value.2).notices) (f (m t).value.1 (m t).value.2).value = _
    rw [hm]
    rfl
  induction hden with
  | scalar hd | duration hd => exact hintern hd rfl
  | option _ hd ih | vec _ hd ih | array _ hd ih =>
    rw [Lower.resolve, hbind ih]
    exact hintern hd rfl
  | map _ _ hd ihk ihv =>
    rw [Lower.resolve, hbind ihk, hbind ihv]
    exact hintern hd rfl
  | named hl =>
    rw [Lower.resolve, Lower.get_bind, hl]
    rfl

/-- **Each type but a struct body has an expression.** -/
theorem exists_denotes {t : TypeTable} (h : t.Coherent) {decls : List RawDecl} (hlists : t.Lists decls)
    (hnames : ∀ decl ∈ decls, IsIdentifier decl.name ∧ ¬ TypeExpr.IsKeyword decl.name)
    (hdistinct : (decls.map RawDecl.name).Nodup) {id : TypeId} (hid : id < t.size) (hs : t.isStruct id = false) :
    ∃ e : TypeExpr, e.Admissible ∧ t.Denotes e id := by
  obtain ⟨d, hd⟩ := exists_get? hid
  cases hdeclared : d.isDeclared with
  | false => exact h.written hd hdeclared hs
  | true =>
    have hi := List.getElem?_eq_getElem ((hlists.declared hd).1 hdeclared)
    obtain ⟨hidentifier, hkeyword⟩ := hnames _ (List.mem_of_getElem? hi)
    exact ⟨.named _ ⟨0, 0⟩, ⟨hidentifier.1, hkeyword⟩, .named (Lower.lookup_decl hlists.names hdistinct hi)⟩

end TypeTable

namespace Schema

open TypeTable

/-- **What is shown of a type leads back to it.**  The text of a type is a type expression, which is resolved to that
type in the same table without a report or a change, so types that are shown alike are one. -/
theorem display_reads_back {raw : RawSchema} {s : Schema} (hs : (ofRaw raw).value = .ok s) :
    (∀ id < s.table.size, s.table.isStruct id = false → ∃ e, TypeExpr.parse (s.table.display id) = .ok e ∧
      ∀ location source, (Lower.resolve location source e).run s.table = ⟨[], some id, s.table⟩) ∧
    ∀ i < s.table.size, ∀ j < s.table.size, s.table.isStruct i = false → s.table.isStruct j = false →
      s.table.display i = s.table.display j → i = j := by
  obtain ⟨hcoh, hlists⟩ := coherent_of_ofRaw hs
  have hvalid := valid_of_ofRaw hs
  have hback (id : TypeId) (hid : id < s.table.size) (hnot : s.table.isStruct id = false) :
      ∃ e, TypeExpr.parse (s.table.display id) = .ok e ∧
        ∀ location source, (Lower.resolve location source e).run s.table = ⟨[], some id, s.table⟩ := by
    obtain ⟨e, hadm, hden⟩ := exists_denotes hcoh hlists hvalid.names hvalid.distinct hid hnot
    have hshown := displayFrom_of_denotes hcoh.toFormed hden [] nofun
    obtain ⟨e', hparse, hbare⟩ := TypeExpr.parse_of_written hadm hshown
    refine ⟨e', hparse, fun location source => resolve_of_denotes hcoh location source ?_⟩
    rw [← denotes_bare, hbare, denotes_bare]
    exact hden
  refine ⟨hback, fun i hi j hj hsi hsj heq => ?_⟩
  obtain ⟨e, hparse, hfirst⟩ := hback i hi hsi
  obtain ⟨_, hparse', hsecond⟩ := hback j hj hsj
  rw [← heq, hparse] at hparse'
  cases hparse'
  have hsame := (hfirst "" "").symm.trans (hsecond "" "")
  cases hsame
  rfl

theorem groveTable_reads_back : (ofRaw groveDocument).value = .ok ⟨some "grove", groveTable⟩ ∧
    (∃ e, TypeExpr.parse (groveTable.display 3) = .ok e ∧
      ∀ location source, (Lower.resolve location source e).run groveTable = ⟨[], some 3, groveTable⟩) ∧
    groveTable.display 3 ≠ groveTable.display 0 := by
  have hs : (ofRaw groveDocument).value = .ok ⟨some "grove", groveTable⟩ := ofRaw_eq_ok (by decide +kernel)
  obtain ⟨hback, hunique⟩ := display_reads_back hs
  refine ⟨hs, hback 3 (by decide) rfl, fun heq => ?_⟩
  exact absurd (hunique 3 (by decide) 0 (by decide) rfl rfl heq) (by decide)

example : groveTable.display 3 = "Vec<Tree>" := by cbv

end Schema
end BencodePlan
