import BencodePlan.Proofs.Source.Lines
import BencodePlan.Plan.Fold
import Mathlib
/-!
# Generated files read back

The lines of an encoder keep the nesting of its plan: a loop or a condition opens a body, and the closing brace that belongs
to it ends the body, since what is inside closes all that it opens.  So plans are read back from the lines of their encoders
(`planLines_injective`), and from a file of encoders (`file_injective`).
-/
namespace BencodePlan
namespace Source

open Text

/-! ## The lines of an encoder -/

def castLines (level depth : Nat) : Option String → List (Nat × Line)
  | none => []
  | some type => [(level, .cast depth type)]

mutual
/-- **The lines of an instruction**, each with its level. -/
def lines (level : Nat) : Instruction → List (Nat × Line)
  | .literal bytes => [(level, .literal bytes)]
  | .bool s => [(level, .bool s)]
  | .int s => [(level, .int s)]
  | .string s => [(level, .string s)]
  | .native s => [(level, .native s)]
  | .list s depth body => (level, .list s depth) :: (linesAll (level + 1) body ++ [(level, .close)])
  | .map s depth cast body =>
    (level, .map s depth) :: (castLines (level + 1) depth cast ++ (linesAll (level + 1) body ++ [(level, .close)]))
  | .when s test body => (level, .when s test) :: (linesAll (level + 1) body ++ [(level, .close)])
termination_by structural i => i

def linesAll (level : Nat) : List Instruction → List (Nat × Line)
  | [] => []
  | i :: rest => lines level i ++ linesAll level rest
termination_by structural is => is
end

def planLines (p : Plan) : List (Nat × Line) :=
  (0, .blank) :: (0, .encoder p.name) :: (1, .method) :: (linesAll 2 p.body ++ [(2, .done), (1, .close), (0, .close)])

/-! ## The text of an encoder is that of its lines -/

section

variable (runtime : String)

theorem toList_line (level : Nat) (l : Line) : (line level (l.text runtime)).toList = linesText runtime [(level, l)] := by
  rw [linesText_cons]
  unfold line
  simp only [String.toList_append, String.toList_ofList, List.append_assoc]
  rfl

theorem toList_castLine (level depth : Nat) (cast : Option String) :
    (castLine level depth cast).toList = linesText runtime (castLines level depth cast) := by
  cases cast with
  | none => rfl
  | some type => exact toList_line runtime level (.cast depth type)

mutual
theorem toList_text : ∀ (level : Nat) (i : Instruction),
    ((Statement.ofInstruction i).text runtime level).toList = linesText runtime (lines level i)
  | level, .literal bytes => toList_line runtime level (.literal bytes)
  | level, .bool s => toList_line runtime level (.bool s)
  | level, .int s => toList_line runtime level (.int s)
  | level, .string s => toList_line runtime level (.string s)
  | level, .native s => toList_line runtime level (.native s)
  | level, .list s depth body => by
    have htext : (Statement.ofInstruction (.list s depth body)).text runtime level =
        line level ((Line.list s depth).text runtime) ++
          Statement.textAll runtime (level + 1) (Statement.ofInstructions body) ++ line level (Line.close.text runtime) := rfl
    rw [htext, String.toList_append, String.toList_append, toList_line, toList_line, toList_textAll (level + 1) body,
      ← linesText_append, ← linesText_append]
    rfl
  | level, .map s depth cast body => by
    have htext : (Statement.ofInstruction (.map s depth cast body)).text runtime level =
        line level ((Line.map s depth).text runtime) ++ castLine (level + 1) depth cast ++
          Statement.textAll runtime (level + 1) (Statement.ofInstructions body) ++ line level (Line.close.text runtime) := rfl
    rw [htext, String.toList_append, String.toList_append, String.toList_append, toList_line, toList_line,
      toList_castLine runtime, toList_textAll (level + 1) body, ← linesText_append, ← linesText_append, ← linesText_append,
      lines, List.append_assoc, List.append_assoc]
    rfl
  | level, .when s test body => by
    have htext : (Statement.ofInstruction (.when s test body)).text runtime level =
        line level ((Line.when s test).text runtime) ++
          Statement.textAll runtime (level + 1) (Statement.ofInstructions body) ++ line level (Line.close.text runtime) := rfl
    rw [htext, String.toList_append, String.toList_append, toList_line, toList_line, toList_textAll (level + 1) body,
      ← linesText_append, ← linesText_append]
    rfl
termination_by structural _ i => i

theorem toList_textAll : ∀ (level : Nat) (is : List Instruction),
    (Statement.textAll runtime level (Statement.ofInstructions is)).toList = linesText runtime (linesAll level is)
  | level, [] => rfl
  | level, i :: rest => by
    rw [linesAll, linesText_append, ← toList_text level i, ← toList_textAll level rest, ← String.toList_append]
    rfl
termination_by structural _ is => is
end

theorem toList_encoder (p : Plan) : ("\n" ++ encoder runtime p).toList = linesText runtime (planLines p) := by
  have htext : "\n" ++ encoder runtime p = line 0 (Line.blank.text runtime) ++ (line 0 ((Line.encoder p.name).text runtime) ++
      line 1 (Line.method.text runtime) ++ Statement.textAll runtime 2 (Statement.ofInstructions p.body) ++
      line 2 (Line.done.text runtime) ++ line 1 (Line.close.text runtime) ++ line 0 (Line.close.text runtime)) := rfl
  rw [htext]
  simp only [String.toList_append, toList_line, toList_textAll, ← linesText_append, List.append_assoc]
  rfl

end

/-! ## Nesting read back -/

def Line.isFirst : Line → Bool
  | .literal _ | .bool _ | .int _ | .string _ | .native _ | .list .. | .map .. | .when .. => true
  | .cast .. | .close | .done | .blank | .encoder _ | .method => false

def Ends (ls : List (Nat × Line)) : Prop := ∀ p ∈ ls.head?, p.2.isFirst = false

theorem ends_close (level : Nat) (ls : List (Nat × Line)) : Ends ((level, .close) :: ls) := by
  rintro p hp
  cases hp
  rfl

theorem exists_lines (level : Nat) (i : Instruction) : ∃ l rest, lines level i = (level, l) :: rest ∧ l.isFirst = true := by
  cases i <;> exact ⟨_, _, rfl, rfl⟩

theorem not_ends_lines (level : Nat) (i : Instruction) (ls : List (Nat × Line)) : ¬ Ends (lines level i ++ ls) := by
  obtain ⟨l, rest, hlines, hfirst⟩ := exists_lines level i
  intro hends
  have hnot := hends (level, l) (by rw [hlines]; rfl)
  rw [hfirst] at hnot
  cases hnot

theorem ne_cast_of_linesAll {level level' depth : Nat} {type : String} {is : List Instruction} {u v : List (Nat × Line)} :
    linesAll level is ++ ([(level', Line.close)] ++ u) ≠ (level, .cast depth type) :: v := by
  intro h
  cases is with
  | nil => cases h
  | cons i rest =>
    obtain ⟨l, more, hlines, hfirst⟩ := exists_lines level i
    rw [linesAll, hlines] at h
    cases h
    cases hfirst

/-- **The type of a key is given or not**, and then comes the body. -/
theorem castLines_append_inj {level level' depth : Nat} {cast cast' : Option String} {is is' : List Instruction}
    {u v : List (Nat × Line)}
    (h : castLines level depth cast ++ (linesAll level is ++ ([(level', Line.close)] ++ u)) =
      castLines level depth cast' ++ (linesAll level is' ++ ([(level', Line.close)] ++ v))) :
    cast = cast' ∧
      linesAll level is ++ ([(level', Line.close)] ++ u) = linesAll level is' ++ ([(level', Line.close)] ++ v) := by
  cases cast with
  | none =>
    cases cast' with
    | none => exact ⟨rfl, h⟩
    | some type' => exact absurd h ne_cast_of_linesAll
  | some type =>
    cases cast' with
    | none => exact absurd h.symm ne_cast_of_linesAll
    | some type' =>
      simp only [castLines, List.cons_append, List.nil_append, List.cons.injEq, Prod.mk.injEq, Line.cast.injEq,
        true_and] at h
      exact ⟨congrArg some h.1, by simpa using h.2⟩

mutual
theorem lines_append_inj : ∀ {i i' : Instruction} {level : Nat} {u v : List (Nat × Line)},
    lines level i ++ u = lines level i' ++ v → i = i' ∧ u = v
  | .literal bytes, i', level, u, v, h => by
    cases i' with
    | literal bytes' =>
      cases h
      exact ⟨rfl, rfl⟩
    | _ => cases h
  | .bool s, i', level, u, v, h => by
    cases i' with
    | bool s' =>
      cases h
      exact ⟨rfl, rfl⟩
    | _ => cases h
  | .int s, i', level, u, v, h => by
    cases i' with
    | int s' =>
      cases h
      exact ⟨rfl, rfl⟩
    | _ => cases h
  | .string s, i', level, u, v, h => by
    cases i' with
    | string s' =>
      cases h
      exact ⟨rfl, rfl⟩
    | _ => cases h
  | .native s, i', level, u, v, h => by
    cases i' with
    | native s' =>
      cases h
      exact ⟨rfl, rfl⟩
    | _ => cases h
  | .list s depth body, i', level, u, v, h => by
    cases i' with
    | list s' depth' body' =>
      simp only [lines, List.cons_append, List.append_assoc, List.cons.injEq, Prod.mk.injEq, Line.list.injEq, true_and] at h
      obtain ⟨⟨rfl, rfl⟩, hbody⟩ := h
      obtain ⟨rfl, hrest⟩ := linesAll_append_inj (ends_close _ _) (ends_close _ _) hbody
      exact ⟨rfl, (List.cons.inj hrest).2⟩
    | _ => cases h
  | .map s depth cast body, i', level, u, v, h => by
    cases i' with
    | map s' depth' cast' body' =>
      simp only [lines, List.cons_append, List.append_assoc, List.cons.injEq, Prod.mk.injEq, Line.map.injEq, true_and] at h
      obtain ⟨⟨rfl, rfl⟩, hinside⟩ := h
      obtain ⟨rfl, hbody⟩ := castLines_append_inj hinside
      obtain ⟨rfl, hrest⟩ := linesAll_append_inj (ends_close _ _) (ends_close _ _) hbody
      exact ⟨rfl, (List.cons.inj hrest).2⟩
    | _ => cases h
  | .when s test body, i', level, u, v, h => by
    cases i' with
    | when s' test' body' =>
      simp only [lines, List.cons_append, List.append_assoc, List.cons.injEq, Prod.mk.injEq, Line.when.injEq, true_and] at h
      obtain ⟨⟨rfl, rfl⟩, hbody⟩ := h
      obtain ⟨rfl, hrest⟩ := linesAll_append_inj (ends_close _ _) (ends_close _ _) hbody
      exact ⟨rfl, (List.cons.inj hrest).2⟩
    | _ => cases h
termination_by structural i => i

theorem linesAll_append_inj : ∀ {is is' : List Instruction} {level : Nat} {u v : List (Nat × Line)},
    Ends u → Ends v → linesAll level is ++ u = linesAll level is' ++ v → is = is' ∧ u = v
  | [], [], level, u, v, _, _, h => ⟨rfl, h⟩
  | [], i' :: rest', level, u, v, hu, _, h => by
    rw [linesAll, linesAll, List.nil_append, List.append_assoc] at h
    exact absurd (h ▸ hu) (not_ends_lines level i' _)
  | i :: rest, [], level, u, v, _, hv, h => by
    rw [linesAll, linesAll, List.nil_append, List.append_assoc] at h
    exact absurd (h ▸ hv) (not_ends_lines level i _)
  | i :: rest, i' :: rest', level, u, v, hu, hv, h => by
    rw [linesAll, linesAll, List.append_assoc, List.append_assoc] at h
    obtain ⟨rfl, hrest⟩ := lines_append_inj h
    obtain ⟨rfl, hends⟩ := linesAll_append_inj hu hv hrest
    exact ⟨rfl, hends⟩
termination_by structural is => is
end

/-- **Plans are read back from their lines.** -/
theorem planLines_injective : ∀ {plans plans' : List Plan}, plans.flatMap planLines = plans'.flatMap planLines → plans = plans'
  | [], [], _ => rfl
  | [], p' :: rest', h => nomatch h
  | p :: rest, [], h => nomatch h
  | p :: rest, p' :: rest', h => by
    have hdone (ls : List (Nat × Line)) : Ends ((2, .done) :: ls) := by
      rintro q hq
      cases hq
      rfl
    simp only [List.flatMap_cons, planLines, List.cons_append, List.append_assoc, List.cons.injEq, Prod.mk.injEq,
      Line.encoder.injEq, true_and] at h
    obtain ⟨hname, hinside⟩ := h
    obtain ⟨hbody, hrest⟩ := linesAll_append_inj (hdone _) (hdone _) hinside
    simp only [List.cons.injEq, true_and, List.nil_append] at hrest
    have hplan : p = p' := by
      obtain ⟨name, body⟩ := p
      obtain ⟨name', body'⟩ := p'
      rw [show name = name' from hname, show body = body' from hbody]
    rw [hplan, planLines_injective hrest]

/-! ## Files -/

theorem isNamed_castLines {level depth : Nat} {cast : Option String} (h : ∀ type ∈ cast, isIdentifier type = true) :
    ∀ p ∈ castLines level depth cast, p.2.IsNamed := by
  cases cast with
  | none => exact fun _ hp => nomatch hp
  | some type => exact List.forall_mem_singleton.2 (h type rfl)

mutual
theorem isNamed_lines : ∀ (level : Nat) (i : Instruction), (∀ j ∈ i.visit, j.IsNamed) → ∀ p ∈ lines level i, p.2.IsNamed
  | level, .literal bytes, h => List.forall_mem_singleton.2 trivial
  | level, .bool s, h => List.forall_mem_singleton.2 (h _ (List.mem_singleton_self _))
  | level, .int s, h => List.forall_mem_singleton.2 (h _ (List.mem_singleton_self _))
  | level, .string s, h => List.forall_mem_singleton.2 (h _ (List.mem_singleton_self _))
  | level, .native s, h => List.forall_mem_singleton.2 (h _ (List.mem_singleton_self _))
  | level, .list s depth body, h => by
    obtain ⟨hs, hbody⟩ := List.forall_mem_cons.1 h
    rw [lines, List.forall_mem_cons, List.forall_mem_append, List.forall_mem_singleton]
    exact ⟨hs, isNamed_linesAll (level + 1) body hbody, trivial⟩
  | level, .map s depth cast body, h => by
    obtain ⟨⟨hs, hcast⟩, hbody⟩ := List.forall_mem_cons.1 h
    rw [lines, List.forall_mem_cons, List.forall_mem_append, List.forall_mem_append, List.forall_mem_singleton]
    exact ⟨hs, isNamed_castLines hcast, isNamed_linesAll (level + 1) body hbody, trivial⟩
  | level, .when s test body, h => by
    obtain ⟨hs, hbody⟩ := List.forall_mem_cons.1 h
    rw [lines, List.forall_mem_cons, List.forall_mem_append, List.forall_mem_singleton]
    exact ⟨hs, isNamed_linesAll (level + 1) body hbody, trivial⟩
termination_by structural _ i => i

theorem isNamed_linesAll : ∀ (level : Nat) (is : List Instruction), (∀ j ∈ Instruction.visitAll is, j.IsNamed) →
    ∀ p ∈ linesAll level is, p.2.IsNamed
  | level, [], h => fun _ hp => nomatch hp
  | level, i :: rest, h => by
    rw [Instruction.visitAll, List.forall_mem_append] at h
    rw [linesAll, List.forall_mem_append]
    exact ⟨isNamed_lines level i h.1, isNamed_linesAll level rest h.2⟩
termination_by structural _ is => is
end

theorem isNamed_planLines {p : Plan} (h : p.IsNamed) : ∀ q ∈ planLines p, q.2.IsNamed := by
  unfold planLines
  simp only [List.forall_mem_cons, List.forall_mem_append]
  exact ⟨trivial, h.1, trivial, isNamed_linesAll 2 p.body h.2, trivial, trivial, trivial, fun _ hq => nomatch hq⟩

theorem eq_of_optional {piece u v : List Char} {c : Char} {b b' : Bool} (hpiece : piece.head? = some c)
    (hu : u.head? ≠ some c) (hv : v.head? ≠ some c)
    (h : (if b then piece else []) ++ u = (if b' then piece else []) ++ v) : u = v := by
  have hhead (w : List Char) : (piece ++ w).head? = some c := by
    rw [List.head?_append, hpiece]
    rfl
  cases b with
  | true =>
    cases b' with
    | true => exact List.append_cancel_left h
    | false => exact absurd ((congrArg List.head? h.symm).trans (hhead u)) hv
  | false =>
    cases b' with
    | true => exact absurd ((congrArg List.head? h).trans (hhead v)) hu
    | false => exact h

def sortImport (runtime : String) : String := "use " ++ runtime ++ "::sorted_keys;\n"

def formatImport (runtime : String) : String :=
  "#[allow(unused_imports)]\n" ++ "use " ++ runtime ++ "::\x7bwrite_int, write_string\x7d;\n"

theorem imports_eq (runtime : String) (features : Features) : imports runtime features =
    imports runtime .none ++ (if features.needsSort then sortImport runtime else "") ++
      (if features.needsFormat then formatImport runtime else "") := by
  unfold imports sortImport formatImport
  simp only [Features.none, Bool.false_eq_true, if_false, String.append_empty, String.append_assoc]

theorem toList_if (b : Bool) (s : String) : (if b then s else "").toList = if b then s.toList else [] := by
  cases b <;> rfl

/-- **A file after its mark**: what is always imported, what some plans need, and the encoders. -/
theorem toList_file (config : Config) (module : Option String) (plans : List Plan) :
    (file config module plans).toList =
      ((mark config module).toList ++ (imports config.runtime .none).toList) ++
        ((if (Plan.combinedFeatures plans).needsSort then (sortImport config.runtime).toList else []) ++
          ((if (Plan.combinedFeatures plans).needsFormat then (formatImport config.runtime).toList else []) ++
            linesText config.runtime (plans.flatMap planLines))) := by
  have hencoders : (String.join (plans.map fun p => "\n" ++ encoder config.runtime p)).toList =
      linesText config.runtime (plans.flatMap planLines) := by
    rw [String.toList_join, List.flatMap_map]
    simp only [toList_encoder]
    unfold linesText
    rw [List.flatMap_assoc]
  unfold file
  rw [imports_eq]
  simp only [String.toList_append, toList_if, hencoders, List.append_assoc]

/-! Each import and the blank line before an encoder begin with a character of their own. -/

theorem head?_sortImport (runtime : String) : (sortImport runtime).toList.head? = some 'u' := by
  unfold sortImport
  rw [String.toList_append, String.toList_append]
  rfl

theorem head?_formatImport (runtime : String) : (formatImport runtime).toList.head? = some '#' := by
  unfold formatImport
  rw [String.toList_append, String.toList_append, String.toList_append]
  rfl

theorem head?_encoders_ne (runtime : String) (plans : List Plan) {c : Char} (hc : c ≠ '\n') :
    (linesText runtime (plans.flatMap planLines)).head? ≠ some c := by
  cases plans with
  | nil => exact nofun
  | cons p rest => exact fun h => hc (Option.some.inj h).symm

theorem head?_format_ne (runtime : String) (b : Bool) (plans : List Plan) :
    ((if b then (formatImport runtime).toList else []) ++ linesText runtime (plans.flatMap planLines)).head? ≠ some 'u' := by
  cases b with
  | true =>
    rw [if_pos rfl, List.head?_append, head?_formatImport]
    exact fun h => absurd (Option.some.inj h) (by decide)
  | false =>
    rw [if_neg Bool.false_ne_true, List.nil_append]
    exact head?_encoders_ne runtime plans (by decide)

/-- **A file of encoders can be read back.**  Under one configuration and for one module, plans whose names are identifiers
are written to the same text only if they are the same, instruction for instruction. -/
theorem file_injective {config : Config} (hruntime : IsPath config.runtime) (module : Option String) {plans plans' : List Plan}
    (hplans : ∀ p ∈ plans, p.IsNamed) (hplans' : ∀ p ∈ plans', p.IsNamed)
    (h : file config module plans = file config module plans') : plans = plans' := by
  have hlists := congrArg String.toList h
  rw [toList_file, toList_file] at hlists
  have hformat := eq_of_optional (head?_sortImport config.runtime) (head?_format_ne _ _ _) (head?_format_ne _ _ _)
    (List.append_cancel_left hlists)
  have hlines := eq_of_optional (head?_formatImport config.runtime) (head?_encoders_ne _ _ (by decide))
    (head?_encoders_ne _ _ (by decide)) hformat
  have hnamed {plans : List Plan} (hplans : ∀ p ∈ plans, p.IsNamed) : ∀ q ∈ plans.flatMap planLines, q.2.IsNamed := by
    intro q hq
    obtain ⟨p, hp, hqp⟩ := List.mem_flatMap.1 hq
    exact isNamed_planLines (hplans p hp) q hqp
  exact planLines_injective (linesText_injective hruntime (hnamed hplans) (hnamed hplans') hlines)

def afterPlan : Plan :=
  ⟨"Row", [.when (.field .root "keys") .len [.map (.field .root "keys") 0 (some "Key") [.int (.value (.field .root "keys") 0)]],
    .bool (.deref (.field .root "on"))]⟩

def insidePlan : Plan :=
  ⟨"Row", [.when (.field .root "keys") .len [.map (.field .root "keys") 0 (some "Key")
    [.int (.value (.field .root "keys") 0), .bool (.deref (.field .root "on"))]]]⟩

/-- Only braces say which of the two it is; and folding has nothing to do in the first, so its file is the same. -/
theorem row_file_injective : IsPath Config.default.runtime ∧ (∀ p ∈ [afterPlan, insidePlan], p.IsNamed) ∧
    file Config.default none [afterPlan] ≠ file Config.default none [insidePlan] ∧
    file Config.default none [afterPlan.folded] = file Config.default none [afterPlan] ∧ [afterPlan.folded] = [afterPlan] := by
  have hpath : IsPath Config.default.runtime := ⟨["bencode_gen_core", "runtime"], by decide, by decide +kernel⟩
  have hafter : ∀ p ∈ [afterPlan], p.IsNamed := by decide +kernel
  have hinside : ∀ p ∈ [insidePlan], p.IsNamed := by decide +kernel
  have hfolded : ∀ p ∈ [afterPlan.folded], p.IsNamed := by decide +kernel
  have hsame : file Config.default none [afterPlan.folded] = file Config.default none [afterPlan] := by decide +kernel
  refine ⟨hpath, List.forall_mem_cons.2 ⟨hafter _ List.mem_cons_self, hinside⟩, fun h => ?_, hsame, ?_⟩
  · cases file_injective hpath none hafter hinside h
  · exact file_injective hpath none hfolded hafter hsame

end Source
end BencodePlan
