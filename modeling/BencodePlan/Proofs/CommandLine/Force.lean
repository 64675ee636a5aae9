import BencodePlan.CommandLine.Request
import BencodePlan.Proofs.Files.Tree
/-!
# Command lines without force

Force can be left out of a command line: it is taken away where it is spelled out, and its letter is taken out of the letters
it stands among (`withoutForce`).  What is left asks for the same, without force (`read_withoutForce`).

The two readings do not go in step.  A switch first settles what was opened before it, so without the switch this is still
open when the next thing is read; the reading is then one settlement behind (`Behind`).
-/
namespace BencodePlan
namespace CommandLine

/-! ## Leaving out force -/

/-- Letters without the one for force.  What comes after the letter of a value belongs to the value. -/
def lettersWithoutForce : List Char → List Char
  | [] => []
  | c :: rest =>
    if c = 'f' then lettersWithoutForce rest
    else if c = 'o' then c :: rest
    else c :: lettersWithoutForce rest

/-- The arguments of a command without force.  After two dashes alone there are no settings. -/
def argumentsWithoutForce : List String → List String
  | [] => []
  | argument :: rest =>
    match argument.toList with
    | ['-', '-'] => argument :: rest
    | '-' :: '-' :: cs =>
      if cs = "force".toList then argumentsWithoutForce rest else argument :: argumentsWithoutForce rest
    | '-' :: letter :: cs =>
      match lettersWithoutForce (letter :: cs) with
      | [] => argumentsWithoutForce rest
      | letters => String.ofList ('-' :: letters) :: argumentsWithoutForce rest
    | _ => argument :: argumentsWithoutForce rest

/-- **A command line without force**, and otherwise the same. -/
def withoutForce : List String → List String
  | [] => []
  | command :: rest => command :: argumentsWithoutForce rest

/-! ## Readings -/

def Reading.withoutForce (r : Reading) : Reading := { r with switches := r.switches.filter (· ≠ .force) }

variable {r r' r₁ : Reading} {topic : Topic}

theorem contains_withoutForce (r : Reading) {s : Setting} (hs : s ≠ .force) :
    r.withoutForce.switches.contains s = r.switches.contains s := by
  simp [Reading.withoutForce, hs]

theorem takeValue_withoutForce (r : Reading) (s : Setting) (value : String) :
    r.withoutForce.takeValue s value = (r.takeValue s value).map Reading.withoutForce := by
  unfold Reading.takeValue
  simp only [apply_ite (Except.map Reading.withoutForce)]
  rfl

theorem settle_withoutForce (r : Reading) : r.withoutForce.settle = r.settle.map Reading.withoutForce := by
  obtain ⟨schema, types, switches, values, verbosity, opened⟩ := r
  cases opened with
  | nothing => rfl
  | schema path =>
    simp only [Reading.settle, Reading.withoutForce]
    split <;> rfl
  | setting s value =>
    cases value with
    | none => rfl
    | some value => exact takeValue_withoutForce ⟨schema, types, switches, values, verbosity, .nothing⟩ s value

theorem opened_of_takeValue {s : Setting} {value : String} (h : r.takeValue s value = .ok r₁) : r₁.opened = r.opened := by
  unfold Reading.takeValue at h
  split at h
  · cases h
  · split at h
    · cases h
    · split at h
      · cases h
      · cases h
        rfl

theorem opened_of_settle (h : r.settle = .ok r₁) : r₁.opened = .nothing := by
  unfold Reading.settle at h
  split at h
  · rename_i hopened
    cases h
    exact hopened
  · split at h
    · cases h
    · cases h
      rfl
  · cases h
  · exact opened_of_takeValue h

theorem settle_of_opened (h : r.opened = .nothing) : r.settle = .ok r := by
  unfold Reading.settle
  rw [h]

theorem ne_setting_of_settle (h : r.settle = .ok r₁) (s : Setting) : r.opened ≠ .setting s none := by
  intro hopened
  rw [Reading.settle, hopened] at h
  cases h

inductive Behind (r : Reading) : Reading → Prop
  | level : Behind r r.withoutForce
  | lagging {r' : Reading} (hopened : r.opened = .nothing) (hsettle : r'.settle = .ok r.withoutForce) : Behind r r'

/-- **Once settled, the readings are level.** -/
theorem Behind.settle (h : Behind r r') (hr : r.settle = .ok r₁) : r'.settle = .ok r₁.withoutForce := by
  cases h with
  | level => rw [settle_withoutForce, hr]; rfl
  | lagging hopened hsettle =>
    rw [settle_of_opened hopened] at hr
    cases hr
    exact hsettle

theorem refusing_eq_ok_iff {α : Type} {x : Except Mistake α} {a : α} : refusing topic x = .ok a ↔ x = .ok a := by
  cases x <;> simp [refusing]

theorem Behind.plain {text : String} (h : Behind r r') (hr : r.plain text = .ok r₁) :
    r'.plain text = .ok r₁.withoutForce := by
  obtain ⟨r₂, hsettle, hr⟩ := bind_eq_ok_iff.1 hr
  refine bind_eq_ok_iff.2 ⟨r₂.withoutForce, h.settle hsettle, ?_⟩
  have hschema : r₂.withoutForce.schema = r₂.schema := rfl
  simp only [hschema]
  split at hr <;> cases hr <;> rfl

theorem Behind.foldlM_plain : ∀ {texts : List String} {r r' r₁ : Reading}, Behind r r' →
    texts.foldlM Reading.plain r = .ok r₁ → ∃ r₁', texts.foldlM Reading.plain r' = .ok r₁' ∧ Behind r₁ r₁'
  | [], r, r', r₁, h, hr => by
    cases hr
    exact ⟨r', rfl, h⟩
  | text :: texts, r, r', r₁, h, hr => by
    rw [List.foldlM_cons] at hr ⊢
    obtain ⟨r₂, hplain, hr⟩ := bind_eq_ok_iff.1 hr
    obtain ⟨r₁', hr', hbehind⟩ := Behind.foldlM_plain (.level (r := r₂)) hr
    exact ⟨r₁', bind_eq_ok_iff.2 ⟨_, h.plain hplain, hr'⟩, hbehind⟩

theorem Behind.readSwitch {s : Setting} (h : Behind r r') (hs : s ≠ .force)
    (hr : CommandLine.readSwitch topic r s = .ok r₁) : CommandLine.readSwitch topic r' s = .ok r₁.withoutForce := by
  obtain ⟨r₂, hsettle, hr⟩ := bind_eq_ok_iff.1 hr
  rw [refusing_eq_ok_iff] at hsettle
  refine bind_eq_ok_iff.2 ⟨r₂.withoutForce, refusing_eq_ok_iff.2 (h.settle hsettle), ?_⟩
  cases hanswer : s.answer? topic with
  | some answer => simp [hanswer] at hr
  | none =>
    simp only [hanswer, contains_withoutForce r₂ hs] at hr ⊢
    split at hr
    · rename_i hcounted
      rw [if_pos hcounted]
      cases hr
      rfl
    · rename_i hcounted
      rw [if_neg hcounted]
      split at hr
      · cases hr
      · rename_i hrepeated
        rw [if_neg hrepeated]
        cases hr
        simp [Reading.withoutForce, hs]
        rfl

/-- **Without the switch for force the other reading stays where it is.** -/
theorem Behind.readForce (h : Behind r r') (hr : CommandLine.readSwitch topic r .force = .ok r₁) : Behind r₁ r' := by
  obtain ⟨r₂, hsettle, hr⟩ := bind_eq_ok_iff.1 hr
  rw [refusing_eq_ok_iff] at hsettle
  have hcounted : Setting.force.arity ≠ .counted := by decide
  simp only [Setting.answer?, if_neg hcounted] at hr
  split at hr
  · cases hr
  · cases hr
    have hopened := opened_of_settle hsettle
    refine .lagging hopened ((h.settle hsettle).trans (congrArg Except.ok ?_))
    simp [Reading.withoutForce]

/-! ## Arguments -/

variable {unknown : Option Advice} {s : Setting}

abbrev generating : Topic := .command .generate

theorem short_of_ofShort? {c : Char} (h : Setting.ofShort? topic.settings c = some s) : s.short? = some c := by
  simpa using List.find?_some h

theorem long_of_ofLong? {name : String} (h : Setting.ofLong? topic.settings name = some s) : s.long = name := by
  simpa using List.find?_some h

theorem Behind.takeValue {value : String} (h : Behind r r')
    (hr : refusing topic (r.settle >>= (Reading.takeValue · s value)) = .ok r₁) :
    refusing topic (r'.settle >>= (Reading.takeValue · s value)) = .ok r₁.withoutForce := by
  rw [refusing_eq_ok_iff] at hr ⊢
  obtain ⟨r₂, hsettle, hr⟩ := bind_eq_ok_iff.1 hr
  refine bind_eq_ok_iff.2 ⟨_, h.settle hsettle, ?_⟩
  rw [takeValue_withoutForce, hr]
  rfl

theorem Behind.openValue (h : Behind r r')
    (hr : (do let r ← refusing topic r.settle; return { r with opened := .setting s none } : Read Reading) = .ok r₁) :
    (do let r ← refusing topic r'.settle; return { r with opened := .setting s none } : Read Reading) =
      .ok r₁.withoutForce := by
  obtain ⟨r₂, hsettle, hr⟩ := bind_eq_ok_iff.1 hr
  rw [refusing_eq_ok_iff] at hsettle
  refine bind_eq_ok_iff.2 ⟨_, refusing_eq_ok_iff.2 (h.settle hsettle), ?_⟩
  cases hr
  rfl

theorem Behind.readOutput {rest : List Char} (h : Behind r r')
    (hr : CommandLine.readShort generating unknown r ('o' :: rest) = .ok r₁) :
    CommandLine.readShort generating unknown r' ('o' :: rest) = .ok r₁.withoutForce := by
  have hs : Setting.ofShort? generating.settings 'o' = some .output := by decide
  simp only [CommandLine.readShort, hs, Setting.arity] at hr ⊢
  split at hr
  · exact h.openValue hr
  · exact h.takeValue hr
  · exact h.takeValue hr

theorem readShort_switch {c : Char} (hc : c ≠ 'o') (hs : Setting.ofShort? generating.settings c = some s) (r : Reading)
    (rest : List Char) : CommandLine.readShort generating unknown r (c :: rest) =
      (do CommandLine.readShort generating unknown (← CommandLine.readSwitch generating r s) rest) := by
  have hshort := short_of_ofShort? hs
  have houtput : s ≠ .output := by
    rintro rfl
    exact hc (Option.some.inj hshort).symm
  have harity : s.arity = .switch ∨ s.arity = .counted := by
    cases s <;> simp_all [Setting.short?, Setting.arity]
  rw [CommandLine.readShort, hs]
  obtain harity | harity := harity <;> simp only [harity]

theorem Behind.readShort : ∀ {letters : List Char} {r r' r₁ : Reading}, Behind r r' →
    CommandLine.readShort generating unknown r letters = .ok r₁ →
    ∃ r₁', CommandLine.readShort generating unknown r' (lettersWithoutForce letters) = .ok r₁' ∧ Behind r₁ r₁'
  | [], r, r', r₁, h, hr => by
    cases hr
    exact ⟨r', rfl, h⟩
  | c :: rest, r, r', r₁, h, hr => by
    by_cases ho : c = 'o'
    · subst ho
      exact ⟨r₁.withoutForce, h.readOutput hr, .level⟩
    · cases hs : Setting.ofShort? generating.settings c with
      | none => simp [CommandLine.readShort, hs] at hr
      | some s =>
        rw [readShort_switch ho hs] at hr
        obtain ⟨r₂, hread, hrest⟩ := bind_eq_ok_iff.1 hr
        rw [lettersWithoutForce]
        by_cases hf : c = 'f'
        · subst hf
          obtain rfl : Setting.force = s := Option.some.inj hs
          rw [if_pos rfl]
          exact (h.readForce hread).readShort hrest
        · have hforce : s ≠ .force := by
            rintro rfl
            exact hf (Option.some.inj (short_of_ofShort? hs)).symm
          obtain ⟨r₁', hr', hbehind⟩ := Behind.readShort .level hrest
          rw [if_neg hf, if_neg ho, readShort_switch ho hs]
          exact ⟨r₁', bind_eq_ok_iff.2 ⟨_, h.readSwitch hforce hread, hr'⟩, hbehind⟩

theorem ne_dash_of_readShort {c : Char} {rest : List Char}
    (h : CommandLine.readShort generating unknown r (c :: rest) = .ok r₁) : c ≠ '-' := by
  rintro rfl
  cases h

theorem splitValue_fst {cs : List Char} (h : (splitValue cs).2 = none) : (splitValue cs).1 = String.ofList cs := by
  unfold splitValue at h ⊢
  have hdrop : cs.dropWhile (· != '=') = [] := by
    cases hcs : cs.dropWhile (· != '=') with
    | nil => rfl
    | cons c value => simp [hcs] at h
  have htake := List.takeWhile_append_dropWhile (p := (· != '=')) (l := cs)
  rw [hdrop, List.append_nil] at htake
  rw [htake]

theorem Behind.readLong {unknown : String → Option Advice} {cs : List Char} (h : Behind r r') (hcs : cs ≠ "force".toList)
    (hr : CommandLine.readLong generating unknown r cs = .ok r₁) :
    CommandLine.readLong generating unknown r' cs = .ok r₁.withoutForce := by
  unfold CommandLine.readLong at hr ⊢
  simp only at hr ⊢
  cases hs : Setting.ofLong? generating.settings (splitValue cs).1 with
  | none => simp [hs] at hr
  | some s =>
    simp only [hs] at hr ⊢
    split at hr
    · exact h.openValue hr
    · exact h.takeValue hr
    · rename_i hvalue _
      refine h.readSwitch ?_ hr
      rintro rfl
      have hname : (splitValue cs).1 = "force" := (long_of_ofLong? hs).symm
      rw [splitValue_fst hvalue] at hname
      exact hcs (by rw [← hname, String.toList_ofList])
    · cases hr

theorem argumentForm_cases (cs : List Char) : cs = ['-', '-'] ∨ (∃ c rest, cs = '-' :: '-' :: c :: rest) ∨
    (∃ letter rest, letter ≠ '-' ∧ cs = '-' :: letter :: rest) ∨ ∀ letter rest, cs ≠ '-' :: letter :: rest := by
  match cs with
  | [] | [_] => simp
  | first :: second :: rest =>
    by_cases hfirst : first = '-'
    · by_cases hsecond : second = '-'
      · cases rest <;> simp [hfirst, hsecond]
      · simp [hfirst, hsecond]
    · simp [hfirst]

section

variable {argument : String} {letter : Char} {cs : List Char} (rest : List String)

theorem readArguments_long (hcs : argument.toList = '-' :: '-' :: letter :: cs) (r : Reading) :
    readArguments .generate r (argument :: rest) =
      (do readArguments .generate (← readLong generating (fun _ => some .asValue) r (letter :: cs)) rest) := by
  simp only [readArguments, hcs]

theorem readArguments_letters (hletter : letter ≠ '-') (hcs : argument.toList = '-' :: letter :: cs) (r : Reading) :
    readArguments .generate r (argument :: rest) =
      (do readArguments .generate (← readShort generating (some .asValue) r (letter :: cs)) rest) := by
  simp [readArguments, hcs, hletter]

theorem readArguments_value (hcs : ∀ letter rest, argument.toList ≠ '-' :: letter :: rest) {r : Reading}
    (hr : r.opened = .setting s none) : readArguments .generate r (argument :: rest) =
      readArguments .generate { r with opened := .setting s (some argument) } rest := by
  simp [readArguments, hcs, hr]

theorem readArguments_plain (hcs : ∀ letter rest, argument.toList ≠ '-' :: letter :: rest) {r : Reading}
    (hr : ∀ s, r.opened ≠ .setting s none) : readArguments .generate r (argument :: rest) =
      (do readArguments .generate (← refusing generating (r.plain argument)) rest) := by
  simp [readArguments, hcs]

theorem argumentsWithoutForce_plain (hcs : ∀ letter rest, argument.toList ≠ '-' :: letter :: rest) :
    argumentsWithoutForce (argument :: rest) = argument :: argumentsWithoutForce rest := by
  simp [argumentsWithoutForce, hcs]

theorem argumentsWithoutForce_letters (hletter : letter ≠ '-') (hcs : argument.toList = '-' :: letter :: cs) :
    argumentsWithoutForce (argument :: rest) =
      match lettersWithoutForce (letter :: cs) with
      | [] => argumentsWithoutForce rest
      | letters => String.ofList ('-' :: letters) :: argumentsWithoutForce rest := by
  simp [argumentsWithoutForce, hcs, hletter]

end

/-- **Arguments read without force.** -/
theorem Behind.readArguments : ∀ {arguments : List String} {r r' r₁ : Reading}, Behind r r' →
    CommandLine.readArguments .generate r arguments = .ok r₁ →
    CommandLine.readArguments .generate r' (argumentsWithoutForce arguments) = .ok r₁.withoutForce
  | [], r, r', r₁, h, hr => refusing_eq_ok_iff.2 (h.settle (refusing_eq_ok_iff.1 hr))
  | argument :: rest, r, r', r₁, h, hr => by
    obtain hcs | ⟨c, cs, hcs⟩ | ⟨letter, cs, hletter, hcs⟩ | hcs := argumentForm_cases argument.toList
    · simp only [CommandLine.readArguments, argumentsWithoutForce, hcs] at hr ⊢
      obtain ⟨r₂, hplain, hr⟩ := bind_eq_ok_iff.1 hr
      obtain ⟨r₂', hplain', hbehind⟩ := h.foldlM_plain (refusing_eq_ok_iff.1 hplain)
      refine bind_eq_ok_iff.2 ⟨r₂', refusing_eq_ok_iff.2 hplain', ?_⟩
      exact refusing_eq_ok_iff.2 (hbehind.settle (refusing_eq_ok_iff.1 hr))
    · rw [readArguments_long rest hcs] at hr
      obtain ⟨r₂, hlong, hrest⟩ := bind_eq_ok_iff.1 hr
      simp only [argumentsWithoutForce, hcs]
      by_cases hforce : c :: cs = "force".toList
      · -- nothing is read here, so the other reading falls behind
        rw [if_pos hforce]
        rw [hforce] at hlong
        exact (h.readForce hlong).readArguments hrest
      · rw [if_neg hforce, readArguments_long _ hcs]
        exact bind_eq_ok_iff.2 ⟨_, h.readLong hforce hlong, Behind.readArguments .level hrest⟩
    · rw [readArguments_letters rest hletter hcs] at hr
      obtain ⟨r₂, hshort, hrest⟩ := bind_eq_ok_iff.1 hr
      obtain ⟨r₂', hshort', hbehind⟩ := h.readShort hshort
      rw [argumentsWithoutForce_letters rest hletter hcs]
      -- the argument goes with its last letter
      cases hletters : lettersWithoutForce (letter :: cs) with
      | nil =>
        rw [hletters] at hshort'
        cases hshort'
        exact hbehind.readArguments hrest
      | cons first letters =>
        rw [hletters] at hshort'
        simp only
        rw [readArguments_letters _ (ne_dash_of_readShort hshort') String.toList_ofList]
        exact bind_eq_ok_iff.2 ⟨r₂', hshort', hbehind.readArguments hrest⟩
    · rw [argumentsWithoutForce_plain rest hcs]
      by_cases hwaits : ∃ s, r.opened = .setting s none
      · obtain ⟨s, hs⟩ := hwaits
        cases h with
        | level =>
          rw [readArguments_value rest hcs hs] at hr
          have hs' : r.withoutForce.opened = .setting s none := hs
          rw [readArguments_value _ hcs hs']
          exact Behind.readArguments .level hr
        | lagging hopened =>
          -- force has settled what was open, and a setting without its value cannot be settled
          rw [hopened] at hs
          cases hs
      · rw [readArguments_plain rest hcs (not_exists.1 hwaits)] at hr
        obtain ⟨r₂, hplain, hrest⟩ := bind_eq_ok_iff.1 hr
        have hplain' := h.plain (refusing_eq_ok_iff.1 hplain)
        obtain ⟨r₂', hsettle, -⟩ := bind_eq_ok_iff.1 hplain'
        rw [readArguments_plain _ hcs (ne_setting_of_settle hsettle)]
        exact bind_eq_ok_iff.2 ⟨_, refusing_eq_ok_iff.2 hplain', Behind.readArguments .level hrest⟩

theorem request?_withoutForce {c : Common} {g : Generation} (h : r.request? .generate = some (.generate c g)) :
    r.withoutForce.request? .generate = some (.generate c { g with force := false }) := by
  obtain ⟨schema, hschema, h⟩ := Option.bind_eq_some_iff.1 h
  refine Option.bind_eq_some_iff.2 ⟨schema, hschema, ?_⟩
  have hforce : r.withoutForce.switches.contains .force = false := by simp [Reading.withoutForce]
  have hdryRun := contains_withoutForce r (s := .dryRun) (by decide)
  have hnoFormat := contains_withoutForce r (s := .noFormat) (by decide)
  cases h
  simp only [hforce, hdryRun, hnoFormat]
  rfl

theorem command_of_request? {command : Command} {c : Common} {g : Generation}
    (h : r.request? command = some (.generate c g)) : command = .generate := by
  obtain ⟨schema, -, h⟩ := Option.bind_eq_some_iff.1 h
  cases command <;> cases h
  rfl

theorem readCommand_eq_ok_iff {command : Command} {arguments : List String} {request : Request} :
    readCommand command arguments = .ok request ↔
      ∃ r, readArguments command .empty arguments = .ok r ∧ r.request? command = some request := by
  unfold readCommand
  rw [bind_eq_ok_iff]
  refine exists_congr fun r => and_congr_right fun _ => ?_
  cases r.request? command with
  | none => exact ⟨fun h => (by cases h), fun h => (by cases h)⟩
  | some request' => exact ⟨fun h => congrArg some (Except.ok.inj h), fun h => congrArg Except.ok (Option.some.inj h)⟩

theorem read_generate_iff {arguments : List String} {c : Common} {g : Generation} :
    read arguments = .ok (.generate c g) ↔
      ∃ rest, arguments = "generate" :: rest ∧ readCommand .generate rest = .ok (.generate c g) := by
  constructor
  · intro h
    unfold read at h
    split at h
    · cases h
    · cases h
    · cases h
    · rename_i word rest _ _
      split at h
      · rename_i command hcommand
        obtain ⟨r, -, hrequest⟩ := readCommand_eq_ok_iff.1 h
        obtain rfl := command_of_request? hrequest
        have hword : Command.generate.name = word := by simpa using List.find?_some hcommand
        exact ⟨rest, by rw [← hword]; rfl, h⟩
      · split at h
        · cases h
        · split at h
          · obtain ⟨_, -, h⟩ := bind_eq_ok_iff.1 h
            cases h
          · obtain ⟨_, -, h⟩ := bind_eq_ok_iff.1 h
            cases h
          · cases h
  · rintro ⟨rest, rfl, h⟩
    exact h

/-- **The same request without force.** -/
theorem read_withoutForce {arguments : List String} {c : Common} {g : Generation}
    (h : read arguments = .ok (.generate c g)) :
    read (withoutForce arguments) = .ok (.generate c { g with force := false }) := by
  obtain ⟨rest, rfl, h⟩ := read_generate_iff.1 h
  obtain ⟨r, hr, hrequest⟩ := readCommand_eq_ok_iff.1 h
  refine read_generate_iff.2 ⟨_, rfl, readCommand_eq_ok_iff.2 ⟨r.withoutForce, ?_, request?_withoutForce hrequest⟩⟩
  exact Behind.readArguments (.level (r := .empty)) hr

example : withoutForce ["generate", "-nfo", "out", "--force", "-f", "-offf", "--", "-f"] =
    ["generate", "-no", "out", "-offf", "--", "-f"] := by rfl

end CommandLine
end BencodePlan
