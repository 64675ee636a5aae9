import BencodePlan.Proofs.CommandLine.Output
/-!
# A run changes its output file and nothing else

What a run may write, and where, is settled before anything is written (`output?`).  A run that fails leaves all files as
they were.  A run that succeeds leaves its output, if it has one, at its output path, and everything else as it was
(`run_changes_output_only`).  A run with an output succeeds exactly if the output can be replaced (`ending_runIn`).
-/
namespace BencodePlan
namespace CommandLine

variable {t t' : FileTree} {path contents : String} {c : Common} {g : Generation}

def Request.output? (input : Bytes) (t : FileTree) : Request → Option (String × String)
  | .generate c g => do
    let schema ← schemaAt input t c.schema
    let made := (schema.generate ⟨true, false⟩ c.types).value
    if made.isSuccess && !made.plans.isEmpty && !g.dryRun then
      return (g.outputPath c.schema, Source.file g.source schema.module made.plans)
    else none
  | .dump .. | .check .. => none

/-- **The output of a run**: its path, and the rendered source. -/
def output? (arguments : List String) (s : Scene) : Option (String × String) :=
  match read arguments with
  | .ok request => request.output? s.input s.tree
  | .error _ => none

/-- **The runs that have an output**: those that find a schema, have at least one type, make plans of all types, and do not
only tell what they would write. -/
theorem output?_eq_some_iff {input : Bytes} : (Request.generate c g).output? input t = some (path, contents) ↔
    ∃ schema, schemaAt input t c.schema = some schema ∧
      (schema.generate ⟨true, false⟩ c.types).value.failures = [] ∧
      (schema.generate ⟨true, false⟩ c.types).value.plans ≠ [] ∧ g.dryRun = false ∧
      g.outputPath c.schema = path ∧
      Source.file g.source schema.module (schema.generate ⟨true, false⟩ c.types).value.plans = contents := by
  refine Option.bind_eq_some_iff.trans (exists_congr fun schema => and_congr_right fun _ => ?_)
  simp only [Option.ite_none_right_eq_some, Generated.isSuccess, Bool.and_eq_true, Bool.not_eq_true', List.isEmpty_iff,
    List.isEmpty_eq_false_iff, and_assoc, pure, Option.some.injEq, Prod.mk.injEq]

inductive Ending (can : Prop) (t : FileTree) : Option (String × String) → UInt32 → FileTree → Prop
  | idle (code : UInt32) : Ending can t none code t
  | failed (output : String × String) {code : UInt32} (hcan : ¬ can) (hcode : code ≠ 0) :
    Ending can t (some output) code t
  | written {path contents : String} {t' : FileTree} (hcan : can) (hput : PutAt t path (Wire.utf8 contents) t') :
    Ending can t (some (path, contents)) 0 t'

namespace Ending

variable {can : Prop} {output : Option (String × String)} {code : UInt32}

theorem eq_of_none (h : Ending can t none code t') : t' = t := by
  cases h
  rfl

theorem eq_of_code (h : Ending can t output code t') (hcode : code ≠ 0) : t' = t := by
  cases h with
  | idle => rfl
  | failed => rfl
  | written => exact absurd rfl hcode

theorem eq_of_not (h : Ending can t output code t') (hcan : ¬ can) : t' = t := by
  cases h with
  | idle => rfl
  | failed => rfl
  | written h => exact absurd h hcan

theorem written_of_code (h : Ending can t (some (path, contents)) 0 t') :
    can ∧ PutAt t path (Wire.utf8 contents) t' := by
  cases h with
  | failed _ _ hcode => exact absurd rfl hcode
  | written hcan hput => exact ⟨hcan, hput⟩

theorem written_of_can (h : Ending can t (some (path, contents)) code t') (hcan : can) :
    code = 0 ∧ PutAt t path (Wire.utf8 contents) t' := by
  cases h with
  | failed _ hnot => exact absurd hcan hnot
  | written _ hput => exact ⟨rfl, hput⟩

end Ending

def CanFinish (t : FileTree) (stamp : String) (c : Common) (g : Generation) : Prop :=
  CanReplace t stamp (g.outputPath c.schema) g.force g.format

theorem ends_writeEncoders (c : Common) (g : Generation) (schema : Schema) (made : Generated) (s : Scene) :
    ∃ code t', Ends (writeEncoders c g schema made : StateM Scene UInt32) s code t' ∧
      Ending (CanFinish s.tree s.stamp c g) s.tree
        (if g.dryRun then none else some (g.outputPath c.schema, Source.file g.source schema.module made.plans)) code t' := by
  unfold writeEncoders
  cases g.dryRun with
  | true => exact ⟨_, _, (ends_tell _ _ _ _).bind fun _ _ => ends_pure _ _, .idle _⟩
  | false =>
    refine exists_ends_bind (ends_replaceOutput _ _ _ _ _ _) fun answer t' _ _ hplaced => ?_
    cases hplaced with
    | failed e hcan => exact ⟨_, _, (ends_complain _ _).bind fun _ _ => ends_pure _ _, .failed _ hcan (by decide)⟩
    | placed hcan hput => exact ⟨_, _, (ends_tell _ _ _ _).bind fun _ _ => ends_pure _ _, .written hcan hput⟩

theorem ends_runGenerate (c : Common) (g : Generation) (s : Scene) :
    ∃ code t', Ends (runGenerate c g : StateM Scene UInt32) s code t' ∧
      Ending (CanFinish s.tree s.stamp c g) s.tree ((Request.generate c g).output? s.input s.tree) code t' := by
  unfold runGenerate
  refine (ends_loadSchema c s).bind_exists fun _ _ => ?_
  simp only [Request.output?]
  cases schemaAt s.input s.tree c.schema with
  | none => exact ⟨_, _, ends_pure _ _, .idle _⟩
  | some schema =>
    refine (ends_tell _ _ _ _).bind_exists fun _ _ => (ends_makePlans _ _ _ _).bind_exists fun _ _ => ?_
    simp only [Option.bind_eq_bind, Option.bind_some]
    generalize (schema.generate ⟨true, false⟩ c.types).value = made
    cases hsuccess : made.isSuccess with
    | false => exact ⟨_, _, (ends_complain _ _).bind fun _ _ => ends_pure _ _, .idle _⟩
    | true =>
      cases hplans : made.plans.isEmpty with
      | true => exact ⟨_, _, (ends_tell _ _ _ _).bind fun _ _ => ends_pure _ _, .idle _⟩
      | false =>
        have hends := ends_writeEncoders c g schema made
        cases hdryRun : g.dryRun with
        | true => simpa [hdryRun] using hends _
        | false => simpa [hdryRun] using hends _

theorem ends_runDump (c : Common) (fold : Bool) (s : Scene) :
    ∃ code t', Ends (runDump c fold : StateM Scene UInt32) s code t' ∧ t' = s.tree := by
  refine (ends_loadSchema c s).bind_exists fun _ _ => ?_
  cases schemaAt s.input s.tree c.schema with
  | none => exact ⟨_, _, ends_pure _ _, rfl⟩
  | some schema =>
    refine (ends_makePlans _ _ _ _).bind_exists fun _ _ => (ends_print _ _).bind_exists fun _ _ => ?_
    exact ⟨_, _, ends_pure _ _, rfl⟩

theorem ends_runCheck (c : Common) (strict : Bool) (s : Scene) :
    ∃ code t', Ends (runCheck c strict : StateM Scene UInt32) s code t' ∧ t' = s.tree := by
  have hanswer : ∀ (isValid : Bool) (text : String) (s : Scene), ∃ code t',
      Ends (if isValid then do tell c.verbosity .debug text; return 0 else return 1 : StateM Scene UInt32) s code t' ∧
        t' = s.tree := by
    intro isValid text s
    cases isValid with
    | true => exact ⟨_, _, (ends_tell _ _ _ _).bind fun _ _ => ends_pure _ _, rfl⟩
    | false => exact ⟨_, _, ends_pure _ _, rfl⟩
  refine (ends_loadSchema c s).bind_exists fun _ _ => ?_
  cases schemaAt s.input s.tree c.schema with
  | none => exact ⟨_, _, ends_pure _ _, rfl⟩
  | some schema => exact (ends_makePlans _ _ _ _).bind_exists fun _ _ => hanswer _ _ _

theorem ends_refusal (r : Refusal) (s : Scene) : Ends (r.run : StateM Scene UInt32) s r.exitCode s.tree := by
  unfold Refusal.run
  split
  · exact (ends_print _ _).bind fun _ _ => ends_pure _ _
  · exact (ends_complain _ _).bind fun _ _ => ends_pure _ _

def runIn (arguments : List String) (s : Scene) : UInt32 × Scene := (run arguments : StateM Scene UInt32) s

variable {arguments : List String}

/-- **How a run ends that is to write encoders.** -/
theorem ending_runIn (hread : read arguments = .ok (.generate c g)) (s : Scene) :
    Ending (CanFinish s.tree s.stamp c g) s.tree (output? arguments s) (runIn arguments s).1
      (runIn arguments s).2.tree := by
  obtain ⟨code, t', hends, hending⟩ := ends_runGenerate c g s
  simp only [runIn, run, output?, hread, Request.run]
  rw [hends.answer, hends.tree]
  exact hending

theorem tree_runIn (hread : ∀ c g, read arguments ≠ .ok (.generate c g)) (s : Scene) :
    output? arguments s = none ∧ (runIn arguments s).2.tree = s.tree := by
  unfold runIn run output?
  cases hrequest : read arguments with
  | error refusal => exact ⟨rfl, (ends_refusal refusal s).tree⟩
  | ok request =>
    cases request with
    | generate c g => exact absurd hrequest (hread c g)
    | dump c fold =>
      obtain ⟨code, t', hends, rfl⟩ := ends_runDump c fold s
      exact ⟨rfl, hends.tree⟩
    | check c strict =>
      obtain ⟨code, t', hends, rfl⟩ := ends_runCheck c strict s
      exact ⟨rfl, hends.tree⟩

structure OnlyChanged (t t' : FileTree) (path : String) (bytes : Bytes) : Prop where
  contents : t'.read path = .ok bytes
  elsewhere : ∃ place, t.locate path = .ok place ∧ ∀ q, q ≠ place → t'.get? q = t.get? q

/-- **A run changes its output file and nothing else, and that only if it succeeds.**  A run that has no output leaves all
files as they were; those are the runs that show plans or check a schema, that only tell what they would write, or that have
no type to write encoders for.  Without force, a file that is not marked as generated stays. -/
theorem run_changes_output_only (arguments : List String) (s : Scene) :
    ((runIn arguments s).1 ≠ 0 → (runIn arguments s).2.tree = s.tree) ∧
    ((runIn arguments s).1 = 0 → match output? arguments s with
      | none => (runIn arguments s).2.tree = s.tree
      | some (path, contents) => OnlyChanged s.tree (runIn arguments s).2.tree path (Wire.utf8 contents)) ∧
    (∀ c fold, read arguments = .ok (.dump c fold) → (runIn arguments s).2.tree = s.tree) ∧
    (∀ c strict, read arguments = .ok (.check c strict) → (runIn arguments s).2.tree = s.tree) ∧
    (∀ c g bytes, read arguments = .ok (.generate c g) → g.force = false →
      s.tree.read (g.outputPath c.schema) = .ok bytes → (∀ text, bytes = Wire.utf8 text → ¬ Source.HasMark text) →
      (runIn arguments s).2.tree = s.tree) := by
  by_cases hread : ∃ c g, read arguments = .ok (.generate c g)
  · obtain ⟨c, g, hread⟩ := hread
    have hending := ending_runIn hread s
    refine ⟨hending.eq_of_code, fun hcode => ?_, ?_, ?_, ?_⟩
    · cases houtput : output? arguments s with
      | none =>
        rw [houtput] at hending
        exact hending.eq_of_none
      | some output =>
        rw [houtput, hcode] at hending
        obtain ⟨-, hput⟩ := hending.written_of_code
        exact ⟨hput.read, hput.elsewhere⟩
    · intro c' fold hdump
      rw [hread] at hdump
      cases hdump
    · intro c' strict hcheck
      rw [hread] at hcheck
      cases hcheck
    · intro c' g' bytes hread' hforce hfile hmark
      rw [hread] at hread'
      cases hread'
      refine hending.eq_of_not fun hcan => replaceable_error hfile hmark ?_
      rw [← hforce]
      exact hcan.replaceable
  · obtain ⟨houtput, htree⟩ := tree_runIn (fun c g h => hread ⟨c, g, h⟩) s
    rw [houtput]
    exact ⟨fun _ => htree, fun _ => htree, fun _ _ _ => htree, fun _ _ _ => htree, fun _ _ _ _ _ _ _ => htree⟩

def badgeDocument : String :=
  "\x7b\"types\":[\x7b\"name\":\"Badge\",\"struct\":[\x7b\"name\":\"Id\",\"type\":\"i64\",\"tag\":\"id\"\x7d]\x7d]\x7d"

def notebook : Scene :=
  ⟨"/notes", "abcdef", Wire.utf8 badgeDocument, ⟨[(⟨.above 0, ["bencode_gen.rs"]⟩, .file (Wire.utf8 "mine"))]⟩, "", ""⟩

/-- It stays. -/
theorem notebook_unchanged : read ["generate", "-", "--no-format"] =
      .ok (.generate ⟨"-", [], 0, .auto⟩ ⟨none, false, false, false, none⟩) ∧
    notebook.tree.read "bencode_gen.rs" = .ok (Wire.utf8 "mine") ∧
    (runIn ["generate", "-", "--no-format"] notebook).2.tree = notebook.tree := by
  have hread : read ["generate", "-", "--no-format"] =
      .ok (.generate ⟨"-", [], 0, .auto⟩ ⟨none, false, false, false, none⟩) := by rfl
  have hfile : notebook.tree.read "bencode_gen.rs" = .ok (Wire.utf8 "mine") := by rfl
  have hmark : ∀ text, Wire.utf8 "mine" = Wire.utf8 text → ¬ Source.HasMark text := by
    intro text htext hmarked
    obtain rfl : text = "mine" := Option.some.inj ((Wire.text?_eq_some_iff.2 htext).symm.trans (Wire.text?_utf8 "mine"))
    exact absurd (Source.isMarked_iff.2 hmarked) (by decide +kernel)
  obtain ⟨-, -, -, -, hkept⟩ := run_changes_output_only ["generate", "-", "--no-format"] notebook
  exact ⟨hread, hfile, hkept _ _ _ hread rfl hfile hmark⟩

end CommandLine
end BencodePlan
