import BencodePlan.Proofs.CommandLine.Scene
import BencodePlan.Proofs.Files.Tree
import BencodePlan.Proofs.Source.Mark
/-!
# Writing the output file

A file is written as a whole or not at all: exactly if it can be written (`CanWrite`) it is there afterwards with its
contents, and nothing else has changed; otherwise all files are as they were, since the new file is removed again
(`ends_writeOutput`).  Without force it also has to be a file that says it was generated (`replaceable`).
-/
namespace BencodePlan
namespace CommandLine

variable {s : Scene} {t t' : FileTree} {path temporary : String} {bytes : Bytes}

/-! ## Single operations -/

theorem ends_done (act : FileTree → Except FileError FileTree) (h : act s.tree = .ok t) :
    Ends (Scene.onFiles act) s (.ok ()) t := by
  refine ⟨s.output, s.errors, ?_⟩
  rw [Scene.onFiles, h]

theorem ends_failed (act : FileTree → Except FileError FileTree) {e : FileError} (h : act s.tree = .error e) :
    Ends (Scene.onFiles act) s (.error e) s.tree := by
  refine ⟨s.output, s.errors, ?_⟩
  rw [Scene.onFiles, h]

def replaceable (t : FileTree) (path : String) (force : Bool) : Except OutputError Unit :=
  if force then .ok ()
  else
    match textAt t path with
    | .error .notFound => .ok ()
    | .error e => .error (.unreadable path e)
    | .ok text => if Source.isMarked text then .ok () else .error (.notGenerated path)

theorem ends_checkReplaceable (path : String) (force : Bool) (s : Scene) :
    Ends (checkReplaceable path force : StateM Scene (Except OutputError Unit)) s (replaceable s.tree path force)
      s.tree := by
  unfold checkReplaceable replaceable
  cases force with
  | true => exact ends_pure _ s
  | false =>
    refine (ends_readText path s).bind fun _ _ => ?_
    cases textAt s.tree path with
    | error e => cases e <;> exact ends_pure _ _
    | ok text => exact ends_pure _ _

theorem replaceable_error (hread : t.read path = .ok bytes) (hmark : ∀ text, bytes = Wire.utf8 text → ¬ Source.HasMark text) :
    replaceable t path false ≠ .ok () := by
  unfold replaceable textAt
  rw [hread]
  simp only [Bool.false_eq_true, if_false]
  cases htext : Wire.text? bytes with
  | none => simp
  | some text =>
    have hunmarked : ¬ Source.isMarked text = true :=
      fun h => hmark text (Wire.text?_eq_some_iff.1 htext) (Source.isMarked_iff.1 h)
    simp [hunmarked]

/-! ## Writing the output -/

def temporaryPath (stamp path : String) : String := Path.join (outputFolder path) (temporaryName stamp)

def PutAt (t : FileTree) (path : String) (bytes : Bytes) (t' : FileTree) : Prop :=
  ∃ q, t.slot path = .ok q ∧ t.get? q ≠ some .folder ∧ t' = t.set q (.file bytes)

theorem PutAt.read (h : PutAt t path bytes t') : t'.read path = .ok bytes := by
  obtain ⟨q, hslot, hq, rfl⟩ := h
  have hlocate := FileTree.locate_eq_ok_of_sameFolders (FileTree.sameFolders_set hq bytes) (FileTree.locate_of_slot hslot)
  exact FileTree.read_eq_ok_iff.2 ⟨q, hlocate, FileTree.get?_set_self hq _⟩

theorem PutAt.elsewhere (h : PutAt t path bytes t') :
    ∃ place, t.locate path = .ok place ∧ ∀ q, q ≠ place → t'.get? q = t.get? q := by
  obtain ⟨place, hslot, hplace, rfl⟩ := h
  exact ⟨place, FileTree.locate_of_slot hslot, fun q hq => FileTree.get?_set_of_ne hplace _ hq⟩

/-- What it takes to write a file: no formatter is asked for, as none can be started; the new file can be made in the
folder; and the path is one that a file can be put at. -/
structure CanWrite (t : FileTree) (stamp path : String) (format : Bool) : Prop where
  unformatted : format = false
  created : ∃ t₁, t.create (temporaryPath stamp path) = .ok t₁
  free : ∃ q, t.slot path = .ok q ∧ t.get? q ≠ some .folder

structure CanReplace (t : FileTree) (stamp path : String) (force format : Bool) : Prop where
  replaceable : replaceable t path force = .ok ()
  write : CanWrite t stamp path format

inductive Placement (can : Prop) (t : FileTree) (path : String) (bytes : Bytes) :
    Except OutputError Unit → FileTree → Prop
  | placed {t' : FileTree} (hcan : can) (hput : PutAt t path bytes t') : Placement can t path bytes (.ok ()) t'
  | failed (e : OutputError) (hcan : ¬ can) : Placement can t path bytes (.error e) t

/-- A new file is filled and put in place.  If that cannot be done, removing it brings the files back. -/
theorem ends_fillAndPlace (verbosity : Nat) (shown path : String) (bytes : Bytes) (format : Bool)
    (hcreate : t.create temporary = .ok s.tree) : ∃ answer t',
      Ends (fillAndPlace verbosity temporary shown path bytes format : StateM Scene (Except OutputError Unit)) s answer t' ∧
        (answer = .ok () ∧ format = false ∧ PutAt t path bytes t' ∨
          (∃ e, answer = .error e) ∧ t'.remove temporary = .ok t ∧
            (format = false → ¬ ∃ q, t.slot path = .ok q ∧ t.get? q ≠ some .folder)) := by
  obtain ⟨p, hp, hnone, hwrite⟩ := FileTree.write_of_create hcreate bytes
  have hremove := FileTree.remove_of_create hcreate hwrite
  have hfilled : Ends (Host.write temporary bytes : StateM Scene (Except FileError Unit)) s (.ok ())
      (t.set p (.file bytes)) := ends_done (FileTree.write · temporary bytes) hwrite
  unfold fillAndPlace
  cases format with
  | true =>
    refine ⟨.error (.notFormatted .notFound), t.set p (.file bytes), ?_, .inr ⟨⟨_, rfl⟩, hremove, fun h => (by cases h)⟩⟩
    refine hfilled.bind fun _ _ => (ends_tell _ _ _ _).bind fun _ _ => ?_
    exact (ends_pure (Except.error FileError.notFound) _).bind fun _ _ => ends_pure _ _
  | false =>
    have hplaced : ∀ t', (t.set p (.file bytes)).rename temporary path = .ok t' ↔ PutAt t path bytes t' :=
      fun _ => FileTree.rename_of_create hcreate hwrite
    cases hrename : (t.set p (.file bytes)).rename temporary path with
    | ok t' =>
      refine ⟨.ok (), t', ?_, .inl ⟨rfl, rfl, (hplaced t').1 hrename⟩⟩
      refine hfilled.bind fun _ _ => (ends_pure (Except.ok ()) _).bind fun _ _ => ?_
      exact Ends.bind (ends_done (FileTree.rename · temporary path) hrename) fun _ _ => ends_pure _ _
    | error e =>
      refine ⟨.error (.notReplaced path e), t.set p (.file bytes), ?_, .inr ⟨⟨_, rfl⟩, hremove, fun _ => ?_⟩⟩
      · refine hfilled.bind fun _ _ => (ends_pure (Except.ok ()) _).bind fun _ _ => ?_
        exact Ends.bind (ends_failed (FileTree.rename · temporary path) hrename) fun _ _ => ends_pure _ _
      · -- a path that a file can be put at would have taken it
        rintro ⟨q, hslot, hq⟩
        rw [(hplaced _).2 ⟨q, hslot, hq, rfl⟩] at hrename
        cases hrename

/-- **A file is written as a whole or not at all**, and no other file is left behind. -/
theorem ends_writeOutput (verbosity : Nat) (path : String) (bytes : Bytes) (format : Bool) (s : Scene) : ∃ answer t',
    Ends (writeOutput verbosity path bytes format : StateM Scene (Except OutputError Unit)) s answer t' ∧
      Placement (CanWrite s.tree s.stamp path format) s.tree path bytes answer t' := by
  have hstamp : Ends (Host.stamp : StateM Scene String) s s.stamp s.tree := ⟨s.output, s.errors, rfl⟩
  have hfolder : ∀ s : Scene, Ends (Host.workingFolder : StateM Scene String) s s.workingFolder s.tree :=
    fun s => ⟨s.output, s.errors, rfl⟩
  unfold writeOutput
  refine hstamp.bind_exists fun _ _ => (hfolder _).bind_exists fun _ _ => ?_
  have htemporary : Path.join (outputFolder path) (temporaryName s.stamp) = temporaryPath s.stamp path := rfl
  simp only [htemporary]
  cases hcreate : s.tree.create (temporaryPath s.stamp path) with
  | error e =>
    refine Ends.bind_exists (ends_failed (FileTree.create · _) hcreate) fun _ _ => ⟨_, _, ends_pure _ _, .failed _ fun hcan => ?_⟩
    obtain ⟨t₁, hcreated⟩ := hcan.created
    rw [hcreate] at hcreated
    cases hcreated
  | ok t₁ =>
    refine Ends.bind_exists (ends_done (FileTree.create · _) hcreate) fun _ _ => (ends_tell _ _ _ _).bind_exists fun _ _ => ?_
    refine exists_ends_bind (ends_fillAndPlace verbosity _ path bytes format hcreate) fun answer t' _ _ h => ?_
    obtain ⟨rfl, hformat, hput⟩ | ⟨⟨e, rfl⟩, hremove, hfree⟩ := h
    · have ⟨q, hslot, hq, _⟩ := hput
      exact ⟨_, _, ends_pure _ _, .placed ⟨hformat, ⟨t₁, hcreate⟩, q, hslot, hq⟩ hput⟩
    · exact ⟨_, _, Ends.bind (ends_done (FileTree.remove · _) hremove) fun _ _ => ends_pure _ _,
        .failed e fun hcan => hfree hcan.unformatted hcan.free⟩

theorem ends_replaceOutput (verbosity : Nat) (path : String) (bytes : Bytes) (force format : Bool) (s : Scene) :
    ∃ answer t',
      Ends (replaceOutput verbosity path bytes force format : StateM Scene (Except OutputError Unit)) s answer t' ∧
        Placement (CanReplace s.tree s.stamp path force format) s.tree path bytes answer t' := by
  unfold replaceOutput
  refine (ends_checkReplaceable path force s).bind_exists fun _ _ => ?_
  cases hreplaceable : replaceable s.tree path force with
  | error e =>
    refine ⟨_, _, ends_pure _ _, .failed e fun hcan => ?_⟩
    cases hreplaceable.symm.trans hcan.replaceable
  | ok =>
    obtain ⟨answer, t', hends, hplaced⟩ := ends_writeOutput verbosity path bytes format _
    refine ⟨answer, t', hends, ?_⟩
    cases hplaced with
    | placed hcan hput => exact .placed ⟨hreplaceable, hcan⟩ hput
    | failed e hcan => exact .failed e fun h => hcan h.write

end CommandLine
end BencodePlan
