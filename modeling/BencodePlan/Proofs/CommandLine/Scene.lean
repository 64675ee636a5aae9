import BencodePlan.CommandLine.Program
/-!
# What a run does to a scene

A computation `Ends` with an answer and with files, whatever it tells.  What it tells can be left out, since nothing reads it
again: each part of a run has an answer that is a function of the standard input and of the files before it.  So the parts
up to the writing of the output file leave the files alone, and the schema of a run (`schemaAt`) can be given without
running anything.
-/
namespace BencodePlan

namespace Wire

theorem text?_utf8 (s : String) : text? (utf8 s) = some s := by
  have hbytes : (⟨(utf8 s).toArray⟩ : ByteArray) = s.toByteArray := by
    rw [← String.utf8Encode_toList, List.utf8Encode]
    exact ByteArray.ext List.data_toByteArray.symm
  rw [text?, hbytes, String.fromUTF8?, dif_pos s.isValidUTF8]
  rfl

/-- **Bytes are the UTF-8 of at most one text.** -/
theorem text?_eq_some_iff {bytes : Bytes} {s : String} : text? bytes = some s ↔ bytes = utf8 s := by
  constructor
  · intro h
    unfold text? String.fromUTF8? at h
    split at h
    · rename_i hvalid
      obtain rfl := Option.some.inj h
      have hbytes : (⟨bytes.toArray⟩ : ByteArray) = (String.fromUTF8 ⟨bytes.toArray⟩ hvalid).toList.utf8Encode :=
        (String.utf8Encode_toList (b := String.fromUTF8 ⟨bytes.toArray⟩ hvalid)).symm
      have hdata := congrArg (fun b : ByteArray => b.data.toList) hbytes
      simpa [List.utf8Encode, utf8] using hdata
    · cases h
  · rintro rfl
    exact text?_utf8 s

end Wire

namespace CommandLine

variable {α β : Type} {s : Scene} {t t' : FileTree} {a : α} {b : β}

def Ends (x : StateM Scene α) (s : Scene) (a : α) (t : FileTree) : Prop :=
  ∃ output errors, x s = (a, { s with tree := t, output := output, errors := errors })

theorem Ends.answer {x : StateM Scene α} (h : Ends x s a t) : (x s).1 = a := by
  obtain ⟨output, errors, h⟩ := h
  rw [h]

theorem Ends.tree {x : StateM Scene α} (h : Ends x s a t) : (x s).2.tree = t := by
  obtain ⟨output, errors, h⟩ := h
  rw [h]

theorem ends_pure (a : α) (s : Scene) : Ends (pure a) s a s.tree := ⟨s.output, s.errors, rfl⟩

/-- **One computation after another**, where something is known about the end of each. -/
theorem exists_ends_bind {x : StateM Scene α} {f : α → StateM Scene β} {P : α → FileTree → Prop} {Q : β → FileTree → Prop}
    (hx : ∃ a t, Ends x s a t ∧ P a t) (hf : ∀ a t output errors, P a t →
      ∃ b t', Ends (f a) { s with tree := t, output := output, errors := errors } b t' ∧ Q b t') :
    ∃ b t', Ends (x >>= f) s b t' ∧ Q b t' := by
  obtain ⟨a, t, ⟨output, errors, hx⟩, hP⟩ := hx
  obtain ⟨b, t', ⟨output', errors', hf⟩, hQ⟩ := hf a t output errors hP
  refine ⟨b, t', ⟨output', errors', ?_⟩, hQ⟩
  calc (x >>= f) s = f (x s).1 (x s).2 := rfl
    _ = _ := by rw [hx, hf]

theorem Ends.bind_exists {x : StateM Scene α} {f : α → StateM Scene β} {Q : β → FileTree → Prop} (hx : Ends x s a t)
    (hf : ∀ output errors, ∃ b t', Ends (f a) { s with tree := t, output := output, errors := errors } b t' ∧ Q b t') :
    ∃ b t', Ends (x >>= f) s b t' ∧ Q b t' := by
  refine exists_ends_bind (P := fun a₁ t₁ => a₁ = a ∧ t₁ = t) ⟨a, t, hx, rfl, rfl⟩ ?_
  rintro a₁ t₁ output errors ⟨rfl, rfl⟩
  exact hf output errors

theorem Ends.bind {x : StateM Scene α} {f : α → StateM Scene β} (hx : Ends x s a t)
    (hf : ∀ output errors, Ends (f a) { s with tree := t, output := output, errors := errors } b t') :
    Ends (x >>= f) s b t' := by
  have hends := hx.bind_exists (Q := fun b₁ t₁ => b₁ = b ∧ t₁ = t') fun o e => ⟨b, t', hf o e, rfl, rfl⟩
  obtain ⟨b₁, t₁, hends, rfl, rfl⟩ := hends
  exact hends

/-! ## Telling -/

theorem ends_complain (text : String) (s : Scene) :
    Ends (Host.complain text : StateM Scene Unit) s () s.tree := ⟨s.output, s.errors ++ text, rfl⟩

theorem ends_print (text : String) (s : Scene) :
    Ends (Host.print text : StateM Scene Unit) s () s.tree := ⟨s.output ++ text, s.errors, rfl⟩

theorem ends_tell (verbosity : Nat) (level : Level) (text : String) (s : Scene) :
    Ends (tell verbosity level text : StateM Scene Unit) s () s.tree := by
  unfold tell
  by_cases htold : isTold verbosity level = true
  · rw [if_pos htold]
    exact ends_complain _ s
  · rw [if_neg htold]
    exact ends_pure () s

theorem ends_tellAll (verbosity : Nat) : ∀ (notices : List Notice) (s : Scene),
    Ends (tellAll verbosity notices : StateM Scene Unit) s () s.tree
  | [], s => ends_pure () s
  | n :: rest, s => (ends_tell verbosity n.level n.text s).bind fun _ _ => ends_tellAll verbosity rest _

/-! ## The schema -/

def textAt (t : FileTree) (path : String) : Except FileError String :=
  match t.read path with
  | .error e => .error e
  | .ok bytes =>
    match Wire.text? bytes with
    | some text => .ok text
    | none => .error .notText

theorem textAt_eq_ok_iff {path text : String} : textAt t path = .ok text ↔ t.read path = .ok (Wire.utf8 text) := by
  unfold textAt
  cases t.read path with
  | error e => simp
  | ok bytes =>
    rw [Except.ok.injEq, ← Wire.text?_eq_some_iff]
    simp only
    cases Wire.text? bytes with
    | none => simp
    | some text' => simp

theorem ends_readText (path : String) (s : Scene) :
    Ends (readText path : StateM Scene (Except FileError String)) s (textAt s.tree path) s.tree := by
  have hread : Ends (Host.read path : StateM Scene (Except FileError Bytes)) s (s.tree.read path) s.tree :=
    ⟨s.output, s.errors, rfl⟩
  refine hread.bind fun _ _ => ?_
  unfold textAt
  cases s.tree.read path with
  | error e => exact ends_pure _ _
  | ok bytes =>
    simp only
    cases Wire.text? bytes with
    | none => exact ends_pure _ _
    | some text => exact ends_pure _ _

/-- **The text of a schema**, if it can be read. -/
def sourceAt (input : Bytes) (t : FileTree) (path : String) : Option String :=
  if path = standardInput then Wire.text? input else (textAt t path).toOption

theorem ends_readSchema (path : String) (s : Scene) : ∃ answer : Except String String,
    Ends (readSchema path : StateM Scene (Except String String)) s answer s.tree ∧
      answer.toOption = sourceAt s.input s.tree path := by
  unfold readSchema sourceAt
  by_cases hpath : path = standardInput
  · rw [if_pos hpath, if_pos hpath]
    have hinput : Ends (Host.input : StateM Scene Bytes) s s.input s.tree := ⟨s.output, s.errors, rfl⟩
    cases htext : Wire.text? s.input with
    | none => exact ⟨.error _, hinput.bind fun _ _ => by rw [htext]; exact ends_pure _ _, rfl⟩
    | some text => exact ⟨.ok text, hinput.bind fun _ _ => by rw [htext]; exact ends_pure _ _, rfl⟩
  · rw [if_neg hpath, if_neg hpath]
    have htext := ends_readText path s
    cases h : textAt s.tree path with
    | error e =>
      rw [h] at htext
      exact ⟨.error _, htext.bind fun _ _ => ends_pure _ _, rfl⟩
    | ok text =>
      rw [h] at htext
      exact ⟨.ok text, htext.bind fun _ _ => ends_pure _ _, rfl⟩

/-- **The schema of a run**: a text that can be read and has no faults. -/
def schemaAt (input : Bytes) (t : FileTree) (path : String) : Option Schema :=
  sourceAt input t path >>= fun text => (Schema.parse text).value.toOption

theorem ends_loadSchema (c : Common) (s : Scene) :
    Ends (loadSchema c : StateM Scene (Option Schema)) s (schemaAt s.input s.tree c.schema) s.tree := by
  obtain ⟨answer, hread, hanswer⟩ := ends_readSchema c.schema s
  refine hread.bind fun _ _ => ?_
  rw [schemaAt, ← hanswer]
  cases answer with
  | error text => exact (ends_complain _ _).bind fun _ _ => ends_pure _ _
  | ok text =>
    refine (ends_tellAll _ _ _).bind fun _ _ => ?_
    simp only [Except.toOption, Option.bind_eq_bind, Option.bind_some]
    cases (Schema.parse text).value with
    | ok schema => exact ends_pure _ _
    | error e => exact (ends_complain _ _).bind fun _ _ => ends_pure _ _

theorem ends_makePlans (c : Common) (schema : Schema) (config : GeneratorConfig) (s : Scene) :
    Ends (makePlans c schema config : StateM Scene (Noted Generated)) s (schema.generate config c.types) s.tree :=
  (ends_tellAll _ _ s).bind fun _ _ => (ends_complain _ _).bind fun _ _ => ends_pure _ _

end CommandLine
end BencodePlan
