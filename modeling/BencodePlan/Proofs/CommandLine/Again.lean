import BencodePlan.Proofs.CommandLine.Effects
import BencodePlan.Proofs.CommandLine.Force
import BencodePlan.Proofs.Generate.Isolation
import BencodePlan.Proofs.Text.Span
/-!
# A run repeated

A run that has written its output can be repeated without force, and leaves it as it is (`generates_again`).  The output is
known by its mark, so it may be replaced; the schema is still there, since it is another file; and a new file can be made
where one could be made before, as long as the name drawn for it is not taken.
-/
namespace BencodePlan
namespace CommandLine

/-! ## Names of new files -/

def IsStamp (stamp : String) : Prop := stamp.toList.length = 6 ∧ ∀ c ∈ stamp.toList, c ∈ stampCharacters

theorem utf8Size_of_mem_stampCharacters : ∀ c ∈ stampCharacters, c.utf8Size = 1 ∧ c ≠ '/' := by
  have hall : stampCharacters.all (fun c => c.utf8Size == 1 && c != '/') = true := by cbv
  simpa using hall

theorem isStamp_iff {stamp : String} :
    IsStamp stamp ↔ (stamp.toList.length == 6 && stamp.toList.all stampCharacters.contains) = true := by
  rw [IsStamp, Bool.and_eq_true, beq_iff_eq, List.all_eq_true]
  simp only [List.contains_iff_mem]

variable {stamp : String}

theorem utf8ByteSize_of_isStamp (h : IsStamp stamp) : stamp.utf8ByteSize = 6 := by
  rw [Text.utf8ByteSize_eq, Text.byteLength_eq_length fun c hc => (utf8Size_of_mem_stampCharacters c (h.2 c hc)).1, h.1]

theorem utf8ByteSize_temporaryName (h : IsStamp stamp) : (temporaryName stamp).utf8ByteSize = 22 := by
  rw [temporaryName, String.utf8ByteSize_append, String.utf8ByteSize_append, utf8ByteSize_of_isStamp h]
  rfl

theorem isName_temporaryName (h : IsStamp stamp) : FileTree.IsName (temporaryName stamp) := by
  have hsize := utf8ByteSize_temporaryName h
  refine ⟨?_, ?_, ?_, by rw [hsize]; decide⟩ <;>
  · intro hname
    rw [hname] at hsize
    exact absurd hsize (by decide)

theorem slash_not_mem_temporaryName (h : IsStamp stamp) : '/' ∉ (temporaryName stamp).toList := by
  have hstamp : '/' ∉ stamp.toList := fun hc => (utf8Size_of_mem_stampCharacters _ (h.2 _ hc)).2 rfl
  simp [temporaryName, hstamp]

theorem exists_join {folder : String} (h : folder ≠ "") : ∃ base, ∀ name, Path.join folder name = base ++ "/" ++ name := by
  unfold Path.join
  by_cases hslash : folder.toList.getLast? = some '/'
  · obtain ⟨base, hbase⟩ := List.getLast?_eq_some_iff.1 hslash
    have hfolder : folder = String.ofList base ++ "/" := by
      rw [← String.toList_inj, hbase]
      simp
    refine ⟨String.ofList base, fun name => ?_⟩
    rw [if_neg (by simpa using h), if_pos hslash, hfolder]
  · refine ⟨folder, fun name => ?_⟩
    rw [if_neg (by simpa using h), if_neg hslash]

theorem outputFolder_ne (path : String) : outputFolder path ≠ "" := by
  unfold outputFolder
  split
  · decide
  · split
    · decide
    · rename_i hfolder
      simpa using hfolder

/-- **Where one new file can be made, so can another.** -/
theorem create_again {t t' t₁ : FileTree} {stamp' path : String} (hsame : FileTree.SameFolders t t') (h : IsStamp stamp)
    (h' : IsStamp stamp') (hcreate : t.create (temporaryPath stamp path) = .ok t₁)
    (hfree : t'.create (temporaryPath stamp' path) ≠ .error .alreadyThere) :
    ∃ t₁', t'.create (temporaryPath stamp' path) = .ok t₁' := by
  obtain ⟨p, hp, -, -⟩ := FileTree.create_eq_ok_iff.1 hcreate
  have hp' := FileTree.locate_eq_ok_of_sameFolders hsame hp
  obtain ⟨base, hbase⟩ := exists_join (outputFolder_ne path)
  have hsize := (utf8ByteSize_temporaryName h').trans (utf8ByteSize_temporaryName h).symm
  rw [temporaryPath, hbase] at hp'
  obtain ⟨q, hq⟩ := FileTree.locate_beside (isName_temporaryName h) (slash_not_mem_temporaryName h)
    (isName_temporaryName h') (slash_not_mem_temporaryName h') hsize hp'
  rw [← hbase] at hq
  exact FileTree.create_of_locate hq hfree

/-! ## The second run -/

theorem PutAt.read_other {t t' : FileTree} {path other : String} {bytes bytes' : Bytes} (h : PutAt t path bytes t')
    (hother : t.locate other ≠ t.locate path) (hread : t.read other = .ok bytes') : t'.read other = .ok bytes' := by
  obtain ⟨q, hslot, hq, rfl⟩ := h
  obtain ⟨p, hp, hfile⟩ := FileTree.read_eq_ok_iff.1 hread
  have hne : p ≠ q := by
    rintro rfl
    exact hother (hp.trans (FileTree.locate_of_slot hslot).symm)
  have hp' := FileTree.locate_eq_ok_of_sameFolders (FileTree.sameFolders_set hq bytes) hp
  exact FileTree.read_eq_ok_iff.2 ⟨p, hp', (FileTree.get?_set_of_ne hq _ hne).trans hfile⟩

/-- **The schema is still there**, unless it is in the place of the output. -/
theorem PutAt.schemaAt {t t' : FileTree} {path source : String} {bytes input : Bytes} {schema : Schema}
    (h : PutAt t path bytes t') (hother : source = standardInput ∨ t.locate source ≠ t.locate path)
    (hschema : CommandLine.schemaAt input t source = some schema) : CommandLine.schemaAt input t' source = some schema := by
  obtain ⟨text, htext, hparse⟩ := Option.bind_eq_some_iff.1 hschema
  refine Option.bind_eq_some_iff.2 ⟨text, ?_, hparse⟩
  unfold sourceAt at htext ⊢
  by_cases hinput : source = standardInput
  · rw [if_pos hinput] at htext ⊢
    exact htext
  · rw [if_neg hinput] at htext ⊢
    have hread : textAt t source = .ok text := by
      cases hanswer : textAt t source with
      | error e => simp [hanswer, Except.toOption] at htext
      | ok text' =>
        rw [hanswer] at htext
        exact congrArg Except.ok (Option.some.inj htext)
    have hread' := h.read_other (hother.resolve_left hinput) (textAt_eq_ok_iff.1 hread)
    rw [textAt_eq_ok_iff.2 hread']
    rfl

/-- **An output that was written can be replaced without force**, if it is marked. -/
theorem CanReplace.again {t t' : FileTree} {stamp' path contents : String} {force format : Bool}
    (h : CanReplace t stamp path force format) (hput : PutAt t path (Wire.utf8 contents) t')
    (hmarked : Source.isMarked contents = true) (hstamp : IsStamp stamp) (hstamp' : IsStamp stamp')
    (hfree : t'.create (temporaryPath stamp' path) ≠ .error .alreadyThere) : CanReplace t' stamp' path false format := by
  obtain ⟨t₁, hcreate⟩ := h.write.created
  have ⟨q, hslot, hq, htree⟩ := hput
  have hsame : FileTree.SameFolders t t' := by
    rw [htree]
    exact FileTree.sameFolders_set hq _
  refine ⟨?_, h.write.unformatted, create_again hsame hstamp hstamp' hcreate hfree, q, ?_, ?_⟩
  · simp [CommandLine.replaceable, textAt_eq_ok_iff.2 hput.read, hmarked]
  · exact FileTree.slot_eq_ok_of_sameFolders hsame hslot
  · exact fun hfolder => hq ((hsame q).2 hfolder)

theorem PutAt.again {t t' t'' : FileTree} {path : String} {bytes : Bytes} (h : PutAt t path bytes t')
    (h' : PutAt t' path bytes t'') : t'' = t' := by
  obtain ⟨q, hslot, hq, rfl⟩ := h
  obtain ⟨q', hslot', -, rfl⟩ := h'
  have hslot'' := FileTree.slot_eq_ok_of_sameFolders (FileTree.sameFolders_set hq bytes) hslot
  obtain rfl : q = q' := Except.ok.inj (hslot''.symm.trans hslot')
  exact FileTree.set_set ..

theorem isMarked_source (g : Generation) (module : Option String) (plans : List Plan) :
    Source.isMarked (Source.file g.source module plans) = true := by
  have hheader : g.source.header = true := rfl
  have hversion : '\n' ∉ g.source.version.toList := by
    change '\n' ∉ Source.Config.default.version.toList
    decide
  exact Source.isMarked_file hheader hversion module plans

/-- A scene to repeat a run in, at once: the files are those that the first run left, and the same comes in.  The name drawn
for a new file is one that is not taken. -/
structure Repeats (arguments : List String) (first again : Scene) (path : String) : Prop where
  tree : again.tree = (runIn arguments first).2.tree
  input : again.input = first.input
  stampBefore : IsStamp first.stamp
  stamp : IsStamp again.stamp
  free : again.tree.create (temporaryPath again.stamp path) ≠ .error .alreadyThere

/-- **A run that wrote its output can be repeated without force**: it succeeds again, and leaves every file as it is.  For
whatever is generated, with its mark and a version on one line, is known as generated. -/
theorem generates_again :
    (∀ (config : Source.Config) (module : Option String) (plans : List Plan), config.header = true →
      '\n' ∉ config.version.toList → Source.isMarked (Source.file config module plans) = true) ∧
    ∀ (arguments : List String) (first again : Scene) (c : Common) (g : Generation) (path contents : String),
      read arguments = .ok (.generate c g) → (runIn arguments first).1 = 0 →
      output? arguments first = some (path, contents) →
      (c.schema = standardInput ∨ first.tree.locate c.schema ≠ first.tree.locate path) →
      Repeats arguments first again path →
      again.tree.read path = .ok (Wire.utf8 contents) ∧
        (runIn (withoutForce arguments) again).1 = 0 ∧ (runIn (withoutForce arguments) again).2.tree = again.tree := by
  refine ⟨fun config module plans hheader hversion => Source.isMarked_file hheader hversion module plans, ?_⟩
  intro arguments first again c g path contents hread hcode houtput hother hagain
  have hending := ending_runIn hread first
  rw [houtput, hcode, ← hagain.tree] at hending
  obtain ⟨hcan, hput⟩ := hending.written_of_code
  rw [output?, hread] at houtput
  obtain ⟨schema, hschema, hfailures, hplans, hdryRun, rfl, rfl⟩ := output?_eq_some_iff.1 houtput
  -- the second run reads the same request, finds the same schema and has the same output
  have hread' := read_withoutForce hread
  have houtput' := output?_eq_some_iff (g := { g with force := false }).2
    ⟨schema, hput.schemaAt hother hschema, hfailures, hplans, hdryRun, rfl, rfl⟩
  have hcan' := hcan.again hput (isMarked_source ..) hagain.stampBefore hagain.stamp hagain.free
  have hending' := ending_runIn hread' again
  simp only [output?, hread', hagain.input, houtput'] at hending'
  obtain ⟨hcode', hput'⟩ := hending'.written_of_can hcan'
  exact ⟨hput.read, hcode', hput.again hput'⟩

/-! ## A badge -/

def badgeBody : TypeDesc := .struct [⟨"Id", 1, some "id", false⟩]

def badge : Schema :=
  ⟨none, ⟨[.named ⟨"Badge", some 2⟩, .scalar (.int .i64), badgeBody], [(.scalar (.int .i64), 1), (badgeBody, 2)],
    [("Badge", 0)]⟩⟩

def badgePlan : Plan := ⟨"Badge", [.ascii "d2:idi", .int (.field .root "Id"), .ascii "ee"]⟩

theorem value_parse_badge : (Schema.parse badgeDocument).value.toOption = some badge := by
  have hraw : RawSchema.parse badgeDocument =
      .ok ⟨none, [⟨"Badge", some [⟨"Id", "i64", some "id", false⟩], none, false⟩]⟩ := by cbv
  have hs : (Schema.ofRaw ⟨none, [⟨"Badge", some [⟨"Id", "i64", some "id", false⟩], none, false⟩]⟩).value = .ok badge :=
    Schema.ofRaw_eq_ok (by decide +kernel)
  simp only [Schema.parse, hraw, hs]
  rfl

theorem value_generate_badge : (badge.generate ⟨true, false⟩ []).value = ⟨[badgePlan], []⟩ := by
  have hselect : (badge.select ⟨true, false⟩ []).value = [("Badge", 0)] := by cbv
  have hbadge : badge.alone ⟨true, false⟩ "Badge" 0 = .ok badgePlan := by cbv
  rw [Schema.value_generate, hselect]
  simp [Schema.planOf, Schema.failureOf, hbadge, Except.toOption]

def badgeSource : String := Source.file Source.Config.default none [badgePlan]

def desk : Scene :=
  ⟨"/desk", "abcdef", [], ⟨[(⟨.above 0, ["badge.json"]⟩, .file (Wire.utf8 badgeDocument)),
    (⟨.above 0, ["bencode_gen.rs"]⟩, .file (Wire.utf8 "mine"))]⟩, "", ""⟩

def badgeArguments : List String := ["generate", "badge.json", "-f", "--no-format"]

def badgeCommon : Common := ⟨"badge.json", [], 0, .auto⟩

def badgeGeneration : Generation := ⟨none, true, false, false, none⟩

theorem read_badgeArguments : read badgeArguments = .ok (.generate badgeCommon badgeGeneration) := by rfl

theorem output?_badge : output? badgeArguments desk = some ("bencode_gen.rs", badgeSource) := by
  have hread : textAt desk.tree "badge.json" = .ok badgeDocument := textAt_eq_ok_iff.2 rfl
  have hschema : schemaAt desk.input desk.tree "badge.json" = some badge := by
    have hsource : sourceAt desk.input desk.tree "badge.json" = some badgeDocument := by
      rw [sourceAt, if_neg (by decide), hread]
      rfl
    rw [schemaAt, hsource]
    exact value_parse_badge
  rw [output?, read_badgeArguments]
  refine output?_eq_some_iff.2 ⟨badge, hschema, ?_⟩
  have htypes : badgeCommon.types = [] := rfl
  have hpath : badgeGeneration.outputPath badgeCommon.schema = "bencode_gen.rs" := by cbv
  rw [htypes, value_generate_badge]
  exact ⟨rfl, by simp, rfl, hpath, rfl⟩

def Scene.later (s : Scene) (stamp : String) (t : FileTree) : Scene := { s with stamp := stamp, tree := t }

theorem Scene.tree_later (s : Scene) (stamp : String) (t : FileTree) : (s.later stamp t).tree = t := rfl

def deskAgain : Scene := desk.later "uvwxyz" (runIn badgeArguments desk).2.tree

theorem tree_deskAgain : deskAgain.tree = (runIn badgeArguments desk).2.tree := Scene.tree_later ..

theorem written_badge : (runIn badgeArguments desk).1 = 0 ∧
    PutAt desk.tree "bencode_gen.rs" (Wire.utf8 badgeSource) deskAgain.tree := by
  have hending := ending_runIn read_badgeArguments desk
  rw [output?_badge] at hending
  have hcan : CanFinish desk.tree desk.stamp badgeCommon badgeGeneration := by
    refine ⟨rfl, rfl, ⟨_, rfl⟩, ⟨.above 0, ["bencode_gen.rs"]⟩, rfl, by decide⟩
  rw [tree_deskAgain]
  exact hending.written_of_can hcan

theorem repeats_badge : Repeats badgeArguments desk deskAgain "bencode_gen.rs" := by
  have hstamp : IsStamp "abcdef" := isStamp_iff.2 (by cbv)
  have hstamp' : IsStamp "uvwxyz" := isStamp_iff.2 (by cbv)
  refine ⟨tree_deskAgain, rfl, hstamp, hstamp', ?_⟩
  obtain ⟨q, hslot, -, htree⟩ := written_badge.2
  obtain rfl : ⟨.above 0, ["bencode_gen.rs"]⟩ = q := Except.ok.inj hslot
  rw [htree]
  generalize Wire.utf8 badgeSource = bytes
  intro hcreate
  cases hcreate

/-- What was written by force is replaced without it. -/
theorem badge_generated_again : (runIn badgeArguments desk).1 = 0 ∧
    deskAgain.tree.read "bencode_gen.rs" = .ok (Wire.utf8 badgeSource) ∧
    (runIn ["generate", "badge.json", "--no-format"] deskAgain).1 = 0 ∧
    (runIn ["generate", "badge.json", "--no-format"] deskAgain).2.tree = deskAgain.tree := by
  refine ⟨written_badge.1, ?_⟩
  have hother : desk.tree.locate badgeCommon.schema ≠ desk.tree.locate "bencode_gen.rs" := by decide
  have hwithout : withoutForce badgeArguments = ["generate", "badge.json", "--no-format"] := by rfl
  rw [← hwithout]
  exact generates_again.2 badgeArguments desk deskAgain badgeCommon badgeGeneration "bencode_gen.rs" badgeSource
    read_badgeArguments written_badge.1 output?_badge (.inr hother) repeats_badge

end CommandLine
end BencodePlan
