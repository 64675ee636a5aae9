import BencodePlan.Files.Tree
import Mathlib.Data.List.Basic
/-!
# What an operation on files does

For each operation, exactly when it succeeds and what the tree is then (`create_eq_ok_iff` and the like).  Where a path leads
depends on nothing but the folders (`locate_eq_ok_of_sameFolders`), and these stay when a file is put where no folder is.
So a path can be followed before or after files have come and gone.

Together: a new file that is filled and removed again leaves the tree as it was (`remove_of_create`), and one that is filled
and put in another place leaves the tree with its contents there, and nothing else changed (`rename_of_create`).
-/
namespace BencodePlan

theorem bind_eq_ok_iff {ε α β : Type} {x : Except ε α} {f : α → Except ε β} {b : β} :
    x >>= f = .ok b ↔ ∃ a, x = .ok a ∧ f a = .ok b := by
  constructor
  · intro h
    cases x with
    | ok a => exact ⟨a, rfl, h⟩
    | error e => cases h
  · rintro ⟨a, rfl, h⟩
    exact h

namespace FileTree

variable {t t' t₁ t₂ : FileTree} {p q : Place} {path source target : String}

/-! ## Entries -/

theorem names_ne_nil (h : t.get? p ≠ some .folder) : p.names ≠ [] := by
  intro hp
  exact h (by simp [get?, hp])

theorem get?_set_self (h : t.get? p ≠ some .folder) (e : Entry) : (t.set p e).get? p = some e := by
  rw [get?_set t e p (names_ne_nil h), if_pos rfl]

theorem get?_set_of_ne (h : t.get? p ≠ some .folder) (e : Entry) (hq : q ≠ p) : (t.set p e).get? q = t.get? q := by
  rw [get?_set t e q (names_ne_nil h), if_neg hq]

theorem set_set (t : FileTree) (p : Place) (e e' : Entry) : (t.set p e).set p e' = t.set p e' := by
  simp [set, erase, List.filter_filter]

/-! ## Folders -/

def SameFolders (t t' : FileTree) : Prop := ∀ p, t.get? p = some .folder ↔ t'.get? p = some .folder

theorem SameFolders.symm (h : SameFolders t t') : SameFolders t' t := fun p => (h p).symm

theorem sameFolders_set (h : t.get? p ≠ some .folder) (bytes : Bytes) : SameFolders t (t.set p (.file bytes)) := by
  intro q
  by_cases hq : q = p
  · subst hq
    rw [get?_set_self h]
    exact ⟨fun hq => absurd hq h, fun hq => by cases hq⟩
  · rw [get?_set_of_ne h _ hq]

/-- **A walk that arrives has seen only folders.** -/
theorem walk_eq_ok_of_sameFolders (h : SameFolders t t') : ∀ {names : List String} {p : Place},
    t.walk p names = .ok q → t'.walk p names = .ok q
  | [], _, hw => hw
  | name :: rest, p, hw => by
    rw [walk] at hw ⊢
    cases hp : t.get? p with
    | none => simp [hp] at hw
    | some e =>
      cases e with
      | file bytes => simp [hp] at hw
      | folder =>
        simp only [hp, (h p).1 hp] at hw ⊢
        by_cases hidle : name = "" ∨ name = "."
        · rw [if_pos hidle] at hw ⊢
          exact walk_eq_ok_of_sameFolders h hw
        · rw [if_neg hidle] at hw ⊢
          by_cases hup : name = ".."
          · rw [if_pos hup] at hw ⊢
            exact walk_eq_ok_of_sameFolders h hw
          · rw [if_neg hup] at hw ⊢
            by_cases hlong : nameLimit < name.utf8ByteSize
            · rw [if_pos hlong] at hw
              cases hw
            · rw [if_neg hlong] at hw ⊢
              exact walk_eq_ok_of_sameFolders h hw

theorem walk_append (t : FileTree) : ∀ (names more : List String) (p : Place),
    t.walk p (names ++ more) = t.walk p names >>= fun q => t.walk q more
  | [], _, _ => rfl
  | name :: rest, more, p => by
    have ih := walk_append t rest more
    rw [List.cons_append, walk, walk]
    cases t.get? p with
    | none => rfl
    | some e =>
      cases e with
      | file bytes => rfl
      | folder =>
        simp only
        split
        · exact ih p
        · split
          · exact ih p.outer
          · split
            · rfl
            · exact ih (p.child name)

/-- A name for a file: neither empty nor dots only, and not too long. -/
def IsName (name : String) : Prop := name ≠ "" ∧ name ≠ "." ∧ name ≠ ".." ∧ name.utf8ByteSize ≤ nameLimit

theorem walk_name {folder : Place} {name : String} (hname : IsName name) :
    t.walk folder [name] = .ok q ↔ t.get? folder = some .folder ∧ q = folder.child name := by
  obtain ⟨hne, hdot, hdots, hlong⟩ := hname
  have hidle : ¬ (name = "" ∨ name = ".") := not_or.2 ⟨hne, hdot⟩
  rw [walk]
  cases t.get? folder with
  | none => simp
  | some e =>
    cases e with
    | file bytes => simp
    | folder =>
      simp only [if_neg hidle, if_neg hdots, if_neg (Nat.not_lt.2 hlong), walk, Except.ok.injEq, true_and]
      exact eq_comm

/-! ## Paths -/

theorem locate_eq_ok_iff : t.locate path = .ok p ↔
    checkPath path = .ok () ∧ t.walk (start path) (pieces path) = .ok p := by
  unfold locate
  rw [bind_eq_ok_iff]
  exact ⟨fun ⟨_, h⟩ => h, fun h => ⟨(), h⟩⟩

theorem locate_eq_ok_of_sameFolders (h : SameFolders t t') (hp : t.locate path = .ok p) : t'.locate path = .ok p := by
  obtain ⟨hcheck, hwalk⟩ := locate_eq_ok_iff.1 hp
  exact locate_eq_ok_iff.2 ⟨hcheck, walk_eq_ok_of_sameFolders h hwalk⟩

/-- **Where a file may be put**: in a folder, under a name with nothing after it. -/
theorem slot_eq_ok_iff : t.slot path = .ok q ↔ checkPath path = .ok () ∧ ∃ before name folder,
    pieces path = before ++ [name] ∧ IsName name ∧ t.walk (start path) before = .ok folder ∧
      t.get? folder = some .folder ∧ q = folder.child name := by
  unfold slot
  rw [bind_eq_ok_iff]
  constructor
  · rintro ⟨_, hcheck, h⟩
    refine ⟨hcheck, ?_⟩
    simp only at h
    split at h
    · cases h
    · rename_i name before hdrop
      obtain ⟨folder, hwalk, h⟩ := bind_eq_ok_iff.1 h
      split at h
      · cases h
      · cases h
      · rename_i hfolder
        split at h
        · cases h
        · rename_i hdots
          split at h
          · cases h
          · rename_i hlong
            split at h
            · cases h
            · rename_i hlast
              cases h
              -- the last piece is a name, so nothing was dropped from the end
              have hrev : (pieces path).reverse = name :: before := by
                cases hpieces : (pieces path).reverse with
                | nil =>
                  rw [hpieces] at hdrop
                  cases hdrop
                | cons last others =>
                  rw [hpieces] at hdrop hlast
                  have hlast : last ≠ "" := fun heq => hlast (by rw [heq]; rfl)
                  rwa [List.dropWhile_cons_of_neg (by simpa using hlast)] at hdrop
              have hne : name ≠ "" := fun heq => hlast (by rw [hrev, heq]; rfl)
              refine ⟨before.reverse, name, folder, ?_, ⟨hne, fun heq => hdots (.inl heq),
                fun heq => hdots (.inr heq), Nat.not_lt.1 hlong⟩, hwalk, hfolder, rfl⟩
              rw [← List.reverse_reverse (pieces path), hrev, List.reverse_cons]
  · rintro ⟨hcheck, before, name, folder, hpieces, ⟨hne, hdot, hdots, hlong⟩, hwalk, hfolder, rfl⟩
    refine ⟨(), hcheck, ?_⟩
    have hrev : (pieces path).reverse = name :: before.reverse := by simp [hpieces]
    have hdrop : (name :: before.reverse).dropWhile (·.isEmpty) = name :: before.reverse :=
      List.dropWhile_cons_of_neg (by simpa using hne)
    simp only [hrev, hdrop, List.reverse_reverse]
    refine bind_eq_ok_iff.2 ⟨folder, hwalk, ?_⟩
    simp only [hfolder, hdot, hdots, or_self, if_false, Nat.not_lt.2 hlong, List.head?_cons, Option.some.injEq, hne]
    rfl

theorem slot_eq_ok_of_sameFolders (h : SameFolders t t') (hq : t.slot path = .ok q) : t'.slot path = .ok q := by
  obtain ⟨hcheck, before, name, folder, hpieces, hname, hwalk, hfolder, hq⟩ := slot_eq_ok_iff.1 hq
  exact slot_eq_ok_iff.2
    ⟨hcheck, before, name, folder, hpieces, hname, walk_eq_ok_of_sameFolders h hwalk, (h folder).1 hfolder, hq⟩

theorem locate_of_slot (hq : t.slot path = .ok q) : t.locate path = .ok q := by
  obtain ⟨hcheck, before, name, folder, hpieces, hname, hwalk, hfolder, hq⟩ := slot_eq_ok_iff.1 hq
  refine locate_eq_ok_iff.2 ⟨hcheck, ?_⟩
  rw [hpieces, walk_append]
  exact bind_eq_ok_iff.2 ⟨folder, hwalk, (walk_name hname).2 ⟨hfolder, hq⟩⟩

/-! ## Operations -/

theorem bytesAt_eq_ok_iff {bytes : Bytes} : t.bytesAt p = .ok bytes ↔ t.get? p = some (.file bytes) := by
  unfold bytesAt
  cases t.get? p with
  | none => simp
  | some e => cases e <;> simp

theorem read_eq_ok_iff {bytes : Bytes} :
    t.read path = .ok bytes ↔ ∃ p, t.locate path = .ok p ∧ t.get? p = some (.file bytes) := by
  unfold read
  simp only [bind_eq_ok_iff, bytesAt_eq_ok_iff]

theorem create_eq_ok_iff :
    t.create path = .ok t' ↔ ∃ p, t.locate path = .ok p ∧ t.get? p = none ∧ t' = t.set p (.file []) := by
  unfold create
  rw [bind_eq_ok_iff]
  refine exists_congr fun p => and_congr_right fun _ => ?_
  cases t.get? p with
  | none => exact ⟨fun h => ⟨rfl, (Except.ok.inj h).symm⟩, fun h => congrArg Except.ok h.2.symm⟩
  | some e => exact ⟨fun h => (by cases h), fun h => (by cases h.1)⟩

theorem write_eq_ok_iff {bytes : Bytes} : t.write path bytes = .ok t' ↔
    ∃ p old, t.locate path = .ok p ∧ t.get? p = some (.file old) ∧ t' = t.set p (.file bytes) := by
  unfold write
  simp only [bind_eq_ok_iff, bytesAt_eq_ok_iff, exists_and_left]
  refine exists_congr fun p => and_congr_right fun _ => exists_congr fun old => and_congr_right fun _ => ?_
  exact ⟨fun h => (Except.ok.inj h).symm, fun h => congrArg Except.ok h.symm⟩

theorem remove_eq_ok_iff : t.remove path = .ok t' ↔
    ∃ p old, t.locate path = .ok p ∧ t.get? p = some (.file old) ∧ t' = t.erase p := by
  unfold remove
  simp only [bind_eq_ok_iff, bytesAt_eq_ok_iff, exists_and_left]
  refine exists_congr fun p => and_congr_right fun _ => exists_congr fun old => and_congr_right fun _ => ?_
  exact ⟨fun h => (Except.ok.inj h).symm, fun h => congrArg Except.ok h.symm⟩

theorem rename_eq_ok_iff : t.rename source target = .ok t' ↔
    ∃ p bytes q, t.locate source = .ok p ∧ t.get? p = some (.file bytes) ∧ t.slot target = .ok q ∧
      t.get? q ≠ some .folder ∧ t' = (t.erase p).set q (.file bytes) := by
  unfold rename
  simp only [bind_eq_ok_iff, bytesAt_eq_ok_iff, exists_and_left]
  refine exists_congr fun p => and_congr_right fun _ => exists_congr fun bytes => and_congr_right fun _ =>
    exists_congr fun q => and_congr_right fun _ => ?_
  split
  · rename_i hfolder
    exact ⟨fun h => (by cases h), fun h => absurd hfolder h.1⟩
  · rename_i hfolder
    exact ⟨fun h => ⟨hfolder, (Except.ok.inj h).symm⟩, fun h => congrArg Except.ok h.2.symm⟩

/-! ## The life of a new file -/

theorem write_of_create (hcreate : t.create source = .ok t₁) (bytes : Bytes) :
    ∃ p, t.locate source = .ok p ∧ t.get? p = none ∧ t₁.write source bytes = .ok (t.set p (.file bytes)) := by
  obtain ⟨p, hp, hnone, rfl⟩ := create_eq_ok_iff.1 hcreate
  have hfolder : t.get? p ≠ some .folder := by simp [hnone]
  refine ⟨p, hp, hnone, write_eq_ok_iff.2 ⟨p, [], ?_, get?_set_self hfolder _, (set_set t p _ _).symm⟩⟩
  exact locate_eq_ok_of_sameFolders (sameFolders_set hfolder []) hp

/-- **A new file that is filled and removed again leaves nothing behind.** -/
theorem remove_of_create {bytes : Bytes} (hcreate : t.create source = .ok t₁)
    (hwrite : t₁.write source bytes = .ok t₂) : t₂.remove source = .ok t := by
  obtain ⟨p, hp, hnone, hwrite'⟩ := write_of_create hcreate bytes
  obtain rfl : t.set p (.file bytes) = t₂ := Except.ok.inj (hwrite'.symm.trans hwrite)
  have hfolder : t.get? p ≠ some .folder := by simp [hnone]
  refine remove_eq_ok_iff.2 ⟨p, bytes, ?_, get?_set_self hfolder _, (erase_set _ hnone).symm⟩
  exact locate_eq_ok_of_sameFolders (sameFolders_set hfolder bytes) hp

/-- **A new file that is filled and put in another place** is there with its contents, and nothing else has changed. -/
theorem rename_of_create {bytes : Bytes} (hcreate : t.create source = .ok t₁)
    (hwrite : t₁.write source bytes = .ok t₂) : t₂.rename source target = .ok t' ↔
      ∃ q, t.slot target = .ok q ∧ t.get? q ≠ some .folder ∧ t' = t.set q (.file bytes) := by
  obtain ⟨p, hp, hnone, hwrite'⟩ := write_of_create hcreate bytes
  obtain rfl : t.set p (.file bytes) = t₂ := Except.ok.inj (hwrite'.symm.trans hwrite)
  have hfolder : t.get? p ≠ some .folder := by simp [hnone]
  have hsame := sameFolders_set hfolder bytes
  have hlocate := locate_eq_ok_of_sameFolders hsame hp
  rw [rename_eq_ok_iff]
  constructor
  · rintro ⟨p', bytes', q, hp', hbytes', hslot, hq, rfl⟩
    obtain rfl : p = p' := Except.ok.inj (hlocate.symm.trans hp')
    obtain rfl : bytes = bytes' := by
      rw [get?_set_self hfolder] at hbytes'
      cases hbytes'
      rfl
    refine ⟨q, slot_eq_ok_of_sameFolders hsame.symm hslot, fun h => hq ((hsame q).1 h), ?_⟩
    rw [erase_set _ hnone]
  · rintro ⟨q, hslot, hq, rfl⟩
    refine ⟨p, bytes, q, hlocate, get?_set_self hfolder _, slot_eq_ok_of_sameFolders hsame hslot,
      fun h => hq ((hsame q).2 h), ?_⟩
    rw [erase_set _ hnone]

/-! ## Files side by side -/

theorem pieces_slash {name : String} (base : String) (hname : '/' ∉ name.toList) :
    pieces (base ++ "/" ++ name) = pieces base ++ [name] := by
  have hsplit : (base ++ "/" ++ name).toList = base.toList ++ '/' :: name.toList := by simp
  rw [pieces, hsplit, List.splitOn_append_cons_self, List.splitOn_eq_singleton hname, List.map_append]
  simp [pieces]

theorem start_slash (base name name' : String) : start (base ++ "/" ++ name) = start (base ++ "/" ++ name') := by
  unfold start
  cases h : base.toList <;> simp [h]

theorem checkPath_eq_ok_iff : checkPath path = .ok () ↔ path ≠ "" ∧ path.utf8ByteSize ≤ pathLimit := by
  unfold checkPath
  by_cases hempty : path = ""
  · simp [hempty]
  · by_cases hlong : pathLimit < path.utf8ByteSize
    · simp [hempty, hlong]
    · simp [hempty, hlong, Nat.not_lt.1 hlong]

/-- **Of two names of one size, one leads somewhere if the other does** in the same folder. -/
theorem locate_beside {base name name' : String} (hname : IsName name) (hslash : '/' ∉ name.toList)
    (hname' : IsName name') (hslash' : '/' ∉ name'.toList) (hsize : name'.utf8ByteSize = name.utf8ByteSize)
    (h : t.locate (base ++ "/" ++ name) = .ok p) : ∃ p', t.locate (base ++ "/" ++ name') = .ok p' := by
  obtain ⟨hcheck, hwalk⟩ := locate_eq_ok_iff.1 h
  rw [pieces_slash base hslash, walk_append, start_slash base name name'] at hwalk
  obtain ⟨folder, hfolder, hlast⟩ := bind_eq_ok_iff.1 hwalk
  have hcheck' : checkPath (base ++ "/" ++ name') = .ok () := by
    rw [checkPath_eq_ok_iff] at hcheck ⊢
    refine ⟨fun h => ?_, ?_⟩
    · have hlist := congrArg String.toList h
      simp at hlist
    · simpa [String.utf8ByteSize_append, hsize] using hcheck.2
  refine ⟨folder.child name', locate_eq_ok_iff.2 ⟨hcheck', ?_⟩⟩
  rw [pieces_slash base hslash', walk_append]
  exact bind_eq_ok_iff.2 ⟨folder, hfolder, (walk_name hname').2 ⟨((walk_name hname).1 hlast).1, rfl⟩⟩

theorem create_of_locate (h : t.locate path = .ok p) (hfree : t.create path ≠ .error .alreadyThere) :
    ∃ t₁, t.create path = .ok t₁ := by
  cases hp : t.get? p with
  | none => exact ⟨_, create_eq_ok_iff.2 ⟨p, h, hp, rfl⟩⟩
  | some e =>
    refine absurd ?_ hfree
    rw [create, h]
    simp only [bind, Except.bind, hp]
    rfl

end FileTree
end BencodePlan
