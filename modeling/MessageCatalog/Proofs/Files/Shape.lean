import MessageCatalog.Files.Glob
import MessageCatalog.Proofs.Files.Overwrite

/-!
# MessageCatalog.Proofs.Files.Shape -- trees that differ in bytes only

Where a path leads, and which files a pattern finds, depends on the names of files and folders and
not on what the files hold. Two trees with the same names are followed, searched and written to in
the same way. When only some files differ, every path that leads elsewhere gives the same text.
-/

namespace MessageCatalog.Files

open MessageCatalog.Text

namespace Tree

/-- Two trees have the same folders and the same names of files. -/
structure SameShape (one two : Tree) : Prop where
  folders : one.folders = two.folders
  files : one.files.keys = two.files.keys

/-- Two trees have the same bytes under every name but some. -/
def SameOff (names : List String) (one two : Tree) : Prop :=
  ∀ key ∉ names, one.files.get? key = two.files.get? key

theorem SameOff.mono {names more : List String} {one two : Tree} (h : SameOff names one two)
    (within : ∀ name ∈ names, name ∈ more) : SameOff more one two :=
  fun key absent => h key fun there => absent (within key there)

/-! ## Following and searching -/

namespace SameShape

variable {one two : Tree} (h : SameShape one two)

include h

theorem symm : SameShape two one := ⟨h.folders.symm, h.files.symm⟩

theorem trans {three : Tree} (h' : SameShape two three) : SameShape one three :=
  ⟨h.folders.trans h'.folders, h.files.trans h'.files⟩

theorem hasFolder (place : Place) : one.hasFolder place = two.hasFolder place := by
  rw [Tree.hasFolder, h.folders, ← Tree.hasFolder]

theorem hasFile (place : Place) : one.hasFile place = two.hasFile place := by
  rw [Tree.hasFile, Keyed.contains, h.files, ← Keyed.contains, ← Tree.hasFile]

theorem follow (here : Place) (pieces : List String) :
    one.follow here pieces = two.follow here pieces := by
  induction pieces generalizing here with
  | nil => rfl
  | cons piece rest ih =>
      rw [Tree.follow, Tree.follow]
      simp only [ih, h.hasFolder, h.hasFile]

theorem locate (text : String) : one.locate text = two.locate text := by
  rw [Tree.locate, Tree.locate, h.follow]

theorem isFile (text : String) : one.isFile text = two.isFile text := by
  rw [Tree.isFile, Tree.isFile, h.locate]

theorem folderAt (text : String) : one.folderAt text = two.folderAt text := by
  rw [Tree.folderAt, Tree.folderAt, Tree.folder?, Tree.folder?, h.locate]

theorem namesIn (place : Place) (foldersOnly : Bool) :
    one.namesIn place foldersOnly = two.namesIn place foldersOnly := by
  rw [Tree.namesIn, Tree.namesIn, h.folders, h.files]

theorem below (foldersOnly : Bool) (levels : Nat) (place : Place) :
    one.below foldersOnly levels place = two.below foldersOnly levels place := by
  induction levels generalizing place with
  | zero => rfl
  | succ levels ih =>
      rw [Tree.below, Tree.below, h.namesIn]
      simp only [ih, h.hasFolder]

theorem depth : one.depth = two.depth := by
  rw [Tree.depth, Tree.depth, h.folders, h.files]

theorem namesFor (folder part : String) (foldersOnly : Bool) :
    one.namesFor folder part foldersOnly = two.namesFor folder part foldersOnly := by
  rw [Tree.namesFor, Tree.namesFor]
  simp only [h.folderAt, h.below, h.depth, h.namesIn, h.locate]

theorem expandParts (folders parts : List String) :
    one.expandParts folders parts = two.expandParts folders parts := by
  induction parts generalizing folders with
  | nil => rfl
  | cons part rest ih =>
      rw [Tree.expandParts, Tree.expandParts]
      simp only [h.namesFor]
      exact ih _

theorem glob (pattern : String) : one.glob pattern = two.glob pattern := by
  rw [Tree.glob, Tree.glob]
  simp only [h.expandParts]
  exact List.filter_congr fun path _ => h.isFile path

end SameShape

/-! ## Writing -/

/-- Folders are made in both trees alike. -/
theorem SameShape.makeFolders {one two : Tree} (h : SameShape one two) (here : Place)
    (parts : List String) :
    (∃ fault, one.makeFolders here parts = .error fault ∧
      two.makeFolders here parts = .error fault) ∨
    ∃ made made' there, one.makeFolders here parts = .ok (made, there) ∧
      two.makeFolders here parts = .ok (made', there) ∧ SameShape made made' := by
  induction parts generalizing one two here with
  | nil => exact Or.inr ⟨one, two, here, rfl, rfl, h⟩
  | cons part rest ih =>
      rw [Tree.makeFolders, Tree.makeFolders]
      simp only [h.hasFolder, h.hasFile]
      split
      · split
        · exact Or.inl ⟨_, rfl, rfl⟩
        · exact ih h _
      split
      · exact ih h _
      split
      · exact Or.inl ⟨_, rfl, rfl⟩
      · have grown : SameShape { one with folders := one.folders ++ [Place.key (here ++ [part])] }
            { two with folders := two.folders ++ [Place.key (here ++ [part])] } :=
          ⟨congrArg (· ++ [Place.key (here ++ [part])]) h.folders, h.files⟩
        exact ih grown _

/-- What can be written in one tree can be written in the other, and they stay alike. -/
theorem SameShape.write {one two : Tree} (h : SameShape one two) (path : Path)
    (content content' : List UInt8) :
    (∃ fault, one.write path content = .error fault ∧ two.write path content' = .error fault) ∨
    ∃ after after', one.write path content = .ok after ∧ two.write path content' = .ok after' ∧
      SameShape after after' := by
  by_cases absolute : path.isAbsolute = true
  · exact Or.inl ⟨_, write_absolute absolute content, write_absolute absolute content'⟩
  rw [Tree.write, Tree.write]
  simp only [absolute, Bool.false_eq_true, if_false]
  rcases h.makeFolders [] path.parts.dropLast with
    ⟨fault, left, right⟩ | ⟨made, made', there, left, right, same⟩
  · rw [left, right]
    exact Or.inl ⟨_, rfl, rfl⟩
  · rw [left, right]
    cases path.parts.getLast? with
    | none => exact Or.inl ⟨_, rfl, rfl⟩
    | some name =>
        simp only [bind, Except.bind, same.hasFolder]
        split
        · exact Or.inl ⟨_, rfl, rfl⟩
        · refine Or.inr ⟨_, _, rfl, rfl, same.folders, ?_⟩
          show (made.files.set _ _).keys = (made'.files.set _ _).keys
          rw [Keyed.keys_set, Keyed.keys_set, same.files]

/-- A write to a path leaves the bytes under all other names as they are. -/
theorem sameOff_write {text : String} {tree after : Tree} {content : List UInt8}
    (h : tree.write (Path.ofText text) content = .ok after) :
    SameOff [Path.normal text] after tree := by
  intro key absent
  rw [get?_write h, if_neg fun same => absent (List.mem_singleton.mpr same)]

/-- The same bytes, or bytes under a name that need not agree, keep two trees alike. -/
theorem SameOff.write {names : List String} {text : String} {one two after after' : Tree}
    {content content' : List UInt8} (h : SameOff names one two)
    (left : one.write (Path.ofText text) content = .ok after)
    (right : two.write (Path.ofText text) content' = .ok after')
    (same : content = content' ∨ Path.normal text ∈ names) : SameOff names after after' := by
  intro key absent
  rw [get?_write left, get?_write right]
  split
  · next here =>
    subst here
    rcases same with rfl | inside
    · rfl
    · exact absurd inside absent
  · exact h key absent

/-! ## Reading -/

/-- The file that a path leads to is the one under its normal form. -/
theorem key_of_follow {tree : Tree} {text : String} {place : Place}
    (relative : (Path.ofText text).isAbsolute = false)
    (led : tree.follow [] (Path.ofText text).parts = .ok (.file place)) :
    place.key = Path.normal text := by
  have telling : (Path.ofText text).parts.filter Path.isTelling = (Path.ofText text).parts := by
    rw [Path.ofText, List.filter_filter]
    simp
  have names := through?_of_follow led
  rw [telling] at names
  exact (normal_eq_key relative names (place_of_follow led).1).symm

/-- A path whose bytes are there leads to them. -/
theorem leads_of_bytes {tree : Tree} {text : String} {content : List UInt8}
    (h : tree.bytes (Path.ofText text) = .ok content) : tree.Leads text content := by
  by_cases absolute : (Path.ofText text).isAbsolute = true
  · rw [bytes_absolute absolute] at h
    cases h
  rw [bytes] at h
  simp only [absolute, Bool.false_eq_true, if_false] at h
  have relative : (Path.ofText text).isAbsolute = false := by simpa using absolute
  cases led : tree.follow [] (Path.ofText text).parts with
  | error fault =>
      rw [led] at h
      cases h
  | ok spot =>
      rw [led] at h
      cases spot with
      | folder place => cases h
      | file place =>
          have key := key_of_follow relative led
          refine ⟨relative, ⟨place, key, led⟩, ?_⟩
          rw [← key]
          cases held : tree.files.get? place.key with
          | none =>
              simp only [bind, Except.bind, held] at h
              cases h
          | some bytes =>
              simp only [bind, Except.bind, held] at h
              cases h
              rfl

theorem leads_of_text {tree : Tree} {text : String} {read : List Char}
    (h : tree.text (Path.ofText text) = .ok read) :
    ∃ content chars, tree.Leads text content ∧ decodeUtf8 content = .ok chars ∧
      unifyLineEnds chars = read := by
  cases found : tree.bytes (Path.ofText text) with
  | error fault =>
      rw [Tree.text, characters, found] at h
      cases h
  | ok content =>
      have leads := leads_of_bytes found
      obtain ⟨chars, decoded, same⟩ := leads.text_ok.mp h
      exact ⟨content, chars, leads, decoded, same⟩

/-- A path that leads to no file that differs gives the same text. -/
theorem SameShape.text {names : List String} {one two : Tree} (h : SameShape one two)
    (same : SameOff names one two) {text : String} (elsewhere : Path.normal text ∉ names) :
    one.text (Path.ofText text) = two.text (Path.ofText text) := by
  have bytes : one.bytes (Path.ofText text) = two.bytes (Path.ofText text) := by
    by_cases absolute : (Path.ofText text).isAbsolute = true
    · rw [bytes_absolute absolute, bytes_absolute absolute]
    rw [Tree.bytes, Tree.bytes, h.follow]
    simp only [absolute, Bool.false_eq_true, if_false]
    have relative : (Path.ofText text).isAbsolute = false := by simpa using absolute
    cases led : two.follow [] (Path.ofText text).parts with
    | error fault => rfl
    | ok spot =>
        cases spot with
        | folder place => rfl
        | file place =>
            have key := key_of_follow relative led
            have held := same place.key (key ▸ elsewhere)
            simp only [bind, Except.bind, held]
  rw [Tree.text, Tree.text, characters, characters, bytes]

end Tree

end MessageCatalog.Files
