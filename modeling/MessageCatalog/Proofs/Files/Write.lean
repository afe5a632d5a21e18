import MessageCatalog.Proofs.Files.Follow
import MessageCatalog.Proofs.Keyed

/-!
# MessageCatalog.Proofs.Files.Write -- what writing a file leaves as it is

Writing a file makes folders and sets one file. A tree that has grown has all files and folders that
were there before, and no file has become a folder, so every path that led to a file still leads
there. The bytes of all files but the one that was written are what they were.
-/

namespace MessageCatalog.Files

open MessageCatalog.Text

namespace Tree

/-! ## Growth -/

/-- A tree has what an earlier one has, and no file has become a folder. -/
structure Grown (before after : Tree) : Prop where
  folders : ∀ key ∈ before.folders, key ∈ after.folders
  files : ∀ key ∈ before.files.keys, key ∈ after.files.keys
  apart : ∀ key ∈ before.files.keys, key ∉ before.folders → key ∉ after.folders

theorem Grown.refl (tree : Tree) : Grown tree tree :=
  ⟨fun _ there => there, fun _ there => there, fun _ _ absent => absent⟩

theorem Grown.trans {first second third : Tree} (h : Grown first second) (h' : Grown second third) :
    Grown first third where
  folders key there := h'.folders key (h.folders key there)
  files key there := h'.files key (h.files key there)
  apart key there absent := h'.apart key (h.files key there) (h.apart key there absent)

theorem Grown.hasFolder {before after : Tree} (grown : Grown before after) {place : Place}
    (h : before.hasFolder place = true) : after.hasFolder place = true := by
  simp only [Tree.hasFolder, Bool.or_eq_true, List.contains_iff_mem] at h ⊢
  exact h.imp_right (grown.folders _)

/-- Paths that lead somewhere go on leading there. -/
theorem Grown.follow {before after : Tree} (grown : Grown before after) {here : Place} {spot : Spot}
    {pieces : List String} (h : before.follow here pieces = .ok spot) :
    after.follow here pieces = .ok spot := by
  induction pieces generalizing here with
  | nil => exact h
  | cons piece rest ih =>
      rw [Tree.follow]
      rcases follow_cons h with
        ⟨silent, h⟩ | ⟨telling, rfl, below, h⟩ | ⟨telling, name, folder, h⟩ |
          ⟨telling, name, noFolder, file, rfl, same⟩
      · simpa [silent] using ih h
      · simpa [telling, below] using ih h
      · simpa [telling, name, grown.hasFolder folder] using ih h
      · cases same
        have there : Place.key (here ++ [piece]) ∈ before.files.keys := by
          simpa [hasFile] using file
        have still : after.hasFile (here ++ [piece]) = true := by
          simpa [hasFile] using grown.files _ there
        have neverFolder : after.hasFolder (here ++ [piece]) = false := by
          simp only [Tree.hasFolder, Bool.or_eq_false_iff] at noFolder ⊢
          refine ⟨noFolder.1, ?_⟩
          simp only [← Bool.not_eq_true, List.contains_iff_mem] at noFolder ⊢
          exact grown.apart _ there noFolder.2
        simp [telling, name, neverFolder, still]

theorem Grown.locate {before after : Tree} (grown : Grown before after) {text : String}
    {spot : Spot} (h : before.locate text = .ok spot) : after.locate text = .ok spot := by
  unfold Tree.locate at h ⊢
  split at h
  · cases h
  · next relative =>
    rw [if_neg relative]
    exact grown.follow h

theorem Grown.isFile {before after : Tree} (grown : Grown before after) {text : String}
    (h : before.isFile text = true) : after.isFile text = true := by
  obtain ⟨place, found, same, there⟩ := isFile_iff.mp h
  exact isFile_iff.mpr ⟨place, grown.locate found, same, grown.files _ there⟩

/-! ## Making folders -/

theorem files_makeFolders {tree made : Tree} {here there : Place} {parts : List String}
    (h : tree.makeFolders here parts = .ok (made, there)) : made.files = tree.files := by
  induction parts generalizing tree here with
  | nil =>
      cases h
      rfl
  | cons part rest ih =>
      rcases makeFolders_cons h with ⟨_, _, h⟩ | ⟨_, _, h⟩ | ⟨_, _, h⟩
      · exact ih h
      · exact ih h
      · have same := ih h
        exact same

/-- A new folder at a place where no file is. -/
theorem grown_addFolder {tree : Tree} {place : Place} (noFile : tree.hasFile place = false) :
    Grown tree { tree with folders := tree.folders ++ [place.key] } := by
  refine ⟨fun key there => List.mem_append_left _ there, fun key there => there, ?_⟩
  intro key there absent
  simp only [List.mem_append, List.mem_singleton, not_or]
  refine ⟨absent, ?_⟩
  rintro rfl
  simp [hasFile, ← Bool.not_eq_true, there] at noFile

theorem grown_makeFolders {tree made : Tree} {here there : Place} {parts : List String}
    (h : tree.makeFolders here parts = .ok (made, there)) : Grown tree made := by
  induction parts generalizing tree here with
  | nil =>
      cases h
      exact .refl _
  | cons part rest ih =>
      rcases makeFolders_cons h with ⟨_, _, h⟩ | ⟨_, _, h⟩ | ⟨_, noFile, h⟩
      · exact ih h
      · exact ih h
      · exact (grown_addFolder noFile).trans (ih h)

/-- The folders that were made are there for every path along them. -/
theorem follow_makeFolders {tree made later : Tree} {here there : Place} {parts : List String}
    (h : tree.makeFolders here parts = .ok (made, there))
    (telling : ∀ part ∈ parts, Path.isTelling part = true)
    (kept : ∀ place, made.hasFolder place = true → later.hasFolder place = true)
    (rest : List String) :
    later.follow here (parts ++ rest) = later.follow there rest := by
  induction parts generalizing tree here with
  | nil =>
      cases h
      rfl
  | cons part more ih =>
      have first : Path.isTelling part = true := telling part List.mem_cons_self
      have others : ∀ part ∈ more, Path.isTelling part = true := fun other there =>
        telling other (List.mem_cons_of_mem _ there)
      rw [List.cons_append, follow]
      rcases makeFolders_cons h with ⟨rfl, below, h⟩ | ⟨name, folder, h⟩ | ⟨name, _, h⟩
      · simpa [first, below] using ih h others
      · have still : later.hasFolder (here ++ [part]) = true :=
          kept _ ((grown_makeFolders h).hasFolder folder)
        simpa [first, name, still] using ih h others
      · have still : later.hasFolder (here ++ [part]) = true := by
          refine kept _ ((grown_makeFolders h).hasFolder ?_)
          simp [hasFolder]
        have along := ih h others
        simpa [first, name, still] using along

/-! ## Writing -/

/-- What a write that succeeds has done. -/
theorem write_ok {tree after : Tree} {path : Path} {content : List UInt8}
    (h : tree.write path content = .ok after) :
    path.isAbsolute = false ∧ ∃ made here name, path.parts = path.parts.dropLast ++ [name] ∧
      tree.makeFolders [] path.parts.dropLast = .ok (made, here) ∧ name ≠ ".." ∧
      made.hasFolder (here ++ [name]) = false ∧
      after = { made with files := made.files.set (Place.key (here ++ [name])) content } := by
  by_cases absolute : path.isAbsolute = true
  · rw [write_absolute absolute] at h
    cases h
  rw [write] at h
  simp only [absolute, Bool.false_eq_true, if_false] at h
  cases folders : tree.makeFolders [] path.parts.dropLast with
  | error fault =>
      rw [folders] at h
      cases h
  | ok result =>
      obtain ⟨made, here⟩ := result
      rw [folders] at h
      cases last : path.parts.getLast? with
      | none =>
          rw [last] at h
          cases h
      | some name =>
          rw [last] at h
          by_cases blocked : (name == ".." || made.hasFolder (here ++ [name])) = true
          · simp only [bind, Except.bind, pure, Except.pure, blocked, if_true] at h
            cases h
          · simp only [bind, Except.bind, pure, Except.pure, blocked] at h
            cases h
            simp only [Bool.or_eq_true, not_or, Bool.not_eq_true, beq_eq_false_iff_ne] at blocked
            exact ⟨by simpa using absolute, made, here, name,
              (List.dropLast_append_getLast? name last).symm, rfl, blocked.1, blocked.2, rfl⟩

/-- The place that a write sets. -/
theorem key_of_write {text : String} {tree made : Tree} {here : Place} {name : String}
    (relative : (Path.ofText text).isAbsolute = false)
    (last : (Path.ofText text).parts = (Path.ofText text).parts.dropLast ++ [name])
    (folders : tree.makeFolders [] (Path.ofText text).parts.dropLast = .ok (made, here))
    (plain : name ≠ "..") : Place.key (here ++ [name]) = Path.normal text := by
  refine (normal_eq_key relative ?_ (by simp)).symm
  rw [last, Place.through?_append (through?_of_makeFolders folders), Place.through?_name plain]
  rfl

theorem grown_write {tree after : Tree} {path : Path} {content : List UInt8}
    (h : tree.write path content = .ok after) : Grown tree after := by
  obtain ⟨_, made, here, name, _, folders, _, noFolder, rfl⟩ := write_ok h
  refine (grown_makeFolders folders).trans ⟨fun key there => there, fun key there => ?_,
    fun key _ absent => absent⟩
  rw [Keyed.keys_set]
  split
  · exact there
  · exact List.mem_append_left _ there

/-- A write to a path sets the bytes under its normal form, and no others. -/
theorem get?_write {text : String} {tree after : Tree} {content : List UInt8}
    (h : tree.write (Path.ofText text) content = .ok after) (key : String) :
    after.files.get? key =
      if key = Path.normal text then some content else tree.files.get? key := by
  obtain ⟨relative, made, here, name, last, folders, plain, _, rfl⟩ := write_ok h
  rw [Keyed.get?_set, key_of_write relative last folders plain, files_makeFolders folders]

/-! ## Paths and what they lead to -/

/-- A written path leads to the file under its normal form, and the file holds some bytes. -/
structure Leads (tree : Tree) (text : String) (content : List UInt8) : Prop where
  relative : (Path.ofText text).isAbsolute = false
  place : ∃ place, place.key = Path.normal text ∧
    tree.follow [] (Path.ofText text).parts = .ok (.file place)
  held : tree.files.get? (Path.normal text) = some content

theorem leads_of_isFile {tree : Tree} {text : String} (h : tree.isFile text = true) :
    ∃ content, tree.Leads text content := by
  obtain ⟨place, found, same, there⟩ := isFile_iff.mp h
  obtain ⟨content, held⟩ := (Keyed.mem_keys_iff tree.files).mp there
  rw [locate] at found
  split at found
  · cases found
  · next relative =>
    simp only [Bool.or_eq_true, not_or, Bool.not_eq_true] at relative
    exact ⟨content, relative.2, ⟨place, same, follow_filter found⟩, held⟩

/-- A path goes on leading to the same bytes while nothing is written there. -/
theorem Leads.grown {before after : Tree} {text : String} {content : List UInt8}
    (h : before.Leads text content) (grown : Grown before after)
    (same : after.files.get? (Path.normal text) = before.files.get? (Path.normal text)) :
    after.Leads text content := by
  obtain ⟨place, key, led⟩ := h.place
  exact ⟨h.relative, ⟨place, key, grown.follow led⟩, same.trans h.held⟩

/-- The path of a write leads to what it wrote. -/
theorem leads_write {text : String} {tree after : Tree} {content : List UInt8}
    (h : tree.write (Path.ofText text) content = .ok after) : after.Leads text content := by
  obtain ⟨relative, made, here, name, last, folders, plain, noFolder, wrote⟩ := write_ok h
  have held : after.files.get? (Path.normal text) = some content := by
    rw [get?_write h, if_pos rfl]
  refine ⟨relative, ⟨here ++ [name], key_of_write relative last folders plain, ?_⟩, held⟩
  -- the path goes along the folders that were made, and its last part is the file
  have telling : ∀ part ∈ (Path.ofText text).parts, Path.isTelling part = true :=
    fun part there => (List.mem_filter.mp there).2
  have sameFolders : ∀ place, after.hasFolder place = made.hasFolder place := by
    intro place
    rw [wrote]
    rfl
  have along : after.follow [] ((Path.ofText text).parts.dropLast ++ [name]) =
      after.follow here [name] :=
    follow_makeFolders folders (fun part there => telling part (List.dropLast_subset _ there))
      (fun place there => (sameFolders place).trans there) [name]
  have first : Path.isTelling name = true := telling name (by rw [last]; simp)
  have there : after.hasFile (here ++ [name]) = true := by
    rw [hasFile, Keyed.contains_iff, Keyed.mem_keys_iff, wrote]
    exact ⟨content, by rw [Keyed.get?_set, if_pos rfl]⟩
  rw [last, along, follow]
  simp [first, plain, sameFolders, noFolder, there]

theorem Leads.bytes {tree : Tree} {text : String} {content : List UInt8}
    (h : tree.Leads text content) : tree.bytes (Path.ofText text) = .ok content := by
  obtain ⟨place, key, led⟩ := h.place
  rw [Tree.bytes]
  simp only [h.relative, Bool.false_eq_true, if_false, led]
  simp only [bind, Except.bind, pure, Except.pure, key, h.held]

/-- The text of a file is read from the bytes that its path leads to, and from nothing else. -/
theorem Leads.text {tree : Tree} {text : String} {content : List UInt8}
    (h : tree.Leads text content) :
    tree.text (Path.ofText text) =
      ((decodeUtf8 content).mapError ReadFault.undecodable).map unifyLineEnds := by
  rw [Tree.text, characters, h.bytes]
  rfl

theorem Leads.text_ok {tree : Tree} {text : String} {content : List UInt8}
    (h : tree.Leads text content) {read : List Char} :
    tree.text (Path.ofText text) = .ok read ↔
      ∃ chars, decodeUtf8 content = .ok chars ∧ unifyLineEnds chars = read := by
  rw [h.text]
  cases decodeUtf8 content with
  | ok chars =>
      show Except.ok (unifyLineEnds chars) = Except.ok read ↔ _
      simp
  | error error =>
      refine ⟨fun h => ?_, ?_⟩
      · cases h
      · rintro ⟨chars, h, -⟩
        cases h

end Tree

end MessageCatalog.Files
