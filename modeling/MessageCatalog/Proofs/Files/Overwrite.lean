import MessageCatalog.Proofs.Files.Write

/-!
# MessageCatalog.Proofs.Files.Overwrite -- writing where it can be done

A path that leads to a file can be written to again; that makes no folder and no file, and changes
nothing when the bytes are those that are there. What was written is found under its path when that
ends in a name. What can be written in a tree can be written in each tree that it has grown from, and
what was grown stays grown.
-/

namespace MessageCatalog.Files

/-- A written path ends in a part that says something: not in a slash or a dot. -/
def Path.EndsInName (text : String) : Prop :=
  ∀ last ∈ (Path.pieces text).getLast?, Path.isTelling last = true

namespace Tree

/-- A write whose folders can be made sets the last name of its path, unless there is a folder. -/
theorem write_of_makeFolders {tree made : Tree} {path : Path} {there : Place} {name : String}
    (relative : path.isAbsolute = false) (split : path.parts = path.parts.dropLast ++ [name])
    (folders : tree.makeFolders [] path.parts.dropLast = .ok (made, there)) (plain : name ≠ "..")
    (free : made.hasFolder (there ++ [name]) = false) (content : List UInt8) :
    tree.write path content =
      .ok { made with files := made.files.set (Place.key (there ++ [name])) content } := by
  have last : path.parts.getLast? = some name := by
    rw [split, List.getLast?_concat]
  have open' : (name == ".." || made.hasFolder (there ++ [name])) = false := by
    rw [free, Bool.or_false, beq_eq_false_iff_ne]
    exact plain
  rw [write]
  simp only [relative, Bool.false_eq_true, if_false, folders, last, bind, Except.bind, open', pure,
    Except.pure]

/-! ## Where a file is -/

/-- The folders of a path that leads to a file are there. -/
theorem makeFolders_of_follow {tree : Tree} {here place : Place} {parts : List String}
    (telling : ∀ part ∈ parts, Path.isTelling part = true)
    (h : tree.follow here parts = .ok (.file place)) :
    ∃ there name, parts = parts.dropLast ++ [name] ∧ name ≠ ".." ∧
      tree.makeFolders here parts.dropLast = .ok (tree, there) ∧
      tree.hasFolder (there ++ [name]) = false ∧ place = there ++ [name] := by
  induction parts generalizing here with
  | nil => cases h
  | cons part rest ih =>
      have others : ∀ part ∈ rest, Path.isTelling part = true := fun other inside =>
        telling other (List.mem_cons_of_mem _ inside)
      -- more parts follow wherever the way does not end at once
      have more : ∀ {from' : Place}, tree.follow from' rest = .ok (.file place) → rest ≠ [] := by
        rintro from' h rfl
        cases h
      rcases follow_cons h with
        ⟨silent, -⟩ | ⟨-, rfl, below, h⟩ | ⟨-, name, folder, h⟩ | ⟨-, name, noFolder, -, rfl, same⟩
      · rw [telling part List.mem_cons_self] at silent
        cases silent
      · obtain ⟨there, last, split, plain, made, free, rfl⟩ := ih others h
        refine ⟨there, last, ?_, plain, ?_, free, rfl⟩
        · rw [List.dropLast_cons_of_ne_nil (more h), List.cons_append, ← split]
        · rw [List.dropLast_cons_of_ne_nil (more h), makeFolders]
          simpa [below] using made
      · obtain ⟨there, last, split, plain, made, free, rfl⟩ := ih others h
        refine ⟨there, last, ?_, plain, ?_, free, rfl⟩
        · rw [List.dropLast_cons_of_ne_nil (more h), List.cons_append, ← split]
        · rw [List.dropLast_cons_of_ne_nil (more h), makeFolders]
          simpa [name, folder] using made
      · cases same
        exact ⟨here, part, rfl, name, rfl, noFolder, rfl⟩

/-- A path that leads to a file can be written to, and that sets the bytes of the file. -/
theorem Leads.write {tree : Tree} {text : String} {content : List UInt8}
    (h : tree.Leads text content) (new : List UInt8) :
    tree.write (Path.ofText text) new =
      .ok { tree with files := tree.files.set (Path.normal text) new } := by
  obtain ⟨place, key, led⟩ := h.place
  have telling : ∀ part ∈ (Path.ofText text).parts, Path.isTelling part = true :=
    fun part there => (List.mem_filter.mp there).2
  obtain ⟨there, name, split, plain, made, free, rfl⟩ := makeFolders_of_follow telling led
  rw [write_of_makeFolders h.relative split made plain free new, key]

/-- Nothing but the bytes of the file changes. -/
theorem Leads.overwrite {tree : Tree} {text : String} {content : List UInt8}
    (h : tree.Leads text content) (new : List UInt8) :
    ∃ after, tree.write (Path.ofText text) new = .ok after ∧ after.folders = tree.folders ∧
      after.files.keys = tree.files.keys := by
  have known : Path.normal text ∈ tree.files.keys :=
    (Keyed.mem_keys_iff _).mpr ⟨content, h.held⟩
  refine ⟨_, h.write new, rfl, ?_⟩
  show (tree.files.set _ _).keys = _
  rw [Keyed.keys_set, if_pos known]

/-- Writing what a file holds leaves everything as it is. -/
theorem Leads.rewrite {tree : Tree} {text : String} {content : List UInt8}
    (h : tree.Leads text content) : tree.write (Path.ofText text) content = .ok tree := by
  rw [h.write, Keyed.set_of_get? h.held]

/-! ## Paths that end in a name -/

/-- Where the telling parts lead to a file all pieces do, when nothing stands behind its name. -/
theorem follow_of_filter {tree : Tree} {here place : Place} {pieces : List String}
    (ends : ∀ last ∈ pieces.getLast?, Path.isTelling last = true)
    (h : tree.follow here (pieces.filter Path.isTelling) = .ok (.file place)) :
    tree.follow here pieces = .ok (.file place) := by
  induction pieces generalizing here with
  | nil => exact h
  | cons piece rest ih =>
      cases rest with
      | nil =>
          -- the only piece says something, so nothing is left out
          have telling := ends piece (by simp)
          rwa [List.filter_cons_of_pos telling] at h
      | cons next more =>
          have ends' : ∀ last ∈ (next :: more).getLast?, Path.isTelling last = true := by
            intro last there
            exact ends last (by rwa [List.getLast?_cons_cons])
          rw [follow]
          by_cases telling : Path.isTelling piece = true
          · rw [List.filter_cons_of_pos telling] at h
            rcases follow_cons h with
              ⟨silent, -⟩ | ⟨-, rfl, below, h⟩ | ⟨-, name, folder, h⟩ | ⟨-, -, -, -, none, -⟩
            · rw [telling] at silent
              cases silent
            · simpa [telling, below] using ih ends' h
            · simpa [telling, name, folder] using ih ends' h
            · -- the last piece says something, so it was not left out
              have last := List.getLast_mem (List.cons_ne_nil next more)
              rw [List.filter_eq_nil_iff] at none
              exact absurd (ends' _ (by simp [List.getLast?_eq_some_getLast])) (none _ last)
          · rw [List.filter_cons_of_neg telling] at h
            simpa [telling] using ih ends' h

/-- A path that leads to a file by its telling parts does so as it is written, when it ends in a
name. -/
theorem Leads.isFile {tree : Tree} {text : String} {content : List UInt8}
    (h : tree.Leads text content) (ends : Path.EndsInName text) : tree.isFile text = true := by
  obtain ⟨place, key, led⟩ := h.place
  have some : text.isEmpty = false := by
    rw [Bool.eq_false_iff, Ne, String.isEmpty_iff]
    rintro rfl
    cases led
  have found : tree.locate text = .ok (.file place) := by
    rw [locate, some, h.relative]
    exact follow_of_filter ends led
  rw [Tree.isFile, found]

/-! ## In a smaller tree -/

/-- Growth is kept when the smaller tree makes a folder that the larger one has. -/
theorem Grown.newFolder {before after : Tree} (grown : Grown before after) {key : String}
    (there : key ∈ after.folders) :
    Grown { before with folders := before.folders ++ [key] } after := by
  refine ⟨fun other inside => ?_, grown.files, fun other inside absent => ?_⟩
  · rcases List.mem_append.mp inside with inside | inside
    · exact grown.folders other inside
    · rwa [List.mem_singleton.mp inside]
  · rw [List.mem_append, not_or] at absent
    exact grown.apart other inside absent.1

/-- Growth is kept when both trees make the same folder. -/
theorem Grown.bothNewFolder {before after : Tree} (grown : Grown before after) (key : String) :
    Grown { before with folders := before.folders ++ [key] }
      { after with folders := after.folders ++ [key] } := by
  refine ⟨fun other inside => ?_, grown.files, fun other inside absent => ?_⟩
  · exact List.mem_append.mpr ((List.mem_append.mp inside).imp_left (grown.folders other))
  · simp only [List.mem_append, not_or] at absent ⊢
    exact ⟨grown.apart other inside absent.1, absent.2⟩

/-- Where a larger tree has a folder or makes one, the smaller one has no file. -/
theorem Grown.noFile {before after : Tree} (grown : Grown before after) {place : Place}
    (noFolder : before.hasFolder place = false)
    (free : after.hasFolder place = true ∨ after.hasFile place = false) (below : place ≠ []) :
    before.hasFile place = false := by
  rw [← Bool.not_eq_true, hasFile, Keyed.contains_iff]
  intro there
  have absent : place.key ∉ before.folders := by
    simpa [Tree.hasFolder, below] using noFolder
  rcases free with folder | noFile
  · have inside : place.key ∈ after.folders := by
      simpa [Tree.hasFolder, below] using folder
    exact grown.apart _ there absent inside
  · have still : after.hasFile place = true := by
      simpa [hasFile] using grown.files _ there
    rw [noFile] at still
    cases still

/-- Folders that can be made in a tree can be made in one that it has grown from. -/
theorem Grown.makeFolders {before after made : Tree} {here there : Place} {parts : List String}
    (grown : Grown before after) (h : after.makeFolders here parts = .ok (made, there)) :
    ∃ made', before.makeFolders here parts = .ok (made', there) ∧ Grown made' made := by
  induction parts generalizing before after here with
  | nil =>
      cases h
      exact ⟨before, rfl, grown⟩
  | cons part rest ih =>
      have below : here ++ [part] ≠ [] := by simp
      rw [Tree.makeFolders]
      by_cases folder : before.hasFolder (here ++ [part]) = true
      · rcases makeFolders_cons h with ⟨rfl, up, h⟩ | ⟨name, -, h⟩ | ⟨name, noFile, h⟩
        · simpa [up] using ih grown h
        · simpa [name, folder] using ih grown h
        · have inside : Place.key (here ++ [part]) ∈ before.folders := by
            simpa [Tree.hasFolder] using folder
          have step : Grown before
              { after with folders := after.folders ++ [Place.key (here ++ [part])] } := by
            refine ⟨fun key there => List.mem_append_left _ (grown.folders key there), grown.files,
              fun key there absent => ?_⟩
            simp only [List.mem_append, List.mem_singleton, not_or]
            refine ⟨grown.apart key there absent, ?_⟩
            rintro rfl
            exact absent inside
          simpa [name, folder] using ih step h
      · rcases makeFolders_cons h with ⟨rfl, up, h⟩ | ⟨name, larger, h⟩ | ⟨name, noFile, h⟩
        · simpa [up] using ih grown h
        · have free := grown.noFile (by simpa using folder) (Or.inl larger) below
          have inside : Place.key (here ++ [part]) ∈ after.folders := by
            simpa [Tree.hasFolder] using larger
          simpa [name, folder, free] using ih (grown.newFolder inside) h
        · have free := grown.noFile (by simpa using folder) (Or.inr noFile) below
          simpa [name, folder, free] using ih (grown.bothNewFolder _) h

/-- Where something can be written in a tree it can be written in one that it has grown from. -/
theorem Grown.write {before after after' : Tree} {path : Path} {content : List UInt8}
    (grown : Grown before after) (h : after.write path content = .ok after')
    (content' : List UInt8) :
    ∃ before', before.write path content' = .ok before' ∧ Grown before' after' := by
  obtain ⟨relative, made, there, name, split, folders, plain, free, rfl⟩ := write_ok h
  obtain ⟨made', folders', smaller⟩ := grown.makeFolders folders
  have free' : made'.hasFolder (there ++ [name]) = false := by
    rw [← Bool.not_eq_true] at free ⊢
    exact fun folder => free (smaller.hasFolder folder)
  refine ⟨_, write_of_makeFolders relative split folders' plain free' content', smaller.folders,
    fun key inside => ?_, fun key inside absent => ?_⟩
  · rw [Keyed.mem_keys_set] at inside ⊢
    exact inside.imp_right (smaller.files key)
  · rcases Keyed.mem_keys_set.mp inside with rfl | inside
    · simpa [Tree.hasFolder] using free
    · exact smaller.apart key inside absent

end Tree

end MessageCatalog.Files
