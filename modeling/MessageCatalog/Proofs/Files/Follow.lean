import MessageCatalog.Files.Tree

/-!
# MessageCatalog.Proofs.Files.Follow -- where a path leads

Every step of following a path, and of making folders along it, takes one of a few forms. By the
names alone a path leads to one place, whatever there is; following and making folders agree with
it. The normal form of a path that leads to a file is the key of that file, so two paths with
different normal forms never lead to the same one.
-/

namespace MessageCatalog.Files

open MessageCatalog.Text

/-! ## One step -/

namespace Tree

/-- What following the first piece of a path does. -/
theorem follow_cons {tree : Tree} {here : Place} {piece : String} {rest : List String} {spot : Spot}
    (h : tree.follow here (piece :: rest) = .ok spot) :
    (Path.isTelling piece = false ∧ tree.follow here rest = .ok spot) ∨
    (Path.isTelling piece = true ∧ piece = ".." ∧ here ≠ [] ∧
      tree.follow here.dropLast rest = .ok spot) ∨
    (Path.isTelling piece = true ∧ piece ≠ ".." ∧ tree.hasFolder (here ++ [piece]) = true ∧
      tree.follow (here ++ [piece]) rest = .ok spot) ∨
    (Path.isTelling piece = true ∧ piece ≠ ".." ∧ tree.hasFolder (here ++ [piece]) = false ∧
      tree.hasFile (here ++ [piece]) = true ∧ rest = [] ∧ spot = .file (here ++ [piece])) := by
  rw [follow] at h
  split at h
  · next silent => exact Or.inl ⟨by simpa using silent, h⟩
  next telling =>
  have telling : Path.isTelling piece = true := by simpa using telling
  split at h
  · next up =>
    split at h
    · cases h
    · next below => exact Or.inr (Or.inl ⟨telling, eq_of_beq up, by simpa using below, h⟩)
  next name =>
  have name : piece ≠ ".." := by simpa using name
  dsimp only at h
  split at h
  · next folder => exact Or.inr (Or.inr (Or.inl ⟨telling, name, folder, h⟩))
  next noFolder =>
  split at h
  · cases h
  next file =>
  split at h
  · next last =>
    cases h
    exact Or.inr (Or.inr (Or.inr ⟨telling, name, by simpa using noFolder, by simpa using file,
      List.isEmpty_iff.mp last, rfl⟩))
  · cases h

/-- What making the first folder of a path does. -/
theorem makeFolders_cons {tree made : Tree} {here there : Place} {part : String}
    {rest : List String} (h : tree.makeFolders here (part :: rest) = .ok (made, there)) :
    (part = ".." ∧ here ≠ [] ∧ tree.makeFolders here.dropLast rest = .ok (made, there)) ∨
    (part ≠ ".." ∧ tree.hasFolder (here ++ [part]) = true ∧
      tree.makeFolders (here ++ [part]) rest = .ok (made, there)) ∨
    (part ≠ ".." ∧ tree.hasFile (here ++ [part]) = false ∧
      makeFolders { tree with folders := tree.folders ++ [Place.key (here ++ [part])] }
        (here ++ [part]) rest = .ok (made, there)) := by
  rw [makeFolders] at h
  split at h
  · next up =>
    split at h
    · cases h
    · next below => exact Or.inl ⟨eq_of_beq up, by simpa using below, h⟩
  next name =>
  have name : part ≠ ".." := by simpa using name
  dsimp only at h
  split at h
  · next folder => exact Or.inr (Or.inl ⟨name, folder, h⟩)
  split at h
  · cases h
  · next noFile => exact Or.inr (Or.inr ⟨name, by simpa using noFile, h⟩)

end Tree

/-! ## Outside of the tree

A path that starts from a root is neither read nor written, wherever the tree itself may stand. What
is proved of trees is said of projects that name their files from the folder they run in. -/

namespace Tree

variable {tree : Tree} {path : Path} (absolute : path.isAbsolute = true)

include absolute

theorem bytes_absolute : tree.bytes path = .error .absent := by
  rw [bytes, absolute]
  rfl

theorem write_absolute (content : List UInt8) : tree.write path content = .error .absent := by
  rw [write, absolute]
  rfl

end Tree

/-! ## By the names alone -/

namespace Place

/-- Where some telling parts lead from a place when every name is taken to be there. -/
def through? : Place → List String → Option Place
  | here, [] => some here
  | here, part :: rest =>
    if part == ".." then if here.isEmpty then none else through? here.dropLast rest
    else through? (here ++ [part]) rest

theorem through?_up {here : Place} (below : here ≠ []) (rest : List String) :
    here.through? (".." :: rest) = through? here.dropLast rest := by
  simp [through?, below]

theorem through?_name {here : Place} {part : String} (name : part ≠ "..") (rest : List String) :
    here.through? (part :: rest) = through? (here ++ [part]) rest := by
  simp [through?, name]

/-- One step of the way that some parts lead. -/
theorem through?_cons {here there : Place} {part : String} {rest : List String}
    (h : here.through? (part :: rest) = some there) :
    (part = ".." ∧ here ≠ [] ∧ through? here.dropLast rest = some there) ∨
    (part ≠ ".." ∧ through? (here ++ [part]) rest = some there) := by
  rw [through?] at h
  split at h
  · next up =>
    split at h
    · cases h
    · next below => exact Or.inl ⟨eq_of_beq up, by simpa using below, h⟩
  · next name => exact Or.inr ⟨by simpa using name, h⟩

theorem through?_append {here there : Place} {parts : List String}
    (h : here.through? parts = some there) (rest : List String) :
    here.through? (parts ++ rest) = there.through? rest := by
  induction parts generalizing here with
  | nil =>
      cases h
      rfl
  | cons part more ih =>
      rw [List.cons_append]
      rcases through?_cons h with ⟨rfl, below, h⟩ | ⟨name, h⟩
      · rw [through?_up below, ih h]
      · rw [through?_name name, ih h]

end Place

/-- The place of a spot. -/
def Spot.place : Spot → Place
  | .file place => place
  | .folder place => place

theorem through?_of_follow {tree : Tree} {here : Place} {pieces : List String} {spot : Spot}
    (h : tree.follow here pieces = .ok spot) :
    here.through? (pieces.filter Path.isTelling) = some spot.place := by
  induction pieces generalizing here with
  | nil =>
      cases h
      rfl
  | cons piece rest ih =>
      rcases Tree.follow_cons h with
        ⟨silent, h⟩ | ⟨telling, rfl, below, h⟩ | ⟨telling, name, _, h⟩ | ⟨telling, name, _, _, rfl, rfl⟩
      · rw [List.filter_cons_of_neg (by simp [silent]), ih h]
      · rw [List.filter_cons_of_pos telling, Place.through?_up below, ih h]
      · rw [List.filter_cons_of_pos telling, Place.through?_name name, ih h]
      · rw [List.filter_cons_of_pos telling, Place.through?_name name]
        rfl

theorem through?_of_makeFolders {tree made : Tree} {here there : Place} {parts : List String}
    (h : tree.makeFolders here parts = .ok (made, there)) : here.through? parts = some there := by
  induction parts generalizing tree here with
  | nil =>
      cases h
      rfl
  | cons part rest ih =>
      rcases Tree.makeFolders_cons h with ⟨rfl, below, h⟩ | ⟨name, _, h⟩ | ⟨name, _, h⟩
      · rw [Place.through?_up below, ih h]
      · rw [Place.through?_name name, ih h]
      · rw [Place.through?_name name, ih h]

/-! ## The normal form -/

/-- Double dots are resolved as following resolves them, as long as they stay below the top. -/
theorem foldl_push {here there : Place} {parts : List String} (h : here.through? parts = some there)
    (names : ".." ∉ here) : parts.foldl (Path.push false) here.reverse = there.reverse := by
  induction parts generalizing here with
  | nil =>
      cases h
      rfl
  | cons part rest ih =>
      rw [List.foldl_cons]
      rcases Place.through?_cons h with ⟨rfl, below, h⟩ | ⟨name, h⟩
      · -- the last name is no double dots, so it is taken off
        obtain ⟨front, last, rfl⟩ : ∃ front last, here = front ++ [last] :=
          ⟨here.dropLast, here.getLast below, (List.dropLast_concat_getLast below).symm⟩
        have plain : (last == "..") = false := by
          rw [beq_eq_false_iff_ne]
          exact fun e => names (by simp [e])
        rw [List.dropLast_concat] at h
        have popped : Path.push false (front ++ [last]).reverse ".." = front.reverse := by
          rw [List.reverse_append]
          simp [Path.push, plain]
        rw [popped]
        exact ih h fun there => names (List.mem_append_left _ there)
      · have pushed : Path.push false here.reverse part = (here ++ [part]).reverse := by
          rw [List.reverse_append]
          simp [Path.push, name]
        rw [pushed]
        refine ih h ?_
        simp only [List.mem_append, List.mem_singleton, not_or]
        exact ⟨names, fun e => name e.symm⟩

/-- The normal form of a path is the key of the place that its names lead to. -/
theorem normal_eq_key {text : String} {place : Place}
    (relative : (Path.ofText text).isAbsolute = false)
    (h : Place.through? [] (Path.ofText text).parts = some place) (below : place ≠ []) :
    Path.normal text = place.key := by
  have resolved : (Path.ofText text).parts.foldl (Path.push false) [] = place.reverse :=
    foldl_push h List.not_mem_nil
  have noRoot : (Path.ofText text).root = "" := by
    rw [Path.isAbsolute, Bool.not_eq_false', String.isEmpty_iff] at relative
    exact relative
  rw [Path.normal]
  simp only [relative, resolved, List.reverse_reverse, noRoot]
  rw [Path.write, if_neg]
  · rw [String.empty_append]
    rfl
  · simp [below]

/-! ## Paths that lead to a file -/

namespace Tree

/-- A path leads to a file by its telling parts as well as by all of its pieces. -/
theorem follow_filter {tree : Tree} {here place : Place} {pieces : List String}
    (h : tree.follow here pieces = .ok (.file place)) :
    tree.follow here (pieces.filter Path.isTelling) = .ok (.file place) := by
  induction pieces generalizing here with
  | nil => cases h
  | cons piece rest ih =>
      rcases follow_cons h with
        ⟨silent, h⟩ | ⟨telling, rfl, below, h⟩ | ⟨telling, name, folder, h⟩ |
          ⟨telling, _, _, _, rfl, _⟩
      · rw [List.filter_cons_of_neg (by simp [silent]), ih h]
      · rw [List.filter_cons_of_pos telling, follow]
        simpa [telling, below] using ih h
      · rw [List.filter_cons_of_pos telling, follow]
        simpa [telling, name, folder] using ih h
      · rw [List.filter_cons_of_pos telling]
        exact h

/-- A file that a path leads to is below the top, and no folder stands in its place. -/
theorem place_of_follow {tree : Tree} {here place : Place} {pieces : List String}
    (h : tree.follow here pieces = .ok (.file place)) :
    place ≠ [] ∧ tree.hasFolder place = false ∧ place.key ∈ tree.files.keys := by
  induction pieces generalizing here with
  | nil => cases h
  | cons piece rest ih =>
      rcases follow_cons h with ⟨_, h⟩ | ⟨_, _, _, h⟩ | ⟨_, _, _, h⟩ | ⟨_, _, free, file, _, same⟩
      · exact ih h
      · exact ih h
      · exact ih h
      · cases same
        exact ⟨by simp, free, by simpa [hasFile, Keyed.contains] using file⟩

/-- A written path that leads to a file leads to the one whose key is its normal form. -/
theorem isFile_iff {tree : Tree} {text : String} :
    tree.isFile text = true ↔
      ∃ place, tree.locate text = .ok (.file place) ∧ place.key = Path.normal text ∧
        Path.normal text ∈ tree.files.keys := by
  constructor
  · intro h
    rw [isFile] at h
    split at h
    · next place found =>
      have led := found
      rw [locate] at led
      split at led
      · cases led
      next relative =>
      simp only [Bool.or_eq_true, not_or, Bool.not_eq_true] at relative
      obtain ⟨below, -, there⟩ := place_of_follow led
      have same := normal_eq_key relative.2 (through?_of_follow led) below
      exact ⟨place, found, same.symm, same ▸ there⟩
    · cases h
  · rintro ⟨place, found, -⟩
    rw [isFile, found]

end Tree

end MessageCatalog.Files
