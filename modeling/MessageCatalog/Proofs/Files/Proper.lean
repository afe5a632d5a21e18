import Mathlib.Data.List.Infix
import MessageCatalog.Files.Glob
import MessageCatalog.Proofs.Files.Write
import MessageCatalog.Proofs.Text.Search

/-!
# MessageCatalog.Proofs.Files.Proper -- trees as a file system has them

The key of a place is read back into the names that lead there. In a proper tree every key is one of
names that say something, and whatever is there stands in folders that are there. Writing a file
makes the folders above it, so it keeps a tree proper.
-/

namespace MessageCatalog.Files

open MessageCatalog.Text

/-! ## Pieces of a path -/

namespace Path

theorem pieces_append (before rest : String) :
    pieces (before ++ "/" ++ rest) = pieces before ++ pieces rest := by
  have chars : (before ++ "/" ++ rest).toList = before.toList ++ '/' :: rest.toList := by
    rw [String.toList_append, String.toList_append, List.append_assoc]
    rfl
  rw [pieces, chars, splitOnChar_append rfl, List.map_append, ← pieces, ← pieces]

/-- No slash divides a name. -/
def Undivided (name : String) : Prop := '/' ∉ name.toList

theorem pieces_of_undivided {name : String} (h : Undivided name) : pieces name = [name] := by
  have free : ∀ c ∈ name.toList, (c == '/') = false := fun c there => by
    rw [beq_eq_false_iff_ne]
    rintro rfl
    exact h there
  rw [pieces, splitOnChar_of_free free, List.map_singleton, String.ofList_toList]

theorem undivided_of_mem_pieces {text piece : String} (there : piece ∈ pieces text) :
    Undivided piece := by
  obtain ⟨chars, inside, rfl⟩ := List.mem_map.mp there
  rw [Undivided, String.toList_ofList]
  intro slash
  exact absurd (not_separator_of_mem inside '/' slash) (by decide)

theorem undivided_of_mem_parts {text part : String} (there : part ∈ (ofText text).parts) :
    Undivided part :=
  undivided_of_mem_pieces (List.mem_filter.mp there).1

/-- A name of a file or a folder: it says something, and does not lead up. -/
structure IsName (name : String) : Prop where
  undivided : Undivided name
  telling : isTelling name = true
  plain : name ≠ ".."

theorem parts_append (before rest : String) :
    (ofText (before ++ "/" ++ rest)).parts = (ofText before).parts ++ (ofText rest).parts := by
  rw [ofText, ofText, ofText]
  dsimp only
  rw [pieces_append, List.filter_append]

/-- The parts of a path inside a folder are those of both. -/
theorem parts_behind (folder name : String) :
    (ofText (behind folder name)).parts = (ofText folder).parts ++ (ofText name).parts := by
  unfold behind
  split
  · next either =>
    rcases Bool.or_eq_true_iff.mp either with none | slash
    · rw [String.isEmpty_iff.mp none, String.empty_append]
      rfl
    · -- the folder ends in a slash, and says what it says without it
      obtain ⟨front, chars⟩ := List.getLast?_eq_some_iff.mp (eq_of_beq slash)
      have whole : folder = String.ofList front ++ "/" := by
        rw [← String.toList_inj, String.toList_append, String.toList_ofList, chars]
        rfl
      have alone := parts_append (String.ofList front) ""
      rw [String.append_empty] at alone
      rw [whole, parts_append, alone, List.append_assoc]
      rfl
  · exact parts_append folder name

end Path

/-! ## Keys of places -/

namespace Place

/-- The chars of a key between its slashes. -/
theorem key_cons (first second : String) (rest : Place) :
    Place.key (first :: second :: rest) = first ++ "/" ++ Place.key (second :: rest) := by
  rw [← String.toList_inj, Place.key, Place.key, String.toList_intercalate,
    String.toList_append, String.toList_append, String.toList_intercalate, List.map_cons,
    List.map_cons, List.intercalate_cons_cons]

theorem key_singleton (name : String) : Place.key [name] = name := by
  rw [← String.toList_inj, Place.key, String.toList_intercalate]
  simp [List.intercalate]

/-- The names of a place are read from its key. -/
theorem pieces_key {place : Place} (below : place ≠ [])
    (names : ∀ name ∈ place, Path.Undivided name) : Path.pieces place.key = place := by
  induction place with
  | nil => exact absurd rfl below
  | cons first rest ih =>
      obtain ⟨own, others⟩ := List.forall_mem_cons.mp names
      cases rest with
      | nil => rw [key_singleton, Path.pieces_of_undivided own]
      | cons second rest =>
          rw [key_cons, Path.pieces_append, Path.pieces_of_undivided own,
            ih (List.cons_ne_nil _ _) others]
          rfl

/-- A key is that of the names that are read from it. -/
theorem key_pieces (key : String) : Place.key (Path.pieces key) = key := by
  have chars : ∀ text : List Char, ['/'].intercalate (splitOnChar (· == '/') text) = text := by
    intro text
    induction text with
    | nil => rfl
    | cons c rest ih =>
        rw [splitOnChar]
        cases pieces : splitOnChar (· == '/') rest with
        | nil => exact absurd pieces (splitOnChar_ne_nil rest)
        | cons piece others =>
            rw [pieces] at ih
            split
            · next slash =>
              rw [List.intercalate_cons_cons, ih, eq_of_beq slash]
              rfl
            · cases others with
              | nil =>
                  simp only [List.intercalate_singleton] at ih ⊢
                  rw [ih]
              | cons next others =>
                  rw [List.intercalate_cons_cons] at ih ⊢
                  rw [← ih]
                  rfl
  rw [← String.toList_inj, Place.key, String.toList_intercalate, Path.pieces, List.map_map]
  have same : String.toList ∘ String.ofList = id := by
    funext chars
    exact String.toList_ofList
  rw [same, List.map_id]
  exact chars key.toList

end Place

/-! ## Proper trees -/

namespace Tree

/-- A tree as a file system has it: keys are made of names, and all folders above a file or a folder
are there. -/
structure Proper (tree : Tree) : Prop where
  names : ∀ key ∈ tree.files.keys ++ tree.folders, ∀ name ∈ Path.pieces key,
    Path.isTelling name = true ∧ name ≠ ".."
  above : ∀ key ∈ tree.files.keys ++ tree.folders, ∀ place ∈ (Path.pieces key).dropLast.inits,
    tree.hasFolder place = true

theorem proper_empty : Proper .empty := ⟨nofun, nofun⟩

/-- A place that is made of names and whose folders are all there. -/
structure Open (tree : Tree) (place : Place) : Prop where
  names : ∀ name ∈ place, Path.IsName name
  folders : ∀ front, front <+: place → tree.hasFolder front = true

theorem open_top (tree : Tree) : tree.Open [] :=
  ⟨nofun, fun front within => by rw [List.prefix_nil.mp within]; rfl⟩

theorem Open.up {tree : Tree} {place : Place} (h : tree.Open place) : tree.Open place.dropLast :=
  ⟨fun name there => h.names name (List.dropLast_subset _ there),
    fun front within => h.folders front (within.trans (List.dropLast_prefix _))⟩

theorem Open.grown {before after : Tree} {place : Place} (h : before.Open place)
    (grown : Grown before after) : after.Open place :=
  ⟨h.names, fun front within => grown.hasFolder (h.folders front within)⟩

theorem forall_mem_concat {place : Place} {name : String} (h : ∀ name ∈ place, Path.IsName name)
    (own : Path.IsName name) : ∀ other ∈ place ++ [name], Path.IsName other := by
  intro other inside
  rcases List.mem_append.mp inside with inside | inside
  · exact h other inside
  · rw [List.mem_singleton.mp inside]
    exact own

theorem Open.down {tree : Tree} {place : Place} {name : String} (h : tree.Open place)
    (own : Path.IsName name) (there : tree.hasFolder (place ++ [name]) = true) :
    tree.Open (place ++ [name]) := by
  refine ⟨forall_mem_concat h.names own, fun front within => ?_⟩
  rcases List.prefix_concat_iff.mp within with rfl | within
  · exact there
  · exact h.folders front within

/-- A tree stays proper when a file or a folder comes inside an open place. -/
theorem Proper.add {before after : Tree} {place : Place} {name : String} (h : before.Proper)
    (grown : Grown before after) (here : before.Open place) (own : Path.IsName name)
    (keys : ∀ key ∈ after.files.keys ++ after.folders,
      key = Place.key (place ++ [name]) ∨ key ∈ before.files.keys ++ before.folders) :
    after.Proper := by
  have names := forall_mem_concat here.names own
  have pieces : Path.pieces (Place.key (place ++ [name])) = place ++ [name] :=
    Place.pieces_key (by simp) fun other inside => (names other inside).undivided
  refine ⟨fun key there => ?_, fun key there front within => grown.hasFolder ?_⟩
  · rcases keys key there with rfl | there
    · rw [pieces]
      exact fun other inside => ⟨(names other inside).telling, (names other inside).plain⟩
    · exact h.names key there
  · rcases keys key there with rfl | there
    · rw [pieces, List.dropLast_concat, List.mem_inits] at within
      exact here.folders front within
    · exact h.above key there front within

theorem Proper.addFolder {tree : Tree} {place : Place} {name : String} (h : tree.Proper)
    (here : tree.Open place) (own : Path.IsName name)
    (noFile : tree.hasFile (place ++ [name]) = false) :
    Proper { tree with folders := tree.folders ++ [Place.key (place ++ [name])] } := by
  refine h.add (grown_addFolder noFile) here own fun key there => ?_
  rw [← List.append_assoc, List.mem_append, List.mem_singleton] at there
  exact there.symm

/-- Making folders keeps a tree proper and leads to a place that is open. -/
theorem Proper.makeFolders {tree made : Tree} {here there : Place} {parts : List String}
    (h : tree.Proper) (opened : tree.Open here)
    (names : ∀ part ∈ parts, Path.Undivided part ∧ Path.isTelling part = true)
    (ran : tree.makeFolders here parts = .ok (made, there)) : made.Proper ∧ made.Open there := by
  induction parts generalizing tree here with
  | nil =>
      cases ran
      exact ⟨h, opened⟩
  | cons part rest ih =>
      obtain ⟨⟨undivided, telling⟩, others⟩ := List.forall_mem_cons.mp names
      rcases makeFolders_cons ran with ⟨rfl, _, ran⟩ | ⟨plain, folder, ran⟩ | ⟨plain, noFile, ran⟩
      · exact ih h opened.up others ran
      · exact ih h (opened.down ⟨undivided, telling, plain⟩ folder) others ran
      · have own : Path.IsName part := ⟨undivided, telling, plain⟩
        refine ih (h.addFolder opened own noFile) ?_ others ran
        exact (opened.grown (grown_addFolder noFile)).down own (by simp [hasFolder])

/-- Writing a file keeps a tree proper. -/
theorem Proper.write {text : String} {tree after : Tree} {content : List UInt8} (h : tree.Proper)
    (wrote : tree.write (Path.ofText text) content = .ok after) : after.Proper := by
  obtain ⟨relative, made, here, name, split, folders, plain, free, rfl⟩ := write_ok wrote
  have parts : ∀ part ∈ (Path.ofText text).parts,
      Path.Undivided part ∧ Path.isTelling part = true := fun part there =>
    ⟨Path.undivided_of_mem_parts there, (List.mem_filter.mp there).2⟩
  have own : Path.IsName name := by
    obtain ⟨undivided, telling⟩ := parts name (by rw [split]; simp)
    exact ⟨undivided, telling, plain⟩
  obtain ⟨proper, opened⟩ := h.makeFolders tree.open_top
    (fun part there => parts part (List.dropLast_subset _ there)) folders
  refine proper.add ⟨fun key there => there, fun key there => Keyed.mem_keys_set.mpr (Or.inr there),
    fun key _ absent => absent⟩ opened own fun key there => ?_
  rw [List.mem_append, Keyed.mem_keys_set] at there
  rw [List.mem_append]
  tauto

end Tree

end MessageCatalog.Files
