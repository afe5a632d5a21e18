import MessageCatalog.Proofs.Files.Proper

/-!
# MessageCatalog.Proofs.Files.Search -- what patterns find when a tree grows

What a pattern finds in a tree it finds in every tree that has grown from it. The other way round, a
path that is found in the larger tree was found before when everything that it passes stood there
before, the folders as folders and the file at its end as a file. In proper trees that takes little:
the file was there, and so was every folder that the path leaves again by double dots.
-/

namespace MessageCatalog.Files

open MessageCatalog.Text

namespace Tree

/-! ## Names in a folder -/

/-- A name is found in a folder when the key of its place is there and is read as that place. -/
theorem mem_namesIn {tree : Tree} {place : Place} {foldersOnly : Bool} {name : String} :
    name ∈ tree.namesIn place foldersOnly ↔
      Path.pieces (Place.key (place ++ [name])) = place ++ [name] ∧
      (Place.key (place ++ [name]) ∈ tree.folders ∨
        (foldersOnly = false ∧ Place.key (place ++ [name]) ∈ tree.files.keys)) := by
  have one : ∀ key : String, ((if (Path.pieces key).dropLast == place
      then (Path.pieces key).getLast? else none) = some name ↔
        Path.pieces key = place ++ [name]) := by
    intro key
    rw [Option.ite_none_right_eq_some, beq_iff_eq]
    constructor
    · rintro ⟨rfl, last⟩
      exact (List.dropLast_append_getLast? name last).symm
    · intro same
      rw [same, List.dropLast_concat, List.getLast?_concat]
      exact ⟨rfl, rfl⟩
  have keyed : ∀ keys : List String, ((∃ key ∈ keys, Path.pieces key = place ++ [name]) ↔
      Path.pieces (Place.key (place ++ [name])) = place ++ [name] ∧
        Place.key (place ++ [name]) ∈ keys) := by
    intro keys
    constructor
    · rintro ⟨key, there, same⟩
      have key' := Place.key_pieces key
      rw [same] at key'
      rw [key']
      exact ⟨same, there⟩
    · rintro ⟨same, there⟩
      exact ⟨_, there, same⟩
  rw [namesIn, List.mem_filterMap]
  simp only [one]
  rw [keyed]
  cases foldersOnly with
  | true => simp
  | false => simp [or_comm]

/-- The names in the folders of a proper tree are names. -/
theorem Proper.isName {tree : Tree} (h : tree.Proper) {place : Place} {foldersOnly : Bool}
    {name : String} (found : name ∈ tree.namesIn place foldersOnly) : Path.IsName name := by
  obtain ⟨pieces, there⟩ := mem_namesIn.mp found
  have inside : name ∈ Path.pieces (Place.key (place ++ [name])) := by
    rw [pieces]
    simp
  have known : Place.key (place ++ [name]) ∈ tree.files.keys ++ tree.folders := by
    rw [List.mem_append]
    exact there.symm.imp_left And.right
  obtain ⟨telling, plain⟩ := h.names _ known name inside
  exact ⟨Path.undivided_of_mem_pieces inside, telling, plain⟩

theorem foldl_max_le_iff {numbers : List Nat} {start bound : Nat} :
    numbers.foldl max start ≤ bound ↔ start ≤ bound ∧ ∀ number ∈ numbers, number ≤ bound := by
  induction numbers generalizing start with
  | nil => simp
  | cons number rest ih => rw [List.foldl_cons, ih, max_le_iff, List.forall_mem_cons, and_assoc]

theorem depth_le_iff {tree : Tree} {bound : Nat} : tree.depth ≤ bound + 1 ↔
    ∀ key ∈ tree.files.keys ++ tree.folders, (Path.pieces key).length < bound + 1 := by
  rw [depth, Nat.add_le_add_iff_right, foldl_max_le_iff, List.forall_mem_map]
  simp only [Nat.zero_le, true_and, Nat.lt_succ_iff]

/-- No key has as many pieces as the depth says. -/
theorem length_lt_depth {tree : Tree} {key : String}
    (there : key ∈ tree.files.keys ++ tree.folders) : (Path.pieces key).length < tree.depth :=
  depth_le_iff.mp le_rfl key there

/-! ## One part of a pattern -/

theorem folderAt_eq_some {tree : Tree} {text : String} {place : Place} :
    tree.folderAt text = some place ↔
      (text = "" ∧ place = []) ∨ tree.locate text = .ok (.folder place) := by
  rw [folderAt]
  split
  · next none =>
    rw [String.isEmpty_iff] at none
    have nowhere : tree.locate "" = .error .absent := rfl
    simp [none, nowhere, eq_comm]
  · next some =>
    have some : text ≠ "" := fun none => some (by rw [none]; rfl)
    rw [folder?]
    rcases tree.locate text with fault | place' | place' <;> simp [some]

theorem mem_below {tree : Tree} {foldersOnly : Bool} {levels : Nat} {place : Place}
    {name : String} : name ∈ tree.below foldersOnly (levels + 1) place ↔
      ∃ first ∈ tree.namesIn place foldersOnly, isHidden first = false ∧
        (name = first ∨ tree.hasFolder (place ++ [first]) = true ∧
          ∃ rest ∈ tree.below foldersOnly levels (place ++ [first]), name = behind first rest) := by
  rw [below, List.mem_flatMap]
  refine exists_congr fun first => ?_
  rw [List.mem_filter, and_assoc]
  refine and_congr_right fun _ => and_congr (by simp) ?_
  rw [List.mem_cons]
  refine or_congr_right ?_
  split
  · next folder => simp [folder, eq_comm]
  · next noFolder => simp [noFolder]

theorem mem_namesFor {tree : Tree} {folder part name : String} {foldersOnly : Bool} :
    name ∈ tree.namesFor folder part foldersOnly ↔
      (part = "**" ∧ ∃ place, tree.folderAt folder = some place ∧
        (name = "" ∨ name ∈ tree.below foldersOnly tree.depth place)) ∨
      (part ≠ "**" ∧ isWild part = true ∧ ∃ place, tree.folderAt folder = some place ∧
        name ∈ tree.namesIn place foldersOnly ∧ matchesName part name = true) ∨
      (part ≠ "**" ∧ isWild part = false ∧ name = part ∧
        ∃ spot, tree.locate (behind folder part) = .ok spot) := by
  rw [namesFor]
  split
  · next whole =>
    rw [beq_iff_eq] at whole
    cases tree.folderAt folder <;> simp [whole]
  next single =>
  have single : part ≠ "**" := by simpa using single
  split
  · next wild => cases tree.folderAt folder <;> simp [single, wild]
  · next plain =>
    have plain : isWild part = false := by simpa using plain
    cases tree.locate (behind folder part) <;> simp [single, plain, Except.toOption]

/-! ## All parts of a pattern -/

/-- What is found from several folders is found from one of them. -/
theorem mem_expandParts {tree : Tree} {folders parts : List String} {path : String} :
    path ∈ tree.expandParts folders parts ↔
      ∃ folder ∈ folders, path ∈ tree.expandParts [folder] parts := by
  induction parts generalizing folders with
  | nil => simp [expandParts]
  | cons part rest ih =>
      rw [expandParts, ih]
      simp only [expandParts, List.flatMap_singleton, List.mem_flatMap]
      constructor
      · rintro ⟨there, ⟨folder, inside, found⟩, expands⟩
        exact ⟨folder, inside, ih.mpr ⟨there, found, expands⟩⟩
      · rintro ⟨folder, inside, expands⟩
        obtain ⟨there, found, expands⟩ := ih.mp expands
        exact ⟨there, ⟨folder, inside, found⟩, expands⟩

theorem mem_expandParts_cons {tree : Tree} {folder part path : String} {rest : List String} :
    path ∈ tree.expandParts [folder] (part :: rest) ↔
      ∃ name ∈ tree.namesFor folder part (!rest.isEmpty),
        path ∈ tree.expandParts [behind folder name] rest := by
  rw [expandParts, mem_expandParts, List.flatMap_singleton]
  simp only [List.mem_map]
  constructor
  · rintro ⟨_, ⟨name, found, rfl⟩, expands⟩
    exact ⟨name, found, expands⟩
  · rintro ⟨name, found, expands⟩
    exact ⟨_, ⟨name, found, rfl⟩, expands⟩

/-- A path that is found starts with the folder that it was found from. -/
theorem parts_prefix_of_mem_expandParts {tree : Tree} {folder path : String} {parts : List String}
    (h : path ∈ tree.expandParts [folder] parts) :
    (Path.ofText folder).parts <+: (Path.ofText path).parts := by
  induction parts generalizing folder with
  | nil =>
      rw [List.mem_singleton.mp h]
  | cons part rest ih =>
      obtain ⟨name, -, expands⟩ := mem_expandParts_cons.mp h
      refine List.IsPrefix.trans ?_ (ih expands)
      rw [Path.parts_behind]
      exact List.prefix_append _ _

/-- The paths that a pattern finds. One that holds no wild character is the path that it finds. -/
def Finds (tree : Tree) (pattern path : String) : Prop :=
  tree.isFile path = true ∧
    if isWild pattern = true then
      path ∈ tree.expandParts [(splitPattern pattern).1] (splitPattern pattern).2
    else path = pattern

theorem mem_glob {tree : Tree} {pattern path : String} (wild : isWild pattern = true) :
    path ∈ tree.glob pattern ↔ tree.Finds pattern path := by
  rw [glob, Finds, if_pos wild, List.mem_filter, Keyed.mem_ascending, and_comm]

/-! ## In a larger tree -/

section

variable {before after : Tree} (grown : Grown before after)

include grown

theorem Grown.folderAt {text : String} {place : Place} (h : before.folderAt text = some place) :
    after.folderAt text = some place := by
  rw [folderAt_eq_some] at h ⊢
  exact h.imp_right grown.locate

theorem Grown.namesIn {place : Place} {foldersOnly : Bool} {name : String}
    (h : name ∈ before.namesIn place foldersOnly) : name ∈ after.namesIn place foldersOnly := by
  rw [mem_namesIn] at h ⊢
  exact h.imp_right (Or.imp (grown.folders _) (And.imp_right (grown.files _)))

theorem Grown.below {foldersOnly : Bool} {levels levels' : Nat} {place : Place} {name : String}
    (more : levels ≤ levels') (h : name ∈ before.below foldersOnly levels place) :
    name ∈ after.below foldersOnly levels' place := by
  induction levels generalizing levels' place name with
  | zero => cases h
  | succ levels ih =>
      obtain ⟨levels', rfl⟩ := Nat.exists_eq_add_of_lt more
      obtain ⟨first, found, seen, either⟩ := mem_below.mp h
      refine mem_below.mpr ⟨first, grown.namesIn found, seen, either.imp_right ?_⟩
      rintro ⟨folder, rest, inside, rfl⟩
      exact ⟨grown.hasFolder folder, rest, ih (Nat.le_add_right _ _) inside, rfl⟩

theorem Grown.depth : before.depth ≤ after.depth :=
  depth_le_iff.mpr fun key there => length_lt_depth (by
    rw [List.mem_append] at there ⊢
    exact there.imp (grown.files key) (grown.folders key))

theorem Grown.namesFor {folder part name : String} {foldersOnly : Bool}
    (h : name ∈ before.namesFor folder part foldersOnly) :
    name ∈ after.namesFor folder part foldersOnly := by
  rw [mem_namesFor] at h ⊢
  rcases h with ⟨whole, place, led, either⟩ | ⟨single, wild, place, led, found, matching⟩ |
    ⟨single, plain, same, spot, led⟩
  · exact Or.inl ⟨whole, place, grown.folderAt led, either.imp_right (grown.below grown.depth)⟩
  · exact Or.inr (Or.inl ⟨single, wild, place, grown.folderAt led, grown.namesIn found, matching⟩)
  · exact Or.inr (Or.inr ⟨single, plain, same, spot, grown.locate led⟩)

theorem Grown.expandParts {folder path : String} {parts : List String}
    (h : path ∈ before.expandParts [folder] parts) : path ∈ after.expandParts [folder] parts := by
  induction parts generalizing folder with
  | nil => exact h
  | cons part rest ih =>
      obtain ⟨name, found, expands⟩ := mem_expandParts_cons.mp h
      exact mem_expandParts_cons.mpr ⟨name, grown.namesFor found, ih expands⟩

/-- What a pattern finds it finds in a larger tree. -/
theorem Grown.finds {pattern path : String} (h : before.Finds pattern path) :
    after.Finds pattern path := by
  refine ⟨grown.isFile h.1, ?_⟩
  have found := h.2
  split at found
  · next wild =>
    rw [if_pos wild]
    exact grown.expandParts found
  · next plain =>
    rw [if_neg plain]
    exact found

end

/-! ## Back in the smaller tree -/

/-- What is at a place in the later tree was there in the earlier one: a folder, or else a file. -/
structure Stood (before after : Tree) (place : Place) : Prop where
  folder : after.hasFolder place = true → before.hasFolder place = true
  file : after.hasFolder place = false → after.hasFile place = true → before.hasFile place = true

/-- Everything that a way passes was there. -/
def Trodden (before after : Tree) (here : Place) (parts : List String) : Prop :=
  ∀ front, front <+: parts → ∀ place, here.through? front = some place → Stood before after place

variable {before after : Tree}

theorem Trodden.front {here : Place} {front parts : List String}
    (h : Trodden before after here parts) (start : front <+: parts) :
    Trodden before after here front :=
  fun first within => h first (within.trans start)

theorem Trodden.rest {here there : Place} {front rest : List String}
    (h : Trodden before after here (front ++ rest)) (led : here.through? front = some there) :
    Trodden before after there rest := by
  intro first within place leads
  refine h (front ++ first) ((List.prefix_append_right_inj front).mpr within) place ?_
  rw [Place.through?_append led, leads]

theorem Trodden.next {here there : Place} {part : String} {rest : List String}
    (h : Trodden before after here (part :: rest)) (led : here.through? [part] = some there) :
    Stood before after there ∧ Trodden before after there rest := by
  have split : Trodden before after here ([part] ++ rest) := h
  exact ⟨h [part] (List.prefix_append [part] rest) there led, split.rest led⟩

/-- A way along names that was trodden leads where it leads now. -/
theorem Grown.follow_back (grown : Grown before after) {here : Place} {spot : Spot}
    {pieces : List String} (h : after.follow here pieces = .ok spot)
    (trodden : Trodden before after here (pieces.filter Path.isTelling)) :
    before.follow here pieces = .ok spot := by
  induction pieces generalizing here with
  | nil => exact h
  | cons piece rest ih =>
      rw [Tree.follow]
      rcases follow_cons h with
        ⟨silent, h⟩ | ⟨telling, rfl, below, h⟩ | ⟨telling, name, folder, h⟩ |
          ⟨telling, name, noFolder, file, rfl, same⟩
      · rw [List.filter_cons_of_neg (by simp [silent])] at trodden
        simpa [silent] using ih h trodden
      · rw [List.filter_cons_of_pos telling] at trodden
        obtain ⟨-, up⟩ := trodden.next (Place.through?_up below [])
        simpa [telling, below] using ih h up
      · rw [List.filter_cons_of_pos telling] at trodden
        obtain ⟨stood, down⟩ := trodden.next (Place.through?_name name [])
        simpa [telling, name, stood.folder folder] using ih h down
      · rw [List.filter_cons_of_pos telling] at trodden
        obtain ⟨stood, -⟩ := trodden.next (Place.through?_name name [])
        have never : before.hasFolder (here ++ [piece]) = false := by
          rw [← Bool.not_eq_true] at noFolder ⊢
          exact fun folder => noFolder (grown.hasFolder folder)
        subst same
        simp [telling, name, stood.file noFolder file, never]

theorem Grown.locate_back (grown : Grown before after) {text : String} {spot : Spot}
    (h : after.locate text = .ok spot)
    (trodden : Trodden before after [] (Path.ofText text).parts) :
    before.locate text = .ok spot := by
  rw [Tree.locate] at h ⊢
  split at h
  · cases h
  · next relative =>
    rw [if_neg relative]
    exact grown.follow_back h trodden

theorem through?_of_locate {tree : Tree} {text : String} {spot : Spot}
    (h : tree.locate text = .ok spot) :
    Place.through? [] (Path.ofText text).parts = some spot.place := by
  rw [locate] at h
  split at h
  · cases h
  · exact through?_of_follow h

theorem through?_of_folderAt {tree : Tree} {text : String} {place : Place}
    (h : tree.folderAt text = some place) :
    Place.through? [] (Path.ofText text).parts = some place := by
  rcases folderAt_eq_some.mp h with ⟨rfl, rfl⟩ | found
  · rfl
  · exact through?_of_locate found

theorem Grown.folderAt_back (grown : Grown before after) {text : String} {place : Place}
    (h : after.folderAt text = some place)
    (trodden : Trodden before after [] (Path.ofText text).parts) :
    before.folderAt text = some place := by
  rw [folderAt_eq_some] at h ⊢
  exact h.imp_right fun found => grown.locate_back found trodden

theorem Stood.namesIn {place : Place} {foldersOnly : Bool} {name : String}
    (stood : Stood before after (place ++ [name])) (h : name ∈ after.namesIn place foldersOnly) :
    name ∈ before.namesIn place foldersOnly := by
  rw [mem_namesIn] at h ⊢
  refine ⟨h.1, ?_⟩
  have key : ∀ tree : Tree, tree.hasFolder (place ++ [name]) = true ↔
      Place.key (place ++ [name]) ∈ tree.folders := fun tree => by simp [Tree.hasFolder]
  by_cases folder : after.hasFolder (place ++ [name]) = true
  · exact Or.inl ((key before).mp (stood.folder folder))
  · obtain ⟨all, there⟩ := h.2.resolve_left fun there => folder ((key after).mpr there)
    refine Or.inr ⟨all, ?_⟩
    have was := stood.file (by simpa using folder) (by simpa [hasFile] using there)
    simpa [hasFile] using was

/-! ## Names that lead down -/

theorem parts_of_isName {name : String} (h : Path.IsName name) :
    (Path.ofText name).parts = [name] := by
  rw [Path.ofText]
  dsimp only
  rw [Path.pieces_of_undivided h.undivided, List.filter_cons_of_pos h.telling]
  rfl

theorem Proper.below_back (proper : after.Proper) {foldersOnly : Bool}
    {levels levels' : Nat} {place : Place} {name : String}
    (deep : ∀ key ∈ before.files.keys ++ before.folders,
      (Path.pieces key).length < place.length + levels')
    (h : name ∈ after.below foldersOnly levels place)
    (trodden : Trodden before after place (Path.ofText name).parts) :
    name ∈ before.below foldersOnly levels' place := by
  induction levels generalizing levels' place name with
  | zero => cases h
  | succ levels ih =>
      obtain ⟨first, found, seen, either⟩ := mem_below.mp h
      have own := proper.isName found
      have split : ∃ more, (Path.ofText name).parts = first :: more := by
        rcases either with rfl | ⟨-, rest, -, rfl⟩
        · exact ⟨[], parts_of_isName own⟩
        · rw [Path.parts_behind, parts_of_isName own]
          exact ⟨_, rfl⟩
      obtain ⟨more, parts⟩ := split
      rw [parts] at trodden
      obtain ⟨stood, down⟩ := trodden.next (Place.through?_name own.plain [])
      have was := stood.namesIn found
      -- the name is in the smaller tree, so there is a level left for it
      obtain ⟨levels', rfl⟩ : ∃ fewer, levels' = fewer + 1 := by
        obtain ⟨pieces, there⟩ := mem_namesIn.mp was
        have short := deep _ (List.mem_append.mpr (there.symm.imp_left And.right))
        rw [pieces, List.length_append, List.length_singleton] at short
        exact ⟨levels' - 1, by omega⟩
      refine mem_below.mpr ⟨first, was, seen, either.imp_right ?_⟩
      rintro ⟨folder, rest, deeper, rfl⟩
      rw [Path.parts_behind, parts_of_isName own] at parts
      obtain rfl : (Path.ofText rest).parts = more := List.cons.inj parts |>.2
      refine ⟨stood.folder folder, rest, ih (fun key there => ?_) deeper down, rfl⟩
      have short := deep key there
      rw [List.length_append, List.length_singleton]
      omega

/-! ## Patterns in the smaller tree -/

theorem Grown.namesFor_back (grown : Grown before after) (proper : after.Proper)
    {folder part name : String} {foldersOnly : Bool}
    (h : name ∈ after.namesFor folder part foldersOnly)
    (trodden : Trodden before after [] (Path.ofText (behind folder name)).parts) :
    name ∈ before.namesFor folder part foldersOnly := by
  rw [mem_namesFor] at h ⊢
  have parts := Path.parts_behind folder name
  rw [parts] at trodden
  have start := trodden.front (List.prefix_append _ _)
  rcases h with ⟨whole, place, led, either⟩ | ⟨single, wild, place, led, found, matching⟩ |
    ⟨single, plain, rfl, spot, led⟩
  · have onward := trodden.rest (through?_of_folderAt led)
    refine Or.inl ⟨whole, place, grown.folderAt_back led start, either.imp_right fun deeper => ?_⟩
    refine proper.below_back (fun key there => ?_) deeper onward
    exact (length_lt_depth there).trans_le (Nat.le_add_left _ _)
  · have onward := trodden.rest (through?_of_folderAt led)
    have own := proper.isName found
    rw [parts_of_isName own] at onward
    obtain ⟨stood, -⟩ := onward.next (Place.through?_name own.plain [])
    exact Or.inr (Or.inl
      ⟨single, wild, place, grown.folderAt_back led start, stood.namesIn found, matching⟩)
  · rw [← parts] at trodden
    exact Or.inr (Or.inr ⟨single, plain, rfl, spot, grown.locate_back led trodden⟩)

theorem Grown.expandParts_back (grown : Grown before after) (proper : after.Proper)
    {folder path : String} {parts : List String} (h : path ∈ after.expandParts [folder] parts)
    (trodden : Trodden before after [] (Path.ofText path).parts) :
    path ∈ before.expandParts [folder] parts := by
  induction parts generalizing folder with
  | nil => exact h
  | cons part rest ih =>
      obtain ⟨name, found, expands⟩ := mem_expandParts_cons.mp h
      have start := trodden.front (parts_prefix_of_mem_expandParts expands)
      exact mem_expandParts_cons.mpr
        ⟨name, grown.namesFor_back proper found start, ih expands⟩

/-- What a pattern finds now it found before, when everything on the way was there. -/
theorem Grown.finds_back (grown : Grown before after) (proper : after.Proper)
    {pattern path : String} (h : after.Finds pattern path)
    (trodden : Trodden before after [] (Path.ofText path).parts) : before.Finds pattern path := by
  refine ⟨?_, ?_⟩
  · obtain ⟨place, led, -⟩ := isFile_iff.mp h.1
    simp [Tree.isFile, grown.locate_back led trodden]
  · have found := h.2
    split at found
    · next wild =>
      rw [if_pos wild]
      exact grown.expandParts_back proper found trodden
    · next plain =>
      rw [if_neg plain]
      exact found

end Tree

/-! ## Ways in proper trees -/

namespace Place

theorem mem_of_through? {here there : Place} {parts : List String}
    (h : here.through? parts = some there) {name : String} (inside : name ∈ there) :
    name ∈ here ∨ name ∈ parts := by
  induction parts generalizing here with
  | nil =>
      cases h
      exact Or.inl inside
  | cons part rest ih =>
      rcases through?_cons h with ⟨-, -, h⟩ | ⟨-, h⟩
      · exact (ih h).imp (fun there => List.dropLast_subset _ there) (List.mem_cons_of_mem _)
      · rcases ih h with there | there
        · rcases List.mem_append.mp there with there | there
          · exact Or.inl there
          · rw [List.mem_singleton.mp there]
            exact Or.inr List.mem_cons_self
        · exact Or.inr (List.mem_cons_of_mem _ there)

theorem through?_of_append {here there : Place} {front rest : List String}
    (h : here.through? (front ++ rest) = some there) :
    ∃ middle, here.through? front = some middle ∧ middle.through? rest = some there := by
  induction front generalizing here with
  | nil => exact ⟨here, rfl, h⟩
  | cons part more ih =>
      rw [List.cons_append] at h
      rcases through?_cons h with ⟨rfl, below, h⟩ | ⟨name, h⟩
      · rw [through?_up below]
        exact ih h
      · rw [through?_name name]
        exact ih h

/-- A way stays below the place where it starts, or leaves it by double dots. -/
theorem through?_stays {here there : Place} {parts : List String}
    (h : here.through? parts = some there) :
    here <+: there ∨ ∃ front rest, parts = front ++ ".." :: rest ∧
      here.through? front = some here := by
  induction parts using List.reverseRecOn generalizing there with
  | nil =>
      cases h
      exact Or.inl List.prefix_rfl
  | append_singleton front last ih =>
      obtain ⟨middle, led, h⟩ := through?_of_append h
      rcases ih led with within | ⟨first, rest, rfl, leaves⟩
      · rcases through?_cons h with ⟨rfl, below, h⟩ | ⟨name, h⟩
        · cases h
          by_cases same : middle = here
          · subst same
            exact Or.inr ⟨front, [], rfl, led⟩
          · refine Or.inl ?_
            rw [← List.dropLast_append_getLast below, List.prefix_concat_iff] at within
            refine within.resolve_left fun whole => same ?_
            rw [whole, List.dropLast_append_getLast]
        · cases h
          exact Or.inl (within.trans (List.prefix_append _ _))
      · exact Or.inr ⟨first, rest ++ [last], by simp, leaves⟩

end Place

namespace Tree

variable {before after : Tree}

theorem Grown.stood_of_folder (grown : Grown before after) {place : Place}
    (folder : before.hasFolder place = true) : Stood before after place := by
  refine ⟨fun _ => folder, fun never => ?_⟩
  rw [grown.hasFolder folder] at never
  cases never

/-- The folders that a path leaves by double dots are there. -/
def LeavesFolders (tree : Tree) (path : String) : Prop :=
  ∀ front ∈ (Path.ofText path).parts.inits, front ++ [".."] <+: (Path.ofText path).parts →
    ∀ place ∈ Place.through? [] front, tree.hasFolder place = true

instance (tree : Tree) (path : String) : Decidable (tree.LeavesFolders path) :=
  inferInstanceAs (Decidable (∀ front ∈ (Path.ofText path).parts.inits,
    front ++ [".."] <+: (Path.ofText path).parts →
      ∀ place ∈ Place.through? [] front, tree.hasFolder place = true))

/-- Everything that the path of a known file passes was there, when the folders that it leaves
were. -/
theorem Grown.trodden (grown : Grown before after) (proper : before.Proper) {path : String}
    (file : after.isFile path = true) (known : Path.normal path ∈ before.files.keys)
    (leaves : before.LeavesFolders path) :
    Trodden before after [] (Path.ofText path).parts := by
  obtain ⟨place, found, key, -⟩ := isFile_iff.mp file
  rw [← key] at known
  have led : Place.through? [] (Path.ofText path).parts = some place := through?_of_locate found
  obtain ⟨below, noFolder, -⟩ : place ≠ [] ∧ after.hasFolder place = false ∧
      place.key ∈ after.files.keys := by
    rw [Tree.locate] at found
    split at found
    · cases found
    · exact place_of_follow found
  have pieces : Path.pieces place.key = place := Place.pieces_key below fun name inside =>
    Path.undivided_of_mem_parts
      ((Place.mem_of_through? led inside).resolve_left List.not_mem_nil)
  rintro front ⟨rest, parts⟩ here leads
  rw [← parts] at led
  obtain ⟨middle, leads', onward⟩ := Place.through?_of_append led
  rw [leads] at leads'
  cases leads'
  rcases Place.through?_stays onward with within | ⟨between, more, rfl, returns⟩
  · rcases eq_or_ne here place with rfl | above
    · refine ⟨fun folder => ?_, fun _ _ => by simpa [hasFile] using known⟩
      rw [noFolder] at folder
      cases folder
    · -- a folder above the file
      refine grown.stood_of_folder (proper.above _ (List.mem_append_left _ known) here ?_)
      rw [pieces, List.mem_inits]
      rw [← List.dropLast_append_getLast below, List.prefix_concat_iff,
        List.dropLast_append_getLast] at within
      exact within.resolve_left above
  · -- the way comes back and leaves the folder by double dots
    have whole : (Path.ofText path).parts = (front ++ between) ++ ".." :: more := by
      simp [← parts]
    refine grown.stood_of_folder (leaves (front ++ between) ?_ ⟨more, by simp [whole]⟩ here ?_)
    · rw [List.mem_inits, whole]
      exact List.prefix_append _ _
    · rw [Place.through?_append leads, returns]
      rfl

end Tree

end MessageCatalog.Files
