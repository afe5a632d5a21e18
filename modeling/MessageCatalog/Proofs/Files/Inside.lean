import MessageCatalog.Proofs.Files.Search

/-!
# MessageCatalog.Proofs.Files.Inside -- files as they are found from inside a folder

A pattern can be expanded from any folder as it is from the top. What its parts find depends only on
where the paths found so far lead, so behind two paths that lead the same way the same names are
found, in the same order.
-/

namespace MessageCatalog.Files

open MessageCatalog.Text

/-! ## Searching from a folder -/

namespace Tree

/-- Where a written path leads from a folder. -/
def locateFrom (tree : Tree) (here : Place) (text : String) : Except Fault Spot :=
  if text.isEmpty || (Path.ofText text).isAbsolute then .error .absent
  else tree.follow here (Path.pieces text)

/-- Whether a written path leads to a file from a folder. -/
def isFileFrom (tree : Tree) (here : Place) (text : String) : Bool :=
  match tree.locateFrom here text with
  | .ok (.file _) => true
  | _ => false

/-- The folder that a written path leads to from a folder; no path at all is the folder itself. -/
def folderAtFrom (tree : Tree) (here : Place) (text : String) : Option Place :=
  if text.isEmpty then some here
  else
    match tree.locateFrom here text with
    | .ok (.folder place) => some place
    | _ => none

/-- The names that one part of a pattern finds in a folder, whose path is seen from another. -/
def namesForFrom (tree : Tree) (here : Place) (folder part : String) (foldersOnly : Bool) :
    List String :=
  if part == "**" then
    match tree.folderAtFrom here folder with
    | some place => "" :: tree.below foldersOnly tree.depth place
    | none => []
  else if isWild part then
    match tree.folderAtFrom here folder with
    | some place => (tree.namesIn place foldersOnly).filter (matchesName part)
    | none => []
  else if (tree.locateFrom here (behind folder part)).toOption.isSome then [part]
  else []

/-- Follows the parts of a pattern from folders that were found, all seen from one folder. -/
def expandPartsFrom (tree : Tree) (here : Place) (folders : List String) :
    List String → List String
  | [] => folders
  | part :: rest =>
    tree.expandPartsFrom here
      (folders.flatMap fun folder =>
        (tree.namesForFrom here folder part (!rest.isEmpty)).map (behind folder))
      rest

/-- The files that a pattern finds from a folder, in ascending order. -/
def globFrom (tree : Tree) (here : Place) (pattern : String) : List String :=
  (Keyed.ascending
    (tree.expandPartsFrom here [(splitPattern pattern).1] (splitPattern pattern).2)).filter
      (tree.isFileFrom here)

theorem expandPartsFrom_top (tree : Tree) (folders parts : List String) :
    tree.expandPartsFrom [] folders parts = tree.expandParts folders parts := by
  induction parts generalizing folders with
  | nil => rfl
  | cons part rest ih => exact ih _

theorem isFileFrom_top (tree : Tree) (text : String) :
    tree.isFileFrom [] text = tree.isFile text := rfl

/-- From the top a pattern finds what it finds. -/
theorem globFrom_top (tree : Tree) (pattern : String) :
    tree.globFrom [] pattern = tree.glob pattern := by
  rw [globFrom, expandPartsFrom_top]
  rfl

/-! ## Following a path in two steps -/

variable {tree : Tree} {here place : Place} {pieces : List String}

/-- A path that goes on goes on from a folder. -/
theorem follow_append {front back : List String} (more : back ≠ []) :
    tree.follow here (front ++ back) =
      match tree.follow here front with
      | .ok (.folder there) => tree.follow there back
      | .ok (.file _) => .error .notFolder
      | .error why => .error why := by
  induction front generalizing here with
  | nil => rfl
  | cons piece rest ih =>
      rw [List.cons_append, follow, follow]
      split
      · exact ih
      split
      · split
        · rfl
        · exact ih
      dsimp only
      split
      · exact ih
      split
      · rfl
      -- a file stands where a folder has to
      have long : (rest ++ back).isEmpty = false := by simp [more]
      rw [long]
      cases rest <;> rfl

/-- Empty pieces and single dots say nothing of the way to a folder. -/
theorem follow_filter_folder :
    tree.follow here (pieces.filter Path.isTelling) = .ok (.folder place) ↔
      tree.follow here pieces = .ok (.folder place) := by
  induction pieces generalizing here with
  | nil => exact Iff.rfl
  | cons piece rest ih =>
      by_cases telling : Path.isTelling piece = true
      · rw [List.filter_cons_of_pos telling, follow, follow, telling]
        simp only [Bool.not_true, Bool.false_eq_true, if_false]
        split
        · split
          · exact Iff.rfl
          · exact ih
        split
        · exact ih
        split
        · exact Iff.rfl
        · split <;> split <;> simp
      · rw [List.filter_cons_of_neg telling, follow, ih]
        simp [telling]

/-- They say nothing of any way that does not end in one. -/
theorem follow_filter_of_last (last : ∀ piece ∈ pieces.getLast?, Path.isTelling piece = true) :
    tree.follow here (pieces.filter Path.isTelling) = tree.follow here pieces := by
  induction pieces generalizing here with
  | nil => rfl
  | cons piece rest ih =>
      cases rest with
      | nil => rw [List.filter_cons_of_pos (last piece rfl), List.filter_nil]
      | cons next others =>
          have same : ∀ there, tree.follow there ((next :: others).filter Path.isTelling) =
              tree.follow there (next :: others) := fun there =>
            ih fun end' final => last end' (List.getLast?_cons_cons.trans (Option.mem_def.mp final))
          by_cases telling : Path.isTelling piece = true
          · -- something telling is left behind the piece, as before
            have final : Path.isTelling ((next :: others).getLast (List.cons_ne_nil _ _)) = true :=
              last _ (List.getLast?_eq_some_getLast (List.cons_ne_nil piece (next :: others)))
            have left : ((next :: others).filter Path.isTelling).isEmpty = false :=
              List.isEmpty_eq_false_iff.mpr
                (List.ne_nil_of_mem (List.mem_filter.mpr ⟨List.getLast_mem _, final⟩))
            rw [List.filter_cons_of_pos telling, follow, follow]
            simp only [same, left]
            rfl
          · have silent : Path.isTelling piece = false := by simpa using telling
            have skip : tree.follow here (piece :: next :: others) = tree.follow here (next :: others) := by
              rw [follow, silent]
              rfl
            rw [List.filter_cons_of_neg telling, same, skip]

end Tree

/-! ## Paths made of parts -/

namespace Path

/-- A part of a path: a name, or double dots. -/
structure IsPart (part : String) : Prop where
  undivided : Undivided part
  telling : isTelling part = true

theorem IsName.isPart {name : String} (h : IsName name) : IsPart name := ⟨h.undivided, h.telling⟩

theorem isPart_of_mem {text part : String} (there : part ∈ (ofText text).parts) : IsPart part :=
  ⟨undivided_of_mem_parts there, (List.mem_filter.mp there).2⟩

theorem IsPart.toList_ne_nil {part : String} (h : IsPart part) : part.toList ≠ [] := by
  intro none
  have telling := h.telling
  rw [String.toList_eq_nil_iff.mp none] at telling
  exact absurd telling (by decide)

end Path

namespace Place

variable {front back : List String}

theorem key_append (some : front ≠ []) (more : back ≠ []) :
    Place.key (front ++ back) = Place.key front ++ "/" ++ Place.key back := by
  induction front with
  | nil => exact absurd rfl some
  | cons first rest ih =>
      cases rest with
      | nil =>
          obtain ⟨next, others, rfl⟩ := List.exists_cons_of_ne_nil more
          rw [List.singleton_append, key_cons, key_singleton]
      | cons second others =>
          have later := ih (List.cons_ne_nil _ _)
          rw [List.cons_append] at later
          rw [List.cons_append, List.cons_append, key_cons, later, key_cons]
          simp only [String.append_assoc]

theorem key_ne_empty (some : front ≠ []) (parts : ∀ part ∈ front, Path.IsPart part) :
    Place.key front ≠ "" := by
  intro none
  have pieces := Place.pieces_key some fun part there => (parts part there).undivided
  rw [none] at pieces
  -- the one piece of no text is no part
  have empty : "" ∈ front := by
    rw [← pieces]
    exact List.mem_singleton_self _
  exact absurd (parts "" empty).telling (by decide)

/-- The path along some parts does not end in a slash. -/
theorem getLast?_key (some : front ≠ []) (parts : ∀ part ∈ front, Path.IsPart part) :
    (Place.key front).toList.getLast? ≠ Option.some '/' := by
  obtain ⟨others, last, rfl⟩ : ∃ others last, front = others ++ [last] :=
    ⟨_, _, (List.dropLast_append_getLast some).symm⟩
  have own := parts last (List.mem_append_right _ (List.mem_singleton_self _))
  have final : (Place.key (others ++ [last])).toList.getLast? = last.toList.getLast? := by
    cases others with
    | nil => rw [List.nil_append, key_singleton]
    | cons first rest =>
        rw [key_append (List.cons_ne_nil _ _) (List.cons_ne_nil _ _), key_singleton,
          String.toList_append, List.getLast?_append_of_ne_nil _ own.toList_ne_nil]
  rw [final]
  exact fun slash => own.undivided (List.mem_of_getLast? slash)

/-- A path along some parts is read as these. -/
theorem ofText_key (parts : ∀ part ∈ front, Path.IsPart part) :
    Path.ofText (Place.key front) = ⟨"", front⟩ := by
  cases front with
  | nil => rfl
  | cons first rest =>
      have pieces := Place.pieces_key (List.cons_ne_nil first rest) fun part there =>
        (parts part there).undivided
      have telling : (first :: rest).filter Path.isTelling = first :: rest :=
        List.filter_eq_self.mpr fun part there => (parts part there).telling
      have own := parts first List.mem_cons_self
      obtain ⟨c, cs, chars⟩ := List.exists_cons_of_ne_nil own.toList_ne_nil
      have start : (c == '/') = false := by
        rw [beq_eq_false_iff_ne]
        rintro rfl
        exact own.undivided (chars ▸ List.mem_cons_self)
      have root : (Place.key (first :: rest)).toList.takeWhile (· == '/') = [] := by
        cases rest with
        | nil => rw [key_singleton, chars, List.takeWhile_cons_of_neg (by simp [start])]
        | cons second others =>
            rw [key_cons, String.toList_append, String.toList_append, chars, List.cons_append,
              List.cons_append, List.takeWhile_cons_of_neg (by simp [start])]
      rw [Path.ofText, pieces, telling, Path.rootOf, root]
      rfl

end Place

/-! ## Paths put in front of others -/

namespace Path

theorem isAbsolute_iff {text : String} :
    (ofText text).isAbsolute = true ↔ text.toList.head? = some '/' := by
  rw [isAbsolute, ofText, rootOf]
  cases chars : text.toList with
  | nil => simp
  | cons c rest =>
      by_cases slash : c = '/'
      · subst slash
        rw [List.takeWhile_cons_of_pos (by rfl)]
        simp only [List.length_cons, List.head?_cons, iff_true]
        split
        · next none => exact absurd none (Nat.succ_ne_zero _)
        · rfl
        · rfl
      · rw [List.takeWhile_cons_of_neg (by simpa using slash)]
        simpa using slash

theorem isAbsolute_append {front : String} (some : front ≠ "") (back : String) :
    (ofText (front ++ back)).isAbsolute = (ofText front).isAbsolute := by
  have chars : front.toList ≠ [] := fun none => some (String.toList_eq_nil_iff.mp none)
  rw [Bool.eq_iff_iff, isAbsolute_iff, isAbsolute_iff, String.toList_append,
    List.head?_append_of_ne_nil _ chars]

theorem isAbsolute_behind {folder name : String} (relative : (ofText folder).isAbsolute = false)
    (relative' : (ofText name).isAbsolute = false) : (ofText (behind folder name)).isAbsolute = false := by
  by_cases none : folder = ""
  · subst none
    exact relative'
  · rw [behind]
    split
    · rw [isAbsolute_append none, relative]
    · rw [String.append_assoc, isAbsolute_append none, relative]

end Path

theorem behind_empty (name : String) : behind "" name = name := String.empty_append

theorem behind_slash (folder name : String) : behind (folder ++ "/") name = folder ++ "/" ++ name := by
  rw [behind, if_pos]
  rw [String.toList_append, Bool.or_eq_true]
  exact Or.inr (by simp)

theorem behind_key {front : List String} (some : front ≠ []) (parts : ∀ part ∈ front, Path.IsPart part)
    (name : String) : behind (Place.key front) name = Place.key front ++ "/" ++ name := by
  rw [behind, if_neg]
  rw [Bool.or_eq_true, String.isEmpty_iff, beq_iff_eq, not_or]
  exact ⟨Place.key_ne_empty some parts, Place.getLast?_key some parts⟩

/-- A path is put in front of what follows it, with a slash where one is missing. -/
theorem behind_eq_append (folder name : String) : behind folder name = behind folder "" ++ name := by
  unfold behind
  split
  · rw [String.append_empty]
  · rw [String.append_empty]

theorem exists_slash {text : String} (last : text.toList.getLast? = some '/') :
    ∃ front, text = front ++ "/" := by
  obtain ⟨front, chars⟩ := List.getLast?_eq_some_iff.mp last
  refine ⟨String.ofList front, ?_⟩
  rw [← String.toList_inj, String.toList_append, String.toList_ofList, chars]
  rfl

/-- What ends in a slash, or is empty, needs no other. -/
theorem behind_nothing (folder : String) :
    behind folder "" = "" ∨ ∃ front, behind folder "" = front ++ "/" := by
  rw [behind]
  split
  · next either =>
    rw [String.append_empty]
    rcases Bool.or_eq_true_iff.mp either with empty | slash
    · exact Or.inl (String.isEmpty_iff.mp empty)
    · exact Or.inr (exists_slash (eq_of_beq slash))
  · exact Or.inr ⟨folder, by rw [String.append_empty]⟩

theorem behind_behind (folder first second : String) :
    behind (behind folder first) second = behind folder (behind first second) := by
  by_cases none : first = ""
  · subst none
    rw [behind_empty]
    rw [behind_eq_append folder second]
    rcases behind_nothing folder with empty | ⟨front, slash⟩
    · rw [empty, behind_empty, String.empty_append]
    · rw [slash, behind_slash]
  · have chars : first.toList ≠ [] := fun none' => none (String.toList_eq_nil_iff.mp none')
    have cut : ∀ path, behind path second =
        if path.isEmpty || path.toList.getLast? == some '/' then path ++ second
        else path ++ "/" ++ second := fun _ => rfl
    rw [behind_eq_append folder first, behind_eq_append folder (behind first second),
      cut (behind folder "" ++ first), cut first]
    have same : ((behind folder "" ++ first).isEmpty ||
        (behind folder "" ++ first).toList.getLast? == some '/') =
          (first.isEmpty || first.toList.getLast? == some '/') := by
      rw [String.toList_append, List.getLast?_append_of_ne_nil _ chars]
      congr 1
      rw [Bool.eq_iff_iff, String.isEmpty_iff, String.isEmpty_iff]
      simp [none]
    rw [same]
    split
    · rw [String.append_assoc]
    · simp only [String.append_assoc]

namespace Path

/-- A path along some parts, with a slash behind it or none. -/
def Tidy (text : String) : Prop :=
  ∃ parts : List String, (∀ part ∈ parts, IsPart part) ∧
    (text = Place.key parts ∨ parts ≠ [] ∧ text = Place.key parts ++ "/")

theorem tidy_key {parts : List String} (h : ∀ part ∈ parts, IsPart part) : Tidy (Place.key parts) :=
  ⟨parts, h, Or.inl rfl⟩

theorem tidy_empty : Tidy "" := ⟨[], nofun, Or.inl rfl⟩

theorem IsPart.tidy {part : String} (h : IsPart part) : Tidy part :=
  Place.key_singleton part ▸ tidy_key (List.forall_mem_singleton.mpr h)

/-- A tidy path is empty, ends in a slash, or ends in a part. -/
theorem Tidy.cases {text : String} (h : Tidy text) :
    text = "" ∨ (∃ front, text = front ++ "/") ∨
      ∃ front last, Tidy front ∧ IsPart last ∧ text = Files.behind front last := by
  obtain ⟨parts, all, rfl | ⟨some, rfl⟩⟩ := h
  · by_cases none : parts = []
    · exact Or.inl (none ▸ rfl)
    obtain ⟨front, last, rfl⟩ : ∃ front last, parts = front ++ [last] :=
      ⟨_, _, (List.dropLast_append_getLast none).symm⟩
    obtain ⟨all, own⟩ := List.forall_mem_append.mp all
    refine Or.inr (Or.inr ⟨Place.key front, last, tidy_key all, own last (List.mem_singleton_self _), ?_⟩)
    by_cases alone : front = []
    · subst alone
      rw [List.nil_append, Place.key_singleton]
      exact (behind_empty last).symm
    · rw [behind_key alone all, Place.key_append alone (List.cons_ne_nil _ _), Place.key_singleton]
  · exact Or.inr (Or.inl ⟨_, rfl⟩)

theorem Tidy.relative {text : String} (h : Tidy text) : (ofText text).isAbsolute = false := by
  obtain ⟨parts, all, rfl | ⟨some, rfl⟩⟩ := h
  · rw [Place.ofText_key all]
    rfl
  · rw [isAbsolute_append (Place.key_ne_empty some all), Place.ofText_key all]
    rfl

/-- A tidy path in front of a tidy path is one. -/
theorem Tidy.behind {folder name : String} (h : Tidy folder) (h' : Tidy name) :
    Tidy (behind folder name) := by
  obtain ⟨front, all, either⟩ := h
  by_cases none : front = []
  · -- there is nothing in front
    subst none
    rcases either with rfl | ⟨some, -⟩
    · rw [show Place.key [] = "" from rfl, behind_empty]
      exact h'
    · exact absurd rfl some
  have whole : Files.behind folder name = Place.key front ++ "/" ++ name := by
    rcases either with rfl | ⟨-, rfl⟩
    · exact behind_key none all name
    · exact behind_slash _ _
  rw [whole]
  obtain ⟨back, all', either'⟩ := h'
  by_cases none' : back = []
  · subst none'
    rcases either' with rfl | ⟨some, -⟩
    · exact ⟨front, all, Or.inr ⟨none, String.append_empty⟩⟩
    · exact absurd rfl some
  have both : ∀ part ∈ front ++ back, IsPart part := List.forall_mem_append.mpr ⟨all, all'⟩
  refine ⟨front ++ back, both, ?_⟩
  rcases either' with rfl | ⟨-, rfl⟩
  · exact Or.inl (Place.key_append none none').symm
  · refine Or.inr ⟨List.append_ne_nil_of_left_ne_nil none _, ?_⟩
    simp only [Place.key_append none none', String.append_assoc]

end Path

namespace Tree

variable {tree : Tree} {here place : Place}

/-! ## Paths that lead the same way -/

/-- A path from a folder and a path from the top lead to the same folder, if to any, and so they do
with more behind them. -/
structure SameWay (tree : Tree) (here : Place) (one two : String) : Prop where
  relative : (Path.ofText one).isAbsolute = false
  relative' : (Path.ofText two).isAbsolute = false
  leads : ∀ more, tree.follow here ((Path.ofText one).parts ++ more) =
    tree.follow [] ((Path.ofText two).parts ++ more)

variable {one two : String}

theorem SameWay.behind (h : tree.SameWay here one two) {name : String} (tidy : Path.Tidy name) :
    tree.SameWay here (behind one name) (behind two name) := by
  refine ⟨Path.isAbsolute_behind h.relative tidy.relative,
    Path.isAbsolute_behind h.relative' tidy.relative, fun more => ?_⟩
  rw [Path.parts_behind, Path.parts_behind, List.append_assoc, List.append_assoc, h.leads]

theorem SameWay.follow (h : tree.SameWay here one two) :
    tree.follow here (Path.ofText one).parts = tree.follow [] (Path.ofText two).parts := by
  have leads := h.leads []
  rwa [List.append_nil, List.append_nil] at leads

theorem folderAtFrom_eq_some {text : String} (relative : (Path.ofText text).isAbsolute = false) :
    tree.folderAtFrom here text = some place ↔
      tree.follow here (Path.ofText text).parts = .ok (.folder place) := by
  rw [folderAtFrom]
  split
  · next none =>
    rw [String.isEmpty_iff.mp none]
    show some here = some place ↔ Except.ok (Spot.folder here) =
      (Except.ok (.folder place) : Except Fault Spot)
    simp
  · next some' =>
    rw [locateFrom, if_neg (by simp [relative, some']), Path.ofText]
    rw [follow_filter_folder]
    rcases tree.follow here (Path.pieces text) with why | file | folder <;> simp

/-- A path that ends in a part leads where its parts lead. -/
theorem locateFrom_of_last {text : String} (relative : (Path.ofText text).isAbsolute = false)
    (last : ∀ piece ∈ (Path.pieces text).getLast?, Path.isTelling piece = true) :
    tree.locateFrom here text = tree.follow here (Path.ofText text).parts := by
  have some : text ≠ "" := by
    rintro rfl
    exact absurd (last "" rfl) (by decide)
  have some' : text.isEmpty = false := by simpa [String.isEmpty_iff] using some
  rw [locateFrom, if_neg (by simp [relative, some']), Path.ofText, follow_filter_of_last last]

theorem getLast?_pieces_behind (folder : String) {part : String} (isPart : Path.IsPart part) :
    (Path.pieces (Files.behind folder part)).getLast? = some part := by
  have own := Path.pieces_of_undivided isPart.undivided
  have ends : ∀ front : String, (Path.pieces (front ++ "/" ++ part)).getLast? = some part := by
    intro front
    rw [Path.pieces_append, own, List.getLast?_concat]
  unfold Files.behind
  split
  · next either =>
    rcases Bool.or_eq_true_iff.mp either with none | slash
    · rw [String.isEmpty_iff.mp none, String.empty_append, own]
      rfl
    · obtain ⟨front, rfl⟩ := exists_slash (eq_of_beq slash)
      exact ends front
  · exact ends folder

theorem SameWay.folderAt (h : tree.SameWay here one two) :
    tree.folderAtFrom here one = tree.folderAtFrom [] two := by
  refine Option.ext fun place => ?_
  rw [folderAtFrom_eq_some h.relative, folderAtFrom_eq_some h.relative', h.follow]

theorem SameWay.locate (h : tree.SameWay here one two) {part : String} (isPart : Path.IsPart part) :
    tree.locateFrom here (Files.behind one part) = tree.locateFrom [] (Files.behind two part) := by
  have last : ∀ folder, ∀ piece ∈ (Path.pieces (Files.behind folder part)).getLast?,
      Path.isTelling piece = true := by
    intro folder piece there
    rw [getLast?_pieces_behind folder isPart, Option.mem_def, Option.some.injEq] at there
    exact there ▸ isPart.telling
  have both := h.behind isPart.tidy
  rw [locateFrom_of_last both.relative (last _), locateFrom_of_last both.relative' (last _),
    both.follow]

/-- One part of a pattern finds the same names behind paths that lead the same way. -/
theorem SameWay.namesFor (h : tree.SameWay here one two) {part : String} (isPart : Path.IsPart part)
    (foldersOnly : Bool) :
    tree.namesForFrom here one part foldersOnly = tree.namesForFrom [] two part foldersOnly := by
  rw [namesForFrom, namesForFrom, h.folderAt, h.locate isPart]

/-! ## What is found behind them -/

theorem Proper.tidy_below (proper : tree.Proper) {foldersOnly : Bool} {levels : Nat} {name : String}
    (found : name ∈ tree.below foldersOnly levels place) : Path.Tidy name := by
  induction levels generalizing place name with
  | zero => cases found
  | succ levels ih =>
      obtain ⟨first, inside, -, rfl | ⟨-, rest, deeper, rfl⟩⟩ := mem_below.mp found
      · exact (proper.isName inside).isPart.tidy
      · exact (proper.isName inside).isPart.tidy.behind (ih deeper)

theorem Proper.tidy_namesFor (proper : tree.Proper) {folder part name : String} {foldersOnly : Bool}
    (isPart : Path.IsPart part) (found : name ∈ tree.namesForFrom here folder part foldersOnly) :
    Path.Tidy name := by
  rw [namesForFrom] at found
  split at found
  · split at found
    · rcases List.mem_cons.mp found with rfl | below
      · exact Path.tidy_empty
      · exact proper.tidy_below below
    · cases found
  split at found
  · split at found
    · exact (proper.isName (List.mem_filter.mp found).1).isPart.tidy
    · cases found
  split at found
  · rw [List.mem_singleton.mp found]
    exact isPart.tidy
  · cases found

/-- The parts of a pattern find the same paths behind two that lead the same way, in the same
order. -/
theorem SameWay.expandParts (h : tree.SameWay here one two) (proper : tree.Proper) {parts : List String}
    (all : ∀ part ∈ parts, Path.IsPart part) {names : List String}
    (tidy : ∀ name ∈ names, Path.Tidy name) :
    ∃ found : List String, (∀ name ∈ found, Path.Tidy name) ∧
      tree.expandPartsFrom here (names.map (Files.behind one)) parts = found.map (Files.behind one) ∧
      tree.expandPartsFrom [] (names.map (Files.behind two)) parts = found.map (Files.behind two) := by
  induction parts generalizing names with
  | nil => exact ⟨names, tidy, rfl, rfl⟩
  | cons part rest ih =>
      obtain ⟨isPart, all⟩ := List.forall_mem_cons.mp all
      let next := names.flatMap fun name =>
        (tree.namesForFrom here (Files.behind one name) part (!rest.isEmpty)).map (Files.behind name)
      have tidy' : ∀ name ∈ next, Path.Tidy name := by
        intro name there
        obtain ⟨folder, inside, there⟩ := List.mem_flatMap.mp there
        obtain ⟨last, found, rfl⟩ := List.mem_map.mp there
        exact (tidy folder inside).behind (proper.tidy_namesFor isPart found)
      obtain ⟨found, tidy'', first, second⟩ := ih all tidy'
      refine ⟨found, tidy'', ?_, ?_⟩
      · rw [expandPartsFrom, ← first]
        congr 1
        simp only [next, List.flatMap_map, List.map_flatMap, List.map_map, Function.comp_def]
        exact List.flatMap_congr fun name _ => List.map_congr_left fun last _ => behind_behind _ _ _
      · rw [expandPartsFrom, ← second]
        congr 1
        simp only [next, List.flatMap_map, List.map_flatMap, List.map_map, Function.comp_def]
        refine List.flatMap_congr fun name there => ?_
        rw [(h.behind (tidy name there)).namesFor isPart]
        exact List.map_congr_left fun last _ => behind_behind _ _ _

/-- The parts of a pattern from a path on. -/
theorem SameWay.expand (h : tree.SameWay here one two) (proper : tree.Proper) {part : String}
    {rest : List String} (all : ∀ other ∈ part :: rest, Path.IsPart other) :
    ∃ found : List String, (∀ name ∈ found, Path.Tidy name) ∧
      tree.expandPartsFrom here [one] (part :: rest) = found.map (Files.behind one) ∧
      tree.expandPartsFrom [] [two] (part :: rest) = found.map (Files.behind two) := by
  obtain ⟨isPart, all⟩ := List.forall_mem_cons.mp all
  obtain ⟨found, tidy, first, second⟩ := h.expandParts proper all
    (fun _ there => proper.tidy_namesFor isPart there)
  refine ⟨found, tidy, ?_, ?_⟩
  · rw [expandPartsFrom, List.flatMap_singleton, first]
  · rw [expandPartsFrom, List.flatMap_singleton, ← h.namesFor isPart, second]

/-- No path that ends in a slash leads to a file. -/
theorem isFileFrom_slash (front : String) : tree.isFileFrom here (front ++ "/") = false := by
  have pieces : Path.pieces (front ++ "/") = Path.pieces front ++ [""] := by
    rw [← String.append_empty (s := front ++ "/"), Path.pieces_append]
    rfl
  rw [isFileFrom, locateFrom, pieces, follow_append (List.cons_ne_nil _ _)]
  split
  · next leads =>
    split at leads
    · cases leads
    · split at leads <;> cases leads
  · rfl

theorem isFileFrom_empty : tree.isFileFrom here "" = false := rfl

/-- A file is found behind one path when it is found behind the other. -/
theorem SameWay.isFile (h : tree.SameWay here one two) {name : String} (tidy : Path.Tidy name) :
    tree.isFileFrom here (Files.behind one name) = tree.isFileFrom [] (Files.behind two name) := by
  rcases tidy.cases with rfl | ⟨front, rfl⟩ | ⟨front, last, before, isPart, rfl⟩
  · have never : ∀ place folder, tree.isFileFrom place (Files.behind folder "") = false := by
      intro place folder
      rcases behind_nothing folder with empty | ⟨front, slash⟩
      · rw [empty, isFileFrom_empty]
      · rw [slash, isFileFrom_slash]
    rw [never, never]
  · have never : ∀ place folder, tree.isFileFrom place (Files.behind folder (front ++ "/")) = false := by
      intro place folder
      rw [behind_eq_append, ← String.append_assoc, isFileFrom_slash]
    rw [never, never]
  · rw [← behind_behind, ← behind_behind, isFileFrom, isFileFrom, (h.behind before).locate isPart]

end Tree

end MessageCatalog.Files
