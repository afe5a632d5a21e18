import MessageCatalog.Proofs.Files.Inside
import MessageCatalog.Proofs.Text.Run

/-!
# MessageCatalog.Proofs.Files.Resolved -- patterns seen from a folder

A pattern is put behind the path of a folder and read as one pattern. When no name of that path has a
wild character, the files that it finds are those that the pattern finds from inside the folder, each
behind the path, in the same order.
-/

namespace MessageCatalog.Files

open MessageCatalog.Text

/-! ## The parts of a pattern -/

theorem joinWith_key (parts : List String) :
    joinWith ['/'] (parts.map String.toList) = (Place.key parts).toList := by
  induction parts with
  | nil => rfl
  | cons first rest ih =>
      cases rest with
      | nil => rw [Place.key_singleton]; rfl
      | cons second others =>
          rw [Place.key_cons, String.toList_append, String.toList_append, ← ih]
          rfl

theorem isWild_append (front back : String) :
    isWild (front ++ back) = (isWild front || isWild back) := by
  rw [isWild, String.toList_append, List.any_append]
  rfl

/-- A path is a pattern when one of its pieces is. -/
theorem isWild_key (pieces : List String) : isWild (Place.key pieces) = pieces.any isWild := by
  induction pieces with
  | nil => rfl
  | cons first rest ih =>
      cases rest with
      | nil => rw [Place.key_singleton]; simp
      | cons second others =>
          rw [Place.key_cons, isWild_append, isWild_append, ih, List.any_cons (a := first),
            show isWild "/" = false from by decide, Bool.or_false]

theorem isWild_of_silent {piece : String} (silent : Path.isTelling piece = false) :
    isWild piece = false := by
  have either : piece = "" ∨ piece = "." :=
    or_iff_not_imp_left.mpr (by simpa [Path.isTelling] using silent)
  rcases either with rfl | rfl <;> decide

/-- A pattern has a piece that is one, and it says something. -/
theorem exists_wild_piece {pattern : String} (wild : isWild pattern = true) :
    ∃ piece ∈ Path.pieces pattern, isWild piece = true ∧ Path.isTelling piece = true := by
  rw [← Place.key_pieces pattern, isWild_key, List.any_eq_true] at wild
  obtain ⟨piece, there, wild⟩ := wild
  refine ⟨piece, there, wild, by_contra fun silent => ?_⟩
  rw [isWild_of_silent (by simpa using silent)] at wild
  cases wild

/-- What is taken while it holds a property can be filtered before by what always holds it. -/
theorem takeWhile_filter {α : Type} {takes keeps : α → Bool}
    (free : ∀ x, keeps x = false → takes x = true) (xs : List α) : (xs.filter keeps).takeWhile takes = (xs.takeWhile takes).filter keeps ∧
      (xs.filter keeps).dropWhile takes = (xs.dropWhile takes).filter keeps := by
  induction xs with
  | nil => exact ⟨rfl, rfl⟩
  | cons x xs ih =>
      cases kept : keeps x with
      | false =>
          have taken := free x kept
          simp only [List.filter_cons, kept, List.takeWhile_cons, taken, List.dropWhile_cons]
          simpa [kept] using ih
      | true =>
          cases taken : takes x with
          | true => simpa [List.filter_cons, kept, taken] using ih
          | false => simp [kept, taken]

/-- Whether a piece is taken as it is written. -/
def isLiteral (piece : String) : Bool := !isWild piece

/-- A pattern that is read alike as a path: it starts from no root, ends in a name, and no single dot
stands behind its first wild part. -/
structure Steady (pattern : String) : Prop where
  relative : (Path.ofText pattern).isAbsolute = false
  last : ∀ piece ∈ (Path.pieces pattern).getLast?, Path.isTelling piece = true
  dotless : "." ∉ (Path.pieces pattern).dropWhile isLiteral

theorem filter_isLiteral (pieces : List String) :
    (pieces.filter Path.isTelling).takeWhile isLiteral = (pieces.takeWhile isLiteral).filter Path.isTelling ∧
      (pieces.filter Path.isTelling).dropWhile isLiteral =
        (pieces.dropWhile isLiteral).filter Path.isTelling :=
  takeWhile_filter (fun piece silent => by rw [isLiteral, isWild_of_silent silent]; rfl) pieces

/-- The parts of a pattern behind its first wild one. -/
theorem splitPattern_parts {pattern : String}
    (last : ∀ piece ∈ (Path.pieces pattern).getLast?, Path.isTelling piece = true)
    (dotless : "." ∉ (Path.pieces pattern).dropWhile isLiteral) :
    (splitPattern pattern).2 = ((Path.pieces pattern).dropWhile isLiteral).filter Path.isTelling := by
  have whole := List.takeWhile_append_dropWhile (p := isLiteral) (l := Path.pieces pattern)
  show ((Path.pieces pattern).drop ((Path.pieces pattern).takeWhile isLiteral).length).dropLast.filter
    (· != "") ++ ((Path.pieces pattern).drop
      ((Path.pieces pattern).takeWhile isLiteral).length).getLast?.toList = _
  generalize (Path.pieces pattern).takeWhile isLiteral = front at whole ⊢
  generalize (Path.pieces pattern).dropWhile isLiteral = back at whole dotless ⊢
  rw [← whole, List.drop_left]
  rw [← whole] at last
  by_cases none : back = []
  · rw [none]
    rfl
  obtain ⟨others, final, rfl⟩ : ∃ others final, back = others ++ [final] :=
    ⟨_, _, (List.dropLast_append_getLast none).symm⟩
  have telling : Path.isTelling final = true :=
    last final (by rw [← List.append_assoc, List.getLast?_concat]; exact rfl)
  have same : others.filter (· != "") = others.filter Path.isTelling := by
    refine List.filter_congr fun piece there => ?_
    have plain : (piece != ".") = true := bne_iff_ne.mpr fun dot =>
      dotless (dot ▸ List.mem_append_left _ there)
    rw [Path.isTelling, plain, Bool.and_true]
  rw [List.dropLast_concat, List.getLast?_concat, same, List.filter_append,
    List.filter_cons_of_pos telling]
  rfl

theorem parts_slashes (front : String) {slashes : List Char} (all : ∀ c ∈ slashes, (c == '/') = true) :
    (Path.ofText (front ++ String.ofList slashes)).parts = (Path.ofText front).parts := by
  induction slashes generalizing front with
  | nil => rw [show String.ofList [] = "" from rfl, String.append_empty]
  | cons c rest ih =>
      obtain ⟨own, others⟩ := List.forall_mem_cons.mp all
      have whole : front ++ String.ofList (c :: rest) = front ++ "/" ++ String.ofList rest := by
        rw [← String.toList_inj]
        simp [eq_of_beq own]
      have alone := Path.parts_append front ""
      rw [String.append_empty] at alone
      rw [whole, ih _ others, alone]
      exact List.append_nil _

/-- The path of a pattern before its first wild part: its parts, and no root. -/
theorem splitPattern_path {pattern : String} (wild : isWild pattern = true)
    (relative : (Path.ofText pattern).isAbsolute = false) :
    (Path.ofText (splitPattern pattern).1).isAbsolute = false ∧
      (Path.ofText (splitPattern pattern).1).parts =
        ((Path.pieces pattern).takeWhile isLiteral).filter Path.isTelling := by
  have whole := List.takeWhile_append_dropWhile (p := isLiteral) (l := Path.pieces pattern)
  have more : (Path.pieces pattern).dropWhile isLiteral ≠ [] := by
    intro none
    obtain ⟨piece, there, wild, -⟩ := exists_wild_piece wild
    exact absurd (List.dropWhile_eq_nil_iff.mp none piece there) (by simp [isLiteral, wild])
  have undivided : ∀ piece ∈ (Path.pieces pattern).takeWhile isLiteral, Path.Undivided piece :=
    fun piece there => Path.undivided_of_mem_pieces (List.takeWhile_subset _ there)
  have text := joinWith_key ((Path.pieces pattern).takeWhile isLiteral)
  have path : (splitPattern pattern).1 = String.ofList
      (if (trimEnd (· == '/') (joinWith ['/'] (((Path.pieces pattern).takeWhile isLiteral).map
        String.toList))).isEmpty && !((Path.pieces pattern).takeWhile isLiteral).isEmpty then ['/']
      else trimEnd (· == '/') (joinWith ['/'] (((Path.pieces pattern).takeWhile isLiteral).map
        String.toList))) := rfl
  rw [path, text]
  generalize (Path.pieces pattern).takeWhile isLiteral = front at whole undivided ⊢
  generalize (Path.pieces pattern).dropWhile isLiteral = back at whole more
  obtain ⟨slashes, split, all, -⟩ := trimEnd_split (· == '/') (Place.key front).toList
  generalize trimEnd (· == '/') (Place.key front).toList = stripped at split ⊢
  by_cases none : front = []
  · subst none
    have empty : stripped = [] := (List.append_eq_nil_iff.mp split.symm).1
    subst empty
    exact ⟨rfl, rfl⟩
  have pattern' : pattern = String.ofList stripped ++ (String.ofList slashes ++ "/" ++ Place.key back) := by
    rw [← Place.key_pieces pattern, ← whole, Place.key_append none more, ← String.toList_inj]
    simp [split]
  have some : stripped ≠ [] := by
    -- nothing but slashes would start from a root
    rintro rfl
    have chars : pattern.toList.head? = some '/' := by
      rw [pattern']
      cases slashes with
      | nil => simp
      | cons c rest => simp [eq_of_beq (all c List.mem_cons_self)]
    rw [Path.isAbsolute_iff.mpr chars] at relative
    cases relative
  have some' : String.ofList stripped ≠ "" := fun none => some (by
    rw [← String.toList_ofList (l := stripped), none]
    rfl)
  rw [if_neg (by simp [some])]
  refine ⟨?_, ?_⟩
  · rw [← Path.isAbsolute_append some', ← pattern', relative]
  · have key : Place.key front = String.ofList stripped ++ String.ofList slashes := by
      rw [← String.toList_inj, split]
      simp
    rw [← parts_slashes _ all, ← key, Path.ofText, Place.pieces_key none undivided]

/-! ## Patterns made of parts -/

variable {parts : List String}

theorem pieces_key_parts (some : parts ≠ []) (all : ∀ part ∈ parts, Path.IsPart part) :
    Path.pieces (Place.key parts) = parts :=
  Place.pieces_key some fun part there => (all part there).undivided

/-- A pattern that is written from its parts is taken apart into these. -/
theorem splitPattern_key (some : parts ≠ []) (all : ∀ part ∈ parts, Path.IsPart part) :
    splitPattern (Place.key parts) = (Place.key (parts.takeWhile isLiteral), parts.dropWhile isLiteral) := by
  have pieces := pieces_key_parts some all
  have front : ∀ part ∈ parts.takeWhile isLiteral, Path.IsPart part := fun part there =>
    all part (List.takeWhile_subset _ there)
  have back : ∀ part ∈ parts.dropWhile isLiteral, Path.IsPart part := fun part there =>
    all part (List.dropWhile_subset _ there)
  refine Prod.ext ?_ ?_
  · show String.ofList (if (trimEnd (· == '/') (joinWith ['/'] (((Path.pieces
      (Place.key parts)).takeWhile isLiteral).map String.toList))).isEmpty &&
        !((Path.pieces (Place.key parts)).takeWhile isLiteral).isEmpty then ['/']
      else trimEnd (· == '/') (joinWith ['/'] (((Path.pieces
        (Place.key parts)).takeWhile isLiteral).map String.toList))) = _
    rw [pieces, joinWith_key]
    by_cases none : parts.takeWhile isLiteral = []
    · rw [none]
      rfl
    · have ends : ∀ c ∈ (Place.key (parts.takeWhile isLiteral)).toList.getLast?, (c == '/') = false := by
        intro c last
        rw [beq_eq_false_iff_ne]
        rintro rfl
        exact Place.getLast?_key none front last
      have trimmed : trimEnd (· == '/')
          ((Place.key (parts.takeWhile isLiteral)).toList ++ []) =
            (Place.key (parts.takeWhile isLiteral)).toList := trimEnd_append nofun ends
      rw [List.append_nil] at trimmed
      have some' : (Place.key (parts.takeWhile isLiteral)).toList ≠ [] := fun empty =>
        Place.key_ne_empty none front (String.toList_eq_nil_iff.mp empty)
      rw [trimmed, if_neg (by simp [some']), String.ofList_toList]
  · have last : ∀ piece ∈ (Path.pieces (Place.key parts)).getLast?, Path.isTelling piece = true := by
      rw [pieces]
      exact fun piece there => (all piece (List.mem_of_getLast? there)).telling
    have dotless : "." ∉ (Path.pieces (Place.key parts)).dropWhile isLiteral := by
      rw [pieces]
      exact fun dot => absurd (back "." dot).telling (by decide)
    rw [splitPattern_parts last dotless, pieces]
    exact List.filter_eq_self.mpr fun part there => (back part there).telling

/-! ## A folder whose path is plain -/

/-- A folder of a tree: the path that leads there from the top, none of whose names has a wild
character. -/
structure PlainFolder (tree : Tree) (base : Path) (here : Place) : Prop where
  relative : base.root = ""
  parts : ∀ part ∈ base.parts, Path.IsPart part
  plain : ∀ part ∈ base.parts, isWild part = false
  leads : tree.follow [] base.parts = .ok (.folder here)

variable {tree : Tree} {base : Path} {here : Place} {pattern : String}

theorem resolve_eq_key (root : base.root = "") {text : String}
    (relative : (Path.ofText text).isAbsolute = false) (some : (Path.ofText text).parts ≠ []) :
    base.resolve text = Place.key (base.parts ++ (Path.ofText text).parts) := by
  have root' : (Path.ofText text).root = "" := by
    rw [Path.isAbsolute, Bool.not_eq_false', String.isEmpty_iff] at relative
    exact relative
  rw [Path.resolve, relative, Path.join, relative]
  simp only [Bool.false_eq_true, if_false]
  rw [Path.toText, Path.write, root, if_neg (by simp [some]), String.empty_append]
  rfl

theorem PlainFolder.follow_append (h : PlainFolder tree base here) (more : List String) :
    tree.follow [] (base.parts ++ more) = tree.follow here more := by
  by_cases none : more = []
  · rw [none, List.append_nil, h.leads]
    rfl
  · rw [Tree.follow_append none, h.leads]

namespace Steady

variable (steady : Steady pattern)

include steady

theorem parts_ne_nil : (Path.ofText pattern).parts ≠ [] := by
  have some : Path.pieces pattern ≠ [] := by
    rw [Path.pieces]
    exact fun none => splitOnChar_ne_nil _ (List.map_eq_nil_iff.mp none)
  have telling := steady.last _ (List.getLast?_eq_some_getLast some)
  exact List.ne_nil_of_mem (List.mem_filter.mpr ⟨List.getLast_mem some, telling⟩)

/-- The path behind which a plain folder puts a pattern leads the same way. -/
theorem sameWay (h : PlainFolder tree base here) (wild : isWild pattern = true) :
    tree.SameWay here (splitPattern pattern).1
      (Place.key (base.parts ++ ((Path.ofText pattern).parts.takeWhile isLiteral))) := by
  obtain ⟨relative, parts⟩ := splitPattern_path wild steady.relative
  have all : ∀ part ∈ base.parts ++ (Path.ofText pattern).parts.takeWhile isLiteral,
      Path.IsPart part := List.forall_mem_append.mpr
    ⟨h.parts, fun part there => Path.isPart_of_mem (List.takeWhile_subset _ there)⟩
  have tidy := Path.tidy_key all
  refine ⟨relative, tidy.relative, fun more => ?_⟩
  rw [Place.ofText_key all, parts, List.append_assoc, h.follow_append, Path.ofText]
  rw [(filter_isLiteral _).1]

/-- The pattern behind the path of a plain folder, taken apart. -/
theorem splitPattern_resolve (h : PlainFolder tree base here) :
    splitPattern (base.resolve pattern) =
      (Place.key (base.parts ++ (Path.ofText pattern).parts.takeWhile isLiteral),
        (Path.ofText pattern).parts.dropWhile isLiteral) := by
  have some := steady.parts_ne_nil
  have all : ∀ part ∈ base.parts ++ (Path.ofText pattern).parts, Path.IsPart part :=
    List.forall_mem_append.mpr ⟨h.parts, fun part there => Path.isPart_of_mem there⟩
  have literal : ∀ part ∈ base.parts, isLiteral part = true := fun part there => by
    rw [isLiteral, h.plain part there]
    rfl
  rw [resolve_eq_key h.relative steady.relative some,
    splitPattern_key (List.append_ne_nil_of_right_ne_nil _ some) all,
    List.takeWhile_append_of_pos literal, List.dropWhile_append_of_pos literal]

theorem isWild_resolve (h : PlainFolder tree base here) :
    isWild (base.resolve pattern) = isWild pattern := by
  have plain : base.parts.any isWild = false := by
    rw [List.any_eq_false]
    exact fun part there => by rw [h.plain part there]; exact Bool.false_ne_true
  rw [resolve_eq_key h.relative steady.relative steady.parts_ne_nil, isWild_key, List.any_append, plain,
    Bool.false_or, Bool.eq_iff_iff, List.any_eq_true]
  constructor
  · rintro ⟨piece, there, wild⟩
    rw [← Place.key_pieces pattern, isWild_key, List.any_eq_true]
    exact ⟨piece, List.mem_of_mem_filter there, wild⟩
  · intro wild
    obtain ⟨piece, there, wild, telling⟩ := exists_wild_piece wild
    exact ⟨piece, List.mem_filter.mpr ⟨there, telling⟩, wild⟩

/-- A file that is found from inside the folder is found behind the path of the folder under the
path that it has from there. -/
theorem resolve_behind (h : PlainFolder tree base here) (wild : isWild pattern = true)
    (name : String) (tidy : Path.Tidy name)
    (file : tree.isFileFrom here (behind (splitPattern pattern).1 name) = true) :
    base.resolve (behind (splitPattern pattern).1 name) =
      behind (Place.key (base.parts ++ (Path.ofText pattern).parts.takeWhile isLiteral)) name := by
  obtain ⟨relative, path⟩ := splitPattern_path wild steady.relative
  have front : ∀ part ∈ base.parts ++ (Path.ofText pattern).parts.takeWhile isLiteral,
      Path.IsPart part := List.forall_mem_append.mpr
    ⟨h.parts, fun part there => Path.isPart_of_mem (List.takeWhile_subset _ there)⟩
  have relative' := Path.isAbsolute_behind relative tidy.relative
  obtain ⟨back, all, rfl | ⟨-, rfl⟩⟩ := tidy
  · have some : back ≠ [] := by
      rintro rfl
      rcases behind_nothing (splitPattern pattern).1 with empty | ⟨front, slash⟩
      · rw [show Place.key [] = "" from rfl, empty, Tree.isFileFrom_empty] at file
        cases file
      · rw [show Place.key [] = "" from rfl, slash, Tree.isFileFrom_slash] at file
        cases file
    have parts : (Path.ofText (behind (splitPattern pattern).1 (Place.key back))).parts =
        (Path.ofText pattern).parts.takeWhile isLiteral ++ back := by
      rw [Path.parts_behind, path, Place.ofText_key all, Path.ofText, (filter_isLiteral _).1]
    rw [resolve_eq_key h.relative relative' (parts ▸ List.append_ne_nil_of_right_ne_nil _ some), parts,
      ← List.append_assoc]
    by_cases none : base.parts ++ (Path.ofText pattern).parts.takeWhile isLiteral = []
    · rw [none]
      exact (behind_empty _).symm
    · rw [behind_key none front, Place.key_append none some]
  · rw [behind_eq_append, ← String.append_assoc, Tree.isFileFrom_slash] at file
    cases file

/-- What a pattern finds from inside a plain folder it finds behind the path of the folder, in the
same order. -/
theorem exists_names (h : PlainFolder tree base here) (proper : tree.Proper)
    (wild : isWild pattern = true) :
    ∃ (one two : String) (names : List String),
      tree.globFrom here pattern = names.map (behind one) ∧
      tree.glob (base.resolve pattern) = names.map (behind two) ∧
      ∀ name ∈ names, base.resolve (behind one name) = behind two name := by
  have own : (splitPattern pattern).2 = (Path.ofText pattern).parts.dropWhile isLiteral := by
    rw [splitPattern_parts steady.last steady.dotless, Path.ofText, (filter_isLiteral _).2]
  have all : ∀ part ∈ (Path.ofText pattern).parts.dropWhile isLiteral, Path.IsPart part :=
    fun part there => Path.isPart_of_mem (List.dropWhile_subset _ there)
  have some : (Path.ofText pattern).parts.dropWhile isLiteral ≠ [] := by
    intro none
    obtain ⟨piece, there, wild, telling⟩ := exists_wild_piece wild
    exact absurd (List.dropWhile_eq_nil_iff.mp none piece (List.mem_filter.mpr ⟨there, telling⟩))
      (by simp [isLiteral, wild])
  have inside : tree.globFrom here pattern = (Keyed.ascending (tree.expandPartsFrom here
      [(splitPattern pattern).1] ((Path.ofText pattern).parts.dropWhile isLiteral))).filter
        (tree.isFileFrom here) := by rw [Tree.globFrom, own]
  have behind' : tree.glob (base.resolve pattern) = (Keyed.ascending (tree.expandPartsFrom []
      [Place.key (base.parts ++ (Path.ofText pattern).parts.takeWhile isLiteral)]
        ((Path.ofText pattern).parts.dropWhile isLiteral))).filter (tree.isFileFrom []) := by
    rw [← Tree.globFrom_top, Tree.globFrom, steady.splitPattern_resolve h]
  have same := steady.sameWay h wild
  have resolve := steady.resolve_behind h wild
  generalize (splitPattern pattern).1 = one at inside same resolve
  generalize Place.key (base.parts ++ (Path.ofText pattern).parts.takeWhile isLiteral) = two
    at behind' same resolve
  obtain ⟨part, rest, parts⟩ := List.exists_cons_of_ne_nil some
  rw [parts] at all inside behind'
  obtain ⟨found, tidy, first, second⟩ := same.expand proper all
  have sorted : ∀ folder, Keyed.ascending (found.map (behind folder)) =
      (Keyed.ascending found).map (behind folder) := by
    intro folder
    rw [show behind folder = (behind folder "" ++ ·) from funext (behind_eq_append folder)]
    exact Keyed.ascending_map_append _ _
  refine ⟨one, two, (Keyed.ascending found).filter fun name => tree.isFileFrom here (behind one name),
    ?_, ?_, fun name there => ?_⟩
  · rw [inside, first, sorted, List.filter_map]
    rfl
  · rw [behind', second, sorted, List.filter_map]
    refine congrArg _ (List.filter_congr fun name there => ?_)
    exact (same.isFile (tidy name (Keyed.mem_ascending.mp there))).symm
  · obtain ⟨there, file⟩ := List.mem_filter.mp there
    exact resolve name (tidy name (Keyed.mem_ascending.mp there)) file

/-- A path that is no pattern leads to a file behind the path of a folder when it does from inside. -/
theorem isFile_resolve (h : PlainFolder tree base here) :
    tree.isFile (base.resolve pattern) = tree.isFileFrom here pattern := by
  have some := steady.parts_ne_nil
  have all : ∀ part ∈ base.parts ++ (Path.ofText pattern).parts, Path.IsPart part :=
    List.forall_mem_append.mpr ⟨h.parts, fun part there => Path.isPart_of_mem there⟩
  have last : ∀ piece ∈ (Path.pieces (Place.key (base.parts ++ (Path.ofText pattern).parts))).getLast?,
      Path.isTelling piece = true := by
    rw [pieces_key_parts (List.append_ne_nil_of_right_ne_nil _ some) all]
    exact fun piece there => (all piece (List.mem_of_getLast? there)).telling
  have leads : tree.locateFrom [] (base.resolve pattern) = tree.locateFrom here pattern := by
    rw [resolve_eq_key h.relative steady.relative some,
      Tree.locateFrom_of_last (Path.tidy_key all).relative last, Place.ofText_key all, h.follow_append,
      Tree.locateFrom_of_last steady.relative steady.last]
  rw [← Tree.isFileFrom_top, Tree.isFileFrom, Tree.isFileFrom, leads]

end Steady

end MessageCatalog.Files
