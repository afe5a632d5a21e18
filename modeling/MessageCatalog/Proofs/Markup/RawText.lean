import MessageCatalog.Proofs.Markup.Pass
import MessageCatalog.Proofs.Text.Run

/-!
# MessageCatalog.Proofs.Markup.RawText -- where raw text ends

Raw text ends at the first place where the end tag of its element starts. Other places look like it:
there a letter stands in the name that is only a variant of the one that is meant. They are read
past, bracket and all. What comes in between is data, in as many pieces as there are such places,
and the pieces together are the raw text.
-/

namespace MessageCatalog.Markup

open MessageCatalog.Text

/-! ## End tags in raw text -/

/-- Whether raw text of an element ends in front of a text: the text starts with the end tag. -/
def closesRaw (element : String) (text : List Char) : Bool :=
  startsEndTagOf element text && (readEndTag (text.drop 2)).any fun read => read.1 == element

/-- Raw text does not end in a text. -/
def NoClosing (element : String) (text : List Char) : Prop :=
  ∀ i, closesRaw element (text.drop i) = false

variable {element : String}

/-- The letters of the elements with raw text are variants of no bracket. -/
theorem rawTextElements_letters : ∀ element ∈ rawTextElements, ∀ n ∈ element.toList,
    sameLetter n '<' = false ∧ sameLetter n '>' = false := by
  have all : (rawTextElements.all fun element => element.toList.all fun n =>
      !sameLetter n '<' && !sameLetter n '>') = true := by
    decide +kernel
  intro element raw n there
  have own := List.all_eq_true.mp (List.all_eq_true.mp all element raw) n there
  simpa using own

/-- What looks like an end tag is closed, and has no other bracket. -/
theorem startsEndTagOf_split (raw : element ∈ rawTextElements) {text : List Char}
    (h : startsEndTagOf element text = true) :
    ∃ inside rest, text = '<' :: inside ++ '>' :: rest ∧ '<' ∉ inside ∧ '>' ∉ inside := by
  have letters := rawTextElements_letters element raw
  have blank : ∀ c, isBlank c = true → c ≠ '<' ∧ c ≠ '>' := by
    rintro c isBlank
    constructor <;>
    · rintro rfl
      cases isBlank
  unfold startsEndTagOf at h
  split at h
  · cases h
  · next inside opened =>
      split at h
      · cases h
      · next behind found =>
          obtain rfl := after?_iff.mp opened
          obtain ⟨front, split, spells⟩ := afterName?_iff.mp found
          have less : '<' ∉ front := spells.notMem fun n there => (letters n there).1
          have greater : '>' ∉ front := spells.notMem fun n there => (letters n there).2
          rw [beq_iff_eq, List.head?_eq_some_iff] at h
          obtain ⟨rest, closed⟩ := h
          have whole : inside = inside.takeWhile isBlank ++ front ++ behind.takeWhile isBlank ++
              '>' :: rest := by
            rw [← closed, List.append_assoc, List.takeWhile_append_dropWhile, List.append_assoc,
              ← split, List.takeWhile_append_dropWhile]
          refine ⟨'/' :: (inside.takeWhile isBlank ++ front ++ behind.takeWhile isBlank), rest, ?_,
            ?_, ?_⟩
          · exact congrArg (fun left => '<' :: '/' :: left) whole
          · simp only [List.mem_cons, List.mem_append, not_or]
            exact ⟨by decide, ⟨fun there => (blank _ (List.mem_takeWhile_imp there)).1 rfl, less⟩,
              fun there => (blank _ (List.mem_takeWhile_imp there)).1 rfl⟩
          · simp only [List.mem_cons, List.mem_append, not_or]
            exact ⟨by decide,
              ⟨fun there => (blank _ (List.mem_takeWhile_imp there)).2 rfl, greater⟩,
              fun there => (blank _ (List.mem_takeWhile_imp there)).2 rfl⟩

/-! ## An opening bracket behind a text -/

section
variable {inClass : Char → Bool} {c : Char}

theorem dropWhile_append_stop (stop : inClass c = false) (text rest : List Char) :
    (text ++ c :: rest).dropWhile inClass = text.dropWhile inClass ++ c :: rest := by
  rw [List.dropWhile_append]
  split
  · next empty =>
      rw [List.isEmpty_iff.mp empty, List.dropWhile_cons_of_neg (by simp [stop])]
      rfl
  · rfl

theorem takeWhile_append_stop (stop : inClass c = false) (text rest : List Char) :
    (text ++ c :: rest).takeWhile inClass = text.takeWhile inClass := by
  rw [List.takeWhile_append]
  split
  · next all =>
      rw [List.takeWhile_cons_of_neg (by simp [stop]), List.append_nil]
      exact ((List.takeWhile_prefix _).eq_of_length all).symm
  · rfl

end

/-- An end tag ends before the bracket of another tag. -/
theorem readEndTag_append (text rest : List Char) :
    readEndTag (text ++ '<' :: rest) =
      (readEndTag text).map fun read => (read.1, read.2 ++ '<' :: rest) := by
  rw [readEndTag, readEndTag, dropWhile_append_stop (by decide)]
  cases text.dropWhile isBlank with
  | nil => rfl
  | cons c cs =>
      dsimp only [List.cons_append]
      rw [dropWhile_append_stop (by decide), takeWhile_append_stop (by decide),
        dropWhile_append_stop (by decide)]
      split
      · generalize (cs.dropWhile isEndNameCharacter).dropWhile isBlank = behind
        cases behind with
        | nil => rfl
        | cons d behind =>
            by_cases close : d = '>'
            · subst close
              rfl
            · rw [List.cons_append]
              split
              · next same => exact absurd (List.cons.inj same).1 close
              · split
                · next same => exact absurd (List.cons.inj same).1 close
                · rfl
      · rfl

theorem afterName?_append {name : List Char} (letters : ∀ n ∈ name, sameLetter n '<' = false)
    (text rest : List Char) :
    afterName? name (text ++ '<' :: rest) = (afterName? name text).map (· ++ '<' :: rest) := by
  induction name generalizing text with
  | nil => rfl
  | cons n ns ih =>
      rw [List.forall_mem_cons] at letters
      cases text with
      | nil => simp [afterName?, letters.1]
      | cons c text =>
          rw [List.cons_append, afterName?, afterName?, ih letters.2]
          split <;> rfl

/-- Whether raw text ends in front of a text is settled before the bracket of another tag. -/
theorem closesRaw_append (raw : element ∈ rawTextElements) {text : List Char} (some' : text ≠ [])
    (rest : List Char) : closesRaw element (text ++ '<' :: rest) = closesRaw element text := by
  have letters := fun n there => (rawTextElements_letters element raw n there).1
  match text with
  | [] => exact absurd rfl some'
  | [c] =>
      have short : after? ['<', '/'] [c] = none := by simp [after?]
      have other : after? ['<', '/'] (c :: '<' :: rest) = none := by simp [after?]
      rw [List.singleton_append, closesRaw, closesRaw, startsEndTagOf, startsEndTagOf, short, other]
      rfl
  | c :: d :: text =>
      have starts : startsEndTagOf element (c :: d :: text ++ '<' :: rest) =
          startsEndTagOf element (c :: d :: text) := by
        have opened : after? ['<', '/'] (c :: d :: text ++ '<' :: rest) =
            (after? ['<', '/'] (c :: d :: text)).map (· ++ '<' :: rest) := by
          simp only [List.cons_append, after?]
          split
          · split <;> rfl
          · rfl
        rw [startsEndTagOf, startsEndTagOf, opened]
        cases after? ['<', '/'] (c :: d :: text) with
        | none => rfl
        | some inside =>
            dsimp only [Option.map_some]
            rw [dropWhile_append_stop (by decide), afterName?_append letters]
            cases afterName? element.toList (inside.dropWhile isBlank) with
            | none => rfl
            | some behind =>
                dsimp only [Option.map_some]
                rw [dropWhile_append_stop (by decide)]
                cases behind.dropWhile isBlank <;> rfl
      rw [closesRaw, closesRaw, starts]
      simp only [List.cons_append, List.drop_succ_cons, List.drop_zero, readEndTag_append]
      cases readEndTag text <;> rfl

/-! ## One piece -/

theorem closesRaw_bracket {text : List Char} (h : closesRaw element text = true) :
    ∃ rest, text = '<' :: rest := by
  rw [closesRaw, Bool.and_eq_true, startsEndTagOf] at h
  cases opened : after? ['<', '/'] text with
  | none =>
      rw [opened] at h
      cases h.1
  | some inside => exact ⟨_, after?_iff.mp opened⟩

theorem afterBracket_append {text : List Char} (noBracket : '>' ∉ text) (rest : List Char) :
    afterBracket (text ++ '>' :: rest) = rest := by
  have other : ∀ c ∈ text, (c != '>') = true := by
    intro c there
    rw [bne_iff_ne]
    rintro rfl
    exact noBracket there
  rw [afterBracket, List.dropWhile_append_of_pos other, List.dropWhile_cons_of_neg (by decide),
    List.drop_succ_cons, List.drop_zero]

/-- Raw text ends nowhere in a text that has an opening bracket in front only, unless it ends
there. -/
theorem closesRaw_inside {inside rest : List Char} (less : '<' ∉ inside)
    (front : closesRaw element ('<' :: inside ++ rest) = false) :
    ∀ i < ('<' :: inside).length, closesRaw element (('<' :: inside ++ rest).drop i) = false := by
  intro i within
  cases i with
  | zero => exact front
  | succ i =>
      rw [← Bool.not_eq_true]
      intro ends
      obtain ⟨more, starts⟩ := closesRaw_bracket ends
      have short : i < inside.length := Nat.lt_of_succ_lt_succ within
      rw [List.cons_append, List.drop_succ_cons,
        List.drop_append_of_le_length (Nat.le_of_lt short)] at starts
      have some' : inside.drop i ≠ [] := fun nothing =>
        absurd (List.drop_eq_nil_iff.mp nothing) (Nat.not_le_of_lt short)
      obtain ⟨d, others, same⟩ := List.exists_cons_of_ne_nil some'
      rw [same, List.cons_append] at starts
      obtain ⟨rfl, -⟩ := List.cons.inj starts
      exact less (List.mem_of_mem_drop (same ▸ List.mem_cons_self))

/-- What is read in raw text: nothing more, the end tag of the element, or some characters in front
of which raw text does not end. -/
theorem readPiece_raw (raw : element ∈ rawTextElements) (final : Bool) {text : List Char}
    (some' : text ≠ []) :
    (breakWhere (startsEndTagOf element) text = none ∧
      readPiece final (.raw element) text = .stop []) ∨
    (∃ rest, closesRaw element text = true ∧ readEndTag (text.drop 2) = some (element, rest) ∧
      readPiece final (.raw element) text = .upTo text rest (some (.endTag element)) .markup) ∨
    ∃ chunk rest, chunk ≠ [] ∧ text = chunk ++ rest ∧
      (∀ i < chunk.length, closesRaw element (text.drop i) = false) ∧
      readPiece final (.raw element) text =
        .upTo text rest (some (.data chunk)) (.raw element) := by
  have data : ∀ chunk rest, text = chunk ++ rest →
      Outcome.dataUpTo text rest (.raw element) =
        .upTo text rest (some (.data chunk)) (.raw element) := by
    rintro chunk rest rfl
    rw [Outcome.dataUpTo, List.length_append, Nat.add_sub_cancel, List.take_left]
  rw [readPiece]
  cases broken : breakWhere (startsEndTagOf element) text with
  | none => exact Or.inl ⟨rfl, rfl⟩
  | some parts =>
      obtain ⟨before, behind⟩ := parts
      right
      obtain ⟨split, goes⟩ := breakWhere_eq_some broken
      have stops := breakWhere_stops broken
      cases before with
      | cons c before =>
          refine Or.inr ⟨c :: before, behind, List.cons_ne_nil _ _, split, fun i less => ?_, ?_⟩
          · rw [closesRaw, goes i less, Bool.false_and]
          · exact data _ _ split
      | nil =>
          obtain rfl : text = behind := split
          dsimp only
          rw [readRawClosing]
          cases closes : closesRaw element text with
          | true =>
              refine Or.inl ?_
              rw [closesRaw, stops, Bool.true_and, Option.any_eq_true] at closes
              obtain ⟨⟨name, rest⟩, read, same⟩ := closes
              obtain rfl := eq_of_beq same
              refine ⟨rest, rfl, read, ?_⟩
              rw [read]
              dsimp only
              rw [if_pos same]
          | false =>
              -- read past: the text up to the bracket, in which no tag starts
              obtain ⟨inside, rest, rfl, less, greater⟩ := startsEndTagOf_split raw stops
              have chunk : '<' :: inside ++ '>' :: rest = '<' :: (inside ++ ['>']) ++ rest := by
                simp
              have after : afterBracket ('<' :: inside ++ '>' :: rest) = rest :=
                afterBracket_append (by simp [greater]) rest
              refine Or.inr ⟨'<' :: (inside ++ ['>']), rest, List.cons_ne_nil _ _, chunk, ?_, ?_⟩
              · rw [chunk] at closes ⊢
                exact closesRaw_inside (by simp [less]) closes
              · rw [closesRaw, stops, Bool.true_and] at closes
                have own : Outcome.dataUpTo ('<' :: inside ++ '>' :: rest)
                    (afterBracket ('<' :: inside ++ '>' :: rest)) (.raw element) =
                      .upTo ('<' :: inside ++ '>' :: rest) rest
                        (some (.data ('<' :: (inside ++ ['>'])))) (.raw element) := by
                  rw [after]
                  exact data _ _ chunk
                split
                · next read =>
                    rw [read, Option.any_some] at closes
                    rw [closes]
                    exact own
                · exact own

/-! ## All of it -/

/-- What is read behind some events. -/
def PassResult.behind (events : List Located) (r : PassResult) : PassResult :=
  { r with events := events ++ r.events }

/-- Some events are data, none of them empty. -/
def AllData (events : List Located) : Prop :=
  ∀ located ∈ events, ∃ text, text ≠ [] ∧ located.event = .data text

/-- The data of events, one after the other. -/
def dataOf (events : List Located) : List Char :=
  events.flatMap fun located => match located.event with
    | .data text => text
    | _ => []

theorem readEndTag_suffix {text rest : List Char} {name : String}
    (h : readEndTag text = some (name, rest)) : rest <:+ text := by
  have blanks : text.dropWhile isBlank <:+ text := List.dropWhile_suffix _
  rw [readEndTag] at h
  split at h
  · cases h
  · next c cs same =>
      rw [same] at blanks
      split at h
      · split at h
        · next found =>
            cases h
            have left : ((cs.dropWhile isEndNameCharacter).dropWhile isBlank) <:+ cs :=
              (List.dropWhile_suffix _).trans (List.dropWhile_suffix _)
            rw [found] at left
            exact (List.suffix_cons _ _).trans (left.trans ((List.suffix_cons _ _).trans blanks))
        · cases h
      · cases h

/-- Raw text up to its end tag is read as data, and its end tag as such. -/
theorem pass_raw (raw : element ∈ rawTextElements) (final : Bool) {text before after : List Char}
    (h : breakWhere (closesRaw element) text = some (before, after)) (offset : Nat) :
    ∃ inside at' behind rest, AllData inside ∧ dataOf inside = before ∧
      readEndTag (after.drop 2) = some (element, rest) ∧
      pass final (.raw element) offset text =
        ((pass final .markup behind rest).push at' (some (.endTag element))).behind inside := by
  -- on the length of the text: each place that only looks like the end tag is one step
  induction size : text.length using Nat.strongRecOn generalizing text before offset with
  | ind n ih =>
      obtain ⟨split, goes⟩ := breakWhere_eq_some h
      obtain ⟨more, starts⟩ := closesRaw_bracket (breakWhere_stops h)
      have some' : text ≠ [] := by
        rw [split, starts]
        simp
      rcases readPiece_raw raw final some' with ⟨nowhere, -⟩ | ⟨rest, closes, read, piece⟩ |
        ⟨chunk, rest, chunkSome, rfl, open', piece⟩
      · -- raw text that ends somewhere looks like it there
        have less : before.length < text.length := by
          rw [split, starts, List.length_append, List.length_cons]
          omega
        have none := breakWhere_eq_none nowhere before.length less
        have here := breakWhere_stops h
        rw [split, List.drop_left] at none
        rw [closesRaw, none, Bool.false_and] at here
        cases here
      · obtain rfl : before = [] := by
          cases before with
          | nil => rfl
          | cons c before =>
              have first := goes 0 (Nat.zero_lt_succ _)
              rw [List.drop_zero, closes] at first
              cases first
        obtain rfl : text = after := split
        obtain ⟨chunk, whole⟩ := (readEndTag_suffix read).trans (List.drop_suffix 2 text)
        have chunkSome : chunk ≠ [] := by
          rintro rfl
          have shorter := (readEndTag_suffix read).length_le
          rw [show rest = text from whole, List.length_drop, starts, List.length_cons] at shorter
          omega
        refine ⟨[], offset, offset + chunk.length, rest, fun _ => nofun, rfl, read, ?_⟩
        rw [← whole] at piece ⊢
        exact pass_upTo chunkSome piece
      · rw [breakWhere_skip open'] at h
        obtain ⟨⟨before, after⟩, found, same⟩ := Option.map_eq_some_iff.mp h
        cases same
        have less : rest.length < n := by
          have := List.length_pos_iff.mpr chunkSome
          rw [← size, List.length_append]
          omega
        obtain ⟨inside, at', behind, left, data, all, read, later⟩ :=
          ih rest.length less found (offset + chunk.length) rfl
        refine ⟨⟨offset, .data chunk⟩ :: inside, at', behind, left,
          List.forall_mem_cons.mpr ⟨⟨chunk, chunkSome, rfl⟩, data⟩, ?_, read, ?_⟩
        · rw [← all]
          rfl
        · rw [pass_upTo chunkSome piece, later]
          rfl

/-- Raw text that does not end is read as data, and what is left of it does not end either. -/
theorem pass_raw_open (raw : element ∈ rawTextElements) (final : Bool) {text : List Char}
    (h : breakWhere (closesRaw element) text = none) (offset : Nat) :
    ∃ inside behind rest, AllData inside ∧ breakWhere (startsEndTagOf element) rest = none ∧
      pass final (.raw element) offset text = ⟨inside, .raw element, behind, rest, none⟩ := by
  induction size : text.length using Nat.strongRecOn generalizing text offset with
  | ind n ih =>
      by_cases nothing : text = []
      · subst nothing
        refine ⟨[], offset, [], fun _ => nofun, rfl, ?_⟩
        rw [pass]
      rcases readPiece_raw raw final nothing with ⟨nowhere, piece⟩ | ⟨rest, closes, -, -⟩ |
        ⟨chunk, rest, chunkSome, rfl, open', piece⟩
      · obtain ⟨c, cs, rfl⟩ := List.exists_cons_of_ne_nil nothing
        refine ⟨[], offset, c :: cs, fun _ => nofun, nowhere, ?_⟩
        rw [pass, piece]
        rfl
      · have here := breakWhere_eq_none h 0 (List.length_pos_iff.mpr nothing)
        rw [List.drop_zero, closes] at here
        cases here
      · rw [breakWhere_skip open', Option.map_eq_none_iff] at h
        have less : rest.length < n := by
          have := List.length_pos_iff.mpr chunkSome
          rw [← size, List.length_append]
          omega
        obtain ⟨inside, behind, left, data, nowhere, later⟩ :=
          ih rest.length less h (offset + chunk.length) rfl
        refine ⟨⟨offset, .data chunk⟩ :: inside, behind, left,
          List.forall_mem_cons.mpr ⟨⟨chunk, chunkSome, rfl⟩, data⟩, nowhere, ?_⟩
        rw [pass_upTo chunkSome piece, later]
        rfl

/-- Raw text before its end tag does not end earlier. -/
theorem noClosing_of_breakWhere (raw : element ∈ rawTextElements) {text before after : List Char}
    (h : breakWhere (closesRaw element) text = some (before, after)) :
    NoClosing element before := by
  obtain ⟨rfl, goes⟩ := breakWhere_eq_some h
  obtain ⟨more, rfl⟩ := closesRaw_bracket (breakWhere_stops h)
  intro i
  by_cases less : i < before.length
  · have none := goes i less
    rw [List.drop_append_of_le_length (Nat.le_of_lt less)] at none
    rwa [closesRaw_append raw] at none
    intro nothing
    exact absurd (List.drop_eq_nil_iff.mp nothing) (Nat.not_le_of_lt less)
  · rw [List.drop_of_length_le (Nat.le_of_not_lt less)]
    rfl

/-- The end tag of an element with raw text is read as such. -/
theorem readEndTag_element (raw : element ∈ rawTextElements) (rest : List Char) :
    readEndTag (element.toList ++ '>' :: rest) = some (element, rest) ∧
      closesRaw element ('<' :: '/' :: (element.toList ++ '>' :: rest)) = true := by
  have names : ∀ element ∈ rawTextElements, IsName element := by decide +kernel
  have isName := names element raw
  have read := readEndTag_name_bracket isName rest
  refine ⟨read, ?_⟩
  obtain ⟨first, others, split, letter⟩ := isName.1
  have plain := isAsciiAlphanumeric_name (isAsciiLetter_alphanumeric letter)
  have front : (element.toList ++ '>' :: rest).dropWhile isBlank =
      element.toList ++ '>' :: rest := by
    rw [split]
    exact List.dropWhile_cons_of_neg (by simp [plain.2.2.2.2.2.1])
  have close : ('>' :: rest).dropWhile isBlank = '>' :: rest :=
    List.dropWhile_cons_of_neg (by decide)
  have opened : after? ['<', '/'] ('<' :: '/' :: (element.toList ++ '>' :: rest)) =
      some (element.toList ++ '>' :: rest) := rfl
  have starts : startsEndTagOf element ('<' :: '/' :: (element.toList ++ '>' :: rest)) = true := by
    rw [startsEndTagOf, opened]
    dsimp only
    rw [front, afterName?_iff.mpr ⟨_, rfl, spellsAs_self _⟩]
    dsimp only
    rw [close]
    rfl
  rw [closesRaw, starts, List.drop_succ_cons, List.drop_succ_cons, List.drop_zero, read]
  exact beq_self_eq_true element

/-- Raw text that does not end earlier is read up to an end tag that is written behind it. -/
theorem breakWhere_endTag (raw : element ∈ rawTextElements) {text : List Char}
    (h : NoClosing element text) (rest : List Char) :
    breakWhere (closesRaw element) (text ++ '<' :: '/' :: (element.toList ++ '>' :: rest)) =
      some (text, '<' :: '/' :: (element.toList ++ '>' :: rest)) := by
  refine breakWhere_append (fun i less => ?_) (readEndTag_element raw rest).2
  rw [List.drop_append_of_le_length (Nat.le_of_lt less), closesRaw_append raw]
  · exact h i
  · intro nothing
    exact absurd (List.drop_eq_nil_iff.mp nothing) (Nat.not_le_of_lt less)

end MessageCatalog.Markup
