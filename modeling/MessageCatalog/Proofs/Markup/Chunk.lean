import MessageCatalog.Markup.Render
import MessageCatalog.Proofs.Markup.StartTag
import MessageCatalog.Proofs.Text.Search

/-!
# MessageCatalog.Proofs.Markup.Chunk -- text that is read chunk by chunk

Markup that was written from a tree is a sequence of chunks: single characters of text, references,
tags and sections of character data. Each is read for itself, whatever follows, except that
characters of text next to each other are one event. So all of such a text is read in the first
pass, and no chunk is taken for anything else.

The characters of markup are written as named references, and resolving the references of a value
gives the characters back. Which other names there are does not matter: a written reference ends in
a semicolon, so that its name is known to the letter.
-/

namespace MessageCatalog.Markup

open MessageCatalog.Text

/-! ## The references that are written -/

/-- A reference that is written for a character of markup. -/
inductive Written where
  | ampersand
  | less
  | greater
  | quotation
  deriving DecidableEq

namespace Written

/-- The character that a reference stands for. -/
def char : Written → Char
  | ampersand => '&'
  | less => '<'
  | greater => '>'
  | quotation => '"'

/-- The name of a reference. -/
def name : Written → List Char
  | ampersand => ['a', 'm', 'p']
  | less => ['l', 't']
  | greater => ['g', 't']
  | quotation => ['q', 'u', 'o', 't']

/-- A reference as it is written. -/
def text (w : Written) : List Char := '&' :: w.name ++ [';']

end Written

set_option maxRecDepth 4000 in
/-- The table has the names that are written, and under the characters that they stand for. -/
theorem namedReference?_name (w : Written) : namedReference? (w.name ++ [';']) = some [w.char] := by
  have wanted : ∀ name text : String,
      (namedReferences.find? fun entry => entry.1 == name) = some (name, text) →
        namedReference? name.toList = some text.toList := by
    intro name text found
    rw [namedReference?, String.ofList_toList, found]
    rfl
  -- the table is searched part by part, up to the part that has the name
  cases w with
  | ampersand =>
      refine wanted "amp;" "&" ?_
      simp only [namedReferences, Array.find?_append, referencesPart00, referencesPart01,
        referencesPart02, referencesPart03, referencesPart04, referencesPart05, List.find?_toArray,
        List.find?_cons, List.find?_nil, String.reduceBEq, Option.none_or, Option.some_or]
  | less =>
      refine wanted "lt;" "<" ?_
      simp only [namedReferences, Array.find?_append, referencesPart00, referencesPart01,
        referencesPart02, referencesPart03, referencesPart04, referencesPart05, referencesPart06,
        referencesPart07, referencesPart08, referencesPart09, referencesPart10, List.find?_toArray,
        List.find?_cons, List.find?_nil, String.reduceBEq, Option.none_or, Option.some_or]
  | greater =>
      refine wanted "gt;" ">" ?_
      simp only [namedReferences, Array.find?_append, referencesPart00, referencesPart01,
        referencesPart02, referencesPart03, referencesPart04, referencesPart05, referencesPart06,
        referencesPart07, referencesPart08, List.find?_toArray, List.find?_cons, List.find?_nil,
        String.reduceBEq, Option.none_or, Option.some_or]
  | quotation =>
      refine wanted "quot;" "\"" ?_
      simp only [namedReferences, Array.find?_append, referencesPart00, referencesPart01,
        referencesPart02, referencesPart03, referencesPart04, referencesPart05, referencesPart06,
        referencesPart07, referencesPart08, referencesPart09, referencesPart10, referencesPart11,
        referencesPart12, referencesPart13, List.find?_toArray, List.find?_cons, List.find?_nil,
        String.reduceBEq, Option.none_or, Option.some_or]

/-! ## Values -/

theorem resolveFrom_append (skipped text : List Char) :
    resolveFrom skipped.length (skipped ++ text) = resolveFrom 0 text := by
  induction skipped with
  | nil => rfl
  | cons c rest ih => exact ih

theorem resolveFrom_cons {c : Char} (h : c ≠ '&') (text : List Char) :
    resolveFrom 0 (c :: text) = c :: resolveFrom 0 text := by
  simp [resolveFrom, h]

/-- A written reference is read up to its semicolon, whatever follows. -/
theorem readReference_name (w : Written) (rest : List Char) :
    readReference (w.name ++ ';' :: rest) = some ([w.char], (w.name ++ [';']).length) := by
  have known := namedReference?_name w
  cases w <;> simp_all [Written.name, Written.char, readReference, isReferenceCharacter]

theorem resolveFrom_written (w : Written) (rest : List Char) :
    resolveFrom 0 (w.text ++ rest) = w.char :: resolveFrom 0 rest := by
  have skipped := resolveFrom_append (w.name ++ [';']) rest
  rw [List.append_assoc] at skipped
  show resolveFrom 0 ('&' :: (w.name ++ [';'] ++ rest)) = _
  rw [List.append_assoc, List.singleton_append, resolveFrom]
  simp only [beq_self_eq_true, if_true, readReference_name]
  rw [← skipped]
  rfl

/-- A character of a value as it is written: itself, or a reference for it. -/
inductive WrittenAs : Char → List Char → Prop where
  | plain {c : Char} : c ≠ '&' → c ≠ '<' → c ≠ '>' → WrittenAs c [c]
  | reference (w : Written) : WrittenAs w.char w.text

/-- A value that is written character by character is read as it was. -/
theorem resolve_flatMap {write : Char → List Char} (h : ∀ c, WrittenAs c (write c))
    (value : List Char) : resolve (value.flatMap write) = value := by
  induction value with
  | nil => rfl
  | cons c rest ih =>
      rw [List.flatMap_cons]
      unfold resolve at ih ⊢
      have one := h c
      generalize write c = text at one
      cases one with
      | plain other _ _ =>
          rw [List.singleton_append, resolveFrom_cons other, ih]
      | reference w => rw [resolveFrom_written, ih]

/-! ## Pieces -/

/-- A chunk of written markup. -/
inductive Chunk where
  | plain (c : Char)
  | reference (w : Written)
  | opening (name : String) (attributes : List WrittenAttribute)
  | closing (name : String)
  | data (chars : List Char)

/-- What a section of character data starts with, behind its bracket and mark. -/
def sectionName : List Char := ['C', 'D', 'A', 'T', 'A', '[']

namespace Chunk

/-- A chunk as it is written. -/
def text : Chunk → List Char
  | plain c => [c]
  | reference w => w.text
  | opening name attributes => '<' :: startTagText name attributes []
  | closing name => '<' :: '/' :: name.toList ++ ['>']
  | data chars => '<' :: '!' :: '[' :: sectionName ++ chars ++ [']', ']', '>']

/-- The event that a chunk is read as. -/
def event : Chunk → Event
  | plain c => .data [c]
  | reference w => .named w.name
  | opening name attributes => .startTag name (attributes.map WrittenAttribute.read) false
  | closing name => .endTag name
  | data chars => .marked (sectionName ++ chars)

/-- What a chunk has to be like to be read as it is meant. -/
def Proper : Chunk → Prop
  | plain c => startsConstruct c = false
  | reference _ => True
  | opening name attributes =>
    IsName name ∧ (∀ a ∈ attributes, a.Proper) ∧ name ∉ rawTextElements
  | closing name => IsName name
  | data chars => ∀ i, startsSectionEnd 2 (chars.drop i) = false

end Chunk

/-- Pieces one after the other. -/
def textOf (chunks : List Chunk) : List Char := chunks.flatMap Chunk.text

/-! ## Start tags -/

theorem readPiece_bracket (final : Bool) (text : List Char) :
    readPiece final .markup ('<' :: text) = readBracket final ('<' :: text) := rfl

theorem readPiece_ampersand (final : Bool) (text : List Char) :
    readPiece final .markup ('&' :: text) = readAmpersand final ('&' :: text) := rfl

theorem readPiece_opening {final : Bool} {name : String} {attributes : List WrittenAttribute}
    (proper : (Chunk.opening name attributes).Proper) (rest : List Char) :
    readPiece final .markup ('<' :: startTagText name attributes rest) =
      .upTo ('<' :: startTagText name attributes rest) rest
        (some (Chunk.opening name attributes).event) .markup := by
  obtain ⟨isName, all, notRaw⟩ := proper
  obtain ⟨first, others, split, letter⟩ := isName.1
  have read := readStartTag_text isName all rest
  have starts : startTagText name attributes rest =
      first :: (others ++ attributesText attributes rest) := by
    rw [startTagText, split]
    rfl
  have mode : rawTextElements.contains name = false := by simpa using notRaw
  rw [readPiece_bracket, readBracket, List.drop_succ_cons, List.drop_zero]
  rw [starts] at read ⊢
  simp only [letter, if_true]
  rw [readOpening, List.drop_succ_cons, List.drop_zero, read]
  simp only [mode, Bool.and_false, Bool.false_eq_true, if_false]
  rfl

/-! ## End tags -/

theorem upToBracket?_append {before : List Char} (h : '>' ∉ before) (rest : List Char) :
    upToBracket? (before ++ '>' :: rest) = some (before, rest) := by
  have goes : ∀ i < before.length, startsWith ['>'] ((before ++ '>' :: rest).drop i) = false := by
    intro i less
    rw [List.drop_append_of_le_length (Nat.le_of_lt less)]
    cases there : before.drop i with
    | nil => exact absurd (List.drop_eq_nil_iff.mp there) (by omega)
    | cons c others =>
        have inside : c ∈ before := List.mem_of_mem_drop (by rw [there]; exact List.mem_cons_self)
        have other : '>' ≠ c := fun e => h (e ▸ inside)
        simp [startsWith, after?, other]
  have stops : startsWith ['>'] ('>' :: rest) = true := rfl
  rw [upToBracket?, splitAtFirst, breakWhere_append goes stops]
  rfl

/-- The name of an end tag is read up to the bracket that is written behind it. -/
theorem readEndTag_name_bracket {name : String} (isName : IsName name) (rest : List Char) :
    readEndTag (name.toList ++ '>' :: rest) = some (name, rest) := by
  obtain ⟨first, others, split, letter⟩ := isName.1
  have plain := isAsciiAlphanumeric_name (isAsciiLetter_alphanumeric letter)
  have inside : ∀ c ∈ others, isEndNameCharacter c = true := fun c there =>
    (isAsciiAlphanumeric_name
      (isName.2 c (by rw [split]; exact List.mem_cons_of_mem _ there)).1).2.2.2.2.1
  have whole : nameOf (first :: others) = name := by
    rw [← split]
    exact isName.nameOf_eq
  have front : (first :: (others ++ '>' :: rest)).dropWhile isBlank =
      first :: (others ++ '>' :: rest) :=
    List.dropWhile_cons_of_neg (by simp [plain.2.2.2.2.2.1])
  rw [split, readEndTag, List.cons_append, front]
  simp only [letter, if_true, List.takeWhile_append_of_pos inside,
    List.dropWhile_append_of_pos inside]
  simp [show isEndNameCharacter '>' = false from rfl, show isBlank '>' = false from rfl, whole]

theorem readPiece_closing {final : Bool} {name : String} (isName : IsName name)
    (rest : List Char) :
    readPiece final .markup ((Chunk.closing name).text ++ rest) =
      .upTo ((Chunk.closing name).text ++ rest) rest (some (.endTag name)) .markup := by
  have open' : '>' ∉ name.toList := fun there => absurd (isName.2 _ there).1 (by decide)
  have start : (Chunk.closing name).text ++ rest = '<' :: '/' :: (name.toList ++ '>' :: rest) := by
    rw [Chunk.text, List.append_assoc, List.cons_append, List.cons_append]
    rfl
  rw [start]
  rw [readPiece_bracket, readBracket, List.drop_succ_cons, List.drop_zero]
  simp only [show isAsciiLetter '/' = false from rfl, Bool.false_eq_true, if_false,
    beq_self_eq_true, if_true]
  rw [readClosing, List.drop_succ_cons, List.drop_succ_cons, List.drop_zero]
  simp only [upToBracket?_append open', readEndTag_name_bracket isName rest]

/-! ## References and characters -/

theorem readReferenceName_name (w : Written) (rest : List Char) :
    readReferenceName (w.name ++ ';' :: rest) = some w.name := by
  cases w <;>
    simp [Written.name, readReferenceName, isAsciiLetter, isReferenceNameCharacter,
      isAsciiAlphanumeric, isAsciiDigit]

theorem readPiece_reference {final : Bool} (w : Written) (rest : List Char) :
    readPiece final .markup (w.text ++ rest) =
      .upTo (w.text ++ rest) rest (some (.named w.name)) .markup := by
  have read := readReferenceName_name w rest
  have start : w.text ++ rest = '&' :: (w.name ++ ';' :: rest) := by simp [Written.text]
  rw [start]
  have some' : ∃ first others, w.name = first :: others ∧ first ≠ '#' := by
    cases w <;> exact ⟨_, _, rfl, by decide⟩
  obtain ⟨first, others, name, mark⟩ := some'
  rw [readPiece_ampersand, readAmpersand, List.drop_succ_cons, List.drop_zero]
  rw [name] at read ⊢
  rw [List.cons_append] at read ⊢
  split
  · next h => cases h
  · next h => exact absurd (List.cons.inj h).1 mark
  · next c cs _ h =>
      cases h
      rw [read]
      dsimp only
      rw [← List.cons_append, List.drop_left]
      simp [Outcome.upTo, semicolonSize]
      omega

/-! ## Sections of character data -/

theorem startsSectionEnd_cons (brackets : Nat) (c : Char) (text : List Char) :
    startsSectionEnd (brackets + 1) (c :: text) =
      (c == ']' && startsSectionEnd brackets (text.dropWhile isBlank)) := by
  by_cases bracket : c = ']'
  · subst bracket
    rfl
  · have other : (c == ']') = false := beq_false_of_ne bracket
    rw [startsSectionEnd, other, Bool.false_and]
    intro _ same
    exact absurd (List.cons.inj same).1 bracket

/-- What ends a section in a text ends it there when more follows. -/
theorem startsSectionEnd_append {brackets : Nat} {text : List Char}
    (h : startsSectionEnd brackets text = true) (rest : List Char) :
    startsSectionEnd brackets (text ++ rest) = true := by
  induction brackets generalizing text with
  | zero =>
      cases text with
      | nil => cases h
      | cons c text => exact h
  | succ brackets ih =>
      cases text with
      | nil => cases h
      | cons c text =>
          rw [startsSectionEnd_cons, Bool.and_eq_true] at h
          rw [List.cons_append, startsSectionEnd_cons, h.1, Bool.true_and, List.dropWhile_append]
          split
          · next empty =>
              rw [List.isEmpty_iff.mp empty] at h
              cases brackets <;> cases h.2
          · exact ih h.2

/-- No end of a section starts in a text and ends in the brackets that are written behind it. -/
theorem startsSectionEnd_brackets {brackets : Nat} {text : List Char} (some : text ≠ [])
    (rest : List Char) (h : startsSectionEnd brackets text = false) (few : brackets ≤ 2) :
    startsSectionEnd brackets (text ++ ']' :: ']' :: rest) = false := by
  induction brackets generalizing text with
  | zero =>
      cases text with
      | nil => exact absurd rfl some
      | cons c text => exact h
  | succ brackets ih =>
      cases text with
      | nil => exact absurd rfl some
      | cons c text =>
          rw [startsSectionEnd_cons, Bool.and_eq_false_iff] at h
          rw [List.cons_append, startsSectionEnd_cons, Bool.and_eq_false_iff]
          refine h.imp_right fun own => ?_
          rw [List.dropWhile_append]
          -- where only blanks are left, the two brackets are too few
          split
          · match brackets, few with
            | 0, _ => rfl
            | 1, _ => rfl
          · next more =>
              exact ih (fun none => more (List.isEmpty_iff.mpr none)) own (by omega)

theorem breakWhere_sectionEnd {chars : List Char}
    (proper : ∀ i, startsSectionEnd 2 (chars.drop i) = false) (rest : List Char) :
    breakWhere (startsSectionEnd 2) (sectionName ++ chars ++ ']' :: ']' :: '>' :: rest) =
      some (sectionName ++ chars, ']' :: ']' :: '>' :: rest) := by
  refine breakWhere_append ?_ rfl
  intro i less
  rw [List.drop_append_of_le_length (Nat.le_of_lt less)]
  refine startsSectionEnd_brackets ?_ _ ?_ (Nat.le_refl 2)
  · intro none
    exact absurd (List.drop_eq_nil_iff.mp none) (by omega)
  · -- no letter of the name is a bracket that closes
    match i with
    | 0 | 1 | 2 | 3 | 4 | 5 => rfl
    | i + 6 => exact proper i

theorem readPiece_data {final : Bool} {chars : List Char} (proper : (Chunk.data chars).Proper)
    (rest : List Char) :
    readPiece final .markup ((Chunk.data chars).text ++ rest) =
      .upTo ((Chunk.data chars).text ++ rest) rest (some (Chunk.data chars).event) .markup := by
  have start : (Chunk.data chars).text ++ rest =
      '<' :: '!' :: '[' :: (sectionName ++ chars ++ ']' :: ']' :: '>' :: rest) := by
    simp [Chunk.text]
  have ends : enclosed? (startsSectionEnd 2) (sectionName ++ chars ++ ']' :: ']' :: '>' :: rest) =
      some (sectionName ++ chars, rest) := by
    rw [enclosed?, breakWhere_sectionEnd proper]
    rfl
  have name : nameOf ['C', 'D', 'A', 'T', 'A'] = "cdata" := by decide +kernel
  have double : doubleBracketSections.contains "cdata" = true := by decide +kernel
  rw [start, readPiece_bracket, readBracket, List.drop_succ_cons, List.drop_zero]
  simp only [show isAsciiLetter '!' = false from rfl, show ('!' == '/') = false from rfl,
    show ('!' == '?') = false from rfl, Bool.false_eq_true, if_false, beq_self_eq_true, if_true]
  rw [if_neg (by simp [startsWith, after?])]
  -- the name ends at its bracket, so what follows it can be left open
  generalize whole : sectionName ++ chars ++ ']' :: ']' :: '>' :: rest = inside at *
  obtain ⟨more, rfl⟩ : ∃ more, inside = 'C' :: 'D' :: 'A' :: 'T' :: 'A' :: '[' :: more :=
    ⟨_, whole.symm⟩
  have letters : ('D' :: 'A' :: 'T' :: 'A' :: '[' :: more).takeWhile isSectionNameCharacter =
      ['D', 'A', 'T', 'A'] := rfl
  have others : ('D' :: 'A' :: 'T' :: 'A' :: '[' :: more).dropWhile isSectionNameCharacter =
      '[' :: more := rfl
  have none : ('[' :: more).takeWhile isBlank = [] := rfl
  have long : ¬('C' :: 'D' :: 'A' :: 'T' :: 'A' :: '[' :: more).length ≤
      ['C', 'D', 'A', 'T', 'A'].length + ([] : List Char).length := by
    simp only [List.length_cons, List.length_nil]
    omega
  rw [show ∀ text, readDeclaration final ('<' :: '!' :: '[' :: text) =
    readSection final ('<' :: '!' :: '[' :: text) from fun _ => rfl]
  rw [readSection, List.drop_succ_cons, List.drop_succ_cons, List.drop_succ_cons, List.drop_zero]
  simp only [show isAsciiLetter 'C' = true from rfl, letters, others, none, if_neg long, name,
    double, if_true, ends]
  rfl

/-! ## Any chunk -/

/-- A chunk that is no character of text is read for itself. -/
theorem readPiece_chunk {final : Bool} {chunk : Chunk} (proper : chunk.Proper)
    (marked : ∀ c, chunk ≠ .plain c) (rest : List Char) :
    readPiece final .markup (chunk.text ++ rest) =
      .upTo (chunk.text ++ rest) rest (some chunk.event) .markup := by
  cases chunk with
  | plain c => exact absurd rfl (marked c)
  | reference w => exact readPiece_reference w rest
  | opening name attributes =>
      have same : (Chunk.opening name attributes).text ++ rest =
          '<' :: startTagText name attributes rest := by
        simp [Chunk.text, startTagText, attributesText]
      rw [same]
      exact readPiece_opening proper rest
  | closing name => exact readPiece_closing proper rest
  | data chars => exact readPiece_data proper rest

theorem Chunk.text_ne_nil (chunk : Chunk) : chunk.text ≠ [] := by
  cases chunk with
  | reference w => cases w <;> exact List.cons_ne_nil _ _
  | plain _ | opening _ _ | closing _ | data _ => exact List.cons_ne_nil _ _

end MessageCatalog.Markup
