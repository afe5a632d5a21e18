import MessageCatalog.Message.Engine
import MessageCatalog.Proofs.Message.WellFormed
import MessageCatalog.Proofs.Number.Written
import MessageCatalog.Proofs.Script.Literal

/-!
# MessageCatalog.Proofs.Message.Lossless -- compiling loses nothing of a message

A script is put together without the lengths of its parts. What stands in front of each part says
which element it is of, a literal ends at its own closing quote, an offset at the comma behind it and
a list of elements or cases at a character that starts no further one. So the parts can be read off
one by one, and two messages with the same script are the same; only an empty text at the start of a
message leaves no trace, since a script starts with one anyway.
-/

namespace MessageCatalog.Message

open MessageCatalog.Number MessageCatalog.Script MessageCatalog.Text

/-! ## Messages without empty texts -/

mutual
/-- A message in which no text is empty, those of its cases included. -/
inductive NoEmptyText : Message → Prop where
  | nil : NoEmptyText []
  | cons {element : Element} {others : Message} :
      element.NoEmptyText → NoEmptyText others → NoEmptyText (element :: others)

/-- An element of such a message. -/
inductive Element.NoEmptyText : Element → Prop where
  | text {value : String} : value ≠ "" → (Element.text value).NoEmptyText
  | argument (name : String) : (Element.argument name).NoEmptyText
  | number : Element.number.NoEmptyText
  | format (name kind : String) (style : Option String) :
      (Element.format name kind style).NoEmptyText
  | select (name : String) {cases : Cases} :
      NoEmptyTextCases cases → (Element.select name cases).NoEmptyText
  | plural (name : String) (offset : Int) (ordinal : Bool) {cases : Cases} :
      NoEmptyTextCases cases → (Element.plural name offset ordinal cases).NoEmptyText

/-- The cases of a choice in such a message. -/
inductive NoEmptyTextCases : Cases → Prop where
  | nil : NoEmptyTextCases []
  | cons (key : String) {body : Message} {others : Cases} :
      NoEmptyText body → NoEmptyTextCases others → NoEmptyTextCases ((key, body) :: others)
end

variable {context : Context} {permitted : Permitted}

mutual
theorem WellFormed.noEmptyText {depth : Nat} {inPlural : Bool} {message : Message} :
    WellFormed context permitted depth inPlural message → NoEmptyText message
  | .nil => .nil
  | .cons fits _ others => .cons fits.noEmptyText others.noEmptyText

theorem Element.WellFormed.noEmptyText {depth : Nat} {inPlural : Bool} {element : Element} :
    element.WellFormed context permitted depth inPlural → element.NoEmptyText
  | .text present => .text present
  | .argument _ => .argument _
  | .number _ => .number
  | .format _ _ _ _ => .format _ _ _
  | .select _ _ _ fits => .select _ fits.noEmptyText
  | .plural _ _ _ _ fits => .plural _ _ _ fits.noEmptyText

theorem WellFormedCases.noEmptyText {depth : Nat} {inPlural : Bool}
    {categories : Option (List String)} {cases : Cases} :
    WellFormedCases context permitted depth inPlural categories cases → NoEmptyTextCases cases
  | .nil => .nil
  | .cons _ _ fits others => .cons _ fits.noEmptyText others.noEmptyText
end

/-! ## Parts without parts of their own -/

variable {locale : String} {rest behind : List Char}

theorem textLiteral_append_inj {value other : String}
    (h : textLiteral value ++ rest = textLiteral other ++ behind) :
    value = other ∧ rest = behind := by
  obtain ⟨same, rfl⟩ := literal_append_inj h
  exact ⟨String.toList_inj.mp same, rfl⟩

/-- The characters of whole numbers. -/
def isNumberCharacter (c : Char) : Bool := isAsciiDigit c || c == '-'

/-- The text of a number ends at the comma behind it. -/
theorem longestRun_number (n : Int) (tail : List Char) :
    LongestRun isNumberCharacter ((toString n).toList ++ ([','] ++ tail)) (toString n).toList
      ([','] ++ tail) := by
  have digits : ∀ c ∈ Nat.toDigits 10 n.natAbs, isNumberCharacter c = true := fun c there => by
    rw [isNumberCharacter, (isDigits_toDigits n.natAbs).2 c there, Bool.true_or]
  refine ⟨rfl, fun c there => ?_, ?_⟩
  · rw [toList_toString_int] at there
    split at there
    · rcases List.mem_cons.mp there with rfl | there
      · rfl
      · exact digits c there
    · exact digits c there
  · rintro _ ⟨⟩
    rfl

/-- Different numbers have different texts. -/
theorem toString_int_inj {n m : Int} (h : (toString n).toList = (toString m).toList) : n = m := by
  have apart : ∀ {k l : Nat}, Nat.toDigits 10 k ≠ '-' :: Nat.toDigits 10 l := by
    intro k l same
    have minus := (isDigits_toDigits k).2 '-' (by rw [same]; exact List.mem_cons_self)
    exact absurd minus (by decide)
  have digits : ∀ {k l : Nat}, Nat.toDigits 10 k = Nat.toDigits 10 l → k = l := by
    intro k l same
    rw [← numeral_toDigits k, same, numeral_toDigits]
  rw [toList_toString_int, toList_toString_int] at h
  split at h
  · split at h
    · have same := digits (List.cons.inj h).2
      omega
    · exact absurd h.symm apart
  · split at h
    · exact absurd h apart
    · have same := digits h
      omega

/-- An offset ends at the comma behind it. -/
theorem offset_append_inj {offset other : Int}
    (h : (toString offset).toList ++ ([','] ++ rest) =
      (toString other).toList ++ ([','] ++ behind)) : offset = other ∧ rest = behind := by
  obtain ⟨number, tail⟩ := longestRun_iff.mp (longestRun_number offset rest)
  obtain ⟨number', tail'⟩ := longestRun_iff.mp (longestRun_number other behind)
  rw [h, number'] at number
  rw [h, tail'] at tail
  exact ⟨toString_int_inj number.symm, (List.cons.inj tail).2.symm⟩

/-- A style in a script. -/
def styleScript : Option String → List Char
  | none => "null".toList
  | some style => textLiteral style

theorem script_format (name kind : String) (style : Option String) :
    (Element.format name kind style).script locale =
      "MessageFormat.f(d,".toList ++ textLiteral name ++ [','] ++ textLiteral kind ++ [','] ++
        styleScript style ++ [','] ++ textLiteral locale ++ [')'] := by
  cases style with
  | none | some _ => rw [Element.script, styleScript]

theorem styleScript_append_inj {style other : Option String}
    (h : styleScript style ++ rest = styleScript other ++ behind) :
    style = other ∧ rest = behind := by
  cases style with
  | none =>
      cases other with
      | none => exact ⟨rfl, List.append_cancel_left h⟩
      | some _ => simp [styleScript, textLiteral, literal, Script.quote] at h
  | some text =>
      cases other with
      | none => simp [styleScript, textLiteral, literal, Script.quote] at h
      | some _ =>
          obtain ⟨rfl, rfl⟩ := textLiteral_append_inj h
          exact ⟨rfl, rfl⟩

theorem ordinal_append_inj {ordinal other : Bool}
    (h : (if ordinal then "true" else "false").toList ++ rest =
      (if other then "true" else "false").toList ++ behind) : ordinal = other ∧ rest = behind := by
  cases ordinal <;> cases other <;> simp at h <;> simp [h]

/-! ## Which element it is -/

/-- What the script of an element starts with. -/
def Element.opening : Element → String
  | .text _ => "\""
  | .argument _ => "MessageFormat.v(d,"
  | .number => "MessageFormat.n(n)"
  | .format _ _ _ => "MessageFormat.f(d,"
  | .select _ _ => "MessageFormat.s(d,"
  | .plural _ _ _ _ => "MessageFormat.p(d,"

theorem Element.opening_isPrefix (element : Element) (locale : String) (rest : List Char) :
    element.opening.toList <+: element.script locale ++ rest := by
  cases element with
  | format _ _ style =>
      cases style with
      | none | some _ =>
          rw [Element.script, Element.opening]
          simp only [List.append_assoc]
          exact List.prefix_append _ _
  | number =>
      rw [Element.script, Element.opening]
      exact List.prefix_append _ _
  | text | argument | select | plural =>
      rw [Element.script, Element.opening]
      simp only [textLiteral, literal, Script.quote, List.append_assoc]
      exact List.prefix_append _ _

/-- The openings of all elements. -/
def openings : List String :=
  ["\"", "MessageFormat.v(d,", "MessageFormat.n(n)", "MessageFormat.f(d,", "MessageFormat.s(d,",
    "MessageFormat.p(d,"]

theorem Element.opening_mem (element : Element) : element.opening ∈ openings := by
  cases element <;> simp [Element.opening, openings]

/-- The scripts of different kinds of elements start differently. -/
theorem Element.opening_eq {element other : Element}
    (h : element.script locale ++ rest = other.script locale ++ behind) :
    element.opening = other.opening := by
  have apart : ∀ a ∈ openings, ∀ b ∈ openings, a.toList <+: b.toList → a = b := by decide
  have first := element.opening_isPrefix locale rest
  have second := other.opening_isPrefix locale behind
  rw [← h] at second
  rcases List.prefix_or_prefix_of_prefix first second with front | front
  · exact apart _ element.opening_mem _ other.opening_mem front
  · exact (apart _ other.opening_mem _ element.opening_mem front).symm

/-! ## Elements, cases and messages -/

/-- The text that the script of a message starts with, and the elements that it does not hold. -/
def leading : Message → String × Message
  | .text value :: others => (value, others)
  | message => ("", message)

theorem messageScript_eq (message : Message) :
    messageScript locale message =
      textLiteral (leading message).1 ++ moreElements locale (leading message).2 := by
  match message with
  | [] | .text _ :: _ | .argument _ :: _ | .number :: _ | .format _ _ _ :: _ | .select _ _ :: _
  | .plural _ _ _ _ :: _ =>
      simp [messageScript, leading, moreElements, textLiteral, literal, escape, Script.quote]

/-- A message without empty texts is known from the two. -/
theorem NoEmptyText.withText_leading {message : Message} (h : NoEmptyText message) :
    withText (leading message).1.toList (leading message).2 = message := by
  cases h with
  | nil => rfl
  | cons fits _ =>
      cases fits with
      | text present => simp [Message.leading, withText, present]
      | argument _ | number | format _ _ _ | select _ _ | plural _ _ _ _ => rfl

theorem NoEmptyText.leading {message : Message} (h : NoEmptyText message) :
    NoEmptyText (leading message).2 := by
  cases h with
  | nil => exact .nil
  | @cons element _ fits others =>
      cases element with
      | text _ => exact others
      | argument | number | format | select | plural => exact .cons fits others

/-- The elements of a message can be read off where the expression ends behind them. -/
def Readable (locale : String) (message : Message) : Prop :=
  ∀ other rest behind, NoEmptyText other →
    moreElements locale message ++ ';' :: rest = moreElements locale other ++ ';' :: behind →
      message = other ∧ rest = behind

theorem Readable.leading {message : Message} (h : Readable locale message)
    (fits : NoEmptyText message) : Readable locale (leading message).2 := by
  cases fits with
  | nil => exact h
  | cons fits _ =>
    cases fits with
    | @text value present =>
        intro other rest behind fits same
        have whole := h (.text value :: other) rest behind (.cons (.text present) fits)
          (by simpa [moreElements, Element.script, Message.leading] using same)
        exact ⟨(List.cons.inj whole.1).2, whole.2⟩
    | argument _ | number | format _ _ _ | select _ _ | plural _ _ _ _ => exact h

theorem Readable.messageScript {message other : Message} (h : Readable locale message)
    (fits : NoEmptyText message) (fits' : NoEmptyText other)
    (same : messageScript locale message ++ ';' :: rest =
      messageScript locale other ++ ';' :: behind) : message = other ∧ rest = behind := by
  rw [messageScript_eq, messageScript_eq, List.append_assoc, List.append_assoc] at same
  obtain ⟨front, later⟩ := textLiteral_append_inj same
  obtain ⟨others, tail⟩ := h.leading fits _ _ _ fits'.leading later
  refine ⟨?_, tail⟩
  rw [← fits.withText_leading, ← fits'.withText_leading, front, others]

/-- The cases of a choice behind others can be read off where the object ends behind them. -/
def ReadableCases (locale : String) (cases : Cases) : Prop :=
  ∀ parameters other rest behind, NoEmptyTextCases other →
    moreCases locale parameters cases ++ '\x7d' :: rest =
        moreCases locale parameters other ++ '\x7d' :: behind →
      cases = other ∧ rest = behind

theorem Readable.caseScript {parameters : List Char} {key key' : String} {body body' : Message}
    (h : Readable locale body) (fits : NoEmptyText body) (fits' : NoEmptyText body')
    (same : caseScript locale parameters key body ++ rest =
      caseScript locale parameters key' body' ++ behind) :
    (key, body) = (key', body') ∧ rest = behind := by
  have close : ";\x7d".toList = [';', '\x7d'] := rfl
  simp only [Message.caseScript, close, List.append_assoc, List.cons_append, List.nil_append]
    at same
  obtain ⟨rfl, later⟩ := textLiteral_append_inj same
  have later := List.append_cancel_left (List.append_cancel_left (List.append_cancel_left later))
  obtain ⟨rfl, tail⟩ := h.messageScript fits fits' later
  exact ⟨rfl, (List.cons.inj tail).2⟩

/-- The object of cases is their list without the comma in front. -/
theorem casesScript_eq (parameters : List Char) (cases : Cases) :
    casesScript locale parameters cases =
      '\x7b' :: ((moreCases locale parameters cases).tail ++ ['\x7d']) := by
  match cases with
  | [] | (_, _) :: _ => simp [casesScript, moreCases]

theorem ReadableCases.casesScript {parameters : List Char} {cases other : Cases}
    (h : ReadableCases locale cases) (fits : NoEmptyTextCases other)
    (same : casesScript locale parameters cases ++ rest =
      casesScript locale parameters other ++ behind) : cases = other ∧ rest = behind := by
  simp only [casesScript_eq, List.cons_append, List.append_assoc, List.nil_append,
    List.cons.injEq, true_and] at same
  match cases, other with
  | [], [] => simpa [moreCases] using same
  | [], (_, _) :: _ | (_, _) :: _, [] =>
      simp [moreCases, caseScript, textLiteral, literal, Script.quote] at same
  | (_, _) :: _, (_, _) :: _ =>
      have front := congrArg (List.cons ',') same
      exact h parameters _ _ _ fits (by simpa [moreCases] using front)

mutual
-- Two messages are taken apart side by side. Where they go on with elements of different kinds, the
-- openings of these say so; where one of them ends, the character behind it does.
theorem NoEmptyText.readable {message : Message} : NoEmptyText message → Readable locale message
  | .nil, _, _, _, fits, same => by
      cases fits with
      | nil => simpa [moreElements] using same
      | cons _ _ => simp [moreElements] at same
  | .cons own others, _, _, _, fits, same => by
      cases fits with
      | nil => simp [moreElements] at same
      | cons own' others' =>
          simp only [moreElements, List.cons_append, List.append_assoc, List.cons.injEq, true_and]
            at same
          obtain ⟨rfl, later⟩ := own.script_append_inj own' same
          obtain ⟨rfl, tail⟩ := others.readable _ _ _ others' later
          exact ⟨rfl, tail⟩

theorem Element.NoEmptyText.script_append_inj {element other : Element} {rest behind : List Char} :
    element.NoEmptyText → other.NoEmptyText →
      element.script locale ++ rest = other.script locale ++ behind →
        element = other ∧ rest = behind
  | .text _, fits, same => by
      cases fits with
      | text _ =>
          rw [Element.script, Element.script] at same
          obtain ⟨rfl, tail⟩ := textLiteral_append_inj same
          exact ⟨rfl, tail⟩
      | _ => exact absurd (Element.opening_eq same) (by simp [Element.opening])
  | .argument _, fits, same => by
      cases fits with
      | argument _ =>
          simp only [Element.script, List.append_assoc] at same
          obtain ⟨rfl, tail⟩ := textLiteral_append_inj (List.append_cancel_left same)
          exact ⟨rfl, List.append_cancel_left tail⟩
      | _ => exact absurd (Element.opening_eq same) (by simp [Element.opening])
  | .number, fits, same => by
      cases fits with
      | number => exact ⟨rfl, List.append_cancel_left same⟩
      | _ => exact absurd (Element.opening_eq same) (by simp [Element.opening])
  | .format _ _ _, fits, same => by
      cases fits with
      | format _ _ _ =>
          simp only [script_format, List.append_assoc] at same
          obtain ⟨rfl, kinds⟩ := textLiteral_append_inj (List.append_cancel_left same)
          obtain ⟨rfl, styles⟩ := textLiteral_append_inj (List.append_cancel_left kinds)
          obtain ⟨rfl, locales⟩ := styleScript_append_inj (List.append_cancel_left styles)
          obtain ⟨-, tail⟩ := textLiteral_append_inj (List.append_cancel_left locales)
          exact ⟨rfl, List.append_cancel_left tail⟩
      | _ => exact absurd (Element.opening_eq same) (by simp [Element.opening])
  | .select _ cases, fits, same => by
      cases fits with
      | select _ cases' =>
          simp only [Element.script, List.append_assoc] at same
          obtain ⟨rfl, lists⟩ := textLiteral_append_inj (List.append_cancel_left same)
          obtain ⟨rfl, tail⟩ := cases.readable.casesScript cases' (List.append_cancel_left lists)
          exact ⟨rfl, List.append_cancel_left tail⟩
      | _ => exact absurd (Element.opening_eq same) (by simp [Element.opening])
  | .plural _ _ _ cases, fits, same => by
      cases fits with
      | plural _ _ _ cases' =>
          simp only [Element.script, List.append_assoc] at same
          obtain ⟨rfl, offsets⟩ := textLiteral_append_inj (List.append_cancel_left same)
          obtain ⟨rfl, locales⟩ := offset_append_inj (List.append_cancel_left offsets)
          obtain ⟨-, ordinals⟩ := textLiteral_append_inj locales
          obtain ⟨rfl, lists⟩ := ordinal_append_inj (List.append_cancel_left ordinals)
          obtain ⟨rfl, tail⟩ := cases.readable.casesScript cases' (List.append_cancel_left lists)
          exact ⟨rfl, List.append_cancel_left tail⟩
      | _ => exact absurd (Element.opening_eq same) (by simp [Element.opening])

theorem NoEmptyTextCases.readable {cases : Cases} :
    NoEmptyTextCases cases → ReadableCases locale cases
  | .nil, _, _, _, _, fits, same => by
      cases fits with
      | nil => simpa [moreCases] using same
      | cons _ _ _ => simp [moreCases] at same
  | .cons _ body others, _, _, _, _, fits, same => by
      cases fits with
      | nil => simp [moreCases] at same
      | cons _ body' others' =>
          simp only [moreCases, List.cons_append, List.append_assoc, List.cons.injEq, true_and]
            at same
          obtain ⟨first, later⟩ := body.readable.caseScript body body' same
          obtain ⟨rfl, tail⟩ := others.readable _ _ _ _ others' later
          exact ⟨by rw [first], tail⟩
end

/-- With one locale, different messages without empty texts have different scripts. -/
theorem NoEmptyText.eq_of_compile {message other : Message} (fits : NoEmptyText message)
    (fits' : NoEmptyText other) (same : compile locale message = compile locale other) :
    message = other := by
  have close : ";\x7d".toList = [';', '\x7d'] := rfl
  unfold compile at same
  rw [close, List.append_assoc, List.append_assoc] at same
  have inside := List.append_cancel_left same
  exact (fits.readable.messageScript fits fits' inside).1

/-- Compiling loses nothing of a message: two texts of a locale have the same script exactly when they
are read as the same message, and so do any two messages without empty texts. -/
theorem compile_lossless :
    (∀ (engine : Engine) (text other : List Char),
      (∃ message, engine.parse text = .ok message) → (∃ message, engine.parse other = .ok message) →
        (engine.compile text = engine.compile other ↔ engine.parse text = engine.parse other)) ∧
    ∀ (locale : String) (message other : Message), NoEmptyText message → NoEmptyText other →
      compile locale message = compile locale other → message = other := by
  refine ⟨fun engine text other => ?_, fun _ _ _ fits fits' => fits.eq_of_compile fits'⟩
  rintro ⟨message, read⟩ ⟨message', read'⟩
  have fits := (wellFormed_of_parse read).noEmptyText
  have fits' := (wellFormed_of_parse read').noEmptyText
  rw [Engine.compile, Engine.compile, read, read']
  constructor
  · intro same
    rw [fits.eq_of_compile fits' (Except.ok.inj same)]
  · intro same
    rw [Except.ok.inj same]

end MessageCatalog.Message
