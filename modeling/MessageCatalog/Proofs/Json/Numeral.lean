import MessageCatalog.Json.Reader
import MessageCatalog.Json.Writer
import MessageCatalog.Proofs.Number.Written
import MessageCatalog.Proofs.Text.Run

/-!
# MessageCatalog.Proofs.Json.Numeral -- numbers are read from what they are written as

A number is read up to the first character that does not go on with it. A whole number is read as
itself; a number with a fraction or an exponent is read as a number of that kind, the one nearest to
its digits.
-/

namespace MessageCatalog.Json

open MessageCatalog.Number MessageCatalog.Text

/-- What may stand behind a number: nothing that goes on with it. -/
def EndsNumber (rest : List Char) : Prop :=
  ∀ c ∈ rest.head?, isAsciiDigit c = false ∧ c ≠ '.' ∧ c ≠ 'e' ∧ c ≠ 'E'

theorem endsNumber_nil : EndsNumber [] := by
  intro c there
  cases there

theorem endsNumber_cons {c : Char} (digit : isAsciiDigit c = false) (point : c ≠ '.')
    (small : c ≠ 'e') (large : c ≠ 'E') (rest : List Char) : EndsNumber (c :: rest) := by
  intro d same
  cases same
  exact ⟨digit, point, small, large⟩

/-! ## Parts of a number -/

variable {rest : List Char}

theorem readWhole_append {whole : List Char} (h : IsWhole whole)
    (stops : ∀ c ∈ rest.head?, isAsciiDigit c = false) :
    readWhole (whole ++ rest) = some (whole, rest) := by
  obtain ⟨⟨some, all⟩, form⟩ := h
  cases whole with
  | nil => exact absurd rfl some
  | cons first others =>
      rcases form with zero | notZero
      · cases zero
        rfl
      · have inside : ∀ c ∈ others, isAsciiDigit c = true := fun c there =>
          all c (List.mem_cons_of_mem _ there)
        obtain ⟨taken, dropped⟩ := longestRun_iff.mp
          (⟨rfl, inside, stops⟩ : LongestRun isAsciiDigit (others ++ rest) others rest)
        rw [List.cons_append]
        unfold readWhole
        split
        · next other same =>
          exact absurd (congrArg List.head? same) notZero
        · next d other _ same =>
          cases same
          rw [if_pos (all first List.mem_cons_self), taken, dropped]
        · next same => cases same

theorem readFraction_append {digits : List Char} (h : IsDigits digits)
    (stops : ∀ c ∈ rest.head?, isAsciiDigit c = false) :
    readFraction ('.' :: digits ++ rest) = some (digits, rest) := by
  obtain ⟨some, all⟩ := h
  cases digits with
  | nil => exact absurd rfl some
  | cons first others =>
      have inside : ∀ c ∈ others, isAsciiDigit c = true := fun c there =>
        all c (List.mem_cons_of_mem _ there)
      obtain ⟨taken, dropped⟩ := longestRun_iff.mp
        (⟨rfl, inside, stops⟩ : LongestRun isAsciiDigit (others ++ rest) others rest)
      rw [List.cons_append, List.cons_append, readFraction, if_pos (all first List.mem_cons_self),
        taken, dropped]

theorem readFraction_none (h : rest.head? ≠ some '.') : readFraction rest = none := by
  unfold readFraction
  split
  · exact absurd rfl h
  · rfl

theorem readExponent_append {sign : Char} {size : List Char} (signed : sign = '-' ∨ sign = '+')
    (h : IsDigits size) (stops : ∀ c ∈ rest.head?, isAsciiDigit c = false) :
    readExponent ('e' :: sign :: size ++ rest) = some (signedSize sign size, rest) := by
  obtain ⟨taken, dropped⟩ := longestRun_iff.mp
    (⟨rfl, h.2, stops⟩ : LongestRun isAsciiDigit (size ++ rest) size rest)
  have digits : size.isEmpty = false := List.isEmpty_eq_false_iff.mpr h.1
  rw [List.cons_append, List.cons_append]
  rcases signed with rfl | rfl
  · simp [readExponent, taken, dropped, digits, signedSize]
  · simp [readExponent, taken, dropped, digits, signedSize]

theorem readExponent_none (ends : EndsNumber rest) : readExponent rest = none := by
  cases rest with
  | nil => rfl
  | cons c more =>
      obtain ⟨-, -, small, large⟩ := ends c rfl
      simp [readExponent, small, large]

/-! ## Numbers -/

/-- A natural with a sign. -/
theorem readUnsigned_whole {whole : List Char} (h : IsWhole whole) (ends : EndsNumber rest)
    (negative : Bool) :
    readUnsigned negative (whole ++ rest) =
      some (.int (if negative then -(numeral 10 whole : Int) else numeral 10 whole), rest) := by
  have stops : ∀ c ∈ rest.head?, isAsciiDigit c = false := fun c there => (ends c there).1
  have noPoint : rest.head? ≠ some '.' := fun there => (ends '.' there).2.1 rfl
  rw [readUnsigned, readWhole_append h stops]
  simp [readFraction_none noPoint, readExponent_none ends]

/-- A number with a fraction or an exponent is read as what its numeral spells. -/
theorem readUnsigned_spells {text : List Char} {digits : Nat} {power : Int}
    (h : Spells text digits power) (negative : Bool) (ends : EndsNumber rest) :
    readUnsigned negative (text ++ rest) =
      some (.real (Double.ofDecimal negative digits power), rest) := by
  obtain ⟨whole, fraction, exponent, tail, rfl, form, tailed, rfl, rfl⟩ := h
  have stops : ∀ c ∈ rest.head?, isAsciiDigit c = false := fun c there => (ends c there).1
  cases tailed with
  | fraction some =>
      have nonempty : fraction.isEmpty = false := List.isEmpty_eq_false_iff.mpr some.1
      rw [List.append_assoc, readUnsigned, readWhole_append form (by simp; decide)]
      dsimp only
      rw [readFraction_append some stops]
      dsimp only [Option.getD_some]
      rw [readExponent_none ends]
      dsimp only
      rw [if_neg (by simp [nonempty]), Int.zero_sub]
  | @exponent sign size signed others =>
      rw [List.append_assoc, readUnsigned, readWhole_append form (by simp; decide)]
      dsimp only
      rw [readFraction_none (by simp)]
      dsimp only [Option.getD_none]
      rw [readExponent_append signed others stops]
  | @both _ sign size some signed others =>
      rw [List.append_assoc, readUnsigned, readWhole_append form (by simp; decide)]
      dsimp only
      rw [List.append_assoc, readFraction_append some (by simp; decide)]
      dsimp only [Option.getD_some]
      rw [readExponent_append signed others stops]

/-! ## Scalars -/

theorem after?_cons_of_ne {p c : Char} (h : p ≠ c) (part text : List Char) :
    after? (p :: part) (c :: text) = none := by
  rw [after?, if_neg (by simpa using h)]

theorem isAsciiDigit_range {c : Char} (h : isAsciiDigit c = true) :
    '0'.toNat ≤ c.toNat ∧ c.toNat ≤ '9'.toNat := by
  have both : '0' ≤ c ∧ c ≤ '9' := by simpa [isAsciiDigit] using h
  exact both

/-- A digit is none of the other characters that a value starts with. -/
theorem isAsciiDigit_ne {c : Char} (h : isAsciiDigit c = true) {other : Char}
    (apart : other.toNat < '0'.toNat ∨ '9'.toNat < other.toNat) : other ≠ c := by
  rintro rfl
  have := isAsciiDigit_range h
  omega

/-- No constant starts with a digit. -/
theorem readScalar_digit {c : Char} {text : List Char} (digit : isAsciiDigit c = true)
    {result : Value × List Char} (read : readUnsigned false (c :: text) = some result) :
    readScalar (c :: text) = .ok result := by
  have word : ∀ p part, p.toNat < '0'.toNat ∨ '9'.toNat < p.toNat →
      after? (p :: part) (c :: text) = none := fun p part apart =>
    after?_cons_of_ne (isAsciiDigit_ne digit apart) part text
  have noConstant : constants.findSome? (fun constant =>
      (after? constant.1.toList (c :: text)).map fun rest => (constant.2, rest)) = none := by
    simp [constants, word]
  have number : readNumber (c :: text) = some result := by
    unfold readNumber
    split
    · next rest same =>
      cases same
      cases digit
    · exact read
  rw [readScalar, noConstant]
  simp only [number]

/-- Nor does one start with a sign and a digit. -/
theorem readScalar_minus {c : Char} {text : List Char} (digit : isAsciiDigit c = true)
    {result : Value × List Char} (read : readUnsigned true (c :: text) = some result) :
    readScalar ('-' :: c :: text) = .ok result := by
  have infinity : after? "-Infinity".toList ('-' :: c :: text) = none := by
    show after? ('I' :: _) (c :: text) = none
    exact after?_cons_of_ne (isAsciiDigit_ne digit (by decide)) _ text
  have noConstant : constants.findSome? (fun constant =>
      (after? constant.1.toList ('-' :: c :: text)).map fun rest => (constant.2, rest)) = none := by
    simp only [constants, List.findSome?_cons, infinity]
    rfl
  rw [readScalar, noConstant]
  simp only [readNumber, read]

theorem exists_cons_of_isWhole {whole : List Char} (h : IsWhole whole) :
    ∃ c rest, whole = c :: rest ∧ isAsciiDigit c = true := by
  obtain ⟨c, rest, rfl⟩ := List.exists_cons_of_ne_nil h.1.1
  exact ⟨c, rest, rfl, h.1.2 c List.mem_cons_self⟩

theorem exists_cons_of_spells {text : List Char} {digits : Nat} {power : Int}
    (h : Spells text digits power) : ∃ c rest, text = c :: rest ∧ isAsciiDigit c = true := by
  obtain ⟨whole, _, _, tail, rfl, form, -⟩ := h
  obtain ⟨c, rest, rfl, digit⟩ := exists_cons_of_isWhole form
  exact ⟨c, rest ++ tail, rfl, digit⟩

/-- A whole number is read as itself. -/
theorem readScalar_int (n : Int) (ends : EndsNumber rest) :
    readScalar ((toString n).toList ++ rest) = .ok (.int n, rest) := by
  have whole := isWhole_toDigits n.natAbs
  obtain ⟨c, others, first, digit⟩ := exists_cons_of_isWhole whole
  have read := readUnsigned_whole whole ends
  rw [numeral_toDigits, first] at read
  rw [toList_toString_int]
  split
  · next below =>
    have value : -(n.natAbs : Int) = n := by omega
    rw [first, List.cons_append, List.cons_append]
    apply readScalar_minus digit
    rw [← List.cons_append, read, if_pos rfl, value]
  · next above =>
    have value : (n.natAbs : Int) = n := by omega
    rw [first, List.cons_append]
    apply readScalar_digit digit
    rw [← List.cons_append, read, if_neg Bool.false_ne_true, value]

/-! ## How numbers start -/

/-- The characters that a written number starts with. -/
def StartsNumber (c : Char) : Prop := isAsciiDigit c = true ∨ c ∈ ['-', 'N', 'I']

theorem StartsNumber.ne {c other : Char} (h : StartsNumber c)
    (apart : other.toNat < '0'.toNat ∨ '9'.toNat < other.toNat) (named : other ∉ ['-', 'N', 'I']) :
    c ≠ other := by
  rcases h with digit | there
  · exact (isAsciiDigit_ne digit apart).symm
  · rintro rfl
    exact named there

theorem exists_cons_int (n : Int) :
    ∃ c more, (toString n).toList = c :: more ∧ StartsNumber c := by
  obtain ⟨c, more, first, digit⟩ := exists_cons_of_isWhole (isWhole_toDigits n.natAbs)
  rw [toList_toString_int]
  split
  · exact ⟨'-', _, rfl, Or.inr (by decide)⟩
  · exact ⟨c, more, first, Or.inl digit⟩

theorem exists_cons_real (x : Double) :
    ∃ c more, (x.render jsonNames).toList = c :: more ∧ StartsNumber c := by
  cases x with
  | nan => exact ⟨'N', _, rfl, Or.inr (by decide)⟩
  | infinite negative =>
      cases negative with
      | false => exact ⟨'I', _, rfl, Or.inr (by decide)⟩
      | true => exact ⟨'-', _, rfl, Or.inr (by decide)⟩
  | finite negative significand exponent =>
      obtain ⟨_, _, spells⟩ := isReal_magnitude significand exponent
      obtain ⟨c, more, first, digit⟩ := exists_cons_of_spells spells
      rw [toList_render_finite, first]
      cases negative with
      | false => exact ⟨c, _, rfl, Or.inl digit⟩
      | true => exact ⟨'-', _, rfl, Or.inr (by decide)⟩

theorem return_not_mem_int (n : Int) : '\r' ∉ (toString n).toList := by
  have digits : '\r' ∉ Nat.toDigits 10 n.natAbs := fun there =>
    absurd ((isDigits_toDigits n.natAbs).2 '\r' there) (by decide)
  rw [toList_toString_int]
  split
  · rw [List.mem_cons, not_or]
    exact ⟨by decide, digits⟩
  · exact digits

theorem return_not_mem_real (x : Double) : '\r' ∉ (x.render jsonNames).toList := by
  cases x with
  | nan => decide
  | infinite negative => cases negative <;> decide
  | finite negative significand exponent =>
      have digits : '\r' ∉ magnitude significand exponent := fun there => by
        rcases mem_isReal (isReal_magnitude significand exponent) there with digit | other
        · exact absurd digit (by decide)
        · exact absurd other (by decide)
      rw [toList_render_finite]
      cases negative with
      | false => exact digits
      | true => exact fun there => digits ((List.mem_cons.mp there).resolve_left (by decide))

/-! ## Numbers that were written -/

/-- A numeral behind its sign is read as what it spells. -/
theorem readScalar_spells {text : List Char} {digits : Nat} {power : Int}
    (h : Spells text digits power) (negative : Bool) (ends : EndsNumber rest) :
    readScalar ((if negative then '-' :: text else text) ++ rest) =
      .ok (.real (Double.ofDecimal negative digits power), rest) := by
  have number := readUnsigned_spells h negative ends
  obtain ⟨c, others, rfl, digit⟩ := exists_cons_of_spells h
  cases negative with
  | true => exact readScalar_minus digit number
  | false => exact readScalar_digit digit number

/-- What a number is read as when it has been written. -/
def reread (x : Double) : Double :=
  match readScalar (x.render jsonNames).toList with
  | .ok (.real y, _) => y
  | _ => x

theorem reread_spells {significand : Nat} {exponent : Int} {digits : Nat} {power : Int}
    (h : Spells (magnitude significand exponent) digits power) (negative : Bool) :
    reread (.finite negative significand exponent) = Double.ofDecimal negative digits power := by
  have alone := readScalar_spells h negative endsNumber_nil
  rw [List.append_nil] at alone
  rw [reread, toList_render_finite, alone]

/-- A number with a fraction or an exponent is read as one, and so are the numbers without
digits. -/
theorem readScalar_real (x : Double) (ends : EndsNumber rest) :
    readScalar ((x.render jsonNames).toList ++ rest) = .ok (.real (reread x), rest) := by
  cases x with
  | nan => rfl
  | infinite negative => cases negative <;> rfl
  | finite negative significand exponent =>
      obtain ⟨digits, power, spells⟩ := isReal_magnitude significand exponent
      rw [reread_spells spells, toList_render_finite, readScalar_spells spells negative ends]

end MessageCatalog.Json
