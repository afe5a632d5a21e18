import MessageCatalog.Proofs.Script.Denotes
import MessageCatalog.Proofs.Text.Cursor
import MessageCatalog.Script.Walk

/-!
# MessageCatalog.Proofs.Script.Walk -- the cursor follows the reader of literals

Every rule over a cursor follows the rule of the reader for the characters that the cursor faces.
The walk joins surrogates only behind an escape; without one the code points are those of
characters, and joining them changes nothing.
-/

namespace MessageCatalog.Script

open MessageCatalog.Json MessageCatalog.Text MessageCatalog.Text.Cursor

variable {source text rest : List Char} {α β : Type}

/-- How a walk over a token stops at a fault that was found in an end of the token. -/
def LiteralFault.stop (source : List Char) (fault : LiteralFault) : Stop LiteralError :=
  .fault (.malformed fault.cause (Position.at source (source.length - fault.left)))

theorem follows_fault {belong : α → β → Prop} (cause : LiteralCause) (source rest : List Char) :
    Follows (LiteralFault.stop source) belong (.error (LiteralFault.at cause rest))
      (faultAt cause (facing source rest)) := by
  rw [faultAt, position_facing]
  exact .fault (LiteralFault.at cause rest)

/-! ## Digits -/

theorem follows_readHex (count : Nat) (inside : text <:+ source) :
    Follows (LiteralFault.stop source) (Reaches source id) (readHex count text)
      (hexAt count (facing source text)) := by
  have short : (text.take count).length ≤ count := List.length_take_le count text
  rw [readHex, hexAt, sliceAhead_facing inside, advance_facing inside]
  split
  · next digits =>
      rw [Bool.and_eq_true, beq_iff_eq] at digits
      rw [if_neg (by simp [digits])]
      exact .ok ⟨rfl, rfl, (List.drop_suffix count text).trans inside⟩
  · next noDigits =>
      rw [Bool.and_eq_true, beq_iff_eq, not_and_or] at noDigits
      rw [if_pos]
      · exact follows_fault _ source text
      · rw [Bool.or_eq_true, decide_eq_true_eq, Bool.not_eq_true']
        exact noDigits.imp (Nat.lt_of_le_of_ne short) Bool.eq_false_iff.mpr

/-- The digits in braces are those up to the closing brace, and none at all if there is none. -/
theorem bracedDigits_facing (inside : '\x7b' :: rest <:+ source) :
    bracedDigits (facing source ('\x7b' :: rest)) =
      if rest.dropWhile (· != '\x7d') = [] then [] else rest.takeWhile (· != '\x7d') := by
  have closed : ('\x7b' :: rest).contains '\x7d' = true ↔ rest.dropWhile (· != '\x7d') ≠ [] := by
    simp [List.dropWhile_eq_nil_iff]
  rw [bracedDigits, ahead_facing inside, List.drop_one, List.tail_cons]
  split
  · next there => rw [if_neg (closed.mp there)]
  · next none => rw [if_pos (not_not.mp (mt closed.mpr none))]

theorem follows_readUnicode (inside : text <:+ source) :
    Follows (LiteralFault.stop source) (Reaches source id) (readUnicode text)
      (unicodeAt (facing source text)) := by
  rw [unicodeAt, peek?_facing inside]
  unfold readUnicode
  split
  · next rest =>
      have opened : ('\x7b' :: rest)[0]? == some '\x7b' := rfl
      rw [if_pos opened, bracedDigits_facing inside]
      dsimp only
      split
      · next unclosed =>
          rw [if_pos unclosed]
          exact follows_fault _ source _
      next c behind closed =>
      have some : ¬rest.dropWhile (· != '\x7d') = [] := by
        rw [closed]
        exact List.cons_ne_nil c behind
      -- behind the digits and their braces is what the reader has left
      have parts := List.takeWhile_append_dropWhile (p := (· != '\x7d')) (l := rest)
      rw [closed] at parts
      have left : ('\x7b' :: rest).drop ((rest.takeWhile (· != '\x7d')).length + 2) = behind :=
        calc rest.drop ((rest.takeWhile (· != '\x7d')).length + 1)
          _ = (rest.takeWhile (· != '\x7d') ++ c :: behind).drop
                ((rest.takeWhile (· != '\x7d')).length + 1) := by rw [parts]
          _ = behind := List.drop_length_add_append 1
      rw [if_neg some, advance_facing inside, left]
      split
      · exact follows_fault _ source _
      split
      · exact follows_fault _ source _
      · exact .ok ⟨rfl, rfl, left ▸ (List.drop_suffix _ _).trans inside⟩
  · next other =>
      have notOpened : ¬(text[0]? == some '\x7b') = true := by
        intro opened
        rw [← List.head?_eq_getElem?] at opened
        obtain ⟨tail, rfl⟩ := List.head?_eq_some_iff.mp (beq_iff_eq.mp opened)
        exact other tail rfl
      rw [if_neg notOpened]
      exact follows_readHex 4 inside

/-- Octal digits are walked over as far as they go, and no further than they may. -/
theorem octalsAt_facing (more : Nat) (digits : List Char) (inside : text <:+ source) :
    octalsAt more digits (facing source text) =
      .ok (digits ++ (text.take more).takeWhile isOctalDigit,
        facing source (text.drop ((text.take more).takeWhile isOctalDigit).length)) := by
  induction more generalizing text digits with
  | zero => simp [octalsAt]
  | succ more ih =>
      rw [octalsAt, peek?_facing inside]
      cases text with
      | nil => simp
      | cons c rest =>
          rw [look_facing inside, Walk.ok_bind, advance_facing_cons inside,
            ih _ ((List.suffix_cons _ _).trans inside), List.take_succ_cons, List.takeWhile_cons]
          show (if isOctalDigit c = true then _ else _) = _
          split
          · simp
          · simp

theorem octalAt_facing {first : Char} (inside : first :: rest <:+ source) :
    octalAt (facing source (first :: rest)) =
      .ok (numeral 8 (octalDigits first rest),
        facing source (rest.drop ((octalDigits first rest).length - 1))) := by
  rw [octalAt, look_facing inside, Walk.ok_bind, advance_facing_cons inside,
    octalsAt_facing _ _ ((List.suffix_cons _ _).trans inside), Walk.ok_bind]
  rfl

/-! ## Escapes -/

theorem isAsciiDigit_of_isOctalDigit {c : Char} (octal : isOctalDigit c = true) :
    isAsciiDigit c = true := by
  simp only [isOctalDigit, isAsciiDigit, Bool.and_eq_true, decide_eq_true_eq] at octal ⊢
  exact ⟨octal.1, Char.le_trans octal.2 (by decide)⟩

/-- An octal escape without an octal digit behind its zero is the null character. -/
theorem octalDigits_zero (none : rest.head?.any isAsciiDigit = false) :
    octalDigits '0' rest = ['0'] := by
  cases rest with
  | nil => rfl
  | cons d rest =>
      have other : ¬isOctalDigit d = true := fun octal =>
        Bool.eq_false_iff.mp none (isAsciiDigit_of_isOctalDigit octal)
      show '0' :: (d :: rest.take 1).takeWhile isOctalDigit = ['0']
      rw [List.takeWhile_cons_of_neg other]

/-- An escape that denotes one code point. -/
theorem follows_one {read : Except LiteralFault (Nat × List Char)}
    {walk : Walk LiteralError (Nat × Cursor)}
    (h : Follows (LiteralFault.stop source) (Reaches source id) read walk) :
    Follows (LiteralFault.stop source) (Reaches source id)
      (match read with
        | .ok (code, rest) => .ok ([code], rest)
        | .error fault => .error fault)
      (walk >>= fun found => .ok ([found.1], found.2)) := by
  split
  · next code rest => exact h.reached rfl fun inside => .ok ⟨rfl, rfl, inside⟩
  · next fault => exact h.fault_bind rfl _

theorem follows_readEscape (inside : text <:+ source) :
    Follows (LiteralFault.stop source) (Reaches source id) (readEscape text)
      (escapeAt (facing source text)) := by
  rw [escapeAt, atEnd_facing inside]
  cases text with
  | nil => exact follows_fault _ source []
  | cons c rest =>
      have inside' := (List.suffix_cons c rest).trans inside
      have notEnd : ¬(c :: rest).isEmpty = true := Bool.false_ne_true
      rw [readEscape, if_neg notEnd, look_facing inside, Walk.ok_bind]
      cases control : controlEscape? c with
      | some e => exact .ok ⟨rfl, advance_facing_cons inside, inside'⟩
      | none =>
          rw [advance_facing_cons inside, peek?_facing inside]
          dsimp only
          rw [peek?_facing inside', advance_facing inside', ← List.head?_eq_getElem?]
          split
          · split
            · exact .ok ⟨rfl, rfl, (List.drop_suffix 1 rest).trans inside'⟩
            · exact .ok ⟨rfl, rfl, inside'⟩
          split
          · exact .ok ⟨rfl, rfl, inside'⟩
          split
          · next octal =>
              -- a zero that stands alone is no octal escape to the walk
              split
              · next null =>
                  obtain ⟨zero, noDigit⟩ := Bool.and_eq_true_iff.mp null
                  obtain rfl := beq_iff_eq.mp zero
                  rw [octalDigits_zero (by simpa [List.head?_eq_getElem?] using noDigit)]
                  exact .ok ⟨rfl, rfl, inside'⟩
              · rw [octalAt_facing inside, Walk.ok_bind]
                exact .ok ⟨rfl, rfl, (List.drop_suffix _ rest).trans inside'⟩
          next noOctal =>
          have noNull : ¬(c == '0' && !Option.any isAsciiDigit (c :: rest)[1]?) = true := by
            intro null
            have zero := (Bool.and_eq_true_iff.mp null).1
            exact noOctal (by rw [beq_iff_eq.mp zero]; rfl)
          rw [if_neg noNull]
          split
          · exact follows_one (follows_readHex 2 inside')
          split
          · exact follows_one (follows_readUnicode inside')
          · exact .ok ⟨rfl, rfl, inside'⟩

/-! ## Literals -/

/-- Content belongs to the code points that are gathered behind those in front of it. Without an
escape, they are the code points of a text. -/
structure Gathers (source : List Char) (codes : List Nat) (escaped : Bool)
    (read : List Nat × List Char) (walk : (List Nat × Bool) × Cursor) : Prop where
  codes : walk.1.1 = codes ++ read.1
  plain : walk.1.2 = false → escaped = false ∧ ∃ text : List Char, read.1 = text.map Char.toNat
  left : Faces source read.2 walk.2

theorem Gathers.escape {codes more : List Nat} {escaped : Bool} {read : List Nat × List Char}
    {walk : (List Nat × Bool) × Cursor} (h : Gathers source (codes ++ more) true read walk) :
    Gathers source codes escaped (more ++ read.1, read.2) walk where
  codes := by rw [h.codes, List.append_assoc]
  plain := fun plain => absurd (h.plain plain).1 Bool.noConfusion
  left := h.left

theorem Gathers.char {codes : List Nat} {c : Char} {escaped : Bool} {read : List Nat × List Char}
    {walk : (List Nat × Bool) × Cursor}
    (h : Gathers source (codes ++ [c.toNat]) escaped read walk) :
    Gathers source codes escaped (c.toNat :: read.1, read.2) walk where
  codes := by rw [h.codes, List.append_assoc, List.singleton_append]
  plain := by
    intro plain
    obtain ⟨before, text, chars⟩ := h.plain plain
    exact ⟨before, c :: text, congrArg (c.toNat :: ·) chars⟩
  left := h.left

theorem follows_readContent (quote : Char) (fuel steps : Nat) (codes : List Nat) (escaped : Bool)
    (inside : text <:+ source) (fueled : text.length < fuel) (enough : text.length < steps) :
    Follows (LiteralFault.stop source) (Gathers source codes escaped)
      (readContent quote fuel text)
      (contentAt quote steps (facing source text) codes escaped) := by
  induction fuel generalizing text steps codes escaped with
  | zero => omega
  | succ fuel ih =>
      obtain ⟨steps, rfl⟩ := Nat.exists_eq_add_one.mpr (show 0 < steps by omega)
      rw [contentAt, atEnd_facing inside]
      cases text with
      | nil => exact follows_fault _ source []
      | cons c rest =>
          have inside' := (List.suffix_cons c rest).trans inside
          have notEnd : ¬(c :: rest).isEmpty = true := Bool.false_ne_true
          rw [List.length_cons] at fueled enough
          rw [readContent, if_neg notEnd, look_facing inside, Walk.ok_bind,
            advance_facing_cons inside]
          split
          · exact .ok ⟨(List.append_nil codes).symm, fun plain => ⟨plain, [], rfl⟩, rfl, inside'⟩
          split
          · have escape := follows_readEscape inside'
            split
            · next why read => exact escape.fault_bind read _
            next more behind read =>
            have shorter := (readEscape_sound read).length_lt
            refine escape.reached read fun inside => ?_
            exact (ih steps (codes ++ more) true inside (by omega) (by omega)).map
              fun _ _ => .escape
          split
          · exact follows_fault _ source _
          · exact (ih steps (codes ++ [c.toNat]) escaped inside' (by omega) (by omega)).map
              fun _ _ => .char

/-- Without an escape there is nothing to join. -/
theorem Gathers.joined {codes : List Nat} {escaped : Bool} {read : List Nat × List Char}
    {walk : (List Nat × Bool) × Cursor} (h : Gathers source codes escaped read walk)
    (plain : walk.1.2 = false) : joinSurrogates? read.1 = some (read.1.map Char.ofNat) := by
  obtain ⟨-, text, chars⟩ := h.plain plain
  have same : Char.ofNat ∘ Char.toNat = id := funext Char.ofNat_toNat
  rw [chars, joinSurrogates?, joinSurrogatesWith_toNat, List.map_map, same, List.map_id]

/-- Behind the closing quote the walk ends with what the content denotes, or at the text that is
left. -/
theorem Gathers.closeAt_eq {token left : List Char} {codes : List Nat}
    {walk : (List Nat × Bool) × Cursor} (h : Gathers token [] false (codes, left) walk) :
    closeAt walk.1.1 walk.1.2 walk.2 =
      match left with
      | [] => match joinSurrogates? codes with
        | some text => .ok text
        | none => .error (.fault .loneSurrogate)
      | d :: more => .error ((LiteralFault.at .trailingText (d :: more)).stop token) := by
  obtain ⟨⟨gathered, escaped⟩, c⟩ := walk
  obtain rfl : gathered = codes := h.codes
  obtain rfl : c = facing token left := h.left.1
  have behind : left <:+ token := h.left.2
  rw [closeAt, atEnd_facing behind]
  cases left with
  | cons d more =>
      rw [if_pos (by rfl), faultAt, position_facing]
      rfl
  | nil =>
      cases escaped with
      | true => rfl
      | false =>
          have joined : joinSurrogates? gathered = some _ := h.joined rfl
          rw [joined]
          rfl

/-- A walk over a token is the reader of literals, and each of its faults one of the notation. -/
theorem decodeAt_eq (token : List Char) : decodeAt token = (decode token).mapError Stop.fault := by
  have whole := List.suffix_refl token
  rw [decodeAt, ← facing_self, decode]
  dsimp only
  rw [sees_facing whole, Walk.ok_bind]
  cases token with
  | nil => rfl
  | cons quote rest =>
      rw [look_facing whole, Walk.ok_bind, advance_facing_cons whole, readToken,
        List.head?_cons, Option.any_some]
      by_cases opened : (quote == '"' || quote == '\'') = true
      · have content := follows_readContent quote (quote :: rest).length (quote :: rest).length []
          false ((List.suffix_cons _ _).trans whole) (Nat.lt_succ_self _) (Nat.lt_succ_self _)
        rw [if_pos opened, if_pos opened]
        cases read : readContent quote (quote :: rest).length rest with
        | error fault =>
            rw [content.eq_error read]
            rfl
        | ok found =>
            obtain ⟨codes, left⟩ := found
            obtain ⟨walk, walked, gathered⟩ := content.eq_ok read
            rw [walked, Walk.ok_bind]
            refine gathered.closeAt_eq.trans ?_
            cases left with
            | cons d more => rfl
            | nil =>
                dsimp only [denoted]
                cases joinSurrogates? codes with
                | some text => rfl
                | none => rfl
      · rw [if_neg opened, if_neg opened, faultAt, position_facing]
        rfl

end MessageCatalog.Script
