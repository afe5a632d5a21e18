import MessageCatalog.Text.Utf8

/-!
# MessageCatalog.Proofs.Text.Utf8 -- what was encoded is decoded again

The first byte of a character says how many bytes continue it and between which bounds the next one
lies; each of them adds six bits to the code point. The bounds leave out what no character is
encoded as: longer forms than needed, surrogates, and all above U+10FFFF.
-/

namespace MessageCatalog.Text

/-! ## Bytes -/

theorem toNat_toUInt8 {n : Nat} (h : n < 0x100) : n.toUInt8.toNat = n :=
  UInt8.toNat_ofNat_of_lt' h

/-- A continuation between its bounds adds six bits. -/
theorem readContinuation_cons {low high : UInt8} {payload : Nat} (small : payload < 0x40)
    (above : low.toNat ≤ 0x80 + payload) (below : 0x80 + payload ≤ high.toNat)
    (count code read : Nat) (rest : List UInt8) :
    readContinuation (count + 1) low high code read ((0x80 + payload).toUInt8 :: rest) =
      readContinuation count 0x80 0xbf (code * 64 + payload) (read + 1) rest := by
  have byte : (0x80 + payload).toUInt8.toNat = 0x80 + payload := toNat_toUInt8 (by omega)
  have inside : (low ≤ (0x80 + payload).toUInt8 && (0x80 + payload).toUInt8 ≤ high) = true := by
    simp only [Bool.and_eq_true, decide_eq_true_eq, UInt8.le_iff_toNat_le, byte]
    exact ⟨above, below⟩
  rw [readContinuation, if_pos inside, byte, Nat.add_sub_cancel_left]

/-- Behind the first continuation all others have the same bounds. -/
theorem readContinuation_free {payload : Nat} (small : payload < 0x40) (count code read : Nat)
    (rest : List UInt8) :
    readContinuation (count + 1) 0x80 0xbf code read ((0x80 + payload).toUInt8 :: rest) =
      readContinuation count 0x80 0xbf (code * 64 + payload) (read + 1) rest := by
  apply readContinuation_cons small
  · show 0x80 ≤ 0x80 + payload
    omega
  · show 0x80 + payload ≤ 0xbf
    omega

/-! ## First bytes -/

theorem continuation?_two :
    ∀ lead < 0x20, 2 ≤ lead → continuation? (0xc0 + lead).toUInt8 = some (1, 0x80, 0xbf) := by
  decide

/-- Behind the first of three bytes there is neither a longer form nor a surrogate. -/
theorem continuation?_three : ∀ lead < 0x10, continuation? (0xe0 + lead).toUInt8 =
    some (2, if lead = 0 then 0xa0 else 0x80, if lead = 0xd then 0x9f else 0xbf) := by
  decide

/-- Behind the first of four bytes there is neither a longer form nor more than a character. -/
theorem continuation?_four : ∀ lead < 5, continuation? (0xf0 + lead).toUInt8 =
    some (3, if lead = 0 then 0x90 else 0x80, if lead = 4 then 0x8f else 0xbf) := by
  decide

/-! ## Code points -/

/-- The six bits behind the first of two bytes complete a code point. -/
theorem readContinuation_two {n : Nat} (most : n < 0x800) (rest : List UInt8) :
    readContinuation 1 0x80 0xbf (leadBits 1 (0xc0 + n / 64).toUInt8) 0
      ((0x80 + n % 64).toUInt8 :: rest) = .ok (n, 1) := by
  have first : (0xc0 + n / 64).toUInt8.toNat = 0xc0 + n / 64 := toNat_toUInt8 (by omega)
  have code : leadBits 1 (0xc0 + n / 64).toUInt8 * 64 + n % 64 = n := by
    show (0xc0 + n / 64).toUInt8.toNat % 0x20 * 64 + n % 64 = n
    omega
  rw [readContinuation_free (by omega), readContinuation, code]

theorem readContinuation_three {n : Nat} (least : 0x800 ≤ n) (most : n < 0x10000)
    (valid : n < 0xd800 ∨ 0xdfff < n) (rest : List UInt8) :
    readContinuation 2 (if n / 4096 = 0 then 0xa0 else 0x80) (if n / 4096 = 0xd then 0x9f else 0xbf)
      (leadBits 2 (0xe0 + n / 4096).toUInt8) 0
      ((0x80 + n / 64 % 64).toUInt8 :: (0x80 + n % 64).toUInt8 :: rest) = .ok (n, 2) := by
  have first : (0xe0 + n / 4096).toUInt8.toNat = 0xe0 + n / 4096 := toNat_toUInt8 (by omega)
  have code : (leadBits 2 (0xe0 + n / 4096).toUInt8 * 64 + n / 64 % 64) * 64 + n % 64 = n := by
    show ((0xe0 + n / 4096).toUInt8.toNat % 0x10 * 64 + n / 64 % 64) * 64 + n % 64 = n
    omega
  rw [readContinuation_cons (by omega), readContinuation_free (by omega), readContinuation, code]
  · -- a lead of zero means that eleven bits are not enough
    split
    · show 0xa0 ≤ 0x80 + n / 64 % 64
      omega
    · show 0x80 ≤ 0x80 + n / 64 % 64
      omega
  · split
    · show 0x80 + n / 64 % 64 ≤ 0x9f
      omega
    · show 0x80 + n / 64 % 64 ≤ 0xbf
      omega

theorem readContinuation_four {n : Nat} (least : 0x10000 ≤ n) (most : n < 0x110000)
    (rest : List UInt8) :
    readContinuation 3 (if n / 262144 = 0 then 0x90 else 0x80)
      (if n / 262144 = 4 then 0x8f else 0xbf) (leadBits 3 (0xf0 + n / 262144).toUInt8) 0
      ((0x80 + n / 4096 % 64).toUInt8 :: (0x80 + n / 64 % 64).toUInt8 ::
        (0x80 + n % 64).toUInt8 :: rest) = .ok (n, 3) := by
  have first : (0xf0 + n / 262144).toUInt8.toNat = 0xf0 + n / 262144 := toNat_toUInt8 (by omega)
  have code : ((leadBits 3 (0xf0 + n / 262144).toUInt8 * 64 + n / 4096 % 64) * 64 +
      n / 64 % 64) * 64 + n % 64 = n := by
    show (((0xf0 + n / 262144).toUInt8.toNat % 0x08 * 64 + n / 4096 % 64) * 64 +
      n / 64 % 64) * 64 + n % 64 = n
    omega
  rw [readContinuation_cons (by omega), readContinuation_free (by omega),
    readContinuation_free (by omega), readContinuation, code]
  · split
    · show 0x90 ≤ 0x80 + n / 4096 % 64
      omega
    · show 0x80 ≤ 0x80 + n / 4096 % 64
      omega
  · split
    · show 0x80 + n / 4096 % 64 ≤ 0x8f
      omega
    · show 0x80 + n / 4096 % 64 ≤ 0xbf
      omega

/-! ## Characters -/

/-- A character whose code point its first byte begins and some continuations complete. -/
theorem decodeUtf8From_continued {lead : Nat} {low high : UInt8} {rest : List UInt8}
    {count code : Nat} (least : 0x80 ≤ lead) (most : lead < 0x100)
    (starts : continuation? lead.toUInt8 = some (count, low, high))
    (read : readContinuation count low high (leadBits count lead.toUInt8) 0 rest =
      .ok (code, count)) (offset : Nat) :
    decodeUtf8From offset (lead.toUInt8 :: rest) =
      (decodeUtf8From (offset + 1 + count) (rest.drop count)).map (Char.ofNat code :: ·) := by
  have notAscii : ¬lead.toUInt8 < 0x80 := by
    rw [UInt8.lt_iff_toNat_lt, toNat_toUInt8 most]
    show ¬lead < 0x80
    omega
  rw [decodeUtf8From, if_neg notAscii, starts]
  simp only [read]

/-- Decoding takes the bytes of one character off. -/
theorem decodeUtf8From_encodeChar (c : Char) (offset : Nat) (rest : List UInt8) :
    decodeUtf8From offset (encodeChar c ++ rest) =
      (decodeUtf8From (offset + (encodeChar c).length) rest).map (c :: ·) := by
  have valid : c.toNat < 0xd800 ∨ (0xdfff < c.toNat ∧ c.toNat < 0x110000) := c.valid
  have same : Char.ofNat c.toNat = c := Char.ofNat_toNat c
  unfold encodeChar
  dsimp only
  generalize c.toNat = n at valid same
  rw [← same]
  -- the number of bytes is decided by the size of the code point
  split
  · next ascii =>
    have byte : n.toUInt8.toNat = n := toNat_toUInt8 (by omega)
    have small : n.toUInt8 < 0x80 := by
      rw [UInt8.lt_iff_toNat_lt, byte]
      exact ascii
    rw [List.singleton_append, decodeUtf8From, if_pos small, byte]
    rfl
  split
  · exact decodeUtf8From_continued (by omega) (by omega)
      (continuation?_two (n / 64) (by omega) (by omega)) (readContinuation_two (by omega) rest) offset
  split
  · exact decodeUtf8From_continued (by omega) (by omega)
      (continuation?_three (n / 4096) (by omega))
      (readContinuation_three (by omega) (by omega) (by omega) rest) offset
  · exact decodeUtf8From_continued (by omega) (by omega)
      (continuation?_four (n / 262144) (by omega))
      (readContinuation_four (by omega) (by omega) rest) offset

/-! ## Texts -/

theorem decodeUtf8From_encodeUtf8 (text : List Char) (offset : Nat) :
    decodeUtf8From offset (encodeUtf8 text) = .ok text := by
  induction text generalizing offset with
  | nil => rw [encodeUtf8, List.flatMap_nil, decodeUtf8From]
  | cons c rest ih =>
      show decodeUtf8From offset (encodeChar c ++ encodeUtf8 rest) = _
      rw [decodeUtf8From_encodeChar, ih]
      rfl

/-- What was encoded is decoded again. -/
theorem decodeUtf8_encodeUtf8 (text : List Char) : decodeUtf8 (encodeUtf8 text) = .ok text :=
  decodeUtf8From_encodeUtf8 text 0

end MessageCatalog.Text
