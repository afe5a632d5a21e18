import MessageCatalog.Proofs.Markup.Chunk

/-!
# MessageCatalog.Proofs.Markup.Pass -- text of chunks is read to its end

The first pass over text of chunks leaves nothing to the second one, and the events are those of the
chunks, in order and where they stand. Only characters of text that stand next to each other come as
one event.
-/

namespace MessageCatalog.Markup

open MessageCatalog.Text

/-! ## Events of chunks -/

theorem textOf_cons (chunk : Chunk) (rest : List Chunk) :
    textOf (chunk :: rest) = chunk.text ++ textOf rest := List.flatMap_cons

/-- The events of chunks, each with its offset. -/
def eventsFrom : (offset : Nat) → List Chunk → List Located
  | _, [] => []
  | offset, chunk :: rest => ⟨offset, chunk.event⟩ :: eventsFrom (offset + chunk.text.length) rest

/-- An event in front of others, text in front of text as one event. -/
def Located.before (first : Located) (rest : List Located) : List Located :=
  match first.event, rest with
  | .data text, ⟨_, .data more⟩ :: others => ⟨first.offset, .data (text ++ more)⟩ :: others
  | _, _ => first :: rest

/-- Events with text that stands next to other text as one. -/
def joined (events : List Located) : List Located := events.foldr Located.before []

/-- What is no text stands for itself. -/
theorem Located.before_of_ne {first : Located} (h : ∀ text, first.event ≠ .data text)
    (rest : List Located) : first.before rest = first :: rest := by
  unfold before
  split
  · next same => exact absurd same (h _)
  · rfl

/-- What stands before what is no text stands for itself. -/
theorem Located.before_cons_of_ne (first : Located) {next : Located}
    (h : ∀ text, next.event ≠ .data text) (rest : List Located) :
    first.before (next :: rest) = first :: next :: rest := by
  unfold before
  split
  · next same => exact absurd (congrArg Located.event (List.cons.inj same).1) (h _)
  · rfl

/-! ## One step -/

/-- A chunk that is taken up to what follows it. -/
theorem pass_upTo {final : Bool} {mode mode' : Mode} {offset : Nat} {chunk rest : List Char}
    {event : Option Event} (some : chunk ≠ [])
    (h : readPiece final mode (chunk ++ rest) = .upTo (chunk ++ rest) rest event mode') :
    pass final mode offset (chunk ++ rest) =
      (pass final mode' (offset + chunk.length) rest).push offset event := by
  cases chunk with
  | nil => exact absurd rfl some
  | cons c cs =>
      have size : (c :: cs ++ rest).length - rest.length - 1 = cs.length := by
        simp only [List.length_append, List.length_cons]
        omega
      rw [Outcome.upTo, size] at h
      rw [List.cons_append] at h ⊢
      rw [pass, h]
      dsimp only
      rw [List.drop_left, List.length_cons, Nat.add_assoc]

/-- The characters of text at the front of a text. -/
def plainRun (text : List Char) : List Char := text.takeWhile fun c => !startsConstruct c

/-- What follows the characters of text at the front of a text. -/
def afterPlain (text : List Char) : List Char := text.dropWhile fun c => !startsConstruct c

/-- A character of text is taken with the text that follows it. -/
theorem pass_plain {final : Bool} {c : Char} (h : startsConstruct c = false) (offset : Nat)
    (text : List Char) :
    pass final .markup offset (c :: text) =
      (pass final .markup (offset + 1 + (plainRun text).length) (afterPlain text)).push offset
        (some (.data (c :: plainRun text))) := by
  have own : plainRun (c :: text) = c :: plainRun text := by simp [plainRun, h]
  have split : c :: text = (c :: plainRun text) ++ afterPlain text := by
    rw [List.cons_append, plainRun, afterPlain, List.takeWhile_append_dropWhile]
  have read : readPiece final .markup (c :: text) =
      .dataUpTo (c :: text) (afterPlain text) .markup := by
    have less : c ≠ '<' := by rintro rfl; cases h
    have ampersand : c ≠ '&' := by rintro rfl; cases h
    have behind : (c :: text).dropWhile (fun d => !startsConstruct d) = afterPlain text := by
      simp [afterPlain, h]
    rw [readPiece]
    · rw [behind]
    · rintro _ same
      exact less (List.cons.inj same).1
    · rintro _ same
      exact ampersand (List.cons.inj same).1
  have data : (c :: text).take ((c :: text).length - (afterPlain text).length) =
      c :: plainRun text := by
    rw [split, List.length_append, Nat.add_sub_cancel, List.take_left]
  rw [Outcome.dataUpTo, data] at read
  rw [split] at read ⊢
  rw [pass_upTo (List.cons_ne_nil _ _) read, List.length_cons]
  congr 2
  omega

/-- A character before another one of its text is joined to what the other one is read as. -/
theorem pass_plain_plain {final : Bool} {c d : Char} (first : startsConstruct c = false)
    (second : startsConstruct d = false) (offset : Nat) (text : List Char) :
    pass final .markup offset (c :: d :: text) =
      { pass final .markup (offset + 1) (d :: text) with
        events := (⟨offset, .data [c]⟩ : Located).before
          (pass final .markup (offset + 1) (d :: text)).events } := by
  have run : plainRun (d :: text) = d :: plainRun text := by simp [plainRun, second]
  have behind : afterPlain (d :: text) = afterPlain text := by simp [afterPlain, second]
  have at' : offset + 1 + (d :: plainRun text).length =
      offset + 1 + 1 + (plainRun text).length := by
    rw [List.length_cons]
    omega
  rw [pass_plain first, pass_plain second, run, behind, at']
  rfl

/-! ## Every chunk in turn -/

/-- A chunk that is no character of text is no text. -/
theorem Chunk.event_ne_data {chunk : Chunk} (marked : ∀ c, chunk ≠ .plain c) (text : List Char) :
    chunk.event ≠ .data text := by
  cases chunk with
  | plain c => exact absurd rfl (marked c)
  | reference _ | opening _ _ | closing _ | data _ => rintro ⟨⟩

/-- A chunk that is no character of text ends the text before it. -/
theorem Chunk.plainRun_text {chunk : Chunk} (marked : ∀ c, chunk ≠ .plain c) (rest : List Char) :
    plainRun (chunk.text ++ rest) = [] ∧ afterPlain (chunk.text ++ rest) = chunk.text ++ rest := by
  cases chunk with
  | plain c => exact absurd rfl (marked c)
  | reference w => cases w <;> exact ⟨rfl, rfl⟩
  | opening _ _ | closing _ | data _ => exact ⟨rfl, rfl⟩

/-- A character in front of chunks is read with the text that follows it, if any does. -/
theorem pass_cons_textOf {final : Bool} {c : Char} (plain : startsConstruct c = false)
    {chunks : List Chunk} (proper : ∀ chunk ∈ chunks, chunk.Proper) {offset last : Nat}
    (next : pass final .markup (offset + 1) (textOf chunks) =
      ⟨joined (eventsFrom (offset + 1) chunks), .markup, last, [], none⟩) :
    pass final .markup offset (c :: textOf chunks) =
      ⟨(⟨offset, .data [c]⟩ : Located).before (joined (eventsFrom (offset + 1) chunks)), .markup,
        last, [], none⟩ := by
  -- what follows the character is nothing, what ends the text, or more text
  cases chunks with
  | nil =>
      change pass final .markup (offset + 1) [] = _ at next
      rw [textOf, List.flatMap_nil, pass_plain plain, plainRun, afterPlain, List.takeWhile_nil,
        List.dropWhile_nil, List.length_nil, Nat.add_zero, next]
      rfl
  | cons other others =>
      by_cases marked : ∀ d, other ≠ .plain d
      · have alone : joined (eventsFrom (offset + 1) (other :: others)) =
            ⟨offset + 1, other.event⟩ ::
              joined (eventsFrom (offset + 1 + other.text.length) others) :=
          Located.before_of_ne (Chunk.event_ne_data marked) _
        rw [pass_plain plain, textOf_cons, (Chunk.plainRun_text marked _).1,
          (Chunk.plainRun_text marked _).2, ← textOf_cons, List.length_nil, Nat.add_zero, next,
          alone, Located.before_cons_of_ne _ (Chunk.event_ne_data marked)]
        rfl
      · obtain ⟨d, rfl⟩ : ∃ d, other = .plain d := by simpa using marked
        have second : startsConstruct d = false := proper (.plain d) (by simp)
        refine (pass_plain_plain plain second offset (textOf others)).trans ?_
        change pass final .markup (offset + 1) (d :: textOf others) = _ at next
        rw [next]

/-- Text of chunks is read to its end, as the events of the chunks. -/
theorem pass_textOf {final : Bool} {chunks : List Chunk}
    (proper : ∀ chunk ∈ chunks, chunk.Proper) (offset : Nat) :
    pass final .markup offset (textOf chunks) =
      ⟨joined (eventsFrom offset chunks), .markup, offset + (textOf chunks).length, [], none⟩ := by
  induction chunks generalizing offset with
  | nil => rw [textOf, List.flatMap_nil, pass]; rfl
  | cons chunk rest ih =>
      rw [List.forall_mem_cons] at proper
      have later := ih proper.2
      have size : offset + (textOf (chunk :: rest)).length =
          offset + chunk.text.length + (textOf rest).length := by
        rw [textOf_cons, List.length_append, Nat.add_assoc]
      rw [size]
      by_cases marked : ∀ c, chunk ≠ .plain c
      · have own : joined (eventsFrom offset (chunk :: rest)) =
            ⟨offset, chunk.event⟩ :: joined (eventsFrom (offset + chunk.text.length) rest) :=
          Located.before_of_ne (Chunk.event_ne_data marked) _
        rw [textOf_cons, pass_upTo chunk.text_ne_nil (readPiece_chunk proper.1 marked _), later,
          own]
        rfl
      · obtain ⟨c, rfl⟩ : ∃ c, chunk = .plain c := by simpa using marked
        exact pass_cons_textOf proper.1 proper.2 (later (offset + 1))

/-! ## Pages of chunks -/

/-- A page of chunks has the events of the chunks, and is not rejected. -/
theorem tokenize_textOf {chunks : List Chunk} (proper : ∀ chunk ∈ chunks, chunk.Proper) :
    tokenize (textOf chunks) = ⟨joined (eventsFrom 0 chunks), none⟩ := by
  rw [tokenize, pass_textOf proper]
  dsimp only
  rw [pass]
  simp [PassResult.remainder]

theorem Located.mem_before {located first : Located} (h : ∀ text, located.event ≠ .data text)
    (rest : List Located) : located ∈ first.before rest ↔ located = first ∨ located ∈ rest := by
  unfold before
  split
  · next text offset more others isText =>
      have notFirst : located ≠ first := fun same => h text (same ▸ isText)
      have notNext : located ≠ ⟨offset, .data more⟩ := fun same => h more (same ▸ rfl)
      have notBoth : located ≠ ⟨first.offset, .data (text ++ more)⟩ := fun same =>
        h (text ++ more) (same ▸ rfl)
      simp only [List.mem_cons, notFirst, notNext, notBoth, false_or]
  · exact List.mem_cons

/-- Events other than text are those of the chunks. -/
theorem mem_joined {located : Located} (h : ∀ text, located.event ≠ .data text)
    {events : List Located} : located ∈ joined events ↔ located ∈ events := by
  induction events with
  | nil => exact Iff.rfl
  | cons first rest ih =>
      show located ∈ first.before (joined rest) ↔ _
      rw [Located.mem_before h, ih, List.mem_cons]

theorem mem_eventsFrom {chunks : List Chunk} {offset : Nat} {located : Located}
    (there : located ∈ eventsFrom offset chunks) :
    ∃ chunk ∈ chunks, located.event = chunk.event := by
  induction chunks generalizing offset with
  | nil => cases there
  | cons chunk rest ih =>
      rcases List.mem_cons.mp there with rfl | later
      · exact ⟨chunk, List.mem_cons_self, rfl⟩
      · obtain ⟨other, inside, same⟩ := ih later
        exact ⟨other, List.mem_cons_of_mem _ inside, same⟩

theorem exists_mem_eventsFrom {chunks : List Chunk} {chunk : Chunk} (there : chunk ∈ chunks)
    (offset : Nat) : ∃ found, ⟨found, chunk.event⟩ ∈ eventsFrom offset chunks := by
  induction chunks generalizing offset with
  | nil => cases there
  | cons first rest ih =>
      rcases List.mem_cons.mp there with rfl | later
      · exact ⟨offset, List.mem_cons_self⟩
      · obtain ⟨found, inside⟩ := ih later (offset + first.text.length)
        exact ⟨found, List.mem_cons_of_mem _ inside⟩

/-! ## Brackets -/

theorem IsName.bracket_not_mem {name : String} (isName : IsName name) : '<' ∉ name.toList :=
  fun there => absurd (isName.2 _ there).1 (by decide)

/-- No opening bracket stands in an attribute, unless its value has one. -/
theorem WrittenAttribute.Proper.bracket_not_mem {a : WrittenAttribute} (proper : a.Proper)
    (inside : '<' ∉ a.inside) : '<' ∉ a.text := by
  have quote : '<' ≠ a.quote := by
    rcases proper.quote with same | same <;> rw [same] <;> decide
  simp [WrittenAttribute.text, proper.name.bracket_not_mem, inside, quote]

/-- An opening bracket stands at the start of a tag and nowhere else, unless a value has one. -/
theorem Chunk.bracket_start {chunk : Chunk} (proper : chunk.Proper)
    (noData : ∀ chars, chunk ≠ .data chars)
    (values : ∀ name attributes, chunk = .opening name attributes →
      ∀ a ∈ attributes, '<' ∉ a.inside) {i : Nat} (h : chunk.text[i]? = some '<') : i = 0 := by
  have outside : '<' ∉ chunk.text.tail := by
    cases chunk with
    | plain c => exact List.not_mem_nil
    | reference w => cases w <;> decide
    | opening name attributes =>
        obtain ⟨isName, all, _⟩ := proper
        have attributes : '<' ∉ attributes.flatMap WrittenAttribute.text := by
          intro there
          obtain ⟨a, among, inside⟩ := List.mem_flatMap.mp there
          exact (all a among).bracket_not_mem (values name attributes rfl a among) inside
        simp [text, startTagText, attributesText, isName.bracket_not_mem, attributes]
    | closing name => simp [text, IsName.bracket_not_mem proper]
    | data chars => exact absurd rfl (noData chars)
  cases i with
  | zero => rfl
  | succ i =>
      rw [← List.getElem?_tail] at h
      exact absurd (List.mem_of_getElem? h) outside

/-- An opening bracket that stands only where tags start is where an event of a tag is. -/
theorem bracket_mem_eventsFrom {chunks : List Chunk}
    (starts : ∀ chunk ∈ chunks, ∀ i, chunk.text[i]? = some '<' → i = 0) {offset i : Nat}
    (h : (textOf chunks)[i]? = some '<') :
    ∃ chunk ∈ chunks, chunk.text[0]? = some '<' ∧
      ⟨offset + i, chunk.event⟩ ∈ eventsFrom offset chunks := by
  induction chunks generalizing offset i with
  | nil => cases h
  | cons chunk rest ih =>
      rw [textOf_cons, List.getElem?_append] at h
      split at h
      · obtain rfl := starts chunk List.mem_cons_self i h
        exact ⟨chunk, List.mem_cons_self, h, List.mem_cons_self⟩
      · next outside =>
          have others : ∃ other ∈ rest, other.text[0]? = some '<' ∧
              ⟨offset + chunk.text.length + (i - chunk.text.length), other.event⟩ ∈
                eventsFrom (offset + chunk.text.length) rest :=
            ih (fun other there => starts other (List.mem_cons_of_mem _ there)) h
          obtain ⟨other, there, bracket, found⟩ := others
          have at' : offset + chunk.text.length + (i - chunk.text.length) = offset + i := by omega
          rw [at'] at found
          exact ⟨other, List.mem_cons_of_mem _ there, bracket, List.mem_cons_of_mem _ found⟩

end MessageCatalog.Markup
