import MessageCatalog.Content
import MessageCatalog.Proofs.Basic
import MessageCatalog.Proofs.Markup.Minified

/-!
# MessageCatalog.Proofs.Tidy -- content that is cleaned a second time

Content is minified before elements are dropped and unwrapped, so white space that stood next to such
an element can be left over. Cleaning clean content again always succeeds, and changes nothing
exactly where the content is tidy: no element without content is closed, text that is all white space
is one character of it, and where white space collapses it is single spaces, none of them at an edge.
-/

namespace MessageCatalog.Content

open MessageCatalog.Config MessageCatalog.Markup MessageCatalog.Text

/-! ## Tidy markup -/

/-- The pieces of markup, its white space as it is written. -/
def piecesIn (markup : List Char) : List Piece :=
  joinTexts (piecesOf ⟨false, false⟩ [] (tokenize markup).events)

/-- White space is one space or one line break where it is all that there is of a text. -/
def BlankOnce (chars : List Char) : Prop :=
  (∀ c ∈ chars, isMarkupSpace c = true) → chars = [' '] ∨ chars = ['\n']

/-- Markup in which no element without content is closed, texts that are all white space are one
character of it, and where white space collapses it is single spaces, none of them at an edge. White
space collapses where it is not all that there is of the markup. -/
structure Tidy (minifier : Option MinifyOptions) (markup : List Char) : Prop where
  closed : ∀ located ∈ (tokenize markup).events, ∀ name ∈ voidElements,
    located.event ≠ .endTag name
  blank : OfTexts (fun _ _ => BlankOnce) none (piecesIn markup)
  spaces : ∀ options, minifier = some options → options.collapseWhitespace = true →
    (∃ c ∈ markup, isMarkupSpace c = false) →
      OfTexts (fun previous next chars => Spaced chars ∧ Trimmed previous next chars) none
        (piecesIn markup)

variable {allowLink : List Char → Bool} {tokens : List LineToken} {minifier : Option MinifyOptions}

/-! ## Tidy lines -/

/-- No element without content is closed in a line just when all its tokens last. -/
theorem closed_iff (clean : ∀ token ∈ tokens, token.Clean allowLink) :
    (∀ located ∈ (tokenize (lineText writtenAttribute tokens)).events, ∀ name ∈ voidElements,
      located.event ≠ .endTag name) ↔ ∀ token ∈ tokens, token.Lasting := by
  have void : ∀ name ∈ allowedElements, name ∈ voidElements ↔ name ∈ emptyElements := by
    intro name allowed
    have same := (shape_allowed name allowed).1
    rwa [Bool.eq_iff_iff, List.contains_iff_mem, List.contains_iff_mem] at same
  rw [tokenize_lineText faithful_writtenAttribute fun token there => (clean token there).proper]
  constructor
  · rintro closed token there name empty rfl
    have allowed : name ∈ allowedElements := clean _ there
    have chunk : Chunk.closing name ∈ lineChunks writtenAttribute tokens :=
      List.mem_flatMap.mpr ⟨_, there, List.mem_singleton.mpr rfl⟩
    obtain ⟨found, inside⟩ := exists_mem_eventsFrom chunk 0
    have notText : ∀ text, (Chunk.closing name).event ≠ .data text := fun _ => nofun
    exact closed ⟨found, .endTag name⟩ ((mem_joined notText).mpr inside) name
      ((void name allowed).mpr empty) rfl
  · rintro lasting located there name isVoid event
    have notText : ∀ text, located.event ≠ .data text := by
      rw [event]
      exact fun _ => nofun
    obtain ⟨chunk, inside, same⟩ := mem_eventsFrom ((mem_joined notText).mp there)
    obtain ⟨token, among, own⟩ := List.mem_flatMap.mp inside
    rw [event] at same
    cases token with
    | text chars =>
        obtain ⟨c, -, rfl⟩ := List.mem_map.mp own
        rcases textChunk_cases c with ⟨w, -, chunk, -⟩ | ⟨-, chunk, -⟩ <;> rw [chunk] at same <;>
          cases same
    | opens other attributes =>
        rw [List.mem_singleton.mp own] at same
        cases same
    | closes other =>
        rw [List.mem_singleton.mp own] at same
        cases same
        exact lasting _ among name ((void name (clean _ among)).mp isVoid) rfl

/-- The pieces in a line are its own. -/
theorem piecesIn_line (clean : ∀ token ∈ tokens, token.Clean allowLink) (apart : Apart tokens)
    (fits : Fits [] [] tokens) (lasting : ∀ token ∈ tokens, token.Lasting) :
    piecesIn (lineText writtenAttribute tokens) = linePieces [] tokens := by
  have pieces := pieces_line faithful_writtenAttribute ⟨false, false⟩ clean apart [] fits nofun none
    0
  have page := tokenize_lineText faithful_writtenAttribute fun token there => (clean token there).proper
  have same : reworded (squeezing ⟨false, false⟩) [] none tokens = tokens :=
    reworded_keeping apart lasting
  rw [piecesIn, page]
  exact pieces.trans (congrArg _ same)

/-- A line without tags is a text, if it is anything. -/
theorem eq_text_of_no_tag (apart : Apart tokens)
    (noTag : ∀ token ∈ tokens, ∃ chars, token = .text chars) :
    tokens = [] ∨ ∃ chars, chars ≠ [] ∧ tokens = [.text chars] := by
  cases tokens with
  | nil => exact Or.inl rfl
  | cons token rest =>
      obtain ⟨chars, rfl⟩ := noTag token List.mem_cons_self
      obtain ⟨some', alone, -⟩ := apart
      cases rest with
      | nil => exact Or.inr ⟨chars, some', rfl⟩
      | cons other others =>
          obtain ⟨more, rfl⟩ := noTag other (by simp)
          exact absurd rfl (alone more)

/-- Nothing of a line is left just when it is all white space. -/
theorem minifiedLine_eq_nil {options : MinifyOptions} (collapses : options.collapseWhitespace = true)
    (apart : Apart tokens) (lasting : ∀ token ∈ tokens, token.Lasting) :
    minifiedLine options tokens = [] ↔
      ∀ c ∈ lineText writtenAttribute tokens, isMarkupSpace c = true := by
  have line : minifiedLine options tokens =
      reworded trimming [] none (reworded (squeezing options) [] none tokens) := by
    rw [minifiedLine, if_pos collapses]
  -- either side says that the line has no tag
  by_cases noTag : ∀ token ∈ tokens, ∃ chars, token = .text chars
  · rcases eq_text_of_no_tag apart noTag with rfl | ⟨chars, some', rfl⟩
    · exact iff_of_true line (by simp [lineText, lineChunks, textOf])
    · have squeezed : reworded (squeezing options) [] none [.text chars] = [.text (collapse chars)] := by
        have own : squeezing options [] none none chars = collapse chars := by
          rw [squeezing, squash, collapses]
          rfl
        rw [reworded_text]
        show (LineToken.text (squeezing options [] none none chars)).before [] = _
        rw [own, before_of_apart (mt collapse_eq_nil.mp some') (by simp)]
      have text : lineText writtenAttribute [.text chars] = escapeText chars := by
        rw [lineText_cons, LineToken.chunks, ← escapeText_eq]
        exact List.append_nil _
      rw [line, squeezed, text, blank_escapeText, ← blank_collapseFrom false, ← collapse,
        ← trim_eq_nil_iff]
      show (LineToken.text (trim isMarkupSpace (collapse chars))).before [] = [] ↔ _
      cases trim isMarkupSpace (collapse chars) <;> simp [LineToken.before]
  · obtain ⟨token, there, isTag⟩ : ∃ token ∈ tokens, ∀ chars, token ≠ .text chars := by
      simpa using noTag
    refine iff_of_false (fun nothing => ?_) fun blank => ?_
    · have squeezed := mem_reworded (squeezing options) [] none isTag (lasting token there) there
      have trimmed := mem_reworded trimming [] none isTag (lasting token there) squeezed
      rw [← line, nothing] at trimmed
      cases trimmed
    · have bracket : '<' ∈ lineText writtenAttribute tokens := by
        refine List.mem_flatMap.mpr ?_
        cases token with
        | text chars => exact absurd rfl (isTag chars)
        | opens name attributes =>
            exact ⟨_, List.mem_flatMap.mpr ⟨_, there, List.mem_singleton.mpr rfl⟩, List.mem_cons_self⟩
        | closes name =>
            exact ⟨_, List.mem_flatMap.mpr ⟨_, there, List.mem_singleton.mpr rfl⟩, List.mem_cons_self⟩
      exact absurd (blank '<' bracket) (by decide)

/-! ## A line that is cleaned -/

/-- The line that is left of a line when it is made smaller. -/
def shrunkLine (minifier : Option MinifyOptions) (tokens : List LineToken) : List LineToken :=
  match minifier with
  | none => tokens
  | some options => if minifiedLine options tokens = [] then tokens else minifiedLine options tokens

theorem lineText_eq_nil (quote : Quoting) (apart : Apart tokens) :
    lineText quote tokens = [] ↔ tokens = [] := by
  constructor
  · intro nothing
    cases tokens with
    | nil => rfl
    | cons token rest =>
        rw [lineText_cons] at nothing
        have own := (List.append_eq_nil_iff.mp nothing).1
        cases token with
        | text chars =>
            rw [LineToken.chunks, ← escapeText_eq, escapeText_eq_nil] at own
            exact absurd own apart.1
        | opens name attributes => cases own
        | closes name => cases own
  · rintro rfl
    rfl

/-- A line is made smaller and then sanitized, and comes out rewritten. -/
theorem sanitizeMarkup_shrink (clean : ∀ token ∈ tokens, token.Clean allowLink)
    (apart : Apart tokens) (fits : Fits [] [] tokens) (minifier : Option MinifyOptions) :
    ∃ small, shrink minifier (lineText writtenAttribute tokens) = .ok small ∧
      sanitizeMarkup allowLink small = .ok (rewritten [] [] (shrunkLine minifier tokens)) := by
  have whole := sanitizeMarkup_lineText faithful_writtenAttribute clean fits
  cases minifier with
  | none => exact ⟨_, rfl, whole⟩
  | some options =>
      have minified := minify_lineText faithful_writtenAttribute options clean apart fits
      obtain ⟨apart', -, fits', clean'⟩ := minifiedLine_spec options clean fits
      have less := sanitizeMarkup_lineText faithful_minifiedAttribute clean' fits'
      rw [shrink, minified, shrunkLine]
      have isEmpty : (lineText minifiedAttribute (minifiedLine options tokens)).isEmpty = true ↔
          minifiedLine options tokens = [] := by
        rw [List.isEmpty_iff, lineText_eq_nil minifiedAttribute apart']
      refine ⟨_, rfl, ?_⟩
      dsimp only
      simp only [isEmpty]
      split
      · exact whole
      · exact less

/-- Where white space does not collapse, or nothing would be left, the tree makes of a line that was
made smaller what it makes of the line. -/
theorem rewritten_shrunkLine (minifier : Option MinifyOptions) (tokens : List LineToken) :
    (∃ options, minifier = some options ∧ options.collapseWhitespace = true ∧
      minifiedLine options tokens ≠ [] ∧
      shrunkLine minifier tokens = minifiedLine options tokens) ∨
    ((∀ options, minifier = some options → options.collapseWhitespace = true →
      minifiedLine options tokens = []) ∧
      rewritten [] [] (shrunkLine minifier tokens) = rewritten [] [] tokens) := by
  cases minifier with
  | none => exact Or.inr ⟨nofun, rfl⟩
  | some options =>
      by_cases nothing : minifiedLine options tokens = []
      · refine Or.inr ⟨?_, ?_⟩
        · rintro _ ⟨⟩ -
          exact nothing
        · rw [shrunkLine, if_pos nothing]
      · have same : shrunkLine (some options) tokens = minifiedLine options tokens := if_neg nothing
        cases collapses : options.collapseWhitespace with
        | true => exact Or.inl ⟨options, rfl, collapses, nothing, same⟩
        | false =>
            refine Or.inr ⟨?_, ?_⟩
            · rintro _ ⟨⟩ does
              rw [collapses] at does
              cases does
            · have keeps : squeezing options = keeping := by
                funext open' previous next chars
                rw [squeezing, squash, collapses]
                rfl
              rw [same, minifiedLine, collapses, keeps]
              exact rewritten_keeping tokens [] none []

/-! ## What the texts of a line are like -/

/-- Text that the tree keeps is one character where it is all white space. -/
theorem blankOnce_settledIn {open' : List String} {chars : List Char} (some' : chars ≠ [])
    (counted : counts open' = false) : BlankOnce (escapeText (settledIn open' chars)) := by
  have outside : ¬(chars.isEmpty || open'.any blankKeepingElements.contains) = true := by
    rw [← counts, counted]
    simpa using some'
  rw [settledIn, if_neg outside]
  intro blank
  split
  · split
    · exact Or.inr (by decide)
    · exact Or.inl (by decide)
  · next other =>
      rw [if_neg other, blank_escapeText] at blank
      exact absurd (List.all_eq_true.mpr blank) other

/-- The tree keeps text that is one character where it is all white space. -/
theorem settledIn_eq_self {open' : List String} {chars : List Char}
    (h : counts open' = false → BlankOnce (escapeText chars)) : settledIn open' chars = chars := by
  rw [settledIn]
  split
  · rfl
  · next outside =>
      rw [Bool.or_eq_true, not_or, ← counts] at outside
      have once := h (by simpa using outside.2)
      split
      · next blank =>
          have all := List.all_eq_true.mp blank
          rw [escapeText_blank all] at once
          rcases once all with rfl | rfl <;> decide
      · rfl

/-- Text with single spaces is one space where it is all white space. -/
theorem blankOnce_of_spaced {chars : List Char} (spaced : Spaced chars) (some' : chars ≠ []) :
    BlankOnce chars := by
  intro blank
  cases chars with
  | nil => exact absurd rfl some'
  | cons c rest =>
      rw [List.forall_mem_cons] at blank
      obtain ⟨rfl, next⟩ := (spaced_cons.mp spaced).1 blank.1
      cases rest with
      | nil => exact Or.inl rfl
      | cons d others =>
          have space := blank.2 d List.mem_cons_self
          rw [next d rfl] at space
          cases space

/-- The texts of a line that was minified are single spaces between others, and none at an edge. -/
theorem ofTexts_minifiedLine {options : MinifyOptions}
    (collapses : options.collapseWhitespace = true) (apart : Apart tokens)
    (lasting : ∀ token ∈ tokens, token.Lasting) (fits : Fits [] [] tokens) :
    OfTexts (fun previous next chars => chars ≠ [] ∧ Spaced chars ∧ Trimmed previous next chars) none
      (linePieces [] (minifiedLine options tokens)) := by
  obtain ⟨apart', lasting', -, -⟩ := reworded_spec (squeezing options) fits none
  have spaced : OfTexts (fun _ _ => Spaced) none
      (linePieces [] (reworded (squeezing options) [] none tokens)) := by
    refine ofTexts_reworded (fun open' _ _ chars _ counted => ?_) apart lasting none none
    rw [squeezing, squash, collapses, counted, spaced_escapeText]
    exact spaced_collapse chars
  have trimmed := ofTexts_trimPieces (fun previous next _ spaced => spaced.trimText previous next)
    (textsApart_linePieces apart' []) spaced
  rw [minifiedLine, if_pos collapses, ← trimPieces_linePieces apart' lasting' [] none none rfl]
  exact trimmed

/-- A line whose texts are single spaces between others, and none at an edge, is minified to
itself. -/
theorem linePieces_minifiedLine {options : MinifyOptions}
    (collapses : options.collapseWhitespace = true) (apart : Apart tokens)
    (lasting : ∀ token ∈ tokens, token.Lasting)
    (spaces : OfTexts (fun previous next chars => Spaced chars ∧ Trimmed previous next chars) none
      (linePieces [] tokens)) :
    linePieces [] (minifiedLine options tokens) = linePieces [] tokens := by
  have some' : OfTexts (fun _ _ chars => chars ≠ []) none (linePieces [] tokens) := by
    rw [← reworded_keeping apart lasting]
    exact ofTexts_reworded (fun _ _ _ _ nonempty _ => mt escapeText_eq_nil.mp nonempty) apart lasting
      none none
  have spaced : OfTexts (fun _ _ => Spaced) none (linePieces [] tokens) :=
    spaces.mono fun _ _ _ => And.left
  have squeezed : reworded (squeezing options) [] none tokens = tokens := by
    refine reworded_eq_self _ (fun open' _ _ chars own => ?_) apart lasting spaced none
    rw [squeezing, squash, collapses]
    cases counted : counts open' with
    | true => rfl
    | false => exact collapse_eq_self.mpr (spaced_escapeText.mp (own counted))
  rw [minifiedLine, if_pos collapses, squeezed, ← trimPieces_linePieces apart lasting [] none none rfl]
  exact trimPieces_eq_self fun before chars after split =>
    ⟨some' before chars after split, (spaces before chars after split).2⟩

/-! ## Cleaning again -/

theorem tidy_line (clean : ∀ token ∈ tokens, token.Clean allowLink) (apart : Apart tokens)
    (fits : Fits [] [] tokens) (lasting : ∀ token ∈ tokens, token.Lasting)
    (blank : OfTexts (fun _ _ => BlankOnce) none (linePieces [] tokens))
    (spaces : ∀ options, minifier = some options → options.collapseWhitespace = true →
      (∃ c ∈ lineText writtenAttribute tokens, isMarkupSpace c = false) →
        OfTexts (fun previous next chars => Spaced chars ∧ Trimmed previous next chars) none
          (linePieces [] tokens)) :
    Tidy minifier (lineText writtenAttribute tokens) where
  closed := (closed_iff clean).mpr lasting
  blank := (piecesIn_line clean apart fits lasting).symm ▸ blank
  spaces := (piecesIn_line clean apart fits lasting).symm ▸ spaces

/-- What comes out of a line closes no element without content. -/
theorem lasting_of_same (clean : ∀ token ∈ tokens, token.Clean allowLink)
    (fits : Fits [] [] tokens)
    (same : rewritten [] [] (shrunkLine minifier tokens) = lineText writtenAttribute tokens) :
    ∀ token ∈ tokens, token.Lasting := by
  have texts : ∀ chars, (LineToken.text chars).Clean allowLink := fun _ => trivial
  -- either way what comes out is a line with its texts as the tree keeps them
  obtain ⟨line, apart', lasting', fits', clean', out⟩ : ∃ line, Apart line ∧
      (∀ token ∈ line, token.Lasting) ∧ Fits [] [] line ∧
      (∀ token ∈ line, token.Clean allowLink) ∧
      rewritten [] [] (shrunkLine minifier tokens) = rewritten [] [] line := by
    rcases rewritten_shrunkLine minifier tokens with ⟨options, -, -, -, shrunk⟩ | ⟨-, unchanged⟩
    · obtain ⟨apart', lasting', fits', clean'⟩ := minifiedLine_spec options clean fits
      exact ⟨_, apart', lasting', fits', clean', by rw [shrunk]⟩
    · obtain ⟨apart', lasting', nests, all⟩ := reworded_spec keeping fits none
      exact ⟨_, apart', lasting', nests [], all texts clean,
        unchanged.trans (rewritten_keeping tokens [] none []).symm⟩
  obtain ⟨-, settledLasts, -, all⟩ := reworded_spec settling fits' none
  have closed := (closed_iff (all texts clean')).mpr settledLasts
  rw [← rewritten_settling apart' lasting', ← out, same] at closed
  exact (closed_iff clean).mp closed

/-- A line comes out as it is just when it is tidy. -/
theorem rewritten_shrunkLine_eq_iff (clean : ∀ token ∈ tokens, token.Clean allowLink)
    (apart : Apart tokens) (fits : Fits [] [] tokens) (minifier : Option MinifyOptions) :
    rewritten [] [] (shrunkLine minifier tokens) = lineText writtenAttribute tokens ↔
      Tidy minifier (lineText writtenAttribute tokens) := by
  have texts : ∀ chars, (LineToken.text chars).Clean allowLink := fun _ => trivial
  constructor
  · intro same
    have lasting := lasting_of_same clean fits same
    rcases rewritten_shrunkLine minifier tokens with
      ⟨options, rfl, collapses, some', shrunk⟩ | ⟨none', unchanged⟩
    · -- what is minified has the texts of tidy markup, so the tree keeps them
      have pieces := ofTexts_minifiedLine collapses apart lasting fits
      obtain ⟨apart', lasting', fits', clean'⟩ := minifiedLine_spec options clean fits
      have blank : OfTexts (fun _ _ => BlankOnce) none (linePieces [] (minifiedLine options tokens)) :=
        pieces.mono fun _ _ _ own => blankOnce_of_spaced own.2.1 own.1
      have kept := reworded_eq_self settling (fun _ _ _ _ => settledIn_eq_self) apart'
        lasting' blank none
      rw [shrunk, rewritten_settling apart' lasting' [] none, kept] at same
      rw [← same]
      refine tidy_line clean' apart' fits' lasting' blank fun _ _ _ _ => ?_
      exact pieces.mono fun _ _ _ => And.right
    · obtain ⟨apart', lasting', nests, all⟩ := reworded_spec settling fits none
      rw [unchanged, rewritten_settling apart lasting [] none] at same
      rw [← same]
      refine tidy_line (all texts clean) apart' (nests []) lasting' ?_ ?_
      · exact ofTexts_reworded (fun _ _ _ _ => blankOnce_settledIn) apart lasting none none
      · -- white space collapses only where something else is left
        rintro options is collapses ⟨c, there, other⟩
        rw [same] at there
        have all := (minifiedLine_eq_nil collapses apart lasting).mp (none' options is collapses)
        rw [all c there] at other
        cases other
  · intro tidy
    have lasting := (closed_iff clean).mp tidy.closed
    have pieces := piecesIn_line clean apart fits lasting
    have blank := tidy.blank
    rw [pieces] at blank
    have kept := reworded_eq_self settling (fun _ _ _ _ => settledIn_eq_self) apart
      lasting blank none
    have whole : rewritten [] [] tokens = lineText writtenAttribute tokens := by
      rw [rewritten_settling apart lasting [] none, kept]
    rcases rewritten_shrunkLine minifier tokens with
      ⟨options, rfl, collapses, some', shrunk⟩ | ⟨-, unchanged⟩
    · have other : ∃ c ∈ lineText writtenAttribute tokens, isMarkupSpace c = false := by
        by_contra nothing
        refine some' ((minifiedLine_eq_nil collapses apart lasting).mpr fun c there => ?_)
        by_contra space
        exact nothing ⟨c, there, Bool.eq_false_iff.mpr space⟩
      have spaces := tidy.spaces options rfl collapses other
      rw [pieces] at spaces
      have same := linePieces_minifiedLine collapses apart lasting spaces
      -- both lines have one text, and so come out as one
      obtain ⟨-, -, fits', clean'⟩ := minifiedLine_spec options clean fits
      have out := sanitizeMarkup_lineText faithful_minifiedAttribute clean' fits'
      rw [← chars_linePieces [], same, chars_linePieces,
        sanitizeMarkup_lineText faithful_minifiedAttribute clean fits] at out
      rw [shrunk, ← Except.ok.inj out, whole]
    · rw [unchanged, whole]

variable {options : Options} {key content : List Char} {escapeKey : Bool} {cleaned : Cleaned}

/-- Clean content is cleaned again without a fault, and stays as it is just when it is tidy. -/
theorem clean_again_iff_tidy (h : clean options key content escapeKey = .ok cleaned)
    (noData : CleanMarkup options.allowsLink cleaned.content) :
    ∃ again, clean options key cleaned.content escapeKey = .ok again ∧
      (again.content = cleaned.content ↔ Tidy options.contentMinifier cleaned.content) := by
  obtain ⟨small, smaller, behind⟩ := exists_bind_eq_ok h
  obtain ⟨markup, -, sanitized⟩ := exists_bind_eq_ok behind
  obtain ⟨out, done, same⟩ := exists_bind_eq_ok sanitized
  cases same
  obtain ⟨tokens, rfl, clean, fits, apart⟩ := exists_line done noData
  obtain ⟨less, shrunk, again⟩ := sanitizeMarkup_shrink clean apart fits options.contentMinifier
  refine ⟨⟨if escapeKey then Script.escape small else small,
    rewritten [] [] (shrunkLine options.contentMinifier tokens)⟩, ?_,
    rewritten_shrunkLine_eq_iff clean apart fits _⟩
  unfold Content.clean
  rw [smaller, shrunk]
  show (do
    let content ← sanitizeMarkup options.allowsLink less
    return (⟨if escapeKey then Script.escape small else small, content⟩ : Cleaned)) = _
  rw [again]
  rfl

/-- A paragraph with text in an element that is unwrapped. -/
def unwrapped : List Char := "<p><button> x</button></p>".toList

/-- The white space in front of the text is at no edge before its element is unwrapped, and is
trimmed the second time. -/
theorem clean_again_unwrapped :
    ¬∀ options key content escapeKey cleaned, clean options key content escapeKey = .ok cleaned →
      ∃ again, clean options key cleaned.content escapeKey = .ok again ∧
        again.content = cleaned.content := by
  intro stays
  have first : clean pagesOnly ['k'] unwrapped false = .ok ⟨['k'], "<p> x</p>".toList⟩ := by
    decide +kernel
  have second : clean pagesOnly ['k'] "<p> x</p>".toList false = .ok ⟨['k'], "<p>x</p>".toList⟩ := by
    decide +kernel
  obtain ⟨again, done, same⟩ := stays _ _ _ _ _ first
  rw [second] at done
  cases done
  exact absurd same (by decide)

/-- Markup with white space in every place: at edges, next to a word and between words. -/
def spacious : List Char := "<div> a  <b>b </b>\n<i>c</i>\t</div> ".toList

/-- Cleaned once, it is tidy. -/
theorem clean_again_spacious :
    clean pagesOnly ['k'] spacious false = .ok ⟨['k'], "<div>a <b>b </b> <i>c</i></div>".toList⟩ ∧
      CleanMarkup pagesOnly.allowsLink "<div>a <b>b </b> <i>c</i></div>".toList ∧
      Tidy pagesOnly.contentMinifier "<div>a <b>b </b> <i>c</i></div>".toList := by
  have first : clean pagesOnly ['k'] spacious false =
      .ok ⟨['k'], "<div>a <b>b </b> <i>c</i></div>".toList⟩ := by
    decide +kernel
  have second : clean pagesOnly ['k'] "<div>a <b>b </b> <i>c</i></div>".toList false =
      .ok ⟨['k'], "<div>a <b>b </b> <i>c</i></div>".toList⟩ := by
    decide +kernel
  have written : sanitizeMarkup pagesOnly.allowsLink "<div>a <b>b </b> <i>c</i></div>".toList =
      .ok "<div>a <b>b </b> <i>c</i></div>".toList := by
    decide +kernel
  have noData : CleanMarkup pagesOnly.allowsLink "<div>a <b>b </b> <i>c</i></div>".toList := by
    obtain ⟨nodes, read, same, proper, allowed⟩ := sanitizeMarkup_eq_ok written
    rw [same]
    refine (render_clean_iff proper allowed).mpr fun shown => ?_
    have hidden : (parse "<div>a <b>b </b> <i>c</i></div>".toList).map nodesShowData = .ok false := by
      decide +kernel
    rw [read] at hidden
    exact absurd ((exists_data_sanitizeNodes nodes).mp shown) (by simpa [Except.map] using hidden)
  obtain ⟨again, done, iff⟩ := clean_again_iff_tidy first noData
  rw [second] at done
  cases done
  exact ⟨first, noData, iff.mp rfl⟩

end MessageCatalog.Content
