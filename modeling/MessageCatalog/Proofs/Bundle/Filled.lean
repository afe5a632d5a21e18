import MessageCatalog.Bundle.Compiled
import MessageCatalog.Proofs.Basic
import MessageCatalog.Proofs.Markup.Names
import MessageCatalog.Proofs.Message.Filling

/-!
# MessageCatalog.Proofs.Bundle.Filled -- filled messages and their markup

A message is cleaned as markup and then read as a message, and the second reading takes characters
away that the first one counted on. What it takes away or fills in does no harm where it stands
inside text, or inside a quoted value of one element: the filled message then has no names that the
cleaned one does not have. Anywhere else it can bring new ones, an apostrophe that quotes a brace
being enough when it is also the quote of a value.
-/

namespace MessageCatalog.Bundle

open MessageCatalog.Config MessageCatalog.Markup MessageCatalog.Message MessageCatalog.Text

/-! ## Edits that keep their place -/

/-- Every stretch that goes stands between two ends at one and the same place, which is text or a
quoted value, when the text that the edits start from is read from a place. -/
def PlacedFrom : Place → List Edit → Prop
  | _, [] => True
  | place, .keep c :: edits => PlacedFrom (place.step c) edits
  | place, .swap gone _ :: edits =>
    place.Steady ∧ place.run gone = place ∧ PlacedFrom place edits

variable {edits : List Edit}

/-- Edits that keep their place lead to a text that ends in the same place and has no other names. -/
theorem PlacedFrom.names {place : Place} (h : PlacedFrom place edits)
    (lettered : ∀ edit ∈ edits, edit.Lettered) :
    place.run (targetOf edits) = place.run (sourceOf edits) ∧
      place.names (targetOf edits) ⊆ place.names (sourceOf edits) := by
  induction edits generalizing place with
  | nil => exact ⟨rfl, List.Subset.refl _⟩
  | cons edit edits ih =>
      rw [List.forall_mem_cons] at lettered
      cases edit with
      | keep c =>
          obtain ⟨same, names⟩ := ih h lettered.2
          refine ⟨same, fun name there => ?_⟩
          exact List.mem_append.mpr ((List.mem_append.mp there).imp_right fun later => names later)
      | swap gone instead =>
          -- the stretch ends where it began, and what is put in does not leave that place
          obtain ⟨steady, back, later⟩ := h
          obtain ⟨same, names⟩ := ih later lettered.2
          obtain ⟨stays, none⟩ := steady.leads lettered.1
          rw [targetOf_cons, sourceOf_cons, Place.run_append, Place.run_append, Place.names_append,
            Place.names_append]
          simp only [Edit.target, Edit.source]
          rw [stays, none, back, List.nil_append]
          exact ⟨same, fun name there => List.mem_append_right _ (names there)⟩

/-- Text that is filled keeping its place has no names that it did not have. -/
theorem names_filled (placed : PlacedFrom .text edits) (lettered : ∀ edit ∈ edits, edit.Lettered)
    (read : Place.text.run (sourceOf edits) = .text) :
    ∃ nodes others, Markup.parse (targetOf edits) = .ok nodes ∧
      Markup.parse (sourceOf edits) = .ok others ∧ namesOf nodes ⊆ namesOf others := by
  obtain ⟨same, names⟩ := placed.names lettered
  obtain ⟨before, allowed, source⟩ := Place.exists_chunks read
  obtain ⟨after, allowed', target⟩ := Place.exists_chunks (same.trans read)
  rw [source, target, (Place.leads_textOf allowed).2, (Place.leads_textOf allowed').2] at names
  have filled := parse_textOf fun chunk there => (allowed' chunk there).proper
  have unfilled := parse_textOf fun chunk there => (allowed chunk there).proper
  rw [target, source]
  refine ⟨_, _, filled, unfilled, fun name there => ?_⟩
  exact mem_namesOf_textOf.mpr (names (mem_namesOf_textOf.mp there))

/-! ## Edits apart from brackets -/

/-- No bracket that stays and is closed stands directly before a letter or before a stretch that
goes. -/
def Apart : List Edit → Prop
  | [] => True
  | .keep c :: edits =>
    (c = '<' → '>' ∈ targetOf edits →
      ∀ next ∈ edits.head?, ∃ d, next = .keep d ∧ isAsciiLetter d = false) ∧ Apart edits
  | .swap _ _ :: edits => Apart edits

theorem not_opensTag_append {front text : List Char} (plain : '<' ∉ front)
    (h : ∀ behind, behind <:+ text → ¬OpensTag behind) :
    ∀ behind, behind <:+ front ++ text → ¬OpensTag behind := by
  induction front with
  | nil => exact h
  | cons c front ih =>
      intro behind suffix
      rw [List.mem_cons, not_or] at plain
      rcases List.suffix_cons_iff.mp suffix with rfl | inside
      · rintro ⟨d, rest, same, _⟩
        exact plain.1 (List.cons.inj same).1.symm
      · exact ih plain.2 behind inside

/-- Edits apart from brackets bring no bracket before a letter that is closed. -/
theorem Apart.not_opensTag (h : Apart edits) (lettered : ∀ edit ∈ edits, edit.Lettered) :
    ∀ behind, behind <:+ targetOf edits → ¬OpensTag behind := by
  induction edits with
  | nil =>
      rintro behind suffix ⟨c, rest, rfl, _⟩
      exact absurd (List.suffix_nil.mp suffix) (List.cons_ne_nil _ _)
  | cons edit edits ih =>
      rw [List.forall_mem_cons] at lettered
      cases edit with
      | keep c =>
          obtain ⟨apart, later⟩ := h
          intro behind suffix
          rcases List.suffix_cons_iff.mp suffix with rfl | inside
          · -- a bracket that stays: the letter behind it stays too, against the edits
            rintro ⟨d, rest, same, letter, closed⟩
            obtain ⟨rfl, next⟩ := List.cons.inj same
            change targetOf edits = d :: rest at next
            cases edits with
            | nil => cases next
            | cons first others =>
                have inside := next ▸ List.mem_cons_of_mem d closed
                obtain ⟨e, rfl, other⟩ := apart rfl inside first rfl
                obtain ⟨rfl, _⟩ := List.cons.inj next
                exact Bool.false_ne_true (other.symm.trans letter)
          · exact ih later lettered.2 behind inside
      | swap gone instead =>
          refine not_opensTag_append (fun there => ?_) (ih h lettered.2)
          exact absurd (lettered.1 _ there) (by decide)

/-! ## Compiled content -/

variable {options : Options} {key value content : List Char} {cleaned : Content.Cleaned}

/-- Cleaned content is sanitized. -/
theorem clean_content {escapeKey : Bool}
    (clean : Content.clean options key value escapeKey = .ok cleaned) :
    ∃ markup, sanitizeMarkup options.allowsLink markup = .ok cleaned.content := by
  obtain ⟨_, _, afterKey⟩ := exists_bind_eq_ok clean
  obtain ⟨markup, _, afterContent⟩ := exists_bind_eq_ok afterKey
  obtain ⟨content, sanitized, last⟩ := exists_bind_eq_ok afterContent
  cases last
  exact ⟨markup, sanitized⟩

/-- Content is the cleaned one, unless the value is its text. -/
theorem keepPlain_eq_ok (kept : Content.keepPlain value cleaned.content = .ok content)
    (notText : textContent cleaned.content ≠ .ok value) : content = cleaned.content := by
  rw [Content.keepPlain] at kept
  cases read : textContent cleaned.content with
  | error why =>
      rw [read] at kept
      cases kept
  | ok text =>
      rw [read] at kept notText
      have other : text ≠ value := fun same => notText (congrArg Except.ok same)
      rw [Except.map, if_neg (by simpa using other)] at kept
      exact (Except.ok.inj kept).symm

/-- The texts that compiled content comes to are those that its edits lead to. Where cleaned content
without a section is compiled, edits that keep their place bring no new names; and edits apart from
brackets bring no names at all. -/
theorem filled_names {context : Context} {message : Message}
    (clean : Content.clean options key value true = .ok cleaned)
    (kept : Content.keepPlain value cleaned.content = .ok content)
    (isMessage : Message.parse context content = .ok message) :
    (∀ filled, Fills message filled ↔
      ∃ edits, Edited context 0 false content message edits [] ∧ targetOf edits = filled) ∧
    ∀ edits, Edited context 0 false content message edits [] →
      (textContent cleaned.content ≠ .ok value → NoSection content → PlacedFrom .text edits →
        ∃ nodes others, Markup.parse (targetOf edits) = .ok nodes ∧
          Markup.parse content = .ok others ∧ namesOf nodes ⊆ namesOf others) ∧
      (Apart edits → ∀ nodes, Markup.parse (targetOf edits) = .ok nodes → namesOf nodes = []) := by
  refine ⟨fills_iff isMessage, fun edits edited => ⟨?_, ?_⟩⟩
  · intro notText noSection placed
    obtain ⟨markup, sanitized⟩ := clean_content clean
    rw [← keepPlain_eq_ok kept notText] at sanitized
    have source : content = sourceOf edits := edited.sound.2.2.trans (List.append_nil _)
    have read := run_sanitized sanitized noSection
    rw [source] at read ⊢
    exact names_filled placed edited.lettered read
  · intro apart nodes read
    exact namesOf_eq_nil (apart.not_opensTag edited.lettered) read

/-! ## Small messages -/

/-- Options that leave contents as long as they are and allow every link. -/
def smallOptions : Options where
  locales := ["en"]
  attributes := ["localize"]
  functions := ["localize"]
  pageFiles := ⟨"", .empty⟩
  scriptFiles := ⟨"", .empty⟩
  localeInPath := ⟨"", .empty⟩
  allowedLinks := ⟨"", .empty⟩
  placeholder := "@"
  objectName := "i18n"
  flatStores := false
  wrapStatic := false
  purge := true
  rulesFile := none
  runtimeFile := none
  templateFile := none
  contentMinifier := none
  keyMinifier := none
  storeLayout := some .line
  sheet := ⟨"", "", "", "", []⟩
  seeds := []

/-- Categories of a plural choice. -/
def smallContext : Context := .ofCategories ["one"] ["one"] defaultMaxDepth

theorem textEdits_keep {inPlural : Bool} {chars rest : List Char}
    (plain : ∀ c ∈ chars, c ≠ '\'' ∧ ¬Special inPlural c)
    (stop : ∀ c ∈ rest.head?, Special inPlural c) :
    TextEdits inPlural (chars ++ rest) (chars.map .keep) rest := by
  induction chars with
  | nil => exact .stop stop
  | cons c chars ih =>
      rw [List.forall_mem_cons] at plain
      exact .char plain.1.1 plain.1.2 (ih plain.2)

/-- Text around a placeholder. -/
def around (front back : List Char) : List Char := front ++ "\x7bx\x7d".toList ++ back

/-- The edits that fill the placeholder. -/
def fillAround (front back : List Char) : List Edit :=
  front.map .keep ++ [.swap "\x7bx\x7d".toList "a1".toList] ++ back.map .keep

theorem edited_around {front back : List Char}
    (plain : ∀ c ∈ front ++ back, c ≠ '\'' ∧ ¬Special false c) :
    ∃ message, Edited smallContext 0 false (around front back) message (fillAround front back) [] := by
  rw [List.forall_mem_append] at plain
  have before : TextEdits false (around front back) (front.map .keep)
      ('\x7b' :: ("x\x7d".toList ++ back)) := by
    rw [around, List.append_assoc]
    refine textEdits_keep plain.1 ?_
    rintro c ⟨⟩
    exact Or.inl rfl
  have behind : TextEdits false back (back.map .keep) [] := by
    have all : TextEdits false (back ++ []) (back.map .keep) [] :=
      textEdits_keep plain.2 (by simp)
    rwa [List.append_nil] at all
  have read : readWord .argumentName ("x\x7d".toList ++ back) = .ok ("x", '\x7d' :: back) := rfl
  have argument : Argument smallContext 0 false ("x\x7d".toList ++ back) (.argument "x") back :=
    .plain (blanks_iff.mpr rfl) (readWord_iff.mp read) (blanks_iff.mpr rfl)
  have filling : IsFilling "a1".toList := ⟨by simp, List.all_eq_true.mp rfl⟩
  exact ⟨_, .argument before (.placeholder argument trivial filling) (.last behind (by simp))⟩

/-- A placeholder inside an element. -/
def boldMarkup : List Char := around "<b>".toList "</b>".toList

/-- A placeholder behind a section. -/
def sectionAround : List Char := around "<![CDATA[y]]>".toList []

theorem noSection_boldMarkup : NoSection boldMarkup := by
  have events : (tokenize boldMarkup).events.map Located.event =
      [.startTag "b" [] false, .data "\x7bx\x7d".toList, .endTag "b"] := by
    decide +kernel
  intro located there text marked
  have among := List.mem_map_of_mem (f := Located.event) there
  rw [events, marked] at among
  simp at among

/-- Filling the placeholder in the element brings no name, and filling the one behind the section
leaves text without names. -/
theorem filled_around : ∃ bold plain nodes others tree,
    Message.parse smallContext boldMarkup = .ok bold ∧ Fills bold "<b>a1</b>".toList ∧
      Markup.parse "<b>a1</b>".toList = .ok nodes ∧ Markup.parse boldMarkup = .ok others ∧
      namesOf nodes ⊆ namesOf others ∧
    Message.parse smallContext sectionAround = .ok plain ∧
      Fills plain "<![CDATA[y]]>a1".toList ∧
      Markup.parse "<![CDATA[y]]>a1".toList = .ok tree ∧ namesOf tree = [] := by
  have isMessage : ∀ {text message edits}, Edited smallContext 0 false text message edits [] →
      Message.parse smallContext text = .ok message := fun edited =>
    (parse_iff_parseText.trans parseText_iff).mpr edited.sound.1
  -- edits that keep their place
  obtain ⟨bold, edited⟩ : ∃ message, Edited smallContext 0 false boldMarkup message
      (fillAround "<b>".toList "</b>".toList) [] := edited_around (by simp [Special])
  have clean : Content.clean smallOptions ['k'] boldMarkup true = .ok ⟨['k'], boldMarkup⟩ := by
    decide +kernel
  have kept : Content.keepPlain boldMarkup boldMarkup = .ok boldMarkup := by decide +kernel
  have notText : textContent boldMarkup ≠ .ok boldMarkup := by decide +kernel
  have placed : PlacedFrom .text (fillAround "<b>".toList "</b>".toList) :=
    ⟨trivial, by decide, trivial⟩
  obtain ⟨fills, names⟩ := filled_names clean kept (isMessage edited)
  obtain ⟨nodes, others, filled, unfilled, within⟩ :=
    (names _ edited).1 notText noSection_boldMarkup placed
  -- edits apart from the only bracket
  obtain ⟨plain, edited'⟩ : ∃ message, Edited smallContext 0 false sectionAround message
      (fillAround "<![CDATA[y]]>".toList []) [] := edited_around (by simp [Special])
  have clean' : Content.clean smallOptions ['k'] sectionAround true =
      .ok ⟨['k'], sectionAround⟩ := by
    decide +kernel
  have kept' : Content.keepPlain sectionAround sectionAround = .ok sectionAround := by
    decide +kernel
  have apart : Apart (fillAround "<![CDATA[y]]>".toList []) := by
    simp [fillAround, Apart, isAsciiLetter]
  obtain ⟨fills', names'⟩ := filled_names clean' kept' (isMessage edited')
  have read : (Markup.parse "<![CDATA[y]]>a1".toList).isOk = true := by decide +kernel
  cases parsed : Markup.parse "<![CDATA[y]]>a1".toList with
  | error why =>
      rw [parsed] at read
      cases read
  | ok tree =>
      exact ⟨bold, plain, nodes, others, tree, isMessage edited,
        (fills _).mpr ⟨_, edited, rfl⟩, filled, unfilled, within, isMessage edited',
        (fills' _).mpr ⟨_, edited', rfl⟩, rfl, (names' _ edited').2 apart tree parsed⟩

/-- An apostrophe that is the quote of a value and quotes a brace. -/
def quotedMarkup : List Char := "<b title='\x7b\" onclick=x '>y</b>".toList

/-- The text that it comes to. -/
def unquotedMarkup : List Char := "<b title=\x7b\" onclick=x >y</b>".toList

/-- The message has no choices and no arguments, and its text has an attribute that its content does
not have. -/
theorem filled_quotedMarkup : ∃ message nodes others,
    Content.clean smallOptions ['k'] quotedMarkup true = .ok ⟨['k'], quotedMarkup⟩ ∧
      Content.keepPlain quotedMarkup quotedMarkup = .ok quotedMarkup ∧
      needsFunction smallOptions ['k'] quotedMarkup = true ∧
      Message.parse smallContext quotedMarkup = .ok message ∧ Fills message unquotedMarkup ∧
      Markup.parse unquotedMarkup = .ok nodes ∧ Markup.parse quotedMarkup = .ok others ∧
      .inElement "b" "onclick" ∈ namesOf nodes ∧ .inElement "b" "onclick" ∉ namesOf others := by
  have run : TextRun false quotedMarkup unquotedMarkup [] := readText_sound (by decide +kernel)
  have isMessage : Message.parse smallContext quotedMarkup = .ok (withText unquotedMarkup []) :=
    (parse_iff_parseText.trans parseText_iff).mpr (.last run (by simp))
  have filled : ((Markup.parse unquotedMarkup).map namesOf) =
      .ok [.element "b", .inElement "b" "title", .inElement "b" "onclick"] := by
    decide +kernel
  have unfilled : ((Markup.parse quotedMarkup).map namesOf) =
      .ok [.element "b", .inElement "b" "title"] := by
    decide +kernel
  cases after : Markup.parse unquotedMarkup with
  | error why =>
      rw [after] at filled
      cases filled
  | ok nodes =>
      cases before : Markup.parse quotedMarkup with
      | error why =>
          rw [before] at unfilled
          cases unfilled
      | ok others =>
          rw [after] at filled
          rw [before] at unfilled
          refine ⟨_, nodes, others, by decide +kernel, by decide +kernel, by decide, isMessage,
            fills_withText.mpr ⟨[], (List.append_nil _).symm, .nil⟩, rfl, rfl, ?_, ?_⟩
          · rw [Except.ok.inj filled]
            decide
          · rw [Except.ok.inj unfilled]
            decide

end MessageCatalog.Bundle
