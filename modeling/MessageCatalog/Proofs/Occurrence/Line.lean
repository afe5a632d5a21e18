import Mathlib.Data.List.Basic
import MessageCatalog.Occurrence.Page
import MessageCatalog.Proofs.Basic
import MessageCatalog.Proofs.Markup.Fault
import MessageCatalog.Proofs.Markup.Sanitize
import MessageCatalog.Proofs.Occurrence.Scan
import MessageCatalog.Proofs.Text.Cursor

/-!
# MessageCatalog.Proofs.Occurrence.Line -- the line of a fault in a page

A fault in the content of an element stands at one character of the page. The report counts its line
from the line where the start tag begins, so it falls short of the line of that character by the
line ends inside the start tag, and is right exactly when there is none.
-/

namespace MessageCatalog.Text

/-! ## Positions of a part of a text -/

/-- The line of a place in a part of a text: the line where something in front of the part begins,
and every line end from there on. -/
theorem Position.line_at_part (front between : List Char) {part : List Char} (behind : List Char)
    {k : Nat} (inside : k ≤ part.length) :
    (Position.at (front ++ (between ++ (part ++ behind))) (front.length + between.length + k)).line + 1 =
      (Position.at (front ++ (between ++ (part ++ behind))) front.length).line + between.count '\n' +
        (Position.at part k).line := by
  have before : (front ++ (between ++ (part ++ behind))).take front.length = front := List.take_left
  have upTo : (front ++ (between ++ (part ++ behind))).take (front.length + between.length + k) =
      front ++ (between ++ part.take k) := by
    rw [Nat.add_assoc, List.take_length_add_append, List.take_length_add_append,
      List.take_append_of_le_length inside]
  rw [Position.at, Position.at, Position.at, before, upTo]
  simp only [Position.line_after, List.count_append]
  omega

end MessageCatalog.Text

namespace MessageCatalog.Occurrence

open MessageCatalog.Config MessageCatalog.Markup MessageCatalog.Report MessageCatalog.Text

variable {name text : List Char}

/-! ## The content in the page -/

theorem tagRest_text {quote : Option Char} {inside after : List Char}
    (h : tagRest quote text = some (inside, after)) : text = inside ++ '>' :: after := by
  induction text generalizing quote inside with
  | nil => cases h
  | cons c rest ih =>
      have later : ∀ quote', ((tagRest quote' rest).map fun read => (c :: read.1, read.2)) =
          some (inside, after) → c :: rest = inside ++ '>' :: after := by
        intro quote' read
        obtain ⟨⟨others, _⟩, found, same⟩ := Option.map_eq_some_iff.mp read
        cases same
        exact congrArg (c :: ·) (ih found)
      unfold tagRest at h
      split at h
      · exact later _ h
      split at h
      · next bracket =>
          cases h
          exact congrArg (· :: after) (eq_of_beq bracket)
      · exact later _ h

theorem markAt?_suffix {mark : Mark} {after : List Char}
    (h : markAt? name text = some (mark, after)) : after <:+ text := by
  rcases markAt?_cases h with ⟨inside, before, rfl, found⟩ |
    ⟨tag, named, rest, inside, rfl, same, found, -, read⟩
  · obtain ⟨⟨front, others⟩, broken, same⟩ := Option.map_eq_some_iff.mp found
    cases same
    rw [(breakWhere_eq_some broken).1]
    exact (List.drop_suffix _ _).trans ((List.suffix_append _ _).trans (List.suffix_append _ _))
  · have behind : after <:+ named :=
      ((List.suffix_cons _ _).trans ⟨inside, (tagRest_text read).symm⟩).trans (afterName?_suffix found)
    rcases same with rfl | rfl
    · exact behind.trans (List.suffix_cons _ _)
    · exact behind.trans ((List.suffix_cons _ _).trans (List.suffix_cons _ _))

/-- What is looked through for an end tag is passed over unchanged. -/
theorem upToClosing_prefix {source : List Char} {fuel open' : Nat}
    (h : upToClosing name fuel open' text = some source) : source <+: text := by
  induction fuel generalizing open' text source with
  | zero => cases h
  | succ fuel ih =>
      cases text with
      | nil => cases h
      | cons c rest =>
          rw [upToClosing] at h
          cases found : markAt? name (c :: rest) with
          | none =>
              rw [found] at h
              obtain ⟨others, later, rfl⟩ := Option.map_eq_some_iff.mp h
              exact List.cons_prefix_cons.mpr ⟨rfl, ih later⟩
          | some read =>
              obtain ⟨mark, after⟩ := read
              -- the text is what is passed over and what is behind the mark
              obtain ⟨passed, whole⟩ := markAt?_suffix found
              have size : rest.length + 1 - after.length = passed.length := by
                rw [← List.length_cons, ← whole, List.length_append, Nat.add_sub_cancel]
              have passes : ∀ now, (upToClosing name fuel now after).map (passed ++ ·) = some source →
                  source <+: c :: rest := by
                intro now goes
                obtain ⟨others, later, rfl⟩ := Option.map_eq_some_iff.mp goes
                rw [← whole]
                exact (List.prefix_append_right_inj passed).mpr (ih later)
              rw [found] at h
              dsimp only at h
              rw [size, ← whole, List.take_left] at h
              cases mark <;> cases open' <;> dsimp only at h
              all_goals first
                | exact passes _ h
                | (cases h; exact List.nil_prefix)

/-- The start tag at an offset of a page, as it is written. -/
def startTagAt (page : List Char) (offset : Nat) : List Char :=
  match tagRest none (page.drop (offset + 1)) with
  | some (inside, _) => '<' :: inside ++ ['>']
  | none => []

/-- The content of an element stands in the page behind its start tag. -/
theorem innerSource_cut {page source : List Char} {offset : Nat}
    (h : innerSource page name offset = some source) :
    ∃ front behind, front.length = offset ∧
      page = front ++ (startTagAt page offset ++ (source ++ behind)) := by
  obtain ⟨tag, opened, h⟩ := Option.bind_eq_some_iff.mp h
  obtain ⟨⟨inside, rest⟩, read, h⟩ := Option.bind_eq_some_iff.mp h
  have here : page.drop offset = '<' :: tag := after?_iff.mp opened
  have behind : page.drop (offset + 1) = tag := by rw [← List.tail_drop, here, List.tail_cons]
  dsimp only at h
  split at h
  · cases h
  obtain ⟨others, rfl⟩ := upToClosing_prefix h
  have whole : '<' :: inside ++ ['>'] ++ (source ++ others) = page.drop offset := by
    rw [here, tagRest_text read, List.append_assoc]
    rfl
  have reached : offset ≤ page.length := by
    have long := congrArg List.length here
    rw [List.length_drop, List.length_cons] at long
    omega
  refine ⟨page.take offset, others, List.length_take_of_le reached, ?_⟩
  rw [startTagAt, behind, read]
  dsimp only
  rw [whole, List.take_append_drop]

/-! ## Faults of a content -/

theorem Findings.mem_log_concat {all : List Findings} {line : Line} :
    line ∈ (Findings.concat all).log ↔ ∃ found ∈ all, line ∈ found.log := by
  induction all with
  | nil => exact ⟨nofun, nofun⟩
  | cons found rest ih =>
      rw [List.exists_mem_cons_iff, ← ih]
      exact List.mem_append

/-- What is made smaller is read as a tree, and a tree has no faults with a place. -/
theorem sanitizeMarkup_fault {allowLink : List Char → Bool} {markup : List Char} {e : MarkupError}
    (h : sanitizeMarkup allowLink markup = .error e) : e.position = none := by
  rw [sanitizeMarkup, parse] at h
  split at h
  · cases h
    rfl
  · cases h

/-- A fault that has a place stands at one character of the content that is cleaned. -/
theorem clean_fault {options : Options} {source : List Char} {e : MarkupError} {place : Position}
    (h : Content.clean options source source false = .error e) (placed : e.position = some place) :
    ∃ k < source.length, Position.at source k = place := by
  have shrunk : ∀ {minifier}, Content.shrink minifier source = .error e →
      ∃ k < source.length, Position.at source k = place := by
    intro minifier failed
    cases minifier with
    | none => cases failed
    | some small =>
        cases minified : minify small source with
        | ok text =>
            rw [Content.shrink, minified] at failed
            cases failed
        | error e' =>
            rw [Content.shrink, minified] at failed
            cases failed
            obtain ⟨k, inside, position⟩ := minify_fault minified
            exact ⟨k, inside, Option.some.inj (position.symm.trans placed)⟩
  rw [Content.clean] at h
  cases key : Content.shrink (Content.keyMinifier options) source with
  | error e' =>
      rw [key] at h
      cases h
      exact shrunk key
  | ok small =>
      cases content : Content.shrink options.contentMinifier source with
      | error e' =>
          rw [key, content] at h
          cases h
          exact shrunk content
      | ok small' =>
          rw [key, content] at h
          dsimp only [bind, Except.bind] at h
          cases swept : sanitizeMarkup options.allowsLink small' with
          | ok text =>
              rw [swept] at h
              cases h
          | error e' =>
              rw [swept] at h
              cases h
              rw [sanitizeMarkup_fault swept] at placed
              cases placed

/-- An element of a page that is marked for its content, whose content is read from the page and has
a fault with a place. -/
structure FaultyContent (options : Options) (page : List Char) where
  nodes : List Node
  parsed : parse page = .ok nodes
  tag : Tag
  present : ∃ element ∈ allElements nodes, element.tag = tag
  mark : String
  first : options.attributes.head? = some mark
  marked : isMarked tag mark = true
  bare : markValue tag mark = []
  source : List Char
  read : innerSource page tag.name.toList tag.offset = some source
  error : MarkupError
  fault : Content.clean options source source false = .error error
  place : Position
  placed : error.position = some place

namespace FaultyContent

variable {options : Options} {page : List Char}

/-- The start tag of the element. -/
def startTag (f : FaultyContent options page) : List Char := startTagAt page f.tag.offset

/-- Where the content starts in the page. -/
def start (f : FaultyContent options page) : Nat := f.tag.offset + f.startTag.length

/-- The place of the fault denotes a character of the content. -/
def Denotes (f : FaultyContent options page) (k : Nat) : Prop :=
  k < f.source.length ∧ Position.at f.source k = f.place

/-- The report of the fault with a line. -/
def report (f : FaultyContent options page) (path : String) (line : Nat) : Line :=
  (Problem.at .markup f.error.message (some ⟨line, f.place.column⟩)).warning
    (String.ofList f.source) none (some path)

/-- The place of the fault denotes one character. -/
theorem exists_denotes (f : FaultyContent options page) :
    ∃ k, f.Denotes k ∧ ∀ other, f.Denotes other → other = k := by
  obtain ⟨k, inside, same⟩ := clean_fault f.fault f.placed
  refine ⟨k, ⟨inside, same⟩, fun other denotes => ?_⟩
  exact Position.at_injective (Nat.le_of_lt denotes.1) (Nat.le_of_lt inside)
    (denotes.2.trans same.symm)

/-- The content stands in the page behind the start tag. -/
theorem getElem?_start_add (f : FaultyContent options page) {k : Nat} (inside : k < f.source.length) :
    page[f.start + k]? = f.source[k]? := by
  obtain ⟨front, behind, reached, whole⟩ := innerSource_cut f.read
  have place : f.start + k = front.length + (f.startTag.length + k) := by
    rw [start, reached, Nat.add_assoc]
  have there : page[f.start + k]? = _ := congrArg (·[f.start + k]?) whole
  rw [there, place, List.getElem?_append_right (Nat.le_add_right _ _), Nat.add_sub_cancel_left]
  rw [← startTag, List.getElem?_append_right (Nat.le_add_right _ _), Nat.add_sub_cancel_left,
    List.getElem?_append_left inside]

/-- The line of a place of the content in the page: the line of the start tag, and every line end
from there on. -/
theorem line_start_add (f : FaultyContent options page) {k : Nat} (inside : k ≤ f.source.length) :
    (Position.at page (f.start + k)).line + 1 =
      (Position.at page f.tag.offset).line + f.startTag.count '\n' +
        (Position.at f.source k).line := by
  obtain ⟨front, behind, reached, whole⟩ := innerSource_cut f.read
  have line := Position.line_at_part front f.startTag behind inside
  rw [startTag, ← whole, reached] at line
  exact line

/-- The line that is reported. -/
def reportedLine (f : FaultyContent options page) : Nat :=
  (Position.at page f.tag.offset).line + f.place.line - 1

theorem attributeFindings_report (f : FaultyContent options page) (path : String) {element : Element}
    (same : element.tag = f.tag) :
    attributeFindings options path page element f.mark = .say (f.report path f.reportedLine) := by
  have shifted : shiftedProblem (.at page f.tag.offset) f.error =
      .at .markup f.error.message (some ⟨f.reportedLine, f.place.column⟩) := by
    rw [shiftedProblem, f.placed]
    rfl
  have content : contentFindings options path page element = .say (f.report path f.reportedLine) := by
    rw [contentFindings, same, f.read]
    dsimp only [Option.getD]
    rw [f.fault]
    dsimp only
    rw [shifted]
    rfl
  rw [attributeFindings, same, f.bare, f.first, f.marked, content]
  simp

/-- The report of the fault is in the log of the page. -/
theorem report_mem_ofPage (f : FaultyContent options page) (path : String) :
    ∃ findings, ofPage options path page = .ok findings ∧
      f.report path f.reportedLine ∈ findings.log := by
  obtain ⟨element, present, same⟩ := f.present
  have known : f.mark ∈ options.attributes := List.mem_of_mem_head? f.first
  have found : element ∈
      (allElements f.nodes).filter fun e => options.attributes.any (isMarked e.tag) := by
    refine List.mem_filter.mpr ⟨present, List.any_eq_true.mpr ⟨f.mark, known, ?_⟩⟩
    rw [same, f.marked]
  refine ⟨_, by rw [ofPage, f.parsed]; rfl, ?_⟩
  have said : .say (f.report path f.reportedLine) ∈ ((allElements f.nodes).filter fun e =>
      options.attributes.any (isMarked e.tag)).flatMap fun e =>
        options.attributes.map (attributeFindings options path page e) :=
    List.mem_flatMap.mpr ⟨element, found,
      List.mem_map.mpr ⟨f.mark, known, f.attributeFindings_report path same⟩⟩
  exact List.mem_append_right _ (Findings.mem_log_concat.mpr ⟨_, said, List.mem_singleton_self _⟩)

end FaultyContent

/-- A fault in the content of an element is reported with a line, and its place denotes one
character of the content. The line falls short of the line of that character in the page by the line
ends inside the start tag, so it is that line exactly when the start tag stands on one line. -/
theorem ofPage_reports_line {options : Options} {page : List Char} (path : String)
    (f : FaultyContent options page) :
    ∃ findings line k, ofPage options path page = .ok findings ∧ f.report path line ∈ findings.log ∧
      f.Denotes k ∧ (∀ other, f.Denotes other → other = k) ∧
      page[f.start + k]? = f.source[k]? ∧
      line + f.startTag.count '\n' = (Position.at page (f.start + k)).line ∧
      (line = (Position.at page (f.start + k)).line ↔ '\n' ∉ f.startTag) := by
  obtain ⟨findings, done, reported⟩ := f.report_mem_ofPage path
  obtain ⟨k, denotes, only⟩ := f.exists_denotes
  have sum : f.reportedLine + f.startTag.count '\n' = (Position.at page (f.start + k)).line := by
    have line := f.line_start_add (Nat.le_of_lt denotes.1)
    have first : (Position.at page f.tag.offset).line = 1 + _ := Position.line_after _
    rw [denotes.2] at line
    rw [FaultyContent.reportedLine]
    omega
  refine ⟨findings, f.reportedLine, k, done, reported, denotes, only, f.getElem?_start_add denotes.1,
    sum, ?_⟩
  rw [← sum, ← List.count_eq_zero]
  omega

/-! ## Line ends in front of a fault -/

theorem parse_of_not_rejected {markup : List Char} (h : (tokenize markup).rejection = none) :
    parse markup = .ok (treeOf (tokenize markup).events) := by
  rw [parse, h]

/-- A page with a line end behind a start tag, and an end tag that fits nothing. -/
def linePage : List Char := "<p localize>\nx</b></p>".toList

/-- The content behind the start tag, which begins with the line end. -/
def lineContent : FaultyContent pagesOnly linePage where
  nodes := treeOf (tokenize linePage).events
  parsed := parse_of_not_rejected (by decide +kernel)
  tag := ⟨"p", [("localize", [])], 0⟩
  present := (mem_tags _).mp (tag_mem_treeOf.mpr ⟨⟨0, .startTag "p" [⟨"localize", none⟩] false⟩,
    by decide +kernel, "p", [⟨"localize", none⟩], false, rfl, by decide +kernel⟩)
  mark := "localize"
  first := rfl
  marked := by decide
  bare := by decide
  source := "\nx</b>".toList
  read := by decide +kernel
  error := ⟨.unexpectedEndTag "b", some ⟨2, 2⟩⟩
  fault := by decide +kernel
  place := ⟨2, 2⟩
  placed := rfl

/-- A line end behind the start tag is counted. -/
theorem ofPage_reports_line_linePage :
    ∃ findings line k, ofPage pagesOnly "a.html" linePage = .ok findings ∧
      lineContent.report "a.html" line ∈ findings.log ∧ lineContent.Denotes k ∧
      line = (Position.at linePage (lineContent.start + k)).line := by
  obtain ⟨findings, line, k, done, reported, denotes, -, -, -, right⟩ :=
    ofPage_reports_line "a.html" lineContent
  exact ⟨findings, line, k, done, reported, denotes, right.mpr (by decide +kernel)⟩

/-- A page with a line end inside a start tag, and an end tag that fits nothing. -/
def wideTagPage : List Char := "<p\nlocalize>x</b></p>".toList

/-- The content behind the start tag. -/
def wideTagContent : FaultyContent pagesOnly wideTagPage where
  nodes := treeOf (tokenize wideTagPage).events
  parsed := parse_of_not_rejected (by decide +kernel)
  tag := ⟨"p", [("localize", [])], 0⟩
  present := (mem_tags _).mp (tag_mem_treeOf.mpr ⟨⟨0, .startTag "p" [⟨"localize", none⟩] false⟩,
    by decide +kernel, "p", [⟨"localize", none⟩], false, rfl, by decide +kernel⟩)
  mark := "localize"
  first := rfl
  marked := by decide
  bare := by decide
  source := "x</b>".toList
  read := by decide +kernel
  error := ⟨.unexpectedEndTag "b", some ⟨1, 2⟩⟩
  fault := by decide +kernel
  place := ⟨1, 2⟩
  placed := rfl

/-- A line end inside the start tag is not counted. -/
theorem ofPage_misreports_line :
    ¬∀ (options : Options) (page : List Char) (path : String) (f : FaultyContent options page)
      (findings : Findings), ofPage options path page = .ok findings → ∀ k, f.Denotes k →
        f.report path (Position.at page (f.start + k)).line ∈ findings.log := by
  intro right
  have logged : (ofPage pagesOnly "a.html" wideTagPage).map (fun findings =>
      decide (wideTagContent.report "a.html" 2 ∈ findings.log)) = .ok false := by decide +kernel
  obtain ⟨findings, done, absent⟩ := map_eq_ok logged
  have second : (Position.at wideTagPage (wideTagContent.start + 1)).line = 2 := by decide +kernel
  have reported := right pagesOnly wideTagPage "a.html" wideTagContent findings done 1
    ⟨by decide +kernel, by decide +kernel⟩
  rw [second] at reported
  exact of_decide_eq_false absent reported

end MessageCatalog.Occurrence
