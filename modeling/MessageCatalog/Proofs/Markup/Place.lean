import MessageCatalog.Proofs.Markup.Sanitize

/-!
# MessageCatalog.Proofs.Markup.Place -- where in written markup a character stands

Written markup without sections can be read one character at a time: what a character means depends
on the place that the characters before it lead to, and a place outside the names is text or the
inside of a quoted value. Names come out where they end. A text that leads from text to text is text
of chunks, and the names that came out are those of its elements and their attributes.
-/

namespace MessageCatalog.Markup

open MessageCatalog.Text

/-! ## Places -/

/-- A place in markup that is written for allowed elements. -/
inductive Place where
  /-- Outside every tag. -/
  | text
  /-- Inside a reference. -/
  | reference (read : List Char)
  /-- Inside the name of a tag. -/
  | tag (read : List Char)
  /-- Inside the name of an attribute. -/
  | naming (element : String) (read : List Char)
  /-- Behind the equals sign of an attribute. -/
  | equals (element : String)
  /-- Inside the quotes of a value. -/
  | value (element : String) (quote : Char)
  /-- Behind the quotes of a value. -/
  | behind (element : String)
  /-- In no markup that is written for allowed elements. -/
  | lost
  deriving DecidableEq

/-- A name in markup. -/
inductive MarkupName where
  | element (name : String)
  | inElement (element name : String)
  deriving DecidableEq

/-- The references that are written. -/
def writtenNames : List (List Char) :=
  [Written.ampersand.name, Written.less.name, Written.greater.name, Written.quotation.name]

/-- Whether a name opens an allowed element. -/
def opensAllowed (read : List Char) : Bool := allowedElements.contains (String.ofList read)

/-- Whether a name behind a slash closes an allowed element. -/
def closesAllowed : List Char → Bool
  | '/' :: name => allowedElements.contains (String.ofList name)
  | _ => false

namespace Place

/-- The place behind a character. -/
def step : Place → Char → Place
  | text, c => if c = '<' then tag [] else if c = '&' then reference [] else text
  | reference read, c =>
    if c = ';' then (if writtenNames.contains read then text else lost)
    else reference (read ++ [c])
  | tag read, c =>
    if c = '>' then (if opensAllowed read || closesAllowed read then text else lost)
    else if c = ' ' then (if opensAllowed read then naming (String.ofList read) [] else lost)
    else tag (read ++ [c])
  | naming element read, c =>
    if c = '=' then
      (if allowedAttributes.contains (String.ofList read) then equals element else lost)
    else naming element (read ++ [c])
  | equals element, c => if c = '"' ∨ c = '\'' then value element c else lost
  | value element quote, c => if c = quote then behind element else value element quote
  | behind element, c => if c = '>' then text else if c = ' ' then naming element [] else lost
  | lost, _ => lost

/-- The name that ends at a character. -/
def ended : Place → Char → List MarkupName
  | tag read, c =>
    if (c = '>' ∨ c = ' ') ∧ opensAllowed read = true then [.element (String.ofList read)] else []
  | naming element read, c =>
    if c = '=' ∧ allowedAttributes.contains (String.ofList read) = true then
      [.inElement element (String.ofList read)]
    else []
  | _, _ => []

/-- The place behind a text. -/
def run (place : Place) (text : List Char) : Place := text.foldl step place

/-- The names that end in a text. -/
def names : Place → List Char → List MarkupName
  | _, [] => []
  | place, c :: rest => place.ended c ++ names (place.step c) rest

/-- A place where no name is read: in text or in a quoted value. -/
def Steady : Place → Prop
  | text => True
  | value _ quote => quote = '"' ∨ quote = '\''
  | _ => False

variable {place : Place}

theorem run_append (place : Place) (text rest : List Char) :
    place.run (text ++ rest) = (place.run text).run rest := List.foldl_append

theorem names_append (place : Place) (text rest : List Char) :
    place.names (text ++ rest) = place.names text ++ (place.run text).names rest := by
  induction text generalizing place with
  | nil => rfl
  | cons c text ih =>
      rw [List.cons_append, names, names, ih, List.append_assoc]
      rfl

/-- A text leads from one place to another one, and some names come out. -/
def Leads (place : Place) (text : List Char) (behind : Place) (names : List MarkupName) : Prop :=
  place.run text = behind ∧ place.names text = names

theorem Leads.append {next behind : Place} {text rest : List Char} {names others : List MarkupName}
    (first : place.Leads text next names) (second : next.Leads rest behind others) :
    place.Leads (text ++ rest) behind (names ++ others) := by
  obtain ⟨rfl, rfl⟩ := first
  obtain ⟨rfl, rfl⟩ := second
  exact ⟨run_append _ _ _, names_append _ _ _⟩

theorem Leads.cons {c : Char} {next behind : Place} {rest : List Char}
    {names others : List MarkupName} (step : place.step c = next) (ended : place.ended c = names)
    (later : next.Leads rest behind others) : place.Leads (c :: rest) behind (names ++ others) := by
  obtain ⟨rfl, rfl⟩ := later
  subst step ended
  exact ⟨rfl, rfl⟩

theorem run_lost (text : List Char) : lost.run text = lost := by
  induction text with
  | nil => rfl
  | cons c text ih => exact ih

/-- Letters and digits leave a steady place as it is. -/
theorem Steady.leads (h : place.Steady) {chars : List Char}
    (all : ∀ c ∈ chars, isAsciiAlphanumeric c = true) : place.Leads chars place [] := by
  induction chars with
  | nil => exact ⟨rfl, rfl⟩
  | cons c rest ih =>
      rw [List.forall_mem_cons] at all
      have other : ∀ d, isAsciiAlphanumeric d = false → c ≠ d := by
        rintro d none rfl
        exact Bool.false_ne_true (none.symm.trans all.1)
      have stays : place.step c = place ∧ place.ended c = [] := by
        cases place with
        | text => exact ⟨(if_neg (other '<' rfl)).trans (if_neg (other '&' rfl)), rfl⟩
        | value element quote =>
            refine ⟨if_neg ?_, rfl⟩
            rcases h with rfl | rfl <;> exact other _ rfl
        | reference _ | tag _ | naming _ _ | equals _ | behind _ | lost => exact h.elim
      exact Leads.cons stays.1 stays.2 (ih all.2)

/-! ## Runs that are taken up -/

/-- A place that takes up characters until one stops it. -/
structure Collects (place : List Char → Place) (stop : Char → Prop) : Prop where
  step : ∀ read c, ¬stop c → (place read).step c = place (read ++ [c])
  ended : ∀ read c, ¬stop c → (place read).ended c = []
  inside : ∀ read, place read ≠ text

theorem collects_reference : Collects reference (· = ';') where
  step _ _ h := if_neg h
  ended _ _ _ := rfl
  inside _ := nofun

theorem collects_tag : Collects tag (fun c => c = '>' ∨ c = ' ') where
  step _ _ h := by
    rw [Place.step, if_neg fun same => h (Or.inl same), if_neg fun same => h (Or.inr same)]
  ended _ _ h := if_neg fun both => h both.1
  inside _ := nofun

theorem collects_naming (element : String) : Collects (naming element) (· = '=') where
  step _ _ h := if_neg h
  ended _ _ h := if_neg fun both => h both.1
  inside _ := nofun

theorem collects_value (element : String) (quote : Char) :
    Collects (fun _ => value element quote) (· = quote) where
  step _ _ h := if_neg h
  ended _ _ _ := rfl
  inside _ := nofun

namespace Collects

variable {place : List Char → Place} {stop : Char → Prop}

theorem leads (h : Collects place stop) {text : List Char} (all : ∀ c ∈ text, ¬stop c)
    (read : List Char) : (place read).Leads text (place (read ++ text)) [] := by
  induction text generalizing read with
  | nil => rw [List.append_nil]; exact ⟨rfl, rfl⟩
  | cons c text ih =>
      rw [List.forall_mem_cons] at all
      have later := ih all.2 (read ++ [c])
      rw [List.append_assoc, List.singleton_append] at later
      exact Leads.cons (h.step read c all.1) (h.ended read c all.1) later

/-- What leads back to text has a character that stops. -/
theorem exists_stop (h : Collects place stop) {text : List Char} (read : List Char)
    (ends : (place read).run text = .text) : ∃ before c rest, text = before ++ c :: rest ∧
      (∀ d ∈ before, ¬stop d) ∧ stop c ∧ ((place (read ++ before)).step c).run rest = .text := by
  induction text generalizing read with
  | nil => exact absurd ends (h.inside read)
  | cons c text ih =>
      by_cases stops : stop c
      · refine ⟨[], c, text, rfl, by simp, stops, ?_⟩
        rw [List.append_nil]
        exact ends
      · have later : (place (read ++ [c])).run text = .text := by
          rw [← h.step read c stops]
          exact ends
        obtain ⟨before, d, rest, rfl, all, stops', last⟩ := ih _ later
        refine ⟨c :: before, d, rest, rfl, List.forall_mem_cons.mpr ⟨stops, all⟩, stops', ?_⟩
        rw [List.append_assoc] at last
        exact last

end Collects

end Place

/-! ## From chunks to places -/

/-- A chunk that is written for allowed elements, and no section. -/
def Chunk.Allowed : Chunk → Prop
  | .plain c => startsConstruct c = false
  | .reference _ => True
  | .opening name attributes =>
    name ∈ allowedElements ∧ ∀ a ∈ attributes, a.name ∈ allowedAttributes ∧ a.Proper
  | .closing name => name ∈ allowedElements
  | .data _ => False

/-- The names of a chunk. -/
def Chunk.names : Chunk → List MarkupName
  | .opening name attributes =>
    .element name :: attributes.map fun a => .inElement name a.name
  | _ => []

theorem Chunk.Allowed.proper {chunk : Chunk} (h : chunk.Allowed) : chunk.Proper := by
  cases chunk with
  | plain c => exact h
  | reference w => trivial
  | opening name attributes =>
      exact ⟨(allowedElements_isName name h.1).1, fun a there => (h.2 a there).2,
        (allowedElements_isName name h.1).2⟩
  | closing name => exact (allowedElements_isName name h).1
  | data chars => exact h.elim

namespace Place

theorem opensAllowed_toList {name : String} (h : name ∈ allowedElements) :
    opensAllowed name.toList = true := by
  rw [opensAllowed, String.ofList_toList]
  exact List.contains_iff_mem.mpr h

theorem opensAllowed_eq_true {read : List Char} (h : opensAllowed read = true) :
    ∃ name ∈ allowedElements, read = name.toList :=
  ⟨String.ofList read, List.contains_iff_mem.mp h, (String.toList_ofList).symm⟩

theorem closesAllowed_eq_true {read : List Char} (h : closesAllowed read = true) :
    ∃ name ∈ allowedElements, read = '/' :: name.toList := by
  unfold closesAllowed at h
  split at h
  · obtain ⟨name, element, rfl⟩ := opensAllowed_eq_true h
    exact ⟨name, element, rfl⟩
  · cases h

theorem opensAllowed_slash (read : List Char) : opensAllowed ('/' :: read) = false := by
  have starts : ∀ name ∈ allowedElements, name.toList.head? ≠ some '/' := by decide +kernel
  rw [opensAllowed, ← Bool.not_eq_true, List.contains_iff_mem]
  intro there
  refine starts _ there ?_
  rw [String.toList_ofList]
  rfl

theorem IsName.not_stop {name : String} (isName : IsName name) :
    ∀ c ∈ name.toList, ¬(c = '>' ∨ c = ' ') ∧ c ≠ '=' := by
  intro c there
  have alphanumeric := (isName.2 c there).1
  refine ⟨?_, ?_⟩
  · rintro (rfl | rfl) <;> cases alphanumeric
  · rintro rfl
    cases alphanumeric

/-- The name of an element is taken up. -/
theorem leads_name {name : String} (h : name ∈ allowedElements) :
    (tag []).Leads name.toList (tag name.toList) [] :=
  collects_tag.leads (fun c there =>
    (IsName.not_stop (allowedElements_isName name h).1 c there).1) []

/-- An attribute leads behind its value, and its name comes out. -/
theorem leads_attribute {a : WrittenAttribute} (h : a.name ∈ allowedAttributes) (proper : a.Proper)
    (element : String) :
    (naming element []).Leads (a.name.toList ++ '=' :: a.quote :: a.inside ++ [a.quote])
      (behind element) [.inElement element a.name] := by
  have allowed : allowedAttributes.contains (String.ofList a.name.toList) = true := by
    rw [String.ofList_toList]
    exact List.contains_iff_mem.mpr h
  have name := (collects_naming element).leads
    (fun c there => (IsName.not_stop proper.name c there).2) []
  have inside := (collects_value element a.quote).leads
    (fun c there same => proper.apart (same ▸ there)) ([] : List Char)
  have equal : (naming element a.name.toList).step '=' = equals element := by
    rw [step, if_pos rfl, if_pos allowed]
  have ended : (naming element a.name.toList).ended '=' = [.inElement element a.name] := by
    rw [Place.ended, if_pos ⟨rfl, allowed⟩, String.ofList_toList]
  have close : (Place.value element a.quote).Leads [a.quote] (behind element) [] :=
    ⟨if_pos rfl, rfl⟩
  have quote : (equals element).step a.quote = .value element a.quote := if_pos proper.quote
  rw [List.append_assoc]
  exact name.append (Leads.cons equal ended (Leads.cons quote rfl (inside.append close)))

theorem attributesText_cons (a : WrittenAttribute) (others : List WrittenAttribute)
    (rest : List Char) : attributesText (a :: others) rest = ' ' ::
      (a.name.toList ++ '=' :: a.quote :: a.inside ++ [a.quote] ++ attributesText others rest) := by
  simp [attributesText, WrittenAttribute.text]

/-- The attributes of a tag lead to its end. -/
theorem leads_attributes {element : String} {attributes : List WrittenAttribute}
    (all : ∀ a ∈ attributes, a.name ∈ allowedAttributes ∧ a.Proper) :
    (behind element).Leads (attributesText attributes []) text
      (attributes.map fun a => .inElement element a.name) := by
  induction attributes with
  | nil => exact ⟨rfl, rfl⟩
  | cons a rest ih =>
      rw [List.forall_mem_cons] at all
      rw [attributesText_cons]
      exact Leads.cons rfl rfl ((leads_attribute all.1.1 all.1.2 element).append (ih all.2))

/-- The name of an element comes out where its attributes begin or its tag ends. -/
theorem leads_tag {name : String} (h : name ∈ allowedElements) {attributes : List WrittenAttribute}
    (all : ∀ a ∈ attributes, a.name ∈ allowedAttributes ∧ a.Proper) :
    (tag name.toList).Leads (attributesText attributes []) text
      (.element name :: attributes.map fun a => .inElement name a.name) := by
  have opens := opensAllowed_toList h
  have ended : ∀ c, c = '>' ∨ c = ' ' → (tag name.toList).ended c = [.element name] := by
    intro c stop
    rw [Place.ended, if_pos ⟨stop, opens⟩, String.ofList_toList]
  have close : (tag name.toList).step '>' = text := by
    rw [step, if_pos rfl, opens, Bool.true_or, if_pos rfl]
  have space : (tag name.toList).step ' ' = naming name [] := by
    rw [step, if_neg (by decide), if_pos rfl, if_pos opens, String.ofList_toList]
  cases attributes with
  | nil => exact Leads.cons close (ended _ (Or.inl rfl)) ⟨rfl, rfl⟩
  | cons a rest =>
      rw [List.forall_mem_cons] at all
      rw [attributesText_cons]
      exact Leads.cons space (ended _ (Or.inr rfl))
        ((leads_attribute all.1.1 all.1.2 name).append (leads_attributes all.2))

/-- A chunk leads from text to text, and its names come out. -/
theorem leads_chunk {chunk : Chunk} (h : chunk.Allowed) :
    text.Leads chunk.text text chunk.names := by
  cases chunk with
  | plain c =>
      have less : c ≠ '<' := by rintro rfl; cases h
      have ampersand : c ≠ '&' := by rintro rfl; cases h
      exact ⟨(if_neg less).trans (if_neg ampersand), rfl⟩
  | reference w => cases w <;> exact ⟨by decide, by decide⟩
  | opening name attributes =>
      obtain ⟨element, all⟩ := h
      have start : (Chunk.opening name attributes).text =
          '<' :: (name.toList ++ attributesText attributes []) := rfl
      rw [start]
      exact Leads.cons rfl rfl ((leads_name element).append (leads_tag element all))
  | closing name =>
      have start : (Chunk.closing name).text = '<' :: '/' :: (name.toList ++ ['>']) := rfl
      have all : ∀ c ∈ name.toList, ¬(c = '>' ∨ c = ' ') := fun c there =>
        (IsName.not_stop (allowedElements_isName name h).1 c there).1
      have closes : closesAllowed ('/' :: name.toList) = true := by
        rw [closesAllowed, String.ofList_toList]
        exact List.contains_iff_mem.mpr h
      have last : (tag ('/' :: name.toList)).Leads ['>'] text [] := by
        refine ⟨?_, ?_⟩
        · show (tag ('/' :: name.toList)).step '>' = text
          rw [step, if_pos rfl, closes, Bool.or_true, if_pos rfl]
        · rw [names, names, Place.ended, opensAllowed_slash]
          rfl
      rw [start]
      exact Leads.cons rfl rfl (Leads.cons rfl rfl ((collects_tag.leads all ['/']).append last))
  | data chars => exact h.elim

/-- Text of chunks leads from text to text, and the names of the chunks come out. -/
theorem leads_textOf {chunks : List Chunk} (all : ∀ chunk ∈ chunks, chunk.Allowed) :
    text.Leads (textOf chunks) text (chunks.flatMap Chunk.names) := by
  induction chunks with
  | nil => exact ⟨rfl, rfl⟩
  | cons chunk rest ih =>
      rw [List.forall_mem_cons] at all
      rw [textOf_cons, List.flatMap_cons]
      exact (leads_chunk all.1).append (ih all.2)

/-! ## From places to chunks -/

variable {element : String} {chars : List Char}

theorem run_naming (ends : (naming element []).run chars = text) :
    ∃ name ∈ allowedAttributes, ∃ rest, chars = name.toList ++ '=' :: rest ∧
      (equals element).run rest = text := by
  obtain ⟨name, _, rest, rfl, _, rfl, later⟩ := (collects_naming element).exists_stop [] ends
  rw [List.nil_append, step, if_pos rfl] at later
  split at later
  · next allowed =>
      refine ⟨String.ofList name, List.contains_iff_mem.mp allowed, rest, ?_, later⟩
      rw [String.toList_ofList]
  · rw [run_lost] at later
    cases later

theorem run_equals (ends : (equals element).run chars = text) :
    ∃ quote rest, (quote = '"' ∨ quote = '\'') ∧ chars = quote :: rest ∧
      (value element quote).run rest = text := by
  cases chars with
  | nil => cases ends
  | cons quote rest =>
      change ((equals element).step quote).run rest = text at ends
      rw [step] at ends
      split at ends
      · next isQuote => exact ⟨quote, rest, isQuote, rfl, ends⟩
      · rw [run_lost] at ends
        cases ends

theorem run_value {quote : Char} (ends : (value element quote).run chars = text) :
    ∃ inside rest, quote ∉ inside ∧ chars = inside ++ quote :: rest ∧
      (behind element).run rest = text := by
  obtain ⟨inside, _, rest, same, apart, rfl, later⟩ :=
    (collects_value element quote).exists_stop [] ends
  rw [step, if_pos rfl] at later
  exact ⟨inside, rest, fun there => apart _ there rfl, same, later⟩

theorem run_behind (ends : (behind element).run chars = text) :
    (∃ rest, chars = '>' :: rest ∧ text.run rest = text) ∨
      ∃ rest, chars = ' ' :: rest ∧ (naming element []).run rest = text := by
  cases chars with
  | nil => cases ends
  | cons c rest =>
      change ((behind element).step c).run rest = text at ends
      rw [step] at ends
      split at ends
      · next close => exact Or.inl ⟨rest, close ▸ rfl, ends⟩
      split at ends
      · next space => exact Or.inr ⟨rest, space ▸ rfl, ends⟩
      · rw [run_lost] at ends
        cases ends

/-- What leads from the name of an attribute back to text starts with an attribute. -/
theorem exists_attribute (ends : (naming element []).run chars = text) :
    ∃ a : WrittenAttribute, (a.name ∈ allowedAttributes ∧ a.Proper) ∧ ∃ rest,
      chars = a.name.toList ++ '=' :: a.quote :: a.inside ++ [a.quote] ++ rest ∧
      (behind element).run rest = text := by
  obtain ⟨name, allowed, _, rfl, afterName⟩ := run_naming ends
  obtain ⟨quote, _, isQuote, rfl, afterEqual⟩ := run_equals afterName
  obtain ⟨inside, rest, apart, rfl, afterValue⟩ := run_value afterEqual
  refine ⟨⟨name, quote, inside⟩, ⟨allowed, ?_⟩, rest, by simp, afterValue⟩
  exact ⟨allowedAttributes_isName name allowed, isQuote, apart⟩

/-- What leads from the name of an attribute back to text is attributes, the end of their tag and
what leads from text to text. -/
theorem exists_attributes {element : String} {chars : List Char}
    (ends : (naming element []).run chars = text) : ∃ attributes rest,
    (∀ a ∈ attributes, a.name ∈ allowedAttributes ∧ a.Proper) ∧
      ' ' :: chars = attributesText attributes rest ∧ text.run rest = text := by
  obtain ⟨a, proper, rest, start, afterFirst⟩ := exists_attribute ends
  -- behind a value the tag ends, or another attribute begins
  rcases run_behind afterFirst with ⟨rest, rfl, afterTag⟩ | ⟨more, rfl, afterSpace⟩
  · refine ⟨[a], rest, List.forall_mem_singleton.mpr proper, ?_, afterTag⟩
    rw [attributesText_cons, start]
    rfl
  · have shorter : more.length < chars.length := by
      rw [start]
      simp only [List.length_append, List.length_cons]
      omega
    obtain ⟨others, rest, all, same, afterTag⟩ := exists_attributes afterSpace
    refine ⟨a :: others, rest, List.forall_mem_cons.mpr ⟨proper, all⟩, ?_, afterTag⟩
    rw [attributesText_cons, start, same]
termination_by chars.length

/-- What leads from an opening bracket back to text is a tag and what leads from text to text. -/
theorem exists_tag (ends : (tag []).run chars = text) : ∃ (chunk : Chunk) (rest : List Char),
    chunk.Allowed ∧ '<' :: chars = chunk.text ++ rest ∧ text.run rest = text := by
  obtain ⟨read, c, rest, rfl, _, stop, later⟩ := collects_tag.exists_stop [] ends
  rw [List.nil_append] at later
  by_cases opens : opensAllowed read = true
  · -- a start tag, with attributes or without
    obtain ⟨name, element, rfl⟩ := opensAllowed_eq_true opens
    rcases stop with rfl | rfl
    · rw [step, if_pos rfl, opens, Bool.true_or, if_pos rfl] at later
      exact ⟨.opening name [], rest, ⟨element, by simp⟩, by simp [Chunk.text, startTagText,
        attributesText], later⟩
    · rw [step, if_neg (by decide), if_pos rfl, if_pos opens, String.ofList_toList] at later
      obtain ⟨attributes, rest, all, same, afterTag⟩ := exists_attributes later
      refine ⟨.opening name attributes, rest, ⟨element, all⟩, ?_, afterTag⟩
      rw [same]
      simp [Chunk.text, startTagText, attributesText]
  · rw [Bool.not_eq_true] at opens
    rcases stop with rfl | rfl
    · rw [step, if_pos rfl, opens, Bool.false_or] at later
      split at later
      · next closes =>
          -- an end tag
          obtain ⟨name, element, rfl⟩ := closesAllowed_eq_true closes
          exact ⟨.closing name, rest, element, by simp [Chunk.text], later⟩
      · rw [run_lost] at later
        cases later
    · rw [step, if_neg (by decide), if_pos rfl, opens] at later
      rw [if_neg (by decide), run_lost] at later
      cases later

/-- What leads from an ampersand back to text is a reference and what leads from text to text. -/
theorem exists_reference (ends : (reference []).run chars = text) :
    ∃ (w : Written) (rest : List Char), '&' :: chars = w.text ++ rest ∧ text.run rest = text := by
  obtain ⟨read, _, rest, rfl, _, rfl, later⟩ := collects_reference.exists_stop [] ends
  rw [List.nil_append, step, if_pos rfl] at later
  split at later
  · next known =>
      have found : ∃ w : Written, read = w.name := by
        simp only [writtenNames, List.contains_iff_mem, List.mem_cons, List.not_mem_nil,
          or_false] at known
        rcases known with same | same | same | same <;> exact ⟨_, same⟩
      obtain ⟨w, rfl⟩ := found
      exact ⟨w, rest, by simp [Written.text], later⟩
  · rw [run_lost] at later
    cases later

/-- What leads from text to text is text of chunks. -/
theorem exists_chunks {chars : List Char} (ends : text.run chars = text) :
    ∃ chunks, (∀ chunk ∈ chunks, chunk.Allowed) ∧ chars = textOf chunks := by
  have longer : ∀ (chunk : Chunk) (rest : List Char), rest.length < (chunk.text ++ rest).length := by
    intro chunk rest
    rw [List.length_append]
    have some := List.length_pos_of_ne_nil chunk.text_ne_nil
    omega
  -- the first character tells what kind of chunk comes first
  have first : chars = [] ∨ ∃ (chunk : Chunk) (rest : List Char),
      chunk.Allowed ∧ chars = chunk.text ++ rest ∧ text.run rest = text := by
    cases chars with
    | nil => exact Or.inl rfl
    | cons c rest =>
        refine Or.inr ?_
        change (text.step c).run rest = text at ends
        rw [step] at ends
        split at ends
        · next less =>
            subst less
            exact exists_tag ends
        split at ends
        · next ampersand =>
            subst ampersand
            obtain ⟨w, rest, same, later⟩ := exists_reference ends
            exact ⟨.reference w, rest, trivial, same, later⟩
        · next less ampersand =>
            exact ⟨.plain c, rest, by simp [Chunk.Allowed, startsConstruct, less, ampersand], rfl,
              ends⟩
  rcases first with rfl | ⟨chunk, rest, allowed, same, later⟩
  · exact ⟨[], by simp, rfl⟩
  · have shorter : rest.length < chars.length := same ▸ longer chunk rest
    obtain ⟨others, all, rfl⟩ := exists_chunks later
    exact ⟨chunk :: others, List.forall_mem_cons.mpr ⟨allowed, all⟩, same⟩
termination_by chars.length

end Place

end MessageCatalog.Markup
