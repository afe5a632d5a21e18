import MessageCatalog.Proofs.Project.Mode

/-!
# MessageCatalog.Proofs.Project.Taken -- two imports into stores that differ in one

An import writes to files that are there and to no others, so two trees of the same shape keep it.
The file that differs holds legible bytes in both, before every entry that is taken in and after it;
in every other file the same is taken into the same text.
-/

namespace MessageCatalog.Project

open MessageCatalog.Config MessageCatalog.Files MessageCatalog.Message MessageCatalog.Report
open MessageCatalog.Store MessageCatalog.Text

/-! ## Importing -/

section

variable {options : Options} {destination locale : String} {entries : Keyed Entry}

variable {excused : Failure → Prop} {before : Tree} {place : String} {one two : Tree}

/-- Trees of the same shape that differ in one file, with legible bytes in both. In the first, which
was another before, the bytes are what they were unless these were a store. -/
structure Taken (before : Tree) (place : String) (one two : Tree) : Prop where
  inShape : InShape [place] one two
  legible : ∀ content, one.files.get? place = some content → Legible content
  legible' : ∀ content, two.files.get? place = some content → Legible content
  kept : (¬∃ store, StoreUnder before place store) →
    one.files.get? place = before.files.get? place

theorem Taken.writes (h : Taken before place one two) {x : Action Unit} {path text : String}
    (writes : Writes x path text) (elsewhere : Path.normal path ≠ place) :
    Action.Alongside excused (Taken before place) one two x x fun _ _ => Taken before place := by
  have kept : ∀ {tree after : Tree}, tree.write (Path.ofText path) (encodeUtf8 text.toList) =
      .ok after → after.files.get? place = tree.files.get? place := by
    intro tree after wrote
    rw [Tree.get?_write wrote, if_neg fun same => elsewhere same.symm]
  have frame := frame_inShape (fun _ => False) [place]
  have same : encodeUtf8 text.toList = encodeUtf8 text.toList ∨ Path.normal path ∈ [place] :=
    Or.inl rfl
  rcases frame.write h.inShape same with
    ⟨after, after', left, right, still⟩ | ⟨fault, left, right⟩
  · refine Action.alongside_gives (writes.done left) (writes.done right) ⟨still, ?_, ?_, ?_⟩
    · rw [kept left]
      exact h.legible
    · rw [kept right]
      exact h.legible'
    · rw [kept left]
      exact h.kept
  · exact Action.alongside_fails (writes.failed left) (writes.failed (right.resolve_left id)) h

theorem alongside_readText {alike : Tree → Tree → Prop} (h : alike one two) {path : String}
    (same : one.text (Path.ofText path) = two.text (Path.ofText path)) :
    Action.Alongside excused alike one two (Action.readText path) (Action.readText path)
      (Action.Still one two fun text text' => text = text' ∧
        (one.text (Path.ofText path)).mapError Failure.unreadable = .ok text) := by
  unfold Action.readText
  refine Action.alongside_files.still fun _ _ pair => ?_
  obtain ⟨rfl, rfl⟩ := pair
  exact Action.alongside_ofExcept h (by rw [same])

/-- The same text is taken into in the same way. -/
theorem Taken.takeInto (h : Taken before place one two) {layout : Json.Layout}
    (chosen : options.storeLayout = some layout) (blank : layout.Blank) (entries : Keyed Entry)
    {path : String} (elsewhere : Path.normal path ≠ place) (text : List Char) :
    Action.Alongside excused (Taken before place) one two (takeInto options entries path text)
      (takeInto options entries path text) fun _ _ => Taken before place := by
  have takes := takes_takeInto chosen blank entries
  rcases read_cases path text with ⟨store, read⟩ | ⟨error, read⟩ | ⟨⟨fault, broken⟩, -⟩
  · obtain ⟨made, -, writes, -⟩ := writes_takeInto chosen blank entries read
    exact h.writes writes elsewhere
  · exact Action.alongside_gives (takes.idle read one) (takes.idle read two) h
  · exact Action.alongside_fails (takes.broken path broken one)
      (takes.broken path broken two) h

theorem legible_after {tree : Tree} {content : List UInt8} {isStore : Prop}
    (legible : Legible content)
    (h : tree.files.get? place = some content ∨
      isStore ∧ ∃ content', tree.files.get? place = some content' ∧ Legible content') :
    ∀ content', tree.files.get? place = some content' → Legible content' := by
  intro other held
  rcases h with same | ⟨-, content', there, legible'⟩
  · rw [same] at held
    cases held
    exact legible
  · rw [there] at held
    cases held
    exact legible'

/-- Taking entries into the store of a locale keeps two trees alike. -/
theorem Taken.importEntries (h : Taken before place one two) {layout : Json.Layout}
    (chosen : options.storeLayout = some layout) (blank : layout.Blank) (destination locale : String)
    (entries : Keyed Entry) :
    Action.Alongside excused (Taken before place) one two
      (importEntries options destination locale entries)
      (importEntries options destination locale entries) fun _ _ => Taken before place := by
  obtain ⟨path, named⟩ :
      ∃ path, path = substituteLocale destination options.placeholder locale := ⟨_, rfl⟩
  unfold Project.importEntries
  rw [← named]
  refine Action.alongside_files.still fun _ _ pair => ?_
  obtain ⟨rfl, rfl⟩ := pair
  dsimp only
  rw [← h.inShape.1.isFile]
  by_cases file : one.isFile path = true
  · have file' : two.isFile path = true := by rw [← h.inShape.1.isFile, file]
    rw [file]
    by_cases here : Path.normal path = place
    · subst here
      obtain ⟨content, leads⟩ := Tree.leads_of_isFile file
      obtain ⟨content', leads'⟩ := Tree.leads_of_isFile file'
      obtain ⟨⟨chars, decoded⟩, judged⟩ := h.legible content leads.held
      obtain ⟨⟨chars', decoded'⟩, judged'⟩ := h.legible' content' leads'.held
      have read := leads.text_ok.mpr ⟨chars, decoded, rfl⟩
      have read' := leads'.text_ok.mpr ⟨chars', decoded', rfl⟩
      obtain ⟨after, gives, shape, same, left⟩ :=
        gives_takeInto chosen blank entries leads judged read
      obtain ⟨after', gives', shape', same', right⟩ :=
        gives_takeInto chosen blank entries leads' judged' read'
      refine Action.alongside_gives ((Action.gives_readText read).bind gives)
        ((Action.gives_readText read').bind gives') ⟨⟨?_, ?_⟩, ?_, ?_, fun none => ?_⟩
      · exact (shape.trans h.inShape.1).trans shape'.symm
      · exact fun key absent => (same key absent).trans
          ((h.inShape.2 key absent).trans (same' key absent).symm)
      · exact legible_after ⟨⟨chars, decoded⟩, judged⟩ left
      · exact legible_after ⟨⟨chars', decoded'⟩, judged'⟩ right
      · rcases left with kept | ⟨⟨store, isStore⟩, -⟩
        · rw [kept, ← h.kept none, leads.held]
        · have held := leads.held
          rw [h.kept none] at held
          exact absurd ⟨store, content, held, isStore⟩ none
    · have elsewhere : Path.normal path ∉ [place] := fun same =>
        here (List.mem_singleton.mp same)
      refine (alongside_readText h (h.inShape.1.text h.inShape.2 elsewhere)).still
        fun text _ pair => ?_
      obtain ⟨rfl, -⟩ := pair
      exact h.takeInto chosen blank entries here text
  · have none : one.isFile path = false := by simpa using file
    rw [none]
    exact Action.alongside_gives ((Action.gives_sayLine _ _).bind (Action.gives_pure _))
      ((Action.gives_sayLine _ _).bind (Action.gives_pure _)) h

/-- Taking a table into the stores of its locales keeps two trees alike. -/
theorem Taken.importSheet (h : Taken before place one two) {layout : Json.Layout}
    (chosen : options.storeLayout = some layout) (blank : layout.Blank) (destination : String)
    (engines : Keyed Engine) (path : String) (text : List Char) :
    Action.Alongside excused (Taken before place) one two
      (importSheet options destination engines path text)
      (importSheet options destination engines path text) fun _ _ => Taken before place := by
  unfold Project.importSheet
  refine (Action.alongside_ofExcept h rfl).still fun read _ pair => ?_
  obtain ⟨rfl, -⟩ := pair
  refine (Action.alongside_gives (Action.gives_say _) (Action.gives_say _) ⟨rfl, rfl, rfl⟩ :
    Action.Alongside excused (Taken before place) one two _ _ (Action.Still one two Eq)).still
    fun _ _ _ => ?_
  refine (Action.alongside_gives (Action.gives_sayLine _ _) (Action.gives_sayLine _ _)
    ⟨rfl, rfl, rfl⟩ : Action.Alongside excused (Taken before place) one two _ _
      (Action.Still one two Eq)).still fun _ _ _ => ?_
  exact Action.alongside_forM_self (fun own _ left right h =>
    h.importEntries chosen blank destination own.1 own.2) h

theorem alongside_importSheets {data : Locale.Data} {config : Configuration}
    (h : Taken before place one two) (given : Option (List String)) {layout : Json.Layout}
    (chosen : config.options.storeLayout = some layout) (blank : layout.Blank)
    (tables : ∀ path ∈ sourcePaths config given .importSheets one, Path.normal path ≠ place) :
    Action.Alongside excused (Taken before place) one two (importSheets data config given)
      (importSheets data config given) fun _ _ => Taken before place := by
  refine (alongside_destinationOf h _).still fun _ _ pair => ?_
  obtain ⟨rfl, rfl⟩ := pair
  refine (alongside_sourcesOf h.inShape.1 _ given).still fun paths _ pair => ?_
  obtain ⟨rfl, found⟩ := pair
  have tables' : ∀ path ∈ paths, Path.normal path ≠ place := by
    rw [found]
    exact tables
  by_cases none : paths.isEmpty = true
  · simp only [none, if_true]
    exact Action.alongside_gives ((Action.gives_sayLine _ _).bind (Action.gives_pure _))
      ((Action.gives_sayLine _ _).bind (Action.gives_pure _)) h
  simp only [none]
  refine (alongside_enginesOf h _).still fun engines _ pair => ?_
  obtain ⟨rfl, -⟩ := pair
  refine (alongside_readAll paths).still fun _ _ pair => ?_
  obtain ⟨rfl, rfl⟩ := pair
  have same : (paths.filterMap fun path => (Action.textOf two path).map fun text => (path, text)) =
      paths.filterMap fun path => (Action.textOf one path).map fun text => (path, text) := by
    refine List.filterMap_congr fun path there => ?_
    have elsewhere : Path.normal path ∉ [place] := fun same =>
      tables' path there (List.mem_singleton.mp same)
    rw [Action.textOf, Action.textOf, h.inShape.1.text h.inShape.2 elsewhere]
  rw [same]
  exact Action.alongside_forM_self (fun own _ left right h =>
    h.importSheet chosen blank _ engines own.1 own.2) h

end

end MessageCatalog.Project
