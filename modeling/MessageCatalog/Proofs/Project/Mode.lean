import MessageCatalog.Proofs.Project.Takes

/-!
# MessageCatalog.Proofs.Project.Mode -- two runs over stores that differ in one

Building and exporting run on two trees that differ in the file of one store. When both trees have a
store there, or none, the runs write the same files and the trees keep their shape. When only the
first has one, its run writes one file more, and the tree of the second can be written to wherever
that of the first can.
-/

namespace MessageCatalog.Project

open MessageCatalog.Config MessageCatalog.Files MessageCatalog.Message MessageCatalog.Report
open MessageCatalog.Store MessageCatalog.Text

/-! ## The paths of an operation -/

/-- The sources of an operation. -/
def sourcePaths (config : Configuration) (given : Option (List String)) (op : Operation)
    (tree : Tree) : List String :=
  (Action.expandSources tree (given.getD (config.target op).sources)).1

/-- The path that an operation writes to for a locale. -/
def outputPath (config : Configuration) (op : Operation) (locale : String) : String :=
  substituteLocale (config.target op).destination config.options.placeholder locale

theorem locale_of_all {options : Options} {paths : List String}
    {locales : List (String × String)} {path : String}
    (all : List.Forall₂ (fun path own => own.1 = path ∧
      localeOfPath options.localeInPath path = .ok own.2) paths locales)
    (there : path ∈ paths) : ∃ locale, localeOfPath options.localeInPath path = .ok locale := by
  induction all with
  | nil => cases there
  | cons first rest ih =>
      rcases List.mem_cons.mp there with rfl | there
      · exact ⟨_, first.2⟩
      · exact ih there

/-- The locale that was found for a path is the one that is in it. -/
theorem localeFor_eq {options : Options} {paths : List String}
    {locales : List (String × String)} {path locale : String}
    (all : List.Forall₂ (fun path own => own.1 = path ∧
      localeOfPath options.localeInPath path = .ok own.2) paths locales)
    (there : path ∈ paths) (located : localeOfPath options.localeInPath path = .ok locale) :
    localeFor locales path = locale := by
  induction all with
  | nil => cases there
  | @cons name own names others first rest ih =>
      obtain ⟨same, found⟩ := first
      unfold localeFor at ih ⊢
      rw [Keyed.lookup_cons_ite]
      by_cases here : path = own.1
      · rw [if_pos here]
        rw [← same, ← here, located] at found
        cases found
        rfl
      · rw [if_neg here]
        exact ih ((List.mem_cons.mp there).resolve_left fun e => here (e.trans same.symm))

/-! ## Trees that stay alike -/

section

variable {excused : Failure → Prop} {alike : Tree → Tree → Prop} {names : List String}
  {one two : Tree}

/-- Writing to both trees keeps them alike, and what cannot be written to the first cannot be
written to the second, unless that is excused. -/
structure Frame (excused : Failure → Prop) (alike : Tree → Tree → Prop) (names : List String) :
    Prop where
  off : ∀ {one two}, alike one two → Tree.SameOff names one two
  write : ∀ {one two text content content'}, alike one two →
    content = content' ∨ Path.normal text ∈ names →
    (∃ after after', one.write (Path.ofText text) content = .ok after ∧
      two.write (Path.ofText text) content' = .ok after' ∧ alike after after') ∨
    ∃ fault, one.write (Path.ofText text) content = .error fault ∧
      (excused (.unwritable fault) ∨ two.write (Path.ofText text) content' = .error fault)

/-- Trees of the same shape. -/
def InShape (names : List String) (one two : Tree) : Prop :=
  one.SameShape two ∧ Tree.SameOff names one two

/-- A tree that has what the other has. -/
def Ahead (names : List String) (one two : Tree) : Prop :=
  two.Grown one ∧ Tree.SameOff names one two

/-- A file cannot be written. -/
def Unwritable (failure : Failure) : Prop := ∃ fault, failure = .unwritable fault

theorem frame_inShape (excused : Failure → Prop) (names : List String) :
    Frame excused (InShape names) names where
  off h := h.2
  write {one two text content content'} h same := by
    rcases h.1.write (Path.ofText text) content content' with
      ⟨fault, left, right⟩ | ⟨after, after', left, right, shape⟩
    · exact Or.inr ⟨fault, left, Or.inr right⟩
    · exact Or.inl ⟨after, after', left, right, shape, h.2.write left right same⟩

theorem frame_ahead (names : List String) : Frame Unwritable (Ahead names) names where
  off h := h.2
  write {one two text content content'} h same := by
    cases left : one.write (Path.ofText text) content with
    | error fault => exact Or.inr ⟨fault, rfl, Or.inl ⟨fault, rfl⟩⟩
    | ok after =>
        obtain ⟨after', right, grown⟩ := h.1.write left content'
        exact Or.inl ⟨after, after', rfl, right, grown, h.2.write left right same⟩

/-- Actions that write what may be written keep two trees alike. -/
theorem Frame.writes (frame : Frame excused alike names) (h : alike one two) {x y : Action Unit}
    {path text text' : String} (first : Writes x path text) (second : Writes y path text')
    (same : text = text' ∨ Path.normal path ∈ names) :
    Action.Alongside excused alike one two x y fun _ _ => alike := by
  have same' : encodeUtf8 text.toList = encodeUtf8 text'.toList ∨ Path.normal path ∈ names :=
    same.imp_left fun same => by rw [same]
  rcases frame.write h same' with ⟨after, after', left, right, still⟩ | ⟨fault, left, right⟩
  · exact Action.alongside_gives (first.done left) (second.done right) still
  rcases right with excuse | right
  · exact Action.alongside_excused (first.failed left) excuse
  · exact Action.alongside_fails (first.failed left) (second.failed right) h

/-- The same text keeps two trees alike. -/
theorem Frame.sameText (frame : Frame excused alike names) (h : alike one two)
    {level : Level} {step : String → List Char → Action Unit} {out : String → String}
    (takes : Takes level step out) (path : String) (text : List Char) :
    Action.Alongside excused alike one two (step path text) (step path text)
      fun _ _ => alike := by
  rcases read_cases path text with ⟨store, read⟩ | ⟨error, read⟩ | ⟨⟨fault, broken⟩, -⟩
  · rcases takes.stores path with idle | writes
    · exact Action.alongside_gives (idle text store read one) (idle text store read two) h
    · obtain ⟨made, writes⟩ := writes text store read
      exact frame.writes h writes writes (Or.inl rfl)
  · have idle := takes.idle read
    exact Action.alongside_gives (idle one) (idle two) h
  · exact Action.alongside_fails (takes.broken path broken one)
      (takes.broken path broken two) h

end

/-! ## The store that differs -/

section

variable {level : Level} {step : String → List Char → Action Unit} {out : String → String}
  {one two : Tree} {path : String}

/-- A path that leads to a store in one tree leads to the store of the same file in the other. -/
theorem storeAt_of_shape (shape : one.SameShape two) {store other : Store}
    (h : StoreAt one path store) (there : StoreUnder two (Path.normal path) other) :
    StoreAt two path other := by
  obtain ⟨text, read, -⟩ := h
  obtain ⟨content, -, leads, -, -⟩ := Tree.leads_of_text read
  obtain ⟨content', held, chars, decoded, isStore⟩ := there
  obtain ⟨place, key, led⟩ := leads.place
  have leads' : two.Leads path content' :=
    ⟨leads.relative, ⟨place, key, (shape.follow _ _).symm.trans led⟩, held⟩
  exact ⟨_, leads'.text_ok.mpr ⟨chars, decoded, rfl⟩, isStore path⟩

/-- What can be judged in both trees, and is a store in both or in none, is done with alike. -/
theorem inShape_stepAt {names : List String} (takes : Takes level step out)
    (shape : one.SameShape two)
    (judged : ∀ content, one.files.get? (Path.normal path) = some content → Judged content)
    (judged' : ∀ content, two.files.get? (Path.normal path) = some content → Judged content)
    (agree : (∃ store, StoreUnder one (Path.normal path) store) ↔
      ∃ store, StoreUnder two (Path.normal path) store)
    (inside : Path.normal (out path) ∈ names) (excused : Failure → Prop) {left right : Tree}
    (h : InShape names left right) :
    Action.Alongside excused (InShape names) left right (stepAt step one path)
      (stepAt step two path) fun _ _ => InShape names := by
  by_cases first : ∃ store, StoreAt one path store
  · obtain ⟨store, here⟩ := first
    obtain ⟨other, under⟩ := agree.mp ⟨store, storeUnder_of_storeAt here⟩
    obtain ⟨text, same, read⟩ := stepAt_storeAt step here
    obtain ⟨text', same', read'⟩ :=
      stepAt_storeAt step (storeAt_of_shape shape here under)
    rw [same, same']
    rcases takes.stores path with idle | writes
    · exact Action.alongside_gives (idle _ _ read left) (idle _ _ read' right) h
    · obtain ⟨made, first⟩ := writes _ _ read
      obtain ⟨made', second⟩ := writes _ _ read'
      exact (frame_inShape excused names).writes h first second (Or.inr inside)
  · have second : ¬∃ store, StoreAt two path store := by
      rintro ⟨store, here⟩
      obtain ⟨other, under⟩ := agree.mpr ⟨store, storeUnder_of_storeAt here⟩
      exact first ⟨other, storeAt_of_shape shape.symm here under⟩
    have idle := (storeAt_or_idle takes judged).resolve_left first
    have idle' := (storeAt_or_idle takes judged').resolve_left second
    exact Action.alongside_gives (idle left) (idle' right) h

/-- What is written for a store where the second tree has none is more than the second has. -/
theorem ahead_stepAt {names : List String} (takes : Takes level step out)
    (judged : ∀ content, one.files.get? (Path.normal path) = some content → Judged content)
    (judged' : ∀ content, two.files.get? (Path.normal path) = some content → Judged content)
    (none : ¬∃ store, StoreUnder two (Path.normal path) store)
    (inside : Path.normal (out path) ∈ names) {left right : Tree} (h : Ahead names left right) :
    Action.Alongside Unwritable (Ahead names) left right (stepAt step one path)
      (stepAt step two path) fun _ _ => Ahead names := by
  have second : ¬∃ store, StoreAt two path store := by
    rintro ⟨store, here⟩
    exact none ⟨store, storeUnder_of_storeAt here⟩
  have idle' := (storeAt_or_idle takes judged').resolve_left second
  rcases storeAt_or_idle takes judged with ⟨store, here⟩ | idle
  · obtain ⟨text, same, read⟩ := stepAt_storeAt step here
    rw [same]
    rcases takes.stores path with idle | writes
    · exact Action.alongside_gives (idle _ _ read left) (idle' right) h
    obtain ⟨made, writes⟩ := writes _ _ read
    cases wrote : left.write (Path.ofText (out path)) (encodeUtf8 made.toList) with
    | error fault => exact Action.alongside_excused (writes.failed wrote) ⟨fault, rfl⟩
    | ok after =>
        refine Action.alongside_gives (writes.done wrote) (idle' right)
          ⟨h.1.trans (Tree.grown_write wrote), fun key absent => ?_⟩
        have other : key ∉ [Path.normal (out path)] := by
          rw [List.mem_singleton]
          rintro rfl
          exact absent inside
        exact (Tree.sameOff_write wrote key other).trans (h.2 key absent)
  · exact Action.alongside_gives (idle left) (idle' right) h

end

/-! ## Whole operations -/

section

variable {excused : Failure → Prop} {alike : Tree → Tree → Prop} {names : List String}
  {place : String} {one two : Tree}

/-- Two trees that differ in one file, with a way to tell what stays alike: it starts so, what is
written keeps it so, and what is done with the file that differs keeps it so. -/
structure Mode (excused : Failure → Prop) (alike : Tree → Tree → Prop) (names : List String)
    (place : String) (one two : Tree) : Prop where
  shape : one.SameShape two
  same : Tree.SameOff [place] one two
  start : alike one two
  frame : Frame excused alike names
  differs : ∀ {level step out}, Takes level step out → ∀ {path}, Path.normal path = place →
    Path.normal (out path) ∈ names → ∀ {left right}, alike left right →
    Action.Alongside excused alike left right (stepAt step one path) (stepAt step two path)
      fun _ _ => alike

theorem Mode.stepAll (mode : Mode excused alike names place one two)
    {level : Level} {step : String → List Char → Action Unit} {out : String → String}
    (takes : Takes level step out) {paths : List String}
    (inside : ∀ path ∈ paths, Path.normal path = place → Path.normal (out path) ∈ names) :
    Action.Alongside excused alike one two (stepAll step one paths) (stepAll step two paths)
      fun _ _ => alike := by
  refine Action.alongside_forM _ _ (fun path there left right h => ?_) mode.start
  have split : ∀ tree : Tree, ((Action.textOf tree path).map fun text => (path, text)).elim
      (pure ()) (fun own => step own.1 own.2) = stepAt step tree path := by
    intro tree
    unfold stepAt
    cases Action.textOf tree path <;> rfl
  rw [split, split]
  by_cases here : Path.normal path = place
  · exact mode.differs takes here (inside path there here) h
  · have elsewhere : Path.normal path ∉ [place] := fun same => here (List.mem_singleton.mp same)
    have same : Action.textOf one path = Action.textOf two path := by
      rw [Action.textOf, Action.textOf, mode.shape.text mode.same elsewhere]
    unfold stepAt
    rw [same]
    cases Action.textOf two path with
    | none => exact Action.alongside_gives (Action.gives_pure _) (Action.gives_pure _) h
    | some text => exact mode.frame.sameText h takes path text

theorem alongside_readAll (paths : List String) :
    Action.Alongside excused alike one two (Action.readAll paths) (Action.readAll paths)
      (Action.Still one two fun texts texts' =>
        (paths.filterMap fun path => (Action.textOf one path).map fun text => (path, text)) = texts ∧
        (paths.filterMap fun path => (Action.textOf two path).map fun text => (path, text)) =
          texts') :=
  Action.alongside_gives (Action.gives_readAll paths) (Action.gives_readAll paths)
    ⟨⟨rfl, rfl⟩, rfl, rfl⟩

variable {config : Configuration} {locale : String}

theorem Mode.exportSheets (mode : Mode excused alike names place one two)
    (given : Option (List String))
    (own : ∀ path ∈ sourcePaths config given .exportSheets one, Path.normal path = place →
      localeOfPath config.options.localeInPath path = .ok locale)
    (inside : Path.normal (outputPath config .exportSheets locale) ∈ names) :
    Action.Alongside excused alike one two (exportSheets config given) (exportSheets config given)
      fun _ _ => alike := by
  refine (alongside_destinationOf mode.start _).still fun _ _ pair => ?_
  obtain ⟨rfl, rfl⟩ := pair
  refine (alongside_sourcesOf mode.shape _ given).still fun paths _ pair => ?_
  obtain ⟨rfl, found⟩ := pair
  have own' : ∀ path ∈ paths, Path.normal path = place →
      localeOfPath config.options.localeInPath path = .ok locale := by
    rw [found]
    exact own
  refine (alongside_localesOf mode.start config.options paths).still fun locales _ pair => ?_
  obtain ⟨rfl, all⟩ := pair
  refine (alongside_readAll paths).still fun _ _ pair => ?_
  obtain ⟨rfl, rfl⟩ := pair
  refine mode.stepAll (takes_exportStore config.options (config.target .exportSheets).destination
    (localeFor locales)) fun path there here => ?_
  rw [localeFor_eq all there (own' path there here)]
  exact inside

theorem Mode.build {data : Locale.Data} (mode : Mode excused alike names place one two)
    (given : Option (List String)) (elsewhere : Elsewhere data config.options [place])
    (own : ∀ path ∈ sourcePaths config given .build one, Path.normal path = place →
      localeOfPath config.options.localeInPath path = .ok locale)
    (inside : Path.normal (outputPath config .build locale) ∈ names) :
    Action.Alongside excused alike one two (build data config given)
      (build data config given) fun _ _ => alike := by
  refine (alongside_destinationOf mode.start _).still fun _ _ pair => ?_
  obtain ⟨rfl, rfl⟩ := pair
  refine (alongside_sourcesOf mode.shape _ given).still fun paths _ pair => ?_
  obtain ⟨rfl, found⟩ := pair
  have own' : ∀ path ∈ paths, Path.normal path = place →
      localeOfPath config.options.localeInPath path = .ok locale := by
    rw [found]
    exact own
  refine (alongside_localesOf mode.start config.options paths).still fun locales _ pair => ?_
  obtain ⟨rfl, all⟩ := pair
  refine (alongside_openWorkshop mode.start mode.shape mode.same elsewhere _).still
    fun workshop _ pair => ?_
  obtain rfl := pair
  refine (alongside_readAll paths).still fun _ _ pair => ?_
  obtain ⟨rfl, rfl⟩ := pair
  refine mode.stepAll (takes_buildModule config.options (config.target .build).destination workshop
    (localeFor locales)) fun path there here => ?_
  rw [localeFor_eq all there (own' path there here)]
  exact inside

end

end MessageCatalog.Project
