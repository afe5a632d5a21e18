import MessageCatalog.Locale.RuleTable
import MessageCatalog.Proofs.Basic
import MessageCatalog.Proofs.Project.Taken

/-!
# MessageCatalog.Proofs.Project.Contained -- what a bad store can do to the others

Two projects differ in the file of one store. Building, exporting and importing then end in the same
way and leave the same files, apart from that file and what is made of it: whatever the file holds,
the stores of the other locales are done with as if it were not there. A file that holds no store is
reported and nothing is made of it. The exceptions are an entry whose files have no items and a
surrogate that stands alone: they end the operation for all.
-/

namespace MessageCatalog.Project

open MessageCatalog.Config MessageCatalog.Files MessageCatalog.Message MessageCatalog.Report
open MessageCatalog.Store MessageCatalog.Text

/-! ## What is reported and skipped -/

/-- What is said about the sources that are no stores, and what is not made of them. -/
structure Skips (config : Configuration) (given : Option (List String)) (op : Operation)
    (s t : Session) : Prop where
  /-- A source that is no text is reported. -/
  unread : ∀ path ∈ sourcePaths config given op s.tree, ∀ fault,
    s.tree.text (Path.ofText path) = .error fault →
    ⟨.error, s!"Unable to read {path}: {fault.message}"⟩ ∈ t.log
  /-- A source that is no store is reported. -/
  reported : ∀ path ∈ sourcePaths config given op s.tree, ∀ text error,
    s.tree.text (Path.ofText path) = .ok text →
    Store.read path text = .error (.format error) → ⟨.error, error.message⟩ ∈ t.log
  /-- A file that has changed is what was made of a source that is a store. -/
  changed : ∀ key, t.tree.files.get? key ≠ s.tree.files.get? key →
    ∃ path ∈ sourcePaths config given op s.tree, ∃ locale store,
      localeOfPath config.options.localeInPath path = .ok locale ∧ StoreAt s.tree path store ∧
      key = Path.normal (outputPath config op locale)

section

variable {data : Locale.Data} {config : Configuration} {given : Option (List String)} {op : Operation}

/-- The end of an operation, from the reading of its sources on. -/
theorem skips_of_stepAll {s t u : Session} {step : String → List Char → Action Unit}
    {locales : List (String × String)}
    (takes : Takes .error step fun path => outputPath config op (localeFor locales path))
    (all : List.Forall₂ (fun path own => own.1 = path ∧
      localeOfPath config.options.localeInPath path = .ok own.2)
      (sourcePaths config given op s.tree) locales)
    (same : u.tree = s.tree)
    (ran : (Action.readAll (sourcePaths config given op s.tree) >>= fun texts =>
      texts.forM fun own => step own.1 own.2).run u = (.ok (), t)) : Skips config given op s t := by
  rw [Action.run_bind, run_readAll, same] at ran
  obtain ⟨said, reported, changed⟩ := stepAll_ok takes ran
  refine ⟨fun path there fault failed => ?_, fun path there text error read none => ?_,
    fun key differs => ?_⟩
  · refine said.subset (List.mem_append_right _ (List.mem_flatMap.mpr ⟨path, there, ?_⟩))
    rw [unread_of_error failed]
    exact List.mem_cons_self
  · exact reported path there text error (textOf_eq_some.mpr read) none
  · obtain ⟨path, there, ⟨store, isStore⟩, written⟩ := changed key differs
    obtain ⟨locale, located⟩ := locale_of_all all there
    refine ⟨path, there, locale, store, located, isStore, ?_⟩
    rw [written, localeFor_eq all there located]

theorem exportSheets_skips {s t : Session}
    (ran : (exportSheets config given).run s = (.ok (), t)) :
    Skips config given .exportSheets s t := by
  have shape : s.tree.SameShape s.tree := ⟨rfl, rfl⟩
  obtain ⟨destination, u, named, ran⟩ := Action.bind_ok.mp ran
  obtain ⟨⟨-, rfl⟩, left⟩ := (alongside_destinationOf trivial _).ok_of_self rfl named
  obtain ⟨paths, u, found, ran⟩ := Action.bind_ok.mp ran
  obtain ⟨⟨-, rfl⟩, left⟩ := (alongside_sourcesOf shape _ given).ok_of_self left found
  obtain ⟨locales, u, located, ran⟩ := Action.bind_ok.mp ran
  obtain ⟨⟨-, all⟩, left⟩ := (alongside_localesOf trivial _ _).ok_of_self left located
  exact skips_of_stepAll (takes_exportStore config.options _ (localeFor locales)) all left ran

theorem build_skips {s t : Session} (ran : (build data config given).run s = (.ok (), t)) :
    Skips config given .build s t := by
  have shape : s.tree.SameShape s.tree := ⟨rfl, rfl⟩
  have same : Tree.SameOff [] s.tree s.tree := fun _ _ => rfl
  have elsewhere : Elsewhere data config.options [] :=
    ⟨fun _ _ => List.not_mem_nil, fun _ _ => List.not_mem_nil,
      fun _ _ _ _ _ => List.not_mem_nil⟩
  obtain ⟨destination, u, named, ran⟩ := Action.bind_ok.mp ran
  obtain ⟨⟨-, rfl⟩, left⟩ := (alongside_destinationOf trivial _).ok_of_self rfl named
  obtain ⟨paths, u, found, ran⟩ := Action.bind_ok.mp ran
  obtain ⟨⟨-, rfl⟩, left⟩ := (alongside_sourcesOf shape _ given).ok_of_self left found
  obtain ⟨locales, u, located, ran⟩ := Action.bind_ok.mp ran
  obtain ⟨⟨-, all⟩, left⟩ := (alongside_localesOf trivial _ _).ok_of_self left located
  obtain ⟨workshop, u, opened, ran⟩ := Action.bind_ok.mp ran
  obtain ⟨-, left⟩ :=
    (alongside_openWorkshop trivial shape same elsewhere _).ok_of_self left opened
  exact skips_of_stepAll (takes_buildModule config.options _ workshop (localeFor locales)) all
    left ran

end

/-! ## One store of many -/

section

variable {data : Locale.Data} {config : Configuration} {given : Option (List String)} {op : Operation}
  {place locale : String} {one two : Tree}

/-- Two projects that differ in the bytes of one file, which an operation reads as the store of a
locale and as nothing else. In both of them the bytes can be judged. -/
structure OneStore (data : Locale.Data) (config : Configuration)
    (given : Option (List String)) (op : Operation) (place locale : String) (one two : Tree) : Prop where
  shape : one.SameShape two
  same : Tree.SameOff [place] one two
  judged : ∀ content, one.files.get? place = some content → Judged content
  judged' : ∀ content, two.files.get? place = some content → Judged content
  own : op = .build ∨ op = .exportSheets → ∀ path ∈ sourcePaths config given op one,
    Path.normal path = place → localeOfPath config.options.localeInPath path = .ok locale
  resources : op = .build → Elsewhere data config.options [place]
  tables : op = .importSheets → ∀ path ∈ sourcePaths config given op one, Path.normal path ≠ place
  decoded : op = .importSheets → ∀ content,
    one.files.get? place = some content ∨ two.files.get? place = some content →
    ∃ chars, decodeUtf8 content = .ok chars
  layout : op = .importSheets →
    ∃ layout, config.options.storeLayout = some layout ∧ layout.Blank

theorem OneStore.symm (h : OneStore data config given op place locale one two) :
    OneStore data config given op place locale two one where
  shape := h.shape.symm
  same key absent := (h.same key absent).symm
  judged := h.judged'
  judged' := h.judged
  own stores path there := h.own stores path (by
    rwa [sourcePaths, expandSources_congr h.shape])
  resources := h.resources
  tables imports path there := h.tables imports path (by
    rwa [sourcePaths, expandSources_congr h.shape])
  decoded imports content there := h.decoded imports content there.symm
  layout := h.layout

/-- The files that may differ after an operation: the one that differed before, and what is made of
it. An import makes no other file. -/
def ownFiles (config : Configuration) (op : Operation) (place locale : String) : List String :=
  match op with
  | .importSheets => [place]
  | _ => [place, Path.normal (outputPath config op locale)]

theorem place_mem_ownFiles : place ∈ ownFiles config op place locale := by
  cases op <;> exact List.mem_cons_self

theorem OneStore.inShape (h : OneStore data config given op place locale one two)
    (agree : (∃ store, StoreUnder one place store) ↔ ∃ store, StoreUnder two place store) :
    Mode (fun _ => False) (InShape (ownFiles config op place locale))
      (ownFiles config op place locale) place one two where
  shape := h.shape
  same := h.same
  start := ⟨h.shape, h.same.mono fun _ there => List.mem_singleton.mp there ▸ place_mem_ownFiles⟩
  frame := frame_inShape _ _
  differs takes path here inside left right alike := by
    subst here
    exact inShape_stepAt takes h.shape h.judged h.judged' agree inside _ alike

theorem OneStore.ahead (h : OneStore data config given op place locale one two)
    (none : ¬∃ store, StoreUnder two place store) :
    Mode Unwritable (Ahead (ownFiles config op place locale)) (ownFiles config op place locale)
      place one two where
  shape := h.shape
  same := h.same
  start := ⟨⟨fun key there => by rwa [h.shape.folders], fun key there => by rwa [h.shape.files],
    fun key _ absent => by rwa [h.shape.folders]⟩,
    h.same.mono fun _ there => List.mem_singleton.mp there ▸ place_mem_ownFiles⟩
  frame := frame_ahead _
  differs takes path here inside left right alike := by
    subst here
    exact ahead_stepAt takes h.judged h.judged' none inside alike

/-- Runs that end without an excuse end in the same way, with trees that are alike. -/
theorem ends_same {excused : Failure → Prop} {alike : Tree → Tree → Prop}
    {r r' : Except Failure Unit × Session}
    (ends : Action.Ends excused alike (fun _ _ => alike) r r')
    (free : ∀ failure, r.1 = .error failure → ¬excused failure) :
    r.1 = r'.1 ∧ alike r.2.tree r'.2.tree := by
  obtain ⟨_ | _, s⟩ := r <;> obtain ⟨_ | _, s'⟩ := r'
  · rcases ends with excuse | ⟨rfl, still⟩
    · exact absurd excuse (free _ rfl)
    · exact ⟨rfl, still⟩
  · exact absurd ends (free _ rfl)
  · exact ends.elim
  · exact ⟨rfl, ends⟩

/-- Building and exporting keep the sense in which two trees are alike. -/
theorem Mode.perform {excused : Failure → Prop} {alike : Tree → Tree → Prop}
    (mode : Mode excused alike (ownFiles config op place locale) place one two)
    (h : OneStore data config given op place locale one two)
    (stores : op = .build ∨ op = .exportSheets) :
    Action.Alongside excused alike one two (perform data config given op) (perform data config given op)
      fun _ _ => alike := by
  have own := h.own stores
  rcases stores with rfl | rfl
  · exact mode.build given (h.resources rfl) own (List.mem_cons_of_mem _ List.mem_cons_self)
  · exact mode.exportSheets given own (List.mem_cons_of_mem _ List.mem_cons_self)

/-- Two runs end in the same way, and leave the same bytes in all files but some. -/
def SameOutside (data : Locale.Data) (config : Configuration) (given : Option (List String))
    (op : Operation) (names : List String) (s s' : Session) : Prop :=
  ((perform data config given op).run s).1 = ((perform data config given op).run s').1 ∧
    Tree.SameOff names ((perform data config given op).run s).2.tree
      ((perform data config given op).run s').2.tree

/-- Building and exporting, when the second project has a store only if the first has one. -/
theorem sameOutside_of_store {s s' : Session}
    (h : OneStore data config given op place locale s.tree s'.tree)
    (stores : op = .build ∨ op = .exportSheets)
    (first : (∃ store, StoreUnder s'.tree place store) → ∃ store, StoreUnder s.tree place store)
    (writable : (∃ store, StoreUnder s.tree place store) →
      (¬∃ store, StoreUnder s'.tree place store) →
      ∀ fault, ((perform data config given op).run s).1 ≠ .error (.unwritable fault)) :
    SameOutside data config given op (ownFiles config op place locale) s s' := by
  by_cases second : ∃ store, StoreUnder s'.tree place store
  · have agree : (∃ store, StoreUnder s.tree place store) ↔
        ∃ store, StoreUnder s'.tree place store := ⟨fun _ => second, first⟩
    obtain ⟨same, alike⟩ :=
      ends_same ((h.inShape agree).perform h stores s s' rfl rfl) fun _ _ => id
    exact ⟨same, alike.2⟩
  by_cases own : ∃ store, StoreUnder s.tree place store
  · obtain ⟨same, alike⟩ :=
      ends_same ((h.ahead second).perform h stores s s' rfl rfl) (by
        rintro _ failed ⟨fault, rfl⟩
        exact writable own second fault failed)
    exact ⟨same, alike.2⟩
  · have agree : (∃ store, StoreUnder s.tree place store) ↔
        ∃ store, StoreUnder s'.tree place store :=
      ⟨fun there => absurd there own, fun there => absurd there second⟩
    obtain ⟨same, alike⟩ :=
      ends_same ((h.inShape agree).perform h stores s s' rfl rfl) fun _ _ => id
    exact ⟨same, alike.2⟩

/-- Building and exporting, whichever project has a store. -/
theorem stores_sameOutside {s s' : Session}
    (h : OneStore data config given op place locale s.tree s'.tree)
    (stores : op = .build ∨ op = .exportSheets)
    (writable : (∃ store, StoreUnder s.tree place store) →
      (¬∃ store, StoreUnder s'.tree place store) →
      ∀ fault, ((perform data config given op).run s).1 ≠ .error (.unwritable fault))
    (writable' : (∃ store, StoreUnder s'.tree place store) →
      (¬∃ store, StoreUnder s.tree place store) →
      ∀ fault, ((perform data config given op).run s').1 ≠ .error (.unwritable fault)) :
    SameOutside data config given op (ownFiles config op place locale) s s' := by
  by_cases own : ∃ store, StoreUnder s.tree place store
  · exact sameOutside_of_store h stores (fun _ => own) writable
  · obtain ⟨same, off⟩ :=
      sameOutside_of_store h.symm stores (fun there => absurd there own) writable'
    exact ⟨same.symm, fun key absent => (off key absent).symm⟩

/-- An import leaves a file that holds no store as it is. -/
theorem importSheets_sameOutside {s s' : Session}
    (h : OneStore data config given .importSheets place locale s.tree s'.tree) :
    SameOutside data config given .importSheets [place] s s' ∧
      ((¬∃ store, StoreUnder s.tree place store) →
        ((perform data config given .importSheets).run s).2.tree.files.get? place =
          s.tree.files.get? place) := by
  obtain ⟨layout, chosen, blank⟩ := h.layout rfl
  have legible : ∀ content, s.tree.files.get? place = some content → Legible content :=
    fun content held => ⟨h.decoded rfl content (Or.inl held), h.judged content held⟩
  have legible' : ∀ content, s'.tree.files.get? place = some content → Legible content :=
    fun content held => ⟨h.decoded rfl content (Or.inr held), h.judged' content held⟩
  have taken : Taken s.tree place s.tree s'.tree :=
    ⟨⟨h.shape, h.same⟩, legible, legible', fun _ => rfl⟩
  obtain ⟨same, alike⟩ := ends_same
    (alongside_importSheets taken given chosen blank (h.tables rfl) s s' rfl rfl)
    fun _ _ => (id : False → False)
  exact ⟨⟨same, alike.inShape.2⟩, alike.kept⟩

/-- Taking entries into the store of a locale, when its file holds none: it is reported, and all
files stay as they are. -/
def ReportsNone (config : Configuration) (op : Operation) (locale : String) : Prop :=
  ∀ (s : Session) (entries : Keyed Entry) (text : List Char) (error : FormatError),
    s.tree.isFile (outputPath config op locale) = true →
    s.tree.text (Path.ofText (outputPath config op locale)) = .ok text →
    Store.read (outputPath config op locale) text = .error (.format error) →
    (importEntries config.options (config.target op).destination locale entries).run s =
      (.ok (), ⟨s.tree, s.log ++ [⟨.warning, error.message⟩]⟩)

theorem reportsNone (config : Configuration) (op : Operation) (locale : String) :
    ReportsNone config op locale := by
  intro s entries text error file read none
  obtain ⟨path, named⟩ : ∃ path, path = outputPath config op locale := ⟨_, rfl⟩
  rw [← named] at file read none
  have found : (Action.readText path).run s = (.ok text, s) := Action.readText_ok.mpr ⟨read, rfl⟩
  unfold outputPath at named
  unfold importEntries
  rw [← named, Action.run_bind]
  show ((if !s.tree.isFile path then _ else _ : Action Unit)).run s = _
  rw [file]
  show (Action.readText path >>= _).run s = _
  rw [Action.run_bind, found]
  show (Action.readStoreOr .warning path text >>= _).run s = _
  rw [Action.run_bind, run_readStoreOr none]
  rfl

/-- A bad store changes nothing for the others. Two projects differ in the bytes of the store of one
locale, whatever these are as long as they can be judged. Building, exporting and importing end in
the same way for both, and leave the same bytes in every file but the store and what is made of it;
a store more can at most be one more file that cannot be written. A file that holds no store is
reported, and nothing is made of it. -/
theorem contained (data : Locale.Data) (config : Configuration) (given : Option (List String))
    {op : Operation} (reads : op ≠ .update) {place locale : String} {s s' : Session}
    (h : OneStore data config given op place locale s.tree s'.tree)
    (writable : (∃ store, StoreUnder s.tree place store) →
      (¬∃ store, StoreUnder s'.tree place store) →
      ∀ fault, ((perform data config given op).run s).1 ≠ .error (.unwritable fault))
    (writable' : (∃ store, StoreUnder s'.tree place store) →
      (¬∃ store, StoreUnder s.tree place store) →
      ∀ fault, ((perform data config given op).run s').1 ≠ .error (.unwritable fault)) :
    SameOutside data config given op (ownFiles config op place locale) s s' ∧
    (op ≠ .importSheets → ∀ t, (perform data config given op).run s = (.ok (), t) →
      Skips config given op s t) ∧
    (op = .importSheets → ReportsNone config op locale ∧
      ((¬∃ store, StoreUnder s.tree place store) →
        ((perform data config given op).run s).2.tree.files.get? place = s.tree.files.get? place)) := by
  cases op with
  | update => exact absurd rfl reads
  | importSheets =>
      obtain ⟨same, kept⟩ := importSheets_sameOutside h
      exact ⟨same, fun stores => absurd rfl stores, fun _ => ⟨reportsNone _ _ _, kept⟩⟩
  | build =>
      have same := stores_sameOutside h (Or.inl rfl) writable writable'
      exact ⟨same, fun _ t ran => build_skips ran, fun imports => nomatch imports⟩
  | exportSheets =>
      have same := stores_sameOutside h (Or.inr rfl) writable writable'
      exact ⟨same, fun _ t ran => exportSheets_skips ran, fun imports => nomatch imports⟩

end

/-! ## Two locales -/

/-- Two locales, whose stores are written as tables and taken back from one. -/
def twoLocales : Configuration where
  settings := []
  options := { pagesOnly with
    locales := ["de", "fr"]
    localeInPath := ⟨"[a-z][a-z]", .both (.one ⟨[.range 'a' 'z'], false, false⟩)
      (.one ⟨[.range 'a' 'z'], false, false⟩)⟩
    contentMinifier := none }
  targets := [(.exportSheets, ⟨["de.json", "fr.json"], "@.csv"⟩),
    (.importSheets, ⟨["all.csv"], "@.json"⟩)]

/-- A store of the second locale, a table for both, and some bytes as the store of the first. -/
def besideStore (content : List UInt8) : Session where
  tree := ⟨(Keyed.ofList [("de.json", []),
    ("fr.json", encodeUtf8 "\x7b\"k\": \"v\"\x7d".toList),
    ("all.csv", encodeUtf8 "ID,de,fr\nk,a,b\n".toList)]).set "de.json" content, []⟩
  log := []

/-- A store without keys. -/
def emptyStore : List UInt8 := encodeUtf8 "\x7b\x7d".toList

/-- A store whose only entry has a number as its files. -/
def numberedFiles : List UInt8 := encodeUtf8 "\x7b\"k\": \x7b\"files\": 5\x7d\x7d".toList

theorem sameShape_besideStore (content content' : List UInt8) :
    (besideStore content).tree.SameShape (besideStore content').tree := ⟨rfl, rfl⟩

theorem sameOff_besideStore (content content' : List UInt8) :
    Tree.SameOff ["de.json"] (besideStore content).tree (besideStore content').tree := by
  intro key absent
  have other : ¬key = "de.json" := fun same => absent (List.mem_singleton.mpr same)
  show (Keyed.set _ "de.json" content).get? key = (Keyed.set _ "de.json" content').get? key
  rw [Keyed.get?_set, Keyed.get?_set, if_neg other, if_neg other]

theorem get?_besideStore {content held : List UInt8}
    (h : (besideStore content).tree.files.get? "de.json" = some held) : held = content := by
  have set : (Keyed.set _ "de.json" content).get? "de.json" = some held := h
  rw [Keyed.get?_set, if_pos rfl] at set
  exact (Option.some.inj set).symm

/-- An empty store, and bytes in its place that are no text. -/
theorem oneStore_besideStore : OneStore Locale.common twoLocales none .exportSheets "de.json" "de"
    (besideStore emptyStore).tree (besideStore [0xff]).tree where
  shape := sameShape_besideStore _ _
  same := sameOff_besideStore _ _
  judged content held := by
    obtain rfl := get?_besideStore held
    intro chars decoded fault broken
    have store : (decodeUtf8 emptyStore).toOption.any (fun chars =>
        (Store.read "" (unifyLineEnds chars)).isOk) = true := by decide +kernel
    rw [decoded] at store
    simp only [Except.toOption, Option.any_some, broken.read ""] at store
    cases store
  judged' content held := by
    obtain rfl := get?_besideStore held
    intro chars decoded
    have undecodable : (decodeUtf8 [0xff]).isOk = false := by decide +kernel
    rw [decoded] at undecodable
    cases undecodable
  own _ path there here := by
    have paths : sourcePaths twoLocales none .exportSheets (besideStore emptyStore).tree =
        ["de.json", "fr.json"] := by decide +kernel
    rw [paths] at there
    rcases List.mem_cons.mp there with rfl | there
    · rfl
    · obtain rfl := List.mem_singleton.mp there
      exact absurd here (by decide +kernel)
  resources other := nomatch other
  tables other := nomatch other
  decoded other := nomatch other
  layout other := nomatch other

/-- An operation on the project with bytes as the store of the first locale. -/
def ranBeside (op : Operation) (content : List UInt8) : Except Failure Unit × Session :=
  (perform Locale.common twoLocales none op).run (besideStore content)

/-- Bytes that are no text make no difference for the other locale. -/
theorem contained_undecodable :
    SameOutside Locale.common twoLocales none .exportSheets ["de.json", "de.csv"]
        (besideStore emptyStore) (besideStore [0xff]) ∧
      ∃ t, ranBeside .exportSheets emptyStore = (.ok (), t) ∧
        Skips twoLocales none .exportSheets (besideStore emptyStore) t := by
  have first : (ranBeside .exportSheets emptyStore).1.isOk = true := by decide +kernel
  have second : (ranBeside .exportSheets [0xff]).1.isOk = true := by decide +kernel
  have files : ownFiles twoLocales .exportSheets "de.json" "de" = ["de.json", "de.csv"] := by
    decide +kernel
  have reads : Operation.exportSheets ≠ .update := by decide
  have stores : Operation.exportSheets ≠ .importSheets := by decide
  obtain ⟨same, skips, -⟩ := contained Locale.common twoLocales none reads oneStore_besideStore
    (fun _ _ fault => Action.ne_error_of_isOk first (.unwritable fault))
    (fun _ _ fault => Action.ne_error_of_isOk second (.unwritable fault))
  rw [files] at same
  have done := Action.run_of_isOk first
  exact ⟨same, _, done, skips stores _ done⟩

/-- Projects that differ in one store only: an entry with a number as its files keeps the export
from writing the table of the other locale, and bytes that are no text keep the import from writing
its store. -/
theorem contained_numberedFiles :
    (besideStore emptyStore).tree.SameShape (besideStore numberedFiles).tree ∧
    Tree.SameOff ["de.json"] (besideStore emptyStore).tree (besideStore numberedFiles).tree ∧
    (ranBeside .exportSheets emptyStore).2.tree.files.get? "fr.csv" ≠ none ∧
    (ranBeside .exportSheets numberedFiles).2.tree.files.get? "fr.csv" = none ∧
    (ranBeside .importSheets emptyStore).2.tree.files.get? "fr.json" ≠
      (besideStore emptyStore).tree.files.get? "fr.json" ∧
    (ranBeside .importSheets [0xff]).2.tree.files.get? "fr.json" =
      (besideStore [0xff]).tree.files.get? "fr.json" :=
  ⟨sameShape_besideStore _ _, sameOff_besideStore _ _, by decide +kernel, by decide +kernel,
    by decide +kernel, by decide +kernel⟩

end MessageCatalog.Project
