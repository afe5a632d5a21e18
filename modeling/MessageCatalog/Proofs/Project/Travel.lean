import Mathlib
import MessageCatalog.Locale.RuleTable
import MessageCatalog.Project.Sheets
import MessageCatalog.Proofs.Project.Purge
import MessageCatalog.Proofs.Project.Success
import MessageCatalog.Proofs.Sheet.Lines

/-!
# MessageCatalog.Proofs.Project.Travel -- texts travel through the files of tables

A store that is saved is loaded again with what it had. An export writes the table of a store to a
file, and an import takes the table of a file into a store; together they carry every text of the
first store to its key in the second. The file in between is read with one kind of line end, so what
holds a carriage return does not come through; everything else does.
-/

namespace MessageCatalog.Project

open MessageCatalog.Config MessageCatalog.Files MessageCatalog.Json MessageCatalog.Message
open MessageCatalog.Sheet MessageCatalog.Store MessageCatalog.Text

/-! ## What an import reads -/

section Imported

variable {options : Options} {engines : Keyed Engine} {locale : String} {engine : Engine}
  {store : Store}

/-- A row of the table of a locale gives cells to that locale only. -/
theorem keys_addRecord (own : OwnColumn options.sheet engines locale) (file : Option String)
    (item : String × Entry) {done : Imported × Report.Log} (before : ∀ name ∈ done.1.keys, name = locale) :
    ∀ name ∈ (addRecord options engines file done
      (rowRecord options.sheet locale item)).1.keys, name = locale := by
  unfold addRecord
  split
  · exact before
  split
  · exact before
  refine List.foldlRecOn (motive := fun done : Imported × Report.Log =>
    ∀ name ∈ done.1.keys, name = locale) engines.pairs _ before fun done kept other there => ?_
  unfold addCell
  split
  · exact kept
  next value found =>
  split
  · exact kept
  split
  · exact kept
  · -- a cell was found, so the engine is the one of the column
    intro name there'
    rcases Keyed.mem_keys_set.mp there' with rfl | inside
    · by_contra apart
      have absent := own other.1 (List.mem_map.mpr ⟨other, there, rfl⟩) apart
      rw [get?_of_not_mem (rowRecord options.sheet locale item) absent] at found
      cases found
    · exact kept name inside
  · exact kept

/-- The table of a store gives each of its texts to the locale, and nothing to other locales. -/
theorem imported_writeStore (marks : DefaultMarks options.sheet)
    (distinct : Distinct options.sheet locale) (own : OwnColumn options.sheet engines locale)
    (plain : NoReturns options.sheet store locale) (knows : engines.get? locale = some engine)
    (named : "" ∉ store.keys)
    (canonical : ∀ key slot, store.get? key = some slot →
      Canonical options engine key.toList slot.toEntry.value.toList) (file : Option String) :
    ∃ imported log, readTable options engines file
        (unifyLineEnds (writeStore options.sheet store locale).toList) = .ok (imported, log) ∧
      (∀ name ∈ imported.keys, name = locale) ∧
      ∀ key slot, store.get? key = some slot →
        ((imported.get? locale).getD Keyed.empty).get? key =
          some (.ofText slot.toEntry.value) := by
  obtain ⟨log, read⟩ := readTable_writeStore marks engines file store locale
  rw [← readTable_lines marks distinct own plain] at read
  refine ⟨_, log, read, ?_, fun key slot there => ?_⟩
  · rw [List.foldl_map]
    exact List.foldlRecOn (motive := fun done : Imported × Report.Log =>
      ∀ name ∈ done.1.keys, name = locale) (sortedEntries store) _ (by simp [Keyed.empty, Keyed.keys])
      fun done before item _ => keys_addRecord own file item before
  · have notEmpty : key ≠ "" := by
      rintro rfl
      exact named ((Keyed.mem_keys_iff _).mpr ⟨slot, there⟩)
    exact get?_foldl_addRecord distinct (nodup_sortedEntries store) knows (mem_sortedEntries there)
      notEmpty (canonical key slot there) _

end Imported

/-! ## Stores as files -/

section

variable {tree after : Tree} {path : String} {store : Store} {layout : Layout} {flat : Bool}
  {selection : Option (List String)}

theorem loadStore_eq_ok : loadStore tree path = .ok store ↔ StoreAt tree path store := by
  constructor
  · intro loaded
    obtain ⟨text, found, read⟩ := exists_bind_eq_ok loaded
    exact ⟨text, mapError_ok.mp found, mapError_ok.mp read⟩
  · rintro ⟨text, found, read⟩
    show (((tree.text (Path.ofText path)).mapError Failure.unreadable) >>= fun text =>
      (Store.read path text).mapError Failure.store) = .ok store
    rw [mapError_ok.mpr found]
    exact mapError_ok.mpr read

theorem saveStore_eq_ok {layout : Option Layout} :
    saveStore tree path store layout flat selection = .ok after ↔
      ∃ text, Store.write store layout flat selection = .ok text ∧
        tree.writeText (Path.ofText path) text = .ok after := by
  constructor
  · intro saved
    obtain ⟨text, wrote, stored⟩ := exists_bind_eq_ok saved
    exact ⟨text, mapError_ok.mp wrote, mapError_ok.mp stored⟩
  · rintro ⟨text, wrote, stored⟩
    show ((Store.write store layout flat selection).mapError Failure.store >>= fun text =>
      (tree.writeText (Path.ofText path) text).mapError Failure.unwritable) = .ok after
    rw [mapError_ok.mpr wrote]
    exact mapError_ok.mpr stored

/-- Where there is a file, a store of entries can be saved. -/
theorem exists_saveStore (h : Holds Entry.Separate store) (blank : layout.Blank)
    (file : tree.isFile path = true) :
    ∃ after, saveStore tree path store (some layout) flat selection = .ok after := by
  obtain ⟨content, leads⟩ := Tree.leads_of_isFile file
  obtain ⟨text, -, wrote, -⟩ := read_text h blank flat selection path
  obtain ⟨after, stored, -, -⟩ := leads.overwrite (encodeUtf8 text.toList)
  exact ⟨after, saveStore_eq_ok.mpr ⟨text, wrote, stored⟩⟩

/-- A store that is saved is loaded with the keys that were selected and with what is left of their
entries. -/
theorem loadStore_saveStore (h : Holds Entry.Separate store) (blank : layout.Blank)
    (saved : saveStore tree path store (some layout) flat selection = .ok after) :
    ∃ loaded, loadStore after path = .ok loaded ∧
      loaded.keys = writtenKeys store selection ∧
      ∀ key, loaded.get? key =
        if key ∈ writtenKeys store selection then
          (store.get? key).map fun slot => .entry (slot.toEntry.kept flat).reread
        else none := by
  obtain ⟨text, wrote, stored⟩ := saveStore_eq_ok.mp saved
  obtain ⟨text', loaded, wrote', whole, read, keys, same⟩ := read_text h blank flat selection path
  obtain rfl : text' = text := Except.ok.inj (wrote'.symm.trans wrote)
  refine ⟨loaded, loadStore_eq_ok.mpr ⟨text'.toList, ?_, read⟩, keys, same⟩
  exact (Tree.leads_write stored).text_ok.mpr ⟨_, decodeUtf8_encodeUtf8 _, whole⟩

end

/-! ## The operations -/

variable {data : Locale.Data} {config : Configuration} {locale : String} {engine : Engine}

/-- The path of the table of a locale. -/
def sheetPath (config : Configuration) (locale : String) : String :=
  substituteLocale (config.target .exportSheets).destination config.options.placeholder locale

/-- The path of the store that the tables of a locale are taken into. -/
def importPath (config : Configuration) (locale : String) : String :=
  substituteLocale (config.target .importSheets).destination config.options.placeholder locale

/-- A configuration with tables in the default marks, in which columns are told apart by their
names and every locale has its engine. -/
structure Tabular (data : Locale.Data) (config : Configuration) (locale : String)
    (engine : Engine) : Prop where
  marks : DefaultMarks config.options.sheet
  columns : ∀ name ∈ config.options.locales, Distinct config.options.sheet name
  served : ∀ name ∈ config.options.locales, ∃ engine, Engine.forLocale data name = .ok engine
  known : locale ∈ config.options.locales
  engine : Engine.forLocale data locale = .ok engine
  layout : ∃ layout, config.options.storeLayout = some layout ∧ layout.Blank
  exported : (config.target .exportSheets).destination ≠ ""
  imported : (config.target .importSheets).destination ≠ ""

/-- An action for the only item of a list. -/
theorem gives_forM_one {α : Type} {tree after : Tree} {item : α} {f : α → Action Unit}
    (h : Action.Gives (f item) tree () after) : Action.Gives ([item].forM f) tree () after := by
  rw [List.forM_eq_forM, List.forM_cons]
  exact h.bind (Action.gives_pure _)

/-- The texts of the only source. -/
theorem gives_readAll_one {tree : Tree} {path : String} {text : List Char}
    (h : tree.text (Path.ofText path) = .ok text) :
    Action.Gives (Action.readAll [path]) tree [(path, text)] tree := by
  have all : Action.Gives (Action.readAll [path]) tree _ tree := Action.gives_readAll [path]
  rw [List.filterMap_cons, Action.textOf, h] at all
  exact all

/-- The export of a store that is the only source writes its table. -/
theorem gives_exportSheets (tab : Tabular data config locale engine) {given : Option (List String)}
    {tree after : Tree} {path : String} {store : Store}
    (found : (Action.expandSources tree
      (given.getD (config.target .exportSheets).sources)).1 = [path])
    (located : localeOfPath config.options.localeInPath path = .ok locale)
    (there : StoreAt tree path store)
    (wrote : tree.write (Path.ofText (sheetPath config locale))
      (encodeUtf8 (writeStore config.options.sheet store locale).toList) = .ok after) :
    Action.Gives (exportSheets config given) tree () after := by
  obtain ⟨text, read, isStore⟩ := there
  have paths : Action.Gives (sourcesOf (config.target .exportSheets) given) tree [path] tree := by
    rw [← found]
    exact Action.gives_sources _
  have locales : Action.Gives (localesOf config.options [path]) tree [(path, locale)] tree := by
    have one : Action.Gives (do
        return (path, ← Action.ofExcept (localeOfPath config.options.localeInPath path))) tree
          (path, locale) tree :=
      (Action.gives_ofExcept located).bind (Action.gives_pure _)
    unfold localesOf
    rw [List.mapM_cons]
    exact one.bind (Action.gives_pure _)
  have own : localeFor [(path, locale)] path = locale := by
    simp [localeFor]
  refine (gives_destinationOf tab.exported).bind (paths.bind (locales.bind
    ((gives_readAll_one read).bind (gives_forM_one ?_))))
  dsimp only
  rw [own]
  refine (Action.gives_readStoreOr isStore).bind ((Action.gives_sayLine _ _).bind ?_)
  exact (Action.gives_write wrote).bind (Action.gives_sayLine _ _)

/-- The import of entries leaves a file that is read as the store with the entries. -/
theorem gives_importEntries (tab : Tabular data config locale engine) {tree : Tree} {store : Store}
    (entries : Keyed Entry) (file : tree.isFile (importPath config locale) = true)
    (there : StoreAt tree (importPath config locale) store) :
    ∃ after new, Action.Gives (importEntries config.options
        (config.target .importSheets).destination locale entries) tree () after ∧
      StoreAt after (importPath config locale) new ∧
      ∀ key, new.get? key = ((extendAll store entries.pairs true).get? key).map fun slot =>
        .entry (slot.toEntry.kept config.options.flatStores).reread := by
  obtain ⟨text, read, isStore⟩ := there
  obtain ⟨layout, chosen, blank⟩ := tab.layout
  have separate : Holds Entry.Separate (extendAll store entries.pairs true) :=
    holds_extendAll_update (holds_of_read isStore) entries
  obtain ⟨after, saved⟩ := exists_saveStore separate blank file
  obtain ⟨new, loaded, -, same⟩ := loadStore_saveStore separate blank saved
  obtain ⟨out, wrote, stored⟩ := saveStore_eq_ok.mp saved
  rw [← chosen] at wrote
  refine ⟨after, new, ?_, loadStore_eq_ok.mp loaded, fun key => ?_⟩
  · refine Action.gives_files.bind ?_
    show Action.Gives (if !tree.isFile (importPath config locale) then _ else _) tree () after
    rw [file]
    refine (Action.gives_readText read).bind ((Action.gives_readStoreOr isStore).bind ?_)
    exact (Action.gives_storeText wrote).bind
      ((Action.gives_write stored).bind (Action.gives_sayLine _ _))
  · rw [same]
    by_cases known : key ∈ (extendAll store entries.pairs true).keys
    · rw [if_pos (mem_writtenKeys.mpr ⟨known, by simp⟩)]
    · rw [if_neg fun there => known (mem_writtenKeys.mp there).1,
        (Keyed.get?_eq_none_iff _).mpr known]
      rfl

/-- Names of which there is one at most have no value, or one. -/
theorem pairs_of_keys {α : Type} {m : Keyed α} {name : String} (only : ∀ key ∈ m.keys, key = name) :
    m.pairs = [] ∨ ∃ value, m.pairs = [(name, value)] := by
  obtain ⟨pairs, distinct⟩ := m
  cases pairs with
  | nil => exact Or.inl rfl
  | cons pair rest =>
      obtain ⟨key, value⟩ := pair
      obtain rfl : key = name := only key List.mem_cons_self
      cases rest with
      | nil => exact Or.inr ⟨value, rfl⟩
      | cons other more =>
          have same : other.1 = key :=
            only other.1 (List.mem_cons_of_mem _ List.mem_cons_self)
          rw [List.map_cons, List.nodup_cons] at distinct
          exact absurd (same ▸ List.mem_cons_self) distinct.1

/-- The column of a locale belongs to no other locale that has an engine. -/
theorem Tabular.ownColumn (tab : Tabular data config locale engine) {engines : Keyed Engine}
    (all : ∀ name engine, engines.get? name = some engine ↔
      name ∈ config.options.locales ∧ Engine.forLocale data name = .ok engine) :
    OwnColumn config.options.sheet engines locale := by
  intro name inside apart column
  obtain ⟨engine, served⟩ := (Keyed.mem_keys_iff _).mp inside
  have distinct := tab.columns name ((all name engine).mp served).1
  rcases List.mem_cons.mp column with label | column
  · exact distinct.apart label
  rcases List.mem_cons.mp column with text | extra
  · exact apart text
  · exact distinct.notExtra extra

/-- An import of one table does what taking in the texts of the table does. -/
theorem gives_importSheets_one (tab : Tabular data config locale engine)
    {given : Option (List String)} {tree after : Tree} {table : String} {text : List Char}
    {engines : Keyed Engine} {imported : Imported} {log : Report.Log}
    (found : (Action.expandSources tree
      (given.getD (config.target .importSheets).sources)).1 = [table])
    (made : Action.Gives (Action.enginesOf data config.options.locales) tree engines tree)
    (there : tree.text (Path.ofText table) = .ok text)
    (read : readTable config.options engines (some table) text = .ok (imported, log))
    (last : Action.Gives (imported.pairs.forM fun own =>
      importEntries config.options (config.target .importSheets).destination own.1 own.2)
        tree () after) :
    Action.Gives (importSheets data config given) tree () after := by
  have paths : Action.Gives (sourcesOf (config.target .importSheets) given) tree [table] tree := by
    rw [← found]
    exact Action.gives_sources _
  refine (gives_destinationOf tab.imported).bind (paths.bind ?_)
  show Action.Gives (do
    let engines ← Action.enginesOf data config.options.locales
    (← Action.readAll [table]).forM fun own =>
      importSheet config.options (config.target .importSheets).destination engines own.1 own.2)
    tree () after
  refine made.bind ((gives_readAll_one there).bind (gives_forM_one ?_))
  exact (Action.gives_ofExcept read).bind
    ((Action.gives_say _).bind ((Action.gives_sayLine _ _).bind last))

/-- The import of a table takes each text of the store that it was written from to its key. -/
theorem gives_importSheets (tab : Tabular data config locale engine) {given : Option (List String)}
    {tree : Tree} {table : String} {store target : Store}
    (named : "" ∉ store.keys)
    (canonical : ∀ key slot, store.get? key = some slot →
      Canonical config.options engine key.toList slot.toEntry.value.toList)
    (plain : NoReturns config.options.sheet store locale)
    (found : (Action.expandSources tree
      (given.getD (config.target .importSheets).sources)).1 = [table])
    (carried : tree.text (Path.ofText table) =
      .ok (unifyLineEnds (writeStore config.options.sheet store locale).toList))
    (file : tree.isFile (importPath config locale) = true)
    (there : StoreAt tree (importPath config locale) target) :
    ∃ after new, Action.Gives (importSheets data config given) tree () after ∧
      StoreAt after (importPath config locale) new ∧
      (∀ key, key ∈ new.keys ↔ key ∈ target.keys) ∧
      ∀ key own slot, store.get? key = some own → new.get? key = some slot →
        slot.toEntry.value = own.toEntry.value := by
  obtain ⟨engines, made, all⟩ := Action.gives_enginesOf tree tab.served
  obtain ⟨imported, log, read, only, texts⟩ := imported_writeStore tab.marks
    (tab.columns locale tab.known) (tab.ownColumn all) plain
    ((all locale engine).mpr ⟨tab.known, tab.engine⟩) named canonical (some table)
  rcases pairs_of_keys only with none | ⟨entries, one⟩
  · -- a table without texts is that of a store without keys
    have cells : imported.get? locale = .none := by
      show imported.pairs.lookup locale = .none
      rw [none]
      rfl
    have nothing : ∀ key, key ∉ store.keys := by
      intro key known
      obtain ⟨slot, held⟩ := (Keyed.mem_keys_iff _).mp known
      have given := texts key slot held
      rw [cells] at given
      cases given
    refine ⟨tree, target, gives_importSheets_one tab found made carried read ?_, there,
      fun key => Iff.rfl, fun key own slot held => ?_⟩
    · rw [none]
      exact Action.gives_pure _
    · exact absurd ((Keyed.mem_keys_iff _).mpr ⟨own, held⟩) (nothing key)
  · obtain ⟨after, new, gives, left, written⟩ := gives_importEntries tab entries file there
    refine ⟨after, new, gives_importSheets_one tab found made carried read ?_, left,
      fun key => ?_, fun key own slot held now => ?_⟩
    · rw [one]
      exact gives_forM_one gives
    · rw [Keyed.mem_keys_iff, Keyed.mem_keys_iff, ← Option.isSome_iff_exists,
        ← Option.isSome_iff_exists, written, get?_extendAll_update entries.nodup_keys,
        Option.isSome_map, Option.isSome_map]
    · have cells : imported.get? locale = some entries := by
        show imported.pairs.lookup locale = some entries
        rw [one, Keyed.lookup_cons_ite, if_pos rfl]
      have text := texts key own held
      rw [cells, Option.getD_some] at text
      rw [written, get?_extendAll_update entries.nodup_keys] at now
      obtain ⟨merged, before, rfl⟩ := Option.map_eq_some_iff.mp now
      obtain ⟨old, -, rfl⟩ := Option.map_eq_some_iff.mp before
      rw [show entries.pairs.lookup key = some (.ofText own.toEntry.value) from text]
      cases config.options.flatStores <;> rfl

/-! ## There and back -/

/-- Texts travel from one store to another through the file of a table. Both operations succeed, and
afterwards the second store has the keys that it had and under each of them the text of the first
store, whatever the keys and texts hold except for carriage returns. The table is taken from the
file that the export wrote to any tree with the second store, where the import finds it as its only
source. -/
theorem travels (tab : Tabular data config locale engine) (given given' : Option (List String))
    {s : Session} {path : String} {store : Store}
    (found : (Action.expandSources s.tree
      (given.getD (config.target .exportSheets).sources)).1 = [path])
    (located : localeOfPath config.options.localeInPath path = .ok locale)
    (there : StoreAt s.tree path store) (named : "" ∉ store.keys)
    (canonical : ∀ key slot, store.get? key = some slot →
      Canonical config.options engine key.toList slot.toEntry.value.toList)
    (plain : NoReturns config.options.sheet store locale)
    (writable : ∃ after, s.tree.writeText (Path.ofText (sheetPath config locale))
      (writeStore config.options.sheet store locale) = .ok after) :
    ∃ t, (exportSheets config given).run s = (.ok (), t) ∧
      ∀ (u : Session) (table : String) (target : Store),
        (Action.expandSources u.tree
          (given'.getD (config.target .importSheets).sources)).1 = [table] →
        u.tree.bytes (Path.ofText table) =
          t.tree.bytes (Path.ofText (sheetPath config locale)) →
        u.tree.isFile (importPath config locale) = true →
        StoreAt u.tree (importPath config locale) target →
        (∀ key, key ∈ target.keys ↔ key ∈ store.keys) →
        ∃ v new, (importSheets data config given').run u = (.ok (), v) ∧
          StoreAt v.tree (importPath config locale) new ∧
          (∀ key, key ∈ new.keys ↔ key ∈ store.keys) ∧
          ∀ key own slot, store.get? key = some own → new.get? key = some slot →
            slot.toEntry.value = own.toEntry.value := by
  obtain ⟨after, wrote⟩ := writable
  obtain ⟨t, ran, left⟩ := gives_exportSheets tab found located there wrote s rfl
  refine ⟨t, ran, fun u table target source carried file isStore same => ?_⟩
  have bytes : u.tree.bytes (Path.ofText table) =
      .ok (encodeUtf8 (writeStore config.options.sheet store locale).toList) := by
    rw [carried, left]
    exact (Tree.leads_write wrote).bytes
  have text : u.tree.text (Path.ofText table) =
      .ok (unifyLineEnds (writeStore config.options.sheet store locale).toList) := by
    rw [Tree.text, Tree.characters, bytes]
    show ((decodeUtf8 (encodeUtf8 _)).mapError ReadFault.undecodable).map unifyLineEnds = _
    rw [decodeUtf8_encodeUtf8]
    rfl
  obtain ⟨last, new, gives, isNew, keys, texts⟩ :=
    gives_importSheets tab named canonical plain source text file isStore
  obtain ⟨v, ran', left'⟩ := gives u rfl
  exact ⟨v, new, ran', left' ▸ isNew, fun key => (keys key).trans (same key), texts⟩

/-! ## A small project -/

/-- One locale, found in paths by its name, with a table beside its store. -/
def sheetProject : Configuration where
  settings := []
  options := { pagesOnly with
    localeInPath := ⟨"de", .both (.one (.single 'd' false)) (.one (.single 'e' false))⟩
    contentMinifier := none }
  targets := [(.exportSheets, ⟨["de.json"], "@.csv"⟩), (.importSheets, ⟨["de.csv"], "@.json"⟩)]

/-- The store of the locale with a text under one key. -/
def storeFile (text : String) : Session where
  tree := ⟨Keyed.ofList [
    ("de.json", encodeUtf8 ("\x7b\"k\": \"" ++ text ++ "\"\x7d").toList)], []⟩
  log := []

/-- The text under a key of the store at a path. -/
def textUnder (tree : Tree) (path key : String) : Option String :=
  (storeOf? tree path).bind fun store => (store.get? key).map fun slot => slot.toEntry.value

/-- A text with quotes, a comma and a line feed, and the table that holds it beside another store. -/
def quotedText : String := "Sag \"du\",\nja"

/-- The text as it stands in the file of a store. -/
def quotedFile : Session := storeFile "Sag \\\"du\\\",\\nja"

/-- The table of the text and a store that does not have it yet. -/
def tableFile : Session where
  tree := ⟨Keyed.ofList [
    ("de.csv", encodeUtf8 "\"ID\",\"de\",\"files\"\r\n\"k\",\"Sag \"\"du\"\",\nja\",\"\"\r\n".toList),
    ("de.json", encodeUtf8 "\x7b\"k\": \"\"\x7d".toList)], []⟩
  log := []

/-- The keys of a store with their texts. -/
def textsOf (store : Store) : List (String × String) :=
  store.pairs.map fun pair => (pair.1, pair.2.toEntry.value)

theorem mem_textsOf {store : Store} {key : String} {slot : Slot} (h : store.get? key = some slot) :
    (key, slot.toEntry.value) ∈ textsOf store :=
  List.mem_map.mpr ⟨(key, slot), (Keyed.get?_eq_some_iff store).mp h, rfl⟩

/-- The store at a path by its texts. -/
theorem storeAt_of_texts (tree : Tree) (path : String) (texts : List (String × String))
    (h : (storeOf? tree path).map textsOf = some texts) :
    ∃ store, StoreAt tree path store ∧ textsOf store = texts := by
  obtain ⟨store, found, same⟩ := Option.map_eq_some_iff.mp h
  exact ⟨store, storeAt_of_storeOf? found, same⟩

/-- The names of the columns of the table are told apart. -/
theorem distinct_sheetProject : ∀ name ∈ sheetProject.options.locales,
    Distinct sheetProject.options.sheet name := by
  intro name there
  obtain rfl := List.mem_singleton.mp there
  exact ⟨by decide, by decide, by decide⟩

theorem tabular_sheetProject : ∃ engine, Tabular Locale.common sheetProject "de" engine ∧
    Canonical sheetProject.options engine "k".toList quotedText.toList := by
  have parses : ((Engine.forLocale Locale.common "de").toOption.map fun engine =>
      (engine.parse quotedText.toList).isOk) = some true := by decide +kernel
  cases served : Engine.forLocale Locale.common "de" with
  | error why =>
      rw [served] at parses
      cases parses
  | ok engine =>
      rw [served] at parses
      have each : ∀ name ∈ sheetProject.options.locales,
          ∃ engine, Engine.forLocale Locale.common name = .ok engine := by
        intro name there
        obtain rfl := List.mem_singleton.mp there
        exact ⟨engine, served⟩
      refine ⟨engine, ⟨⟨rfl, rfl, rfl⟩, distinct_sheetProject, each, List.mem_cons_self, served,
        ⟨_, rfl, Layout.blank_spaces 2⟩, by decide, by decide⟩, ?_⟩
      exact canonical_of_content (by decide) (by decide +kernel) (Option.some.inj parses)

/-- A text with quotes and a line feed comes through. -/
theorem travels_quotedText : ∃ t v new,
    (exportSheets sheetProject none).run quotedFile = (.ok (), t) ∧
      tableFile.tree.bytes (Path.ofText "de.csv") = t.tree.bytes (Path.ofText "de.csv") ∧
      (importSheets Locale.common sheetProject none).run tableFile = (.ok (), v) ∧
      StoreAt v.tree "de.json" new ∧
      ∃ slot, new.get? "k" = some slot ∧ slot.toEntry.value = quotedText := by
  obtain ⟨engine, tab, canonical⟩ := tabular_sheetProject
  obtain ⟨store, there, texts⟩ :=
    storeAt_of_texts quotedFile.tree "de.json" [("k", quotedText)] (by decide +kernel)
  obtain ⟨target, isTarget, others⟩ :=
    storeAt_of_texts tableFile.tree "de.json" [("k", "")] (by decide +kernel)
  have only : ∀ key slot, store.get? key = some slot → key = "k" ∧ slot.toEntry.value = quotedText := by
    intro key slot held
    have inside := mem_textsOf held
    rw [texts, List.mem_singleton, Prod.mk.injEq] at inside
    exact inside
  have names : ∀ {store : Store} {text : String}, textsOf store = [("k", text)] →
      store.keys = ["k"] := by
    intro store text same
    have keys : (textsOf store).map Prod.fst = store.keys := by
      rw [textsOf, List.map_map]
      rfl
    rw [← keys, same]
    rfl
  have canonical' : ∀ key slot, store.get? key = some slot →
      Canonical sheetProject.options engine key.toList slot.toEntry.value.toList := by
    intro key slot held
    obtain ⟨rfl, value⟩ := only key slot held
    rw [value]
    exact canonical
  have plain : NoReturns sheetProject.options.sheet store "de" := by
    refine ⟨by decide, fun key slot held => ?_⟩
    obtain ⟨rfl, value⟩ := only key slot held
    rw [value]
    decide
  have writable : ∃ after, quotedFile.tree.writeText (Path.ofText (sheetPath sheetProject "de"))
      (writeStore sheetProject.options.sheet store "de") = .ok after :=
    ⟨_, rfl⟩
  have found : (Action.expandSources quotedFile.tree
      ((none : Option (List String)).getD (sheetProject.target .exportSheets).sources)).1 =
        ["de.json"] := by decide +kernel
  have known : ∀ key, key ∈ store.keys ↔ key = "k" := by
    intro key
    rw [names texts, List.mem_singleton]
  have named : "" ∉ store.keys := by
    rw [known]
    decide
  obtain ⟨t, ran, imports⟩ :=
    travels tab none none found rfl there named canonical' plain writable
  have carried : tableFile.tree.bytes (Path.ofText "de.csv") =
      ((exportSheets sheetProject none).run quotedFile).2.tree.bytes (Path.ofText "de.csv") := by
    decide +kernel
  rw [ran] at carried
  obtain ⟨v, new, ran', isNew, keys, values⟩ := imports tableFile "de.csv" target (by decide +kernel)
    carried (by decide +kernel) isTarget fun key => by rw [names texts, names others]
  obtain ⟨own, first⟩ := (Keyed.mem_keys_iff store).mp ((known "k").mpr rfl)
  obtain ⟨slot, held⟩ := (Keyed.mem_keys_iff new).mp ((keys "k").mpr ((known "k").mpr rfl))
  refine ⟨t, v, new, ran, carried, ran', isNew, slot, held, ?_⟩
  rw [values "k" own slot first held]
  exact (only "k" own first).2

/-- A carriage return of a text is a line feed when it comes back. -/
theorem travels_return :
    ∃ t v, (exportSheets sheetProject none).run (storeFile "a\\rb") = (.ok (), t) ∧
      (importSheets Locale.common sheetProject none).run t = (.ok (), v) ∧
      textUnder (storeFile "a\\rb").tree "de.json" "k" = some "a\rb" ∧
      (Content.clean sheetProject.options "k".toList "a\rb".toList false).map
        Content.Cleaned.content = .ok "a\rb".toList ∧
      textUnder v.tree "de.json" "k" = some "a\nb" := by
  have exports := Action.run_of_isOk (show
    ((exportSheets sheetProject none).run (storeFile "a\\rb")).1.isOk = true by decide +kernel)
  have imports := Action.run_of_isOk (show ((importSheets Locale.common sheetProject none).run
    ((exportSheets sheetProject none).run (storeFile "a\\rb")).2).1.isOk = true by decide +kernel)
  exact ⟨_, _, exports, imports, by decide +kernel, by decide +kernel, by decide +kernel⟩

end MessageCatalog.Project
