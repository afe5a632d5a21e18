import MessageCatalog.Proofs.Project.Update
import MessageCatalog.Proofs.Store.Written
import MessageCatalog.Proofs.Text.Utf8

/-!
# MessageCatalog.Proofs.Project.Purge -- no key is dropped while a source is left out

Keys that were not seen are dropped only when every file of the configuration was scanned. When one
was not, every store that was there comes through the run with all of its keys: a locale whose store
is that file reads it, takes the working set in and writes both back, and every other locale leaves
the file as it is. The text that is written has to be read as what was written, which a layout of
white space makes sure of.
-/

namespace MessageCatalog.Project

open MessageCatalog.Config MessageCatalog.Files MessageCatalog.Json MessageCatalog.Store
open MessageCatalog.Text

/-! ## Stores in files -/

/-- The store that some bytes hold, wherever they come from. -/
def StoreIn (content : List UInt8) (store : Store) : Prop :=
  ∃ chars, decodeUtf8 content = .ok chars ∧
    ∀ source, Store.read source (unifyLineEnds chars) = .ok store

/-- The store of the file under a normal path. -/
def StoreUnder (tree : Tree) (place : String) (store : Store) : Prop :=
  ∃ content, tree.files.get? place = some content ∧ StoreIn content store

/-- Where a text comes from matters only for what is said when it holds no store. -/
theorem read_source {source : String} {text : List Char} {store : Store}
    (h : Store.read source text = .ok store) (other : String) :
    Store.read other text = .ok store :=
  read_eq_ok.mpr (read_eq_ok.mp h)

theorem storeAt_iff {tree : Tree} {path : String} (file : tree.isFile path = true)
    {store : Store} : StoreAt tree path store ↔ StoreUnder tree (Path.normal path) store := by
  obtain ⟨content, leads⟩ := Tree.leads_of_isFile file
  constructor
  · rintro ⟨text, read, isStore⟩
    obtain ⟨chars, decoded, rfl⟩ := leads.text_ok.mp read
    exact ⟨content, leads.held, chars, decoded, read_source isStore⟩
  · rintro ⟨other, held, chars, decoded, isStore⟩
    rw [leads.held] at held
    cases held
    exact ⟨_, leads.text_ok.mpr ⟨chars, decoded, rfl⟩, isStore path⟩

theorem storeUnder_unique {tree : Tree} {place : String} {one other : Store}
    (h : StoreUnder tree place one) (h' : StoreUnder tree place other) : one = other := by
  obtain ⟨content, held, chars, decoded, read⟩ := h
  obtain ⟨content', held', chars', decoded', again⟩ := h'
  rw [held] at held'
  cases held'
  rw [decoded] at decoded'
  cases decoded'
  have same := (read "").symm.trans (again "")
  cases same
  rfl

/-- What is written of a store is a store with the selected keys. -/
theorem storeIn_write {store : Store} (h : Holds Entry.Separate store) {layout : Option Layout}
    (blank : ∀ chosen ∈ layout, chosen.Blank) {flat : Bool} {selection : Option (List String)}
    {text : String} (wrote : Store.write store layout flat selection = .ok text) :
    ∃ written, StoreIn (encodeUtf8 text.toList) written ∧
      ∀ key, key ∈ written.keys ↔ key ∈ writtenKeys store selection := by
  obtain ⟨chosen, rfl⟩ := exists_layout_of_write wrote
  obtain ⟨written, readBack, same⟩ := read_write h (blank chosen rfl) wrote ""
  refine ⟨written, ⟨text.toList, decodeUtf8_encodeUtf8 _, read_source readBack⟩, fun key => ?_⟩
  rw [Keyed.mem_keys_iff]
  constructor
  · rintro ⟨slot, found⟩
    rw [same, Option.ite_none_right_eq_some] at found
    exact found.1
  · intro selected
    obtain ⟨slot, found⟩ := (Keyed.mem_keys_iff store).mp (mem_writtenKeys.mp selected).1
    exact ⟨_, by rw [same, if_pos selected, found]; rfl⟩

/-! ## One locale -/

variable {options : Options} {destination : String} {working : Store}

/-- The update of a locale whose store is there keeps its keys, when it drops none. -/
theorem updateStore_keepsKeys (blank : ∀ layout ∈ options.storeLayout, layout.Blank)
    (hworking : Holds Entry.Merged working) {locale path : String} {s t : Session}
    (place : path = substituteLocale destination options.placeholder locale)
    (file : s.tree.isFile path = true)
    (ran : (updateStore options destination working false locale).run s = (.ok (), t)) :
    ∃ old new, StoreUnder s.tree (Path.normal path) old ∧
      StoreUnder t.tree (Path.normal path) new ∧ ∀ key ∈ old.keys, key ∈ new.keys := by
  obtain ⟨old, text, current, wrote, stored⟩ := updateStore_writes place ran
  have extended := holds_extended (holds_current current) hworking
  rw [Current, if_pos file] at current
  obtain ⟨new, written, keys⟩ := storeIn_write extended blank wrote
  refine ⟨old, new, (storeAt_iff file).mp current, ⟨_, ?_, written⟩, fun key known => ?_⟩
  · rw [Tree.get?_write stored, if_pos rfl]
  · exact (keys key).mpr (mem_writtenKeys_extended.mpr (Or.inr ⟨known, Bool.false_ne_true⟩))

/-! ## All locales -/

/-- A run that drops no keys keeps those of the store under a normal path: the locales whose store
this is take the working set in, and the others leave it. The store is there when there is such a
locale. -/
theorem updateStores_keepKeys (blank : ∀ layout ∈ options.storeLayout, layout.Blank)
    (hworking : Holds Entry.Merged working) {pathOf : String → String} {place : String}
    (paths : ∀ locale, pathOf locale = substituteLocale destination options.placeholder locale)
    {locales : List String} {s t : Session}
    (found : ∀ locale ∈ locales, Path.normal (pathOf locale) = place →
      s.tree.isFile (pathOf locale) = true)
    (ran : (locales.forM (updateStore options destination working false)).run s = (.ok (), t)) :
    Tree.Grown s.tree t.tree ∧
    (∀ old, StoreUnder s.tree place old →
      ∃ new, StoreUnder t.tree place new ∧ ∀ key ∈ old.keys, key ∈ new.keys) ∧
    ((∃ locale ∈ locales, Path.normal (pathOf locale) = place) →
      ∃ old, StoreUnder s.tree place old) := by
  induction locales generalizing s with
  | nil =>
      obtain ⟨-, rfl⟩ := Action.pure_ok.mp ran
      exact ⟨.refl _, fun old there => ⟨old, there, fun _ known => known⟩, by simp⟩
  | cons locale rest ih =>
      rw [List.forM_eq_forM, List.forM_cons] at ran
      obtain ⟨_, u, one, ran⟩ := Action.bind_ok.mp ran
      obtain ⟨-, text, -, -, stored⟩ := updateStore_writes (paths locale) one
      have step := Tree.grown_write stored
      have frame := Tree.get?_write stored
      obtain ⟨grown, keeps, there⟩ := ih (fun other inside same =>
        step.isFile (found other (List.mem_cons_of_mem _ inside) same)) ran
      refine ⟨step.trans grown, ?_⟩
      by_cases same : Path.normal (pathOf locale) = place
      · obtain ⟨old, new, was, now, kept⟩ := updateStore_keepsKeys blank hworking (paths locale)
          (found locale List.mem_cons_self same) one
        rw [same] at was now
        refine ⟨fun store held => ?_, fun _ => ⟨old, was⟩⟩
        rw [storeUnder_unique held was]
        obtain ⟨last, left, keptOn⟩ := keeps new now
        exact ⟨last, left, fun key known => keptOn key (kept key known)⟩
      · have untouched : u.tree.files.get? place = s.tree.files.get? place := by
          rw [frame, if_neg (Ne.symm same)]
        unfold StoreUnder at keeps there ⊢
        rw [untouched] at keeps there
        refine ⟨keeps, ?_⟩
        rintro ⟨other, inside, leads⟩
        rcases List.mem_cons.mp inside with rfl | later
        · exact absurd leads same
        · exact there ⟨other, later, leads⟩

/-! ## The run -/

/-- The layout of an integer or null puts nothing but white space between values. -/
theorem blank_layoutOf {setting : Setting} (h : setting = .null ∨ ∃ count, setting = .int count) :
    ∀ layout ∈ layoutOf setting, layout.Blank := by
  rcases h with rfl | ⟨count, rfl⟩
  · rintro layout ⟨⟩
    exact trivial
  · rintro layout ⟨⟩
    exact Layout.blank_spaces count

/-- An update in which a file of the configuration was not scanned drops no key, whatever order its
sources are read in: every store that was there is there afterwards, with the keys that it had.
Locales whose stores are one file have to find it there, each under its own path. -/
theorem update_keepsKeys (config : Configuration) (given : Option (List String))
    {order : List String → List String} {s t : Session}
    (shuffled : ∀ files, (order files).Perm files)
    (blank : ∀ layout ∈ config.options.storeLayout, layout.Blank)
    (found : ∀ locale ∈ config.options.locales, ∀ other ∈ config.options.locales,
      Path.normal (storePath config other) = Path.normal (storePath config locale) →
        s.tree.isFile (storePath config locale) = true →
          s.tree.isFile (storePath config other) = true)
    (ran : (updateInOrder config given order).run s = (.ok (), t))
    (left : ∃ path ∈ configuredFiles config s.tree, ∀ scanned ∈ scannedFiles config given s.tree,
      Path.normal scanned = Path.normal path → ¬Scans config.options s.tree scanned) :
    ∀ locale ∈ config.options.locales, s.tree.isFile (storePath config locale) = true →
      ∃ old new, StoreAt s.tree (storePath config locale) old ∧
        StoreAt t.tree (storePath config locale) new ∧ ∀ key ∈ old.keys, key ∈ new.keys := by
  intro locale there file
  obtain ⟨purge, u, same, decided, ran⟩ := updateInOrder_ok shuffled ran
  have kept : purge = false := by
    apply Bool.eq_false_iff.mpr
    intro purges
    obtain ⟨path, named, never⟩ := left
    obtain ⟨scanned, inside, leads, scans⟩ := (decided.mp purges).2.2 path named
    exact never scanned inside leads scans
  subst kept
  obtain ⟨grown, keeps, was⟩ := updateStores_keepKeys blank
    (holds_workingSet config given order s.tree) (fun _ => rfl)
    (fun other inside leads => by
      rw [same]
      exact found locale there other inside leads file) ran
  rw [same] at grown keeps was
  obtain ⟨old, before⟩ := was ⟨locale, there, rfl⟩
  obtain ⟨new, after, keys⟩ := keeps old before
  exact ⟨old, new, (storeAt_iff file).mpr before, (storeAt_iff (grown.isFile file)).mpr after, keys⟩

/-! ## A source that cannot be read -/

/-- The small project with a second page. -/
def secondPage : Configuration :=
  { smallProject with targets := [(.update, ⟨["page.html", "broken.html"], "@.json"⟩)] }

/-- A page, a second one that is not UTF-8, and the store of one locale. -/
def brokenPage (page store : String) : Session where
  tree := ⟨Keyed.ofList [("page.html", encodeUtf8 page.toList), ("broken.html", [0xff]),
    ("de.json", encodeUtf8 store.toList)], []⟩
  log := []

/-- The page has no message, and the store has a key. -/
def unusedKey : Session := brokenPage "<p></p>" "\x7b\"Cancel\": \"Abbrechen\"\x7d"

theorem update_unusedKey :
    secondPage.options.purge = true ∧
      ∃ t old new, (updateInOrder secondPage none List.reverse).run unusedKey = (.ok (), t) ∧
        StoreAt unusedKey.tree (storePath secondPage "de") old ∧
        StoreAt t.tree (storePath secondPage "de") new ∧ ∀ key ∈ old.keys, key ∈ new.keys := by
  have blank : ∀ layout ∈ secondPage.options.storeLayout, layout.Blank := by
    rintro layout ⟨⟩
    exact trivial
  have found : ∀ locale ∈ secondPage.options.locales, ∀ other ∈ secondPage.options.locales,
      Path.normal (storePath secondPage other) = Path.normal (storePath secondPage locale) →
        unusedKey.tree.isFile (storePath secondPage locale) = true →
          unusedKey.tree.isFile (storePath secondPage other) = true := by decide +kernel
  have left : ∃ path ∈ configuredFiles secondPage unusedKey.tree,
      ∀ scanned ∈ scannedFiles secondPage none unusedKey.tree,
        Path.normal scanned = Path.normal path →
          ¬Scans secondPage.options unusedKey.tree scanned := by
    refine ⟨"broken.html", by decide +kernel, fun scanned there same => ?_⟩
    have only : ∀ scanned ∈ scannedFiles secondPage none unusedKey.tree,
        Path.normal scanned = Path.normal "broken.html" → scanned = "broken.html" := by
      decide +kernel
    rintro ⟨text, read, -⟩
    rw [only scanned there same] at read
    have unreadable : Action.textOf unusedKey.tree "broken.html" = none := by decide +kernel
    rw [textOf_eq_some.mpr read] at unreadable
    cases unreadable
  have ran := Action.run_of_isOk (show ((updateInOrder secondPage none List.reverse).run
    unusedKey).1.isOk = true by decide +kernel)
  obtain ⟨old, new, was, is, kept⟩ := update_keepsKeys secondPage none
    (fun files : List String => List.reverse_perm files) blank found ran left
    "de" (by decide) (by decide +kernel)
  exact ⟨rfl, _, old, new, ran, was, is, kept⟩

/-! ## Keys that are lost

Three things take keys out of a store in a run in which something could not be read. Seeds are not
sources, so one that holds no store does not keep keys from being dropped. A locale whose path goes
through a folder that is missing does not find the store that another locale has at the same place,
and writes a new one over it. And a layout may put text between the values that changes what is
read. -/

/-- The store at a path, if there is one. -/
def storeOf? (tree : Tree) (path : String) : Option Store :=
  (Action.textOf tree path).bind fun text => (Store.read path text).toOption

theorem storeAt_of_storeOf? {tree : Tree} {path : String} {store : Store}
    (h : storeOf? tree path = some store) : StoreAt tree path store := by
  obtain ⟨text, held, read⟩ := Option.bind_eq_some_iff.mp h
  refine ⟨text, textOf_eq_some.mp held, ?_⟩
  cases found : Store.read path text with
  | ok other =>
      rw [found] at read
      cases read
      rfl
  | error fault =>
      rw [found] at read
      cases read

/-- An update that succeeds takes a key out of the store at a path. -/
def LosesKey (config : Configuration) (s : Session) (path key : String) : Prop :=
  ∃ t old new, (update config none).run s = (.ok (), t) ∧ StoreAt s.tree path old ∧
    StoreAt t.tree path new ∧ key ∈ old.keys ∧ key ∉ new.keys

theorem losesKey_of_keys {config : Configuration} {s : Session} {path key : String}
    (before after : List String)
    (succeeds : ((update config none).run s).1.isOk = true)
    (was : (storeOf? s.tree path).map Keyed.keys = some before)
    (is : (storeOf? ((update config none).run s).2.tree path).map Keyed.keys = some after)
    (known : key ∈ before) (gone : key ∉ after) : LosesKey config s path key := by
  obtain ⟨old, found, rfl⟩ := Option.map_eq_some_iff.mp was
  obtain ⟨new, left, rfl⟩ := Option.map_eq_some_iff.mp is
  exact ⟨_, old, new, Action.run_of_isOk succeeds, storeAt_of_storeOf? found,
    storeAt_of_storeOf? left, known, gone⟩

/-- The small project with a seed. -/
def seededProject : Configuration :=
  { smallProject with options := { smallProject.options with seeds := ["seed.json"] } }

/-- The seed is no store, and a store has a key that is on no page. -/
def brokenSeed : Session where
  tree := ⟨Keyed.ofList [
    ("page.html", encodeUtf8 "<p localize=Save></p>".toList),
    ("seed.json", encodeUtf8 "\x7b".toList),
    ("de.json", encodeUtf8
      "\x7b\"Save\": \"Sichern\", \"Cancel\": \"Abbrechen\"\x7d".toList)], []⟩
  log := []

/-- The small project with a second page and one store for both locales, beside their folders. -/
def sharedStore : Configuration :=
  { smallProject with targets := [(.update, ⟨["page.html", "broken.html"], "@/../store.json"⟩)] }

/-- Only the second locale has a folder, and the second page is not UTF-8. -/
def oneFolder : Session where
  tree := ⟨Keyed.ofList [
    ("page.html", encodeUtf8 "<p localize=Save></p>".toList),
    ("broken.html", [0xff]),
    ("store.json", encodeUtf8 "\x7b\"Cancel\": \"Abbrechen\"\x7d".toList)], ["fr"]⟩
  log := []

/-- The project with a second page, and a margin that opens a text. -/
def openMargin : Configuration :=
  { secondPage with options :=
      { smallProject.options with storeLayout := some (.block "\"\\"), flatStores := true } }

/-- The store has the key of the page. -/
def usedKey : Session :=
  brokenPage "<p localize=Save></p>" "\x7b\"Save\": \"Sichern\"\x7d"

theorem update_losesKeys :
    (storeOf? brokenSeed.tree "seed.json" = none ∧
        "seed.json" ∈ (Action.expandSources brokenSeed.tree seededProject.options.seeds).1 ∧
        LosesKey seededProject brokenSeed (storePath seededProject "de") "Cancel") ∧
      (Action.textOf oneFolder.tree "broken.html" = none ∧
        "broken.html" ∈ configuredFiles sharedStore oneFolder.tree ∧
        LosesKey sharedStore oneFolder (storePath sharedStore "fr") "Cancel") ∧
      (Action.textOf usedKey.tree "broken.html" = none ∧
        "broken.html" ∈ configuredFiles openMargin usedKey.tree ∧
        LosesKey openMargin usedKey (storePath openMargin "de") "Save") := by
  refine ⟨⟨?_, by decide +kernel, ?_⟩, ⟨by decide +kernel, by decide +kernel, ?_⟩,
    by decide +kernel, by decide +kernel, ?_⟩
  · have none : (storeOf? brokenSeed.tree "seed.json").isNone = true := by decide +kernel
    exact Option.isNone_iff_eq_none.mp none
  · apply losesKey_of_keys ["Save", "Cancel"] ["Save"]
    all_goals decide +kernel
  · apply losesKey_of_keys ["Cancel"] ["Save"]
    all_goals decide +kernel
  · apply losesKey_of_keys ["Save"] ["\"Save"]
    all_goals decide +kernel

end MessageCatalog.Project
