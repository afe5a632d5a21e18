import MessageCatalog.Proofs.Project.WorkingSet
import MessageCatalog.Proofs.Store.Written

/-!
# MessageCatalog.Proofs.Project.Update -- an update keeps every translation

Every store of a locale takes the working set in: what is there keeps its text, and what is new
comes with the text of the source. One store that takes it in is written to its own place and leaves
all other files as they are; the run over all locales follows when no two of them share a place.
-/

namespace MessageCatalog.Project

open MessageCatalog.Config MessageCatalog.Files MessageCatalog.Json MessageCatalog.Store
open MessageCatalog.Text

/-! ## The stores of a locale -/

/-- The path of the store of a locale. -/
def storePath (config : Configuration) (locale : String) : String :=
  substituteLocale (config.target .update).destination config.options.placeholder locale

/-- The store of the file at a path. -/
def StoreAt (tree : Tree) (path : String) (store : Store) : Prop :=
  ∃ text, tree.text (Path.ofText path) = .ok text ∧ Store.read path text = .ok store

/-- The bytes that hold some members in the layout of the configuration. -/
def StoreBytes (options : Options) (members : Members) (content : List UInt8) : Prop :=
  ∃ layout, options.storeLayout = some layout ∧
    content = encodeUtf8 (Json.write layout (.object members) ++ "\n").toList

/-- The text of a store, when there is one, is that of the members that are read as a store. -/
theorem write_ok {store : Store} (h : Holds Entry.Separate store) {options : Options}
    {selection : Option (List String)} {text : String}
    (wrote : Store.write store options.storeLayout options.flatStores selection = .ok text) :
    ∃ members written, StoreBytes options members (encodeUtf8 text.toList) ∧
      Store.ofJson (.object members) = .ok written ∧
      ∀ key, written.get? key =
        if key ∈ writtenKeys store selection then
          (store.get? key).map fun slot => .entry (slot.toEntry.kept options.flatStores)
        else none := by
  obtain ⟨members, shaped, written, readBack, same⟩ :=
    ofJson_toMembers h options.flatStores selection
  unfold Store.write at wrote
  rw [shaped] at wrote
  cases layout : options.storeLayout with
  | none =>
      rw [layout] at wrote
      cases wrote
  | some chosen =>
      rw [layout] at wrote
      cases wrote
      exact ⟨members, written, ⟨chosen, layout, rfl⟩, readBack, same⟩

/-- The store that is there now at a path, an empty one without a file. -/
def Current (tree : Tree) (path : String) (store : Store) : Prop :=
  if tree.isFile path then StoreAt tree path store else store = Keyed.empty

theorem holds_current {tree : Tree} {path : String} {store : Store}
    (h : Current tree path store) : Holds Entry.Separate store := by
  unfold Current at h
  split at h
  · obtain ⟨text, -, read⟩ := h
    exact holds_of_read read
  · rw [h]
    exact holds_empty _

/-- Writes what a store is when it has taken a working set in. -/
def saveMerged (options : Options) (path : String) (old working : Store) (purge : Bool)
    (line : String) : Action Unit := do
  let text ← Action.storeText options (extendAll old (entries working) false)
    (if purge then some working.keys else none)
  Action.write path text
  Action.sayLine .info line

theorem saveMerged_ok {options : Options} {path line : String} {old working : Store} {purge : Bool}
    {s t : Session}
    (ran : (saveMerged options path old working purge line).run s = (.ok (), t)) :
    ∃ text, Store.write (extendAll old (entries working) false) options.storeLayout
        options.flatStores (if purge then some working.keys else none) = .ok text ∧
      s.tree.write (Path.ofText path) (encodeUtf8 text.toList) = .ok t.tree := by
  unfold saveMerged at ran
  obtain ⟨text, u, shaped, ran⟩ := Action.bind_ok.mp ran
  obtain ⟨wrote, rfl⟩ := Action.storeText_ok.mp shaped
  obtain ⟨_, u, saved, ran⟩ := Action.bind_ok.mp ran
  have stored := Action.write_ok saved
  rw [← Action.tree_of_sayLine ran] at stored
  exact ⟨text, wrote, stored⟩

/-- What the update of one locale has done when it succeeds: it has found a store, and written what
this is when it has taken the working set in. -/
theorem updateStore_writes {options : Options} {destination : String} {working : Store}
    {purge : Bool} {locale path : String} {s t : Session}
    (place : path = substituteLocale destination options.placeholder locale)
    (ran : (updateStore options destination working purge locale).run s = (.ok (), t)) :
    ∃ old text, Current s.tree path old ∧
      Store.write (extendAll old (entries working) false) options.storeLayout options.flatStores
        (if purge then some working.keys else none) = .ok text ∧
      s.tree.write (Path.ofText path) (encodeUtf8 text.toList) = .ok t.tree := by
  subst place
  unfold updateStore at ran
  obtain ⟨tree, u, got, ran⟩ := Action.bind_ok.mp ran
  obtain ⟨rfl, rfl⟩ := Action.files_ok.mp got
  dsimp only at ran
  split at ran
  · next file =>
    obtain ⟨text, u, read, ran⟩ := Action.bind_ok.mp ran
    obtain ⟨held, rfl⟩ := Action.readText_ok.mp read
    obtain ⟨old, u, parsed, ran⟩ := Action.bind_ok.mp ran
    obtain ⟨isStore, rfl⟩ := Action.readStore_ok.mp parsed
    obtain ⟨_, u, said, ran⟩ := Action.bind_ok.mp ran
    have current : Current s.tree (substituteLocale destination options.placeholder locale) old := by
      rw [Current, if_pos file]
      exact ⟨text, held, isStore⟩
    rw [pure_bind] at ran
    rw [← Action.tree_of_sayLine said] at current ⊢
    obtain ⟨saved, wrote, stored⟩ := saveMerged_ok ran
    exact ⟨old, saved, current, wrote, stored⟩
  · next absent =>
    have current : Current s.tree (substituteLocale destination options.placeholder locale)
        Keyed.empty := by
      rw [Current, if_neg absent]
    rw [pure_bind] at ran
    obtain ⟨saved, wrote, stored⟩ := saveMerged_ok ran
    exact ⟨Keyed.empty, saved, current, wrote, stored⟩

/-- A store that takes a working set in can be written entry by entry. -/
theorem holds_extended {old working : Store} (hold : Holds Entry.Separate old)
    (hworking : Holds Entry.Merged working) :
    Holds Entry.Separate (extendAll old (entries working) false) :=
  hold.extendAll (fun _ _ h => h) fun _ there => (hworking.mem_entries there).1

/-- The files are the same until the stores are written, and by then the working set and the
decision to drop keys are those of the files at the start. -/
theorem updateFrom_ran {options : Options} {destination : String} {configured files : List String}
    {s t : Session} (ran : (updateFrom options destination configured files).run s = (.ok (), t)) :
    ∃ purge u, u.tree = s.tree ∧
      (purge = true ↔ options.purge = true ∧ (∃ path ∈ files, Scans options s.tree path) ∧
        ∀ path ∈ configured, ∃ scanned ∈ files,
          Path.normal scanned = Path.normal path ∧ Scans options s.tree scanned) ∧
      (options.locales.forM (updateStore options destination (workingFrom options s.tree files)
        purge)).run u = (.ok (), t) := by
  unfold updateFrom at ran
  obtain ⟨seeds, u₁, seeding, ran⟩ := Action.bind_ok.mp ran
  obtain ⟨rfl, same₁⟩ := seedStore_ok seeding
  obtain ⟨scanned, u₂, scanning, ran⟩ := Action.bind_ok.mp ran
  obtain ⟨rfl, same₂⟩ := Action.foldlM_ok (scannedWith options) scanSource_ok scanning
  rw [same₁] at same₂ ran
  -- reading changes no file, so what was scanned depends on the first tree only
  have messages := (foldl_scannedWith options s.tree files ⟨seeded options s.tree, []⟩).1
  rw [messages] at ran
  dsimp only at ran
  have decided := mayPurge_scanned options s.tree configured files (seeded options s.tree)
  split at ran
  · obtain ⟨_, u₃, said, ran⟩ := Action.bind_ok.mp ran
    exact ⟨_, u₃, (Action.tree_of_sayLine said).trans same₂, decided, ran⟩
  · exact ⟨_, u₂, same₂, decided, ran⟩

theorem updateInOrder_ran {config : Configuration} {given : Option (List String)}
    {order : List String → List String} {s t : Session}
    (ran : (updateInOrder config given order).run s = (.ok (), t)) :
    (config.target .update).destination ≠ "" ∧ ∃ u, u.tree = s.tree ∧
      (updateFrom config.options (config.target .update).destination (configuredFiles config s.tree)
        (order (scannedFiles config given s.tree))).run u = (.ok (), t) := by
  unfold updateInOrder at ran
  dsimp only at ran
  obtain ⟨destination, u₁, named, ran⟩ := Action.bind_ok.mp ran
  obtain ⟨some, rfl, rfl⟩ : (config.target .update).destination ≠ "" ∧
      (config.target .update).destination = destination ∧ s = u₁ := by
    unfold destinationOf at named
    split at named
    · exact absurd named Action.throw_ok
    · next some => exact ⟨by simpa using some, Action.pure_ok.mp named⟩
  refine ⟨some, ?_⟩
  obtain ⟨configured, u₂, expanded, ran⟩ := Action.bind_ok.mp ran
  obtain ⟨rfl, same₂⟩ := Action.sources_ok expanded
  cases given with
  | none => exact ⟨u₂, same₂, ran⟩
  | some patterns =>
      obtain ⟨files, u₃, found, ran⟩ := Action.bind_ok.mp ran
      obtain ⟨rfl, same₃⟩ := Action.sources_ok found
      rw [same₂] at same₃ ran
      exact ⟨u₃, same₃, ran⟩

/-- What an update that succeeds has done: it has taken the working set of its order into the stores,
and the order has no part in what is dropped. -/
theorem updateInOrder_ok {config : Configuration} {given : Option (List String)}
    {order : List String → List String} {s t : Session}
    (shuffled : ∀ files, (order files).Perm files)
    (ran : (updateInOrder config given order).run s = (.ok (), t)) :
    ∃ purge u, u.tree = s.tree ∧ (purge = true ↔ Purges config given s.tree) ∧
      (config.options.locales.forM (updateStore config.options (config.target .update).destination
        (workingSet config given order s.tree) purge)).run u = (.ok (), t) := by
  obtain ⟨-, u, same, ran⟩ := updateInOrder_ran ran
  obtain ⟨purge, v, same', decided, stores⟩ := updateFrom_ran ran
  rw [same] at same' decided stores
  simp only [(shuffled _).mem_iff] at decided
  exact ⟨purge, v, same', decided, stores⟩

/-- A pattern that matches everything. -/
def everyPath : WrittenPattern := ⟨"", .empty⟩

/-- Two locales and one page. -/
def smallProject : Configuration where
  settings := []
  options := {
    locales := ["de", "fr"], attributes := ["localize"], functions := ["localize"]
    pageFiles := everyPath, scriptFiles := everyPath, localeInPath := everyPath
    allowedLinks := everyPath, placeholder := "@", objectName := "i18n", flatStores := false
    wrapStatic := false, purge := true, rulesFile := none, runtimeFile := none
    templateFile := none, contentMinifier := none, keyMinifier := none, storeLayout := some .line
    sheet := ⟨"", "", "", "", []⟩, seeds := [] }
  targets := [(.update, ⟨["page.html"], "@.json"⟩)]

end MessageCatalog.Project
