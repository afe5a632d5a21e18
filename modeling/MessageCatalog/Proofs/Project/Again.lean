import MessageCatalog.Proofs.Project.Gathered
import MessageCatalog.Proofs.Project.Success
import MessageCatalog.Proofs.Project.Update
import MessageCatalog.Proofs.Store.Broken

/-!
# MessageCatalog.Proofs.Project.Again -- an update that is run again changes nothing

After an update every store of a locale is the text of a store that has taken the working set in.
A second run finds the same seeds and sources, so its working set is alike and it decides alike
whether to drop keys; every store takes that in and is written as the text that it is. The sources
may come in another order in each run. The second run finds the same files as long as no pattern
finds a store, or a way through a folder that the first run has made.
-/

namespace MessageCatalog.Project

open MessageCatalog.Config MessageCatalog.Files MessageCatalog.Json MessageCatalog.Store
open MessageCatalog.Text

/-! ## Stores as an update leaves them -/

section

variable {options : Options} {destination : String} {working : Store} {purge : Bool}

/-- The file at a path holds what is written of some store that has taken a working set in. -/
def Saved (options : Options) (working : Store) (purge : Bool) (tree : Tree) (path : String) :
    Prop :=
  ∃ old text, Holds Entry.Faithful old ∧
    Store.write (extendAll old (entries working) false) options.storeLayout options.flatStores
      (if purge then some working.keys else none) = .ok text ∧
    tree.Leads path (encodeUtf8 text.toList)

theorem faithful_current {tree : Tree} {path : String} {store : Store}
    (h : Current tree path store) : Holds Entry.Faithful store := by
  unfold Current at h
  split at h
  · obtain ⟨text, -, read⟩ := h
    exact faithful_of_read read
  · rw [h]
    exact holds_empty _

/-- The update of a locale saves its store and lets the others be saved, also one that is the same
file. -/
theorem updateStore_saves {locale path : String} {s t : Session}
    (place : path = substituteLocale destination options.placeholder locale)
    (ran : (updateStore options destination working purge locale).run s = (.ok (), t)) :
    Saved options working purge t.tree path ∧
      ∀ other, Saved options working purge s.tree other →
        Saved options working purge t.tree other := by
  obtain ⟨old, text, current, wrote, stored⟩ := updateStore_writes place ran
  have held := faithful_current current
  have grown := Tree.grown_write stored
  refine ⟨⟨old, text, held, wrote, Tree.leads_write stored⟩, ?_⟩
  rintro other ⟨old', text', held', wrote', leads⟩
  by_cases same : Path.normal other = Path.normal path
  · obtain ⟨place, key, led⟩ := leads.place
    refine ⟨old, text, held, wrote, leads.relative, ⟨place, key, grown.follow led⟩, ?_⟩
    rw [Tree.get?_write stored, if_pos same]
  · refine ⟨old', text', held', wrote', leads.grown grown ?_⟩
    rw [Tree.get?_write stored, if_neg same]

/-- What the updates of some locales come to: a proper tree that has grown, with the stores saved and
all other files as they were. -/
structure Outcome (options : Options) (working : Store) (purge : Bool) (places : List String)
    (before after : Tree) : Prop where
  grown : before.Grown after
  proper : before.Proper → after.Proper
  frame : ∀ key, (∀ path ∈ places, key ≠ Path.normal path) →
    after.files.get? key = before.files.get? key
  saved : ∀ path ∈ places, Saved options working purge after path

theorem updateStores_outcome {locales : List String} {s t : Session} {pathOf : String → String}
    (place : ∀ locale, pathOf locale = substituteLocale destination options.placeholder locale)
    (ran : (locales.forM (updateStore options destination working purge)).run s = (.ok (), t)) :
    Outcome options working purge (locales.map pathOf) s.tree t.tree ∧
      ∀ path, Saved options working purge s.tree path →
        Saved options working purge t.tree path := by
  induction locales generalizing s with
  | nil =>
      obtain ⟨-, rfl⟩ := Action.pure_ok.mp ran
      exact ⟨⟨.refl _, id, fun _ _ => rfl, nofun⟩, fun _ saved => saved⟩
  | cons locale rest ih =>
      rw [List.forM_eq_forM, List.forM_cons] at ran
      obtain ⟨_, u, one, ran⟩ := Action.bind_ok.mp ran
      obtain ⟨-, text, -, -, stored⟩ := updateStore_writes (place locale) one
      obtain ⟨own, keeps⟩ := updateStore_saves (place locale) one
      obtain ⟨outcome, keeps'⟩ := ih ran
      refine ⟨⟨?_, ?_, ?_, ?_⟩, fun path saved => keeps' path (keeps path saved)⟩
      · exact (Tree.grown_write stored).trans outcome.grown
      · exact fun proper => outcome.proper (proper.write stored)
      · intro key other
        rw [List.map_cons, List.forall_mem_cons] at other
        rw [outcome.frame key other.2, Tree.get?_write stored, if_neg other.1]
      · rw [List.map_cons, List.forall_mem_cons]
        exact ⟨keeps' _ own, outcome.saved⟩

theorem gives_saveMerged {path text line : String} {old : Store} {tree after : Tree}
    (wrote : Store.write (extendAll old (entries working) false) options.storeLayout
      options.flatStores (if purge then some working.keys else none) = .ok text)
    (stored : tree.write (Path.ofText path) (encodeUtf8 text.toList) = .ok after) :
    Action.Gives (saveMerged options path old working purge line) tree () after :=
  (Action.gives_storeText wrote).bind ((Action.gives_write stored).bind (Action.gives_sayLine _ _))

/-- What is read of a saved store takes a working set in that is alike, and is written as the same
text. -/
theorem Saved.again {working' : Store} {tree : Tree} {path : String}
    (saved : Saved options working purge tree path)
    (blank : ∀ layout ∈ options.storeLayout, layout.Blank)
    (faithful : Holds Entry.Faithful working) (alike : Alike working working') :
    ∃ chars text again, tree.text (Path.ofText path) = .ok chars ∧
      Store.read path chars = .ok again ∧
      Store.write (extendAll again (entries working') false) options.storeLayout options.flatStores
        (if purge then some working'.keys else none) = .ok text ∧
      tree.write (Path.ofText path) (encodeUtf8 text.toList) = .ok tree := by
  obtain ⟨old, text, held, wrote, leads⟩ := saved
  have extended : Holds Entry.Faithful (extendAll old (entries working) false) :=
    held.extendAll (fun _ incoming h => h.absorb incoming) fun item there =>
      (faithful.mem_entries there).settled
  have separate : Holds Entry.Separate (extendAll old (entries working) false) :=
    fun key slot found => (extended key slot found).imp fun _ h => ⟨h.1, h.2.separate⟩
  obtain ⟨chosen, layout⟩ := exists_layout_of_write wrote
  rw [layout] at wrote
  obtain ⟨again, read, kept⟩ := read_write separate (blank chosen layout) wrote path
  refine ⟨_, text, again, leads.text_ok.mpr ⟨_, decodeUtf8_encodeUtf8 _, rfl⟩, read, ?_,
    leads.rewrite⟩
  rw [layout, write_again extended alike kept, wrote]

/-- The update of a locale whose store is saved changes nothing. -/
theorem Saved.gives_updateStore {working' : Store} {tree : Tree} {locale path : String}
    (place : path = substituteLocale destination options.placeholder locale)
    (saved : Saved options working purge tree path) (ends : Path.EndsInName path)
    (blank : ∀ layout ∈ options.storeLayout, layout.Blank)
    (faithful : Holds Entry.Faithful working) (alike : Alike working working') :
    Action.Gives (updateStore options destination working' purge locale) tree () tree := by
  have file : tree.isFile path = true := by
    obtain ⟨_, _, _, _, leads⟩ := saved
    exact leads.isFile ends
  obtain ⟨chars, text, again, held, read, wrote, stored⟩ := saved.again blank faithful alike
  subst place
  unfold updateStore
  refine Action.gives_files.bind ?_
  dsimp only
  rw [if_pos file]
  refine (Action.gives_readText held).bind ?_
  refine (Action.gives_readStore read).bind ?_
  refine (Action.gives_sayLine _ _).bind ?_
  rw [pure_bind]
  exact gives_saveMerged wrote stored

end

/-! ## Files that are found again -/

/-- All patterns that an update looks for: sources, given ones, and seeds. -/
def patternsOf (config : Configuration) (given : Option (List String)) : List String :=
  (config.target .update).sources ++ given.getD [] ++ config.options.seeds

/-- The patterns find the same files in two trees, with the same texts. -/
structure Agree (patterns : List String) (before after : Tree) : Prop where
  finds : ∀ pattern ∈ patterns, ∀ path, before.Finds pattern path ↔ after.Finds pattern path
  text : ∀ pattern ∈ patterns, ∀ path, before.Finds pattern path →
    before.text (Path.ofText path) = after.text (Path.ofText path)

/-- No path that patterns find in the later tree is one of some places, and every folder that such a
path leaves by double dots was there in the earlier tree. -/
structure Apart (patterns places : List String) (before after : Tree) : Prop where
  elsewhere : ∀ path ∈ (Action.expandSources after patterns).1, ∀ place ∈ places,
    Path.normal path ≠ Path.normal place
  leaves : ∀ path ∈ (Action.expandSources after patterns).1, before.LeavesFolders path

theorem agree_of_outcome {options : Options} {working : Store} {purge : Bool}
    {patterns places : List String} {before after : Tree}
    (outcome : Outcome options working purge places before after) (proper : before.Proper)
    (apart : Apart patterns places before after) : Agree patterns before after := by
  have frame : ∀ pattern ∈ patterns, ∀ path, after.Finds pattern path →
      after.files.get? (Path.normal path) = before.files.get? (Path.normal path) :=
    fun pattern there path finds => outcome.frame _
      (apart.elsewhere path (Action.mem_expandSources.mpr ⟨pattern, there, finds⟩))
  refine ⟨fun pattern there path => ⟨outcome.grown.finds, fun finds => ?_⟩,
    fun pattern there path finds => ?_⟩
  · obtain ⟨_, -, -, known⟩ := Tree.isFile_iff.mp finds.1
    rw [Keyed.mem_keys_iff, frame pattern there path finds, ← Keyed.mem_keys_iff] at known
    exact outcome.grown.finds_back (outcome.proper proper) finds (outcome.grown.trodden proper finds.1 known
      (apart.leaves path (Action.mem_expandSources.mpr ⟨pattern, there, finds⟩)))
  · obtain ⟨content, leads⟩ := Tree.leads_of_isFile finds.1
    rw [leads.text, (leads.grown outcome.grown
      (frame pattern there path (outcome.grown.finds finds))).text]

section

variable {patterns fewer : List String} {before after : Tree}

theorem Agree.mono (agree : Agree patterns before after) (within : fewer ⊆ patterns) :
    Agree fewer before after :=
  ⟨fun pattern there => agree.finds pattern (within there),
    fun pattern there => agree.text pattern (within there)⟩

theorem Agree.perm (agree : Agree patterns before after) :
    (Action.expandSources before patterns).1.Perm (Action.expandSources after patterns).1 :=
  Action.expandSources_perm agree.finds

theorem Agree.same (agree : Agree patterns before after) {path : String}
    (there : path ∈ (Action.expandSources before patterns).1) :
    before.text (Path.ofText path) = after.text (Path.ofText path) := by
  obtain ⟨pattern, inside, finds⟩ := Action.mem_expandSources.mp there
  exact agree.text pattern inside path finds

theorem Agree.textOf (agree : Agree patterns before after) {path : String}
    (there : path ∈ (Action.expandSources before patterns).1) :
    Action.textOf before path = Action.textOf after path := by
  rw [Action.textOf, Action.textOf, agree.same there]

variable {config : Configuration} {given : Option (List String)}

theorem Agree.seeds (agree : Agree (patternsOf config given) before after) :
    Agree config.options.seeds before after :=
  agree.mono (List.subset_append_right _ _)

theorem Agree.configured (agree : Agree (patternsOf config given) before after) :
    Agree (config.target .update).sources before after :=
  agree.mono (List.Subset.trans (List.subset_append_left _ _) (List.subset_append_left _ _))

/-- The files that an update scans are those that these patterns find. -/
theorem scannedFiles_eq (config : Configuration) (given : Option (List String)) (tree : Tree) :
    scannedFiles config given tree =
      (Action.expandSources tree (given.getD (config.target .update).sources)).1 := by
  cases given <;> rfl

theorem Agree.scanned (agree : Agree (patternsOf config given) before after) :
    Agree (given.getD (config.target .update).sources) before after := by
  cases given with
  | none => exact agree.configured
  | some patterns =>
      exact agree.mono
        (List.Subset.trans (List.subset_append_right _ _) (List.subset_append_left _ _))

theorem Agree.purges (agree : Agree (patternsOf config given) before after) :
    Purges config given before ↔ Purges config given after := by
  have scans : ∀ path ∈ scannedFiles config given before,
      (Scans config.options before path ↔ Scans config.options after path) := by
    intro path there
    rw [scannedFiles_eq] at there
    rw [Scans, Scans, agree.scanned.same there]
  have found : ∀ path, path ∈ scannedFiles config given before ↔
      path ∈ scannedFiles config given after := by
    intro path
    rw [scannedFiles_eq, scannedFiles_eq]
    exact agree.scanned.perm.mem_iff
  rw [Purges, Purges]
  refine and_congr_right fun _ => and_congr ?_ (forall_congr' fun path => ?_)
  · refine exists_congr fun path => ?_
    rw [← found]
    exact and_congr_right fun there => scans path there
  · refine imp_congr (agree.configured.perm.mem_iff) (exists_congr fun scanned => ?_)
    rw [← found]
    exact and_congr_right fun there => and_congr_right fun _ => scans scanned there

end

/-! ## The second run -/

/-- A seed that was merged once is merged again. -/
theorem gives_mergeSeed {messages merged : Store} {seed : String × List Char} {s t : Session}
    (ran : (mergeSeed messages seed).run s = (.ok merged, t)) (messages' : Store) (tree : Tree) :
    Action.Gives (mergeSeed messages' seed) tree (withSeed messages' seed) tree := by
  unfold mergeSeed withSeed
  rcases read_cases seed.1 seed.2 with ⟨store, read⟩ | ⟨error, read⟩ | ⟨⟨fault, broken⟩, -⟩
  · rw [read]
    exact (Action.gives_readStoreOr read).bind
      ((Action.gives_sayLine _ _).bind (Action.gives_pure _))
  · have none : Action.Gives (Action.readStoreOr .error seed.1 seed.2) tree none tree := by
      unfold Action.readStoreOr
      rw [read]
      exact (Action.gives_sayLine _ _).bind (Action.gives_pure _)
    rw [read]
    exact none.bind (Action.gives_pure _)
  · -- the first run would have ended there
    unfold mergeSeed Action.readStoreOr at ran
    rw [broken.read] at ran
    obtain ⟨_, _, thrown, -⟩ := Action.bind_ok.mp ran
    cases fault with
    | format error => exact absurd rfl (broken.other error)
    | _ => exact absurd thrown Action.throw_ok

theorem gives_seedStore {options : Options} {seeds : Store} {s t : Session} {tree : Tree}
    (ran : (seedStore options).run s = (.ok seeds, t)) (agree : Agree options.seeds s.tree tree) :
    Action.Gives (seedStore options) tree (seeded options tree) tree := by
  unfold seedStore at ran ⊢
  obtain ⟨paths, u, expanded, ran⟩ := Action.bind_ok.mp ran
  obtain ⟨rfl, same⟩ := Action.sources_ok expanded
  obtain ⟨texts, u', read, ran⟩ := Action.bind_ok.mp ran
  obtain ⟨rfl, -⟩ := Action.readAll_ok read
  rw [same] at ran
  refine (Action.gives_sources _).bind ((Action.gives_readAll _).bind ?_)
  refine Action.gives_foldlM withSeed (fun seed there messages => ?_) _
  -- every seed that is found now was merged in the first run
  obtain ⟨path, found, text⟩ := List.mem_filterMap.mp there
  rw [← agree.perm.mem_iff] at found
  rw [← agree.textOf found] at text
  obtain ⟨_, _, _, _, merged⟩ :=
    Action.foldlM_each ran (List.mem_filterMap.mpr ⟨path, found, text⟩)
  exact gives_mergeSeed merged messages tree

theorem gives_scanSource (options : Options) (done : Scanned) (path : String) (tree : Tree) :
    Action.Gives (scanSource options done path) tree (scannedWith options tree done path) tree := by
  unfold scanSource scannedWith
  refine (Action.gives_readSource path).bind ?_
  cases Action.textOf tree path with
  | none => exact Action.gives_pure _
  | some text =>
      dsimp only
      refine (Action.gives_say _).bind ?_
      cases (Occurrence.scan options done.messages path text).scanned with
      | false => exact Action.gives_pure _
      | true => exact (Action.gives_sayLine _ _).bind (Action.gives_pure _)

/-- An update that finds its seeds and whose stores all come out as they are changes nothing. -/
theorem gives_updateFrom {options : Options} {destination : String}
    {configured files : List String} {tree : Tree}
    (seeds : Action.Gives (seedStore options) tree (seeded options tree) tree)
    (stores : ∀ purge, (purge = true ↔ options.purge = true ∧
        (∃ path ∈ files, Scans options tree path) ∧ ∀ path ∈ configured, ∃ scanned ∈ files,
          Path.normal scanned = Path.normal path ∧ Scans options tree scanned) →
      ∀ locale ∈ options.locales, Action.Gives
        (updateStore options destination (workingFrom options tree files) purge locale)
        tree () tree) :
    Action.Gives (updateFrom options destination configured files) tree () tree := by
  unfold updateFrom
  refine seeds.bind ?_
  refine (Action.gives_foldlM (scannedWith options tree)
    (fun path _ done => gives_scanSource options done path tree) _).bind ?_
  have messages := (foldl_scannedWith options tree files ⟨seeded options tree, []⟩).1
  have all := Action.gives_forM
    (stores _ (mayPurge_scanned options tree configured files (seeded options tree)))
  dsimp only
  rw [messages]
  split
  · exact (Action.gives_sayLine _ _).bind all
  · exact all

theorem gives_updateInOrder {config : Configuration} {given : Option (List String)}
    {order : List String → List String} {tree : Tree}
    (named : (config.target .update).destination ≠ "")
    (rest : Action.Gives (updateFrom config.options (config.target .update).destination
      (configuredFiles config tree) (order (scannedFiles config given tree))) tree () tree) :
    Action.Gives (updateInOrder config given order) tree () tree := by
  unfold updateInOrder
  refine (gives_destinationOf named).bind ((Action.gives_sources _).bind ?_)
  cases given with
  | none => exact rest
  | some patterns => exact (Action.gives_sources _).bind rest

/-- After an update that succeeds a second one succeeds and changes nothing, whatever order the
sources come in. No pattern may find a store or go through a folder that the first run has made, and
the paths of the stores have to end in a name. -/
theorem update_again (config : Configuration) (given : Option (List String))
    {order order' : List String → List String} {s t : Session}
    (shuffled : ∀ files, (order files).Perm files)
    (shuffled' : ∀ files, (order' files).Perm files)
    (blank : ∀ layout ∈ config.options.storeLayout, layout.Blank) (proper : s.tree.Proper)
    (ends : ∀ locale ∈ config.options.locales, Path.EndsInName (storePath config locale))
    (apart : Apart (patternsOf config given) (config.options.locales.map (storePath config))
      s.tree t.tree)
    (ran : (updateInOrder config given order).run s = (.ok (), t)) :
    ∀ log, ∃ u, (updateInOrder config given order').run ⟨t.tree, log⟩ = (.ok (), u) ∧
      u.tree = t.tree := by
  obtain ⟨purge, v, same, decided, stores⟩ := updateInOrder_ok shuffled ran
  obtain ⟨named, u, same', ran⟩ := updateInOrder_ran ran
  obtain ⟨seeds, _, seeding, -⟩ := Action.bind_ok.mp ran
  have paths : ∀ locale, storePath config locale = substituteLocale
      (config.target .update).destination config.options.placeholder locale := fun _ => rfl
  obtain ⟨outcome, -⟩ := updateStores_outcome paths stores
  rw [same] at outcome
  have agree := agree_of_outcome outcome proper apart
  have alike : Alike (workingFrom config.options s.tree (order (scannedFiles config given s.tree)))
      (workingFrom config.options t.tree (order' (scannedFiles config given t.tree))) := by
    rw [scannedFiles_eq, scannedFiles_eq]
    refine alike_workingFrom agree.seeds.perm
      ((shuffled _).trans (agree.scanned.perm.trans (shuffled' _).symm))
      (fun path there => agree.seeds.textOf there) fun path there => ?_
    exact agree.scanned.textOf ((shuffled _).mem_iff.mp there)
  have again : Action.Gives (updateInOrder config given order') t.tree () t.tree := by
    refine gives_updateInOrder named (gives_updateFrom (gives_seedStore seeding ?_) ?_)
    · rw [same']
      exact agree.seeds
    · intro purge' decided' locale there
      simp only [(shuffled' _).mem_iff] at decided'
      have alwaysSame : purge' = purge :=
        Bool.eq_iff_iff.mpr (decided'.trans (agree.purges.symm.trans decided.symm))
      rw [alwaysSame]
      exact (outcome.saved _ (List.mem_map_of_mem there)).gives_updateStore rfl (ends locale there)
        blank (faithful_workingFrom _ _ _) alike
  exact fun log => again ⟨t.tree, log⟩ rfl

/-! ## Two pages in two orders -/

/-- The small project with its configuration in a folder, which the way of a source leaves again. -/
def besidePages : Configuration :=
  { smallProject with targets := [(.update, ⟨["conf/../a.html", "b.html"], "stores/@.json"⟩)] }

/-- Two pages, and the store of one locale with a key that is on neither. -/
def twoPages (first second : String) : Session where
  tree := ⟨Keyed.ofList [
    ("conf/locales.toml", []),
    ("a.html", encodeUtf8 first.toList),
    ("b.html", encodeUtf8 second.toList),
    ("stores/de.json", encodeUtf8 "\x7b\"Cancel\": \"Abbrechen\"\x7d".toList)],
    ["conf", "stores"]⟩
  log := []

/-- One of the pages has a message. -/
def onePageMarked : Session := twoPages "<p localize=Save></p>" "<p></p>"

theorem update_again_besidePages :
    ∃ t u, (updateInOrder besidePages none id).run onePageMarked = (.ok (), t) ∧
      (updateInOrder besidePages none List.reverse).run ⟨t.tree, []⟩ = (.ok (), u) ∧
      u.tree = t.tree := by
  have ran := Action.run_of_isOk
    (show ((updateInOrder besidePages none id).run onePageMarked).1.isOk = true by decide +kernel)
  have blank : ∀ layout ∈ besidePages.options.storeLayout, layout.Blank := by
    rintro layout ⟨⟩
    exact trivial
  have proper : onePageMarked.tree.Proper := ⟨by decide +kernel, by decide +kernel⟩
  have ends : ∀ locale ∈ besidePages.options.locales,
      Path.EndsInName (storePath besidePages locale) := by
    unfold Path.EndsInName
    decide +kernel
  have apart : Apart (patternsOf besidePages none)
      (besidePages.options.locales.map (storePath besidePages)) onePageMarked.tree
      ((updateInOrder besidePages none id).run onePageMarked).2.tree :=
    ⟨by decide +kernel, by decide +kernel⟩
  obtain ⟨u, again, same⟩ := update_again besidePages none List.Perm.refl
    (fun files : List String => List.reverse_perm files) blank proper ends apart ran []
  exact ⟨_, u, ran, again, same⟩

/-! ## Stores that change again

Three things make a second run write another text. A source whose way goes through the folder of a
store is found only when the store has been written. A store whose path ends in a slash is written,
but never read, so each run writes it anew from the sources in their order. And a store that is
given as a source is scanned once it is there. -/

/-- A second update succeeds and leaves other bytes in the store of a locale, though no pattern of
the sources and seeds finds a store. -/
def ChangesAgain (config : Configuration) (given : Option (List String))
    (order order' : List String → List String) (s : Session) (locale : String) : Prop :=
  s.tree.Proper ∧ locale ∈ config.options.locales ∧ ∃ t u,
    (updateInOrder config given order).run s = (.ok (), t) ∧
    (updateInOrder config given order').run ⟨t.tree, []⟩ = (.ok (), u) ∧
    (∀ path ∈ (Action.expandSources t.tree (patternsOf config none)).1,
      ∀ other ∈ config.options.locales, Path.normal path ≠ Path.normal (storePath config other)) ∧
    u.tree.files.get? (Path.normal (storePath config locale)) ≠
      t.tree.files.get? (Path.normal (storePath config locale))

theorem changesAgain_of_runs {config : Configuration} {given : Option (List String)}
    {order order' : List String → List String} {s : Session} {locale : String}
    (first last : Session)
    (named : ((updateInOrder config given order).run s).2 = first)
    (named' : ((updateInOrder config given order').run ⟨first.tree, []⟩).2 = last)
    (proper : s.tree.Proper) (known : locale ∈ config.options.locales)
    (succeeds : ((updateInOrder config given order).run s).1.isOk = true)
    (succeeds' : ((updateInOrder config given order').run ⟨first.tree, []⟩).1.isOk = true)
    (elsewhere : ∀ path ∈ (Action.expandSources first.tree (patternsOf config none)).1,
      ∀ other ∈ config.options.locales, Path.normal path ≠ Path.normal (storePath config other))
    (differs : last.tree.files.get? (Path.normal (storePath config locale)) ≠
      first.tree.files.get? (Path.normal (storePath config locale))) :
    ChangesAgain config given order order' s locale := by
  subst named named'
  exact ⟨proper, known, _, _, Action.run_of_isOk succeeds, Action.run_of_isOk succeeds', elsewhere,
    differs⟩

/-- The way of the source goes through the folder of a store. -/
def throughStores : Configuration :=
  { smallProject with targets := [(.update, ⟨["de/../page.html"], "@/store.json"⟩)] }

/-- One page and no store. -/
def onePage : Session where
  tree := ⟨Keyed.ofList [("page.html", encodeUtf8 "<p localize=Save></p>".toList)], []⟩
  log := []

/-- The paths of the stores end in a slash, and blanks in the content of an element are
collapsed. -/
def slashed : Configuration where
  settings := []
  options :=
    { smallProject.options with flatStores := true, contentMinifier := some ⟨true, true⟩ }
  targets := [(.update, ⟨["a.html", "b.html"], "@.json/"⟩)]

/-- The pages say one key with different texts. -/
def bothPagesMarked : Session := twoPages "<p localize>a  b</p>" "<p localize=\"a  b\"></p>"

/-- No sources are configured. -/
def noSources : Configuration := { smallProject with targets := [(.update, ⟨[], "@.json"⟩)] }

/-- A store with a text that a page could have. -/
def markedStore : Session where
  tree := ⟨Keyed.ofList [
    ("de.json", encodeUtf8 "\x7b\"Cancel\": \"<p localize=Save></p>\"\x7d".toList)], []⟩
  log := []

theorem update_changesAgain :
    ChangesAgain throughStores none id id onePage "de" ∧
      ChangesAgain slashed none id List.reverse bothPagesMarked "de" ∧
      ChangesAgain noSources (some ["de.json"]) id id markedStore "de" := by
  refine ⟨changesAgain_of_runs _ _ rfl rfl ⟨?_, ?_⟩ ?_ ?_ ?_ ?_ ?_,
    changesAgain_of_runs _ _ rfl rfl ⟨?_, ?_⟩ ?_ ?_ ?_ ?_ ?_,
    changesAgain_of_runs _ _ rfl rfl ⟨?_, ?_⟩ ?_ ?_ ?_ ?_ ?_⟩
  all_goals decide +kernel

end MessageCatalog.Project
