import MessageCatalog.Proofs.Files.Search
import MessageCatalog.Proofs.Occurrence.Order
import MessageCatalog.Proofs.Project.WorkingSet
import MessageCatalog.Proofs.Store.Stable

/-!
# MessageCatalog.Proofs.Project.Gathered -- what the patterns of an update bring together

The files that some patterns find are those that one of them finds, each once. The seeds and the
sources among them bring entries, and a working set is what one merge makes of all of these. So the
same files with the same texts make a working set that is alike, in whatever order they come.
-/

namespace MessageCatalog.Project

open MessageCatalog.Config MessageCatalog.Files MessageCatalog.Store MessageCatalog.Text

/-! ## The files that patterns find -/

namespace Action

theorem mem_addSources {tree : Tree} {found : List String × Report.Log} {pattern path : String} :
    path ∈ (addSources tree found pattern).1 ↔ path ∈ found.1 ∨ tree.Finds pattern path := by
  unfold addSources
  split
  · next wild => rw [mem_foldl_addNew, Tree.mem_glob wild]
  next plain =>
  unfold Tree.Finds
  rw [if_neg plain]
  split
  · next file =>
    rw [mem_addNew]
    refine or_congr_right ⟨?_, And.right⟩
    rintro rfl
    exact ⟨file, rfl⟩
  · next noFile =>
    refine ⟨Or.inl, fun either => either.resolve_right ?_⟩
    rintro ⟨file, rfl⟩
    exact noFile file

theorem nodup_addSources {tree : Tree} {found : List String × Report.Log} (h : found.1.Nodup)
    (pattern : String) : (addSources tree found pattern).1.Nodup := by
  unfold addSources
  split
  · exact nodup_foldl_addNew h
  split
  · exact nodup_addNew h pattern
  · exact h

theorem mem_expandSources {tree : Tree} {patterns : List String} {path : String} :
    path ∈ (expandSources tree patterns).1 ↔ ∃ pattern ∈ patterns, tree.Finds pattern path := by
  have all : ∀ found : List String × Report.Log,
      path ∈ (patterns.foldl (addSources tree) found).1 ↔
        path ∈ found.1 ∨ ∃ pattern ∈ patterns, tree.Finds pattern path := by
    induction patterns with
    | nil => simp
    | cons pattern rest ih =>
        intro found
        rw [List.foldl_cons, ih, mem_addSources, or_assoc, List.exists_mem_cons_iff]
  rw [expandSources, all]
  simp

theorem nodup_expandSources (tree : Tree) (patterns : List String) :
    (expandSources tree patterns).1.Nodup :=
  List.foldlRecOn patterns (addSources tree) (motive := fun found => found.1.Nodup)
    List.nodup_nil fun _ h pattern _ => nodup_addSources h pattern

/-- Patterns that find the same files give the same list, up to its order. -/
theorem expandSources_perm {before after : Tree} {patterns : List String}
    (same : ∀ pattern ∈ patterns, ∀ path, before.Finds pattern path ↔ after.Finds pattern path) :
    (expandSources before patterns).1.Perm (expandSources after patterns).1 := by
  rw [List.perm_ext_iff_of_nodup (nodup_expandSources _ _) (nodup_expandSources _ _)]
  intro path
  rw [mem_expandSources, mem_expandSources]
  exact exists_congr fun pattern => and_congr_right fun there => same pattern there path

end Action

/-! ## The entries of seeds and sources -/

/-- The seeds that can be read, with their texts. -/
def seedTexts (options : Options) (tree : Tree) : List (String × List Char) :=
  (Action.expandSources tree options.seeds).1.filterMap fun path =>
    (Action.textOf tree path).map fun text => (path, text)

/-- The entries that a seed brings; one that is no store brings none. -/
def seedEntries (seed : String × List Char) : List (String × Entry) :=
  match Store.read seed.1 seed.2 with
  | .ok store => entries store
  | .error _ => []

/-- The entries that a source brings; one that cannot be read brings none. -/
def sourceEntries (options : Options) (tree : Tree) (path : String) : List (String × Entry) :=
  match Action.textOf tree path with
  | some text => Occurrence.occurrences options (path, text)
  | none => []

/-- The entries of all seeds and of some sources, in order. -/
def broughtBy (options : Options) (tree : Tree) (files : List String) : List (String × Entry) :=
  (seedTexts options tree).flatMap seedEntries ++ files.flatMap (sourceEntries options tree)

/-- Merges one after the other are one merge. -/
theorem foldl_extendAll {α : Type} (brings : α → List (String × Entry)) (items : List α)
    (store : Store) :
    items.foldl (fun store item => extendAll store (brings item) false) store =
      extendAll store (items.flatMap brings) false := by
  induction items generalizing store with
  | nil => rfl
  | cons item rest ih =>
      rw [List.foldl_cons, ih, List.flatMap_cons]
      unfold extendAll
      rw [List.foldl_append]

/-- A working set is one merge of the entries that seeds and sources bring. -/
theorem workingFrom_eq (options : Options) (tree : Tree) (files : List String) :
    workingFrom options tree files =
      extendAll Keyed.empty (broughtBy options tree files) false := by
  have seed : withSeed = fun messages seed => extendAll messages (seedEntries seed) false := by
    funext messages seed
    unfold withSeed seedEntries
    cases Store.read seed.1 seed.2 <;> rfl
  have source : withSource options tree =
      fun messages path => extendAll messages (sourceEntries options tree path) false := by
    funext messages path
    unfold withSource sourceEntries
    cases Action.textOf tree path with
    | none => rfl
    | some text => exact Occurrence.store_scan options messages (path, text)
  have whole : workingFrom options tree files =
      files.foldl (withSource options tree) ((seedTexts options tree).foldl withSeed Keyed.empty) :=
    rfl
  rw [whole, seed, source, foldl_extendAll, foldl_extendAll, broughtBy]
  unfold extendAll
  rw [List.foldl_append]

/-! ## Working sets that are alike -/

/-- Entries in another order make a store with the same keys and files. -/
theorem alike_of_perm {brought others : List (String × Entry)} (order : brought.Perm others) :
    Alike (extendAll Keyed.empty brought false) (extendAll Keyed.empty others false) := by
  intro key
  rw [get?_extendAll_gathered, get?_extendAll_gathered]
  exact files_gathered_perm (order.filterMap _) _

/-- The same files with the same texts make working sets that are alike. -/
theorem alike_workingFrom {options : Options} {before after : Tree} {files others : List String}
    (seeds : (Action.expandSources before options.seeds).1.Perm
      (Action.expandSources after options.seeds).1)
    (order : files.Perm others)
    (seedText : ∀ path ∈ (Action.expandSources before options.seeds).1,
      Action.textOf before path = Action.textOf after path)
    (text : ∀ path ∈ files, Action.textOf before path = Action.textOf after path) :
    Alike (workingFrom options before files) (workingFrom options after others) := by
  have first : seedTexts options before =
      (Action.expandSources before options.seeds).1.filterMap fun path =>
        (Action.textOf after path).map fun text => (path, text) :=
    List.filterMap_congr fun path there => by rw [seedText path there]
  have second : files.flatMap (sourceEntries options before) =
      files.flatMap (sourceEntries options after) := by
    rw [List.flatMap_def, List.flatMap_def]
    refine congrArg List.flatten (List.map_congr_left fun path there => ?_)
    unfold sourceEntries
    rw [text path there]
  rw [workingFrom_eq, workingFrom_eq]
  refine alike_of_perm (List.Perm.append ?_ ?_)
  · rw [first]
    exact (seeds.filterMap _).flatMap_right _
  · rw [second]
    exact order.flatMap_right _

/-! ## What working sets hold -/

theorem faithful_sourceEntries {options : Options} {tree : Tree} {path : String}
    {item : String × Entry} (there : item ∈ sourceEntries options tree path) :
    item.2.Faithful := by
  unfold sourceEntries at there
  split at there
  · have bare := Occurrence.extra_of_occurrence there
    refine ⟨?_, ?_, ?_⟩
    · intro field extra
      rw [bare] at extra
      cases extra
    · rw [bare]
      exact List.nodup_nil
    · intro field extra
      rw [bare] at extra
      cases extra
  · cases there

theorem faithful_workingFrom (options : Options) (tree : Tree) (files : List String) :
    Holds Entry.Faithful (workingFrom options tree files) := by
  rw [workingFrom_eq]
  refine (holds_empty _).extendAll (fun _ incoming h => h.absorb incoming) fun item there => ?_
  refine Entry.Faithful.settled ?_
  rcases List.mem_append.mp there with there | there
  · obtain ⟨seed, -, there⟩ := List.mem_flatMap.mp there
    unfold seedEntries at there
    split at there
    · next read => exact (faithful_of_read read).mem_entries there
    · cases there
  · obtain ⟨path, -, there⟩ := List.mem_flatMap.mp there
    exact faithful_sourceEntries there

end MessageCatalog.Project
