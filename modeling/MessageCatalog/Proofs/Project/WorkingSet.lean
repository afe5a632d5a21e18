import MessageCatalog.Proofs.Occurrence.Source
import MessageCatalog.Proofs.Project.Action
import MessageCatalog.Project.Update

/-!
# MessageCatalog.Proofs.Project.WorkingSet -- what an update reads

An update reads the seeds and the sources into a working set, and decides whether keys that were not
seen are dropped. Both are functions of the files at the start, since nothing is written while they
are read. The actions that read them do what these functions say and leave the files as they are.
-/

namespace MessageCatalog.Project

open MessageCatalog.Config MessageCatalog.Files MessageCatalog.Store

/-! ## The working set -/

/-- The messages with those of a seed; one that is no store adds nothing. -/
def withSeed (messages : Store) (seed : String × List Char) : Store :=
  match Store.read seed.1 seed.2 with
  | .ok store => extendAll messages (entries store) false
  | .error _ => messages

/-- The working set of the seeds that can be read. -/
def seeded (options : Options) (tree : Tree) : Store :=
  ((Action.expandSources tree options.seeds).1.filterMap fun path =>
    (Action.textOf tree path).map fun text => (path, text)).foldl withSeed Keyed.empty

/-- The messages with those of a source; one that cannot be read or scanned adds nothing. -/
def withSource (options : Options) (tree : Tree) (messages : Store) (path : String) : Store :=
  match Action.textOf tree path with
  | some text => (Occurrence.scan options messages path text).store
  | none => messages

/-- The working set of some files: the seeds first, then the files as sources. -/
def workingFrom (options : Options) (tree : Tree) (files : List String) : Store :=
  files.foldl (withSource options tree) (seeded options tree)

/-- The files that the configuration names as the sources of an update. -/
def configuredFiles (config : Configuration) (tree : Tree) : List String :=
  (Action.expandSources tree (config.target .update).sources).1

/-- The files that an update scans: those that are given, or else those of the configuration. -/
def scannedFiles (config : Configuration) (given : Option (List String)) (tree : Tree) :
    List String :=
  match given with
  | some patterns => (Action.expandSources tree patterns).1
  | none => configuredFiles config tree

/-- The working set of an update: the seeds first, then the sources in the order of the run. Which
text a new key comes with can depend on that order. -/
def workingSet (config : Configuration) (given : Option (List String))
    (order : List String → List String) (tree : Tree) : Store :=
  workingFrom config.options tree (order (scannedFiles config given tree))

/-- A file is read and scanned without failure. -/
def Scans (options : Options) (tree : Tree) (path : String) : Prop :=
  ∃ text, tree.text (Path.ofText path) = .ok text ∧
    ∃ found, Occurrence.Found options path text found

/-- Keys that were not seen are dropped: it is asked for, some file was scanned, and so was every
file of the configuration. -/
def Purges (config : Configuration) (given : Option (List String)) (tree : Tree) : Prop :=
  config.options.purge = true ∧
  (∃ path ∈ scannedFiles config given tree, Scans config.options tree path) ∧
  ∀ path ∈ configuredFiles config tree, ∃ scanned ∈ scannedFiles config given tree,
    Path.normal scanned = Path.normal path ∧ Scans config.options tree scanned

/-! ## What a working set is like -/

/-- Entries as merging makes them: their files in order, their further fields apart. -/
def Entry.Merged (entry : Entry) : Prop := entry.Separate ∧ entry.Ordered

theorem merged_settled {entry : Entry} (h : entry.Separate) : Entry.Merged entry.settled :=
  ⟨h, entry.ordered_settled⟩

theorem merged_absorb (entry incoming : Entry) (h : Entry.Merged entry) :
    Entry.Merged (entry.absorb incoming false) :=
  ⟨h.1, entry.ordered_absorb h.2 incoming false⟩

theorem holds_withSeed {messages : Store} (h : Holds Entry.Merged messages)
    (seed : String × List Char) : Holds Entry.Merged (withSeed messages seed) := by
  unfold withSeed
  split
  · next store read =>
    exact h.extendAll merged_absorb fun item there =>
      merged_settled ((holds_of_read read).mem_entries there)
  · exact h

theorem holds_withSource {options : Options} {tree : Tree} {messages : Store}
    (h : Holds Entry.Merged messages) (path : String) :
    Holds Entry.Merged (withSource options tree messages path) := by
  unfold withSource
  split
  · next text _ =>
    rcases Occurrence.scan_cases options messages path text with
      ⟨found, ⟨kind, _, read⟩, -, same⟩ | ⟨-, -, same⟩
    · rw [same]
      refine h.extendAll merged_absorb fun item there => merged_settled ?_
      intro field extra
      rw [Occurrence.bare_ofKind read item there] at extra
      cases extra
    · rw [same]
      exact h
  · exact h

theorem holds_workingSet (config : Configuration) (given : Option (List String))
    (order : List String → List String) (tree : Tree) :
    Holds Entry.Merged (workingSet config given order tree) := by
  unfold workingSet workingFrom seeded
  refine List.foldlRecOn _ _ (List.foldlRecOn _ _ (holds_empty _) ?_) ?_
  · intro messages h seed _
    exact holds_withSeed h seed
  · intro messages h path _
    exact holds_withSource h path

/-! ## Reading the seeds and the sources -/

theorem mergeSeed_ok {messages result : Store} {seed : String × List Char} {s t : Session}
    (h : (mergeSeed messages seed).run s = (.ok result, t)) :
    result = withSeed messages seed ∧ t.tree = s.tree := by
  unfold mergeSeed at h
  obtain ⟨store, u, read, h⟩ := Action.bind_ok.mp h
  obtain ⟨rfl, same⟩ := Action.readStoreOr_ok read
  unfold withSeed
  cases found : Store.read seed.1 seed.2 with
  | error fault =>
      rw [found] at h
      obtain ⟨rfl, rfl⟩ := Action.pure_ok.mp h
      exact ⟨rfl, same⟩
  | ok store =>
      rw [found] at h
      obtain ⟨_, u', said, h⟩ := Action.bind_ok.mp h
      obtain ⟨rfl, rfl⟩ := Action.pure_ok.mp h
      exact ⟨rfl, (Action.tree_of_sayLine said).trans same⟩

theorem seedStore_ok {options : Options} {result : Store} {s t : Session}
    (h : (seedStore options).run s = (.ok result, t)) :
    result = seeded options s.tree ∧ t.tree = s.tree := by
  unfold seedStore at h
  obtain ⟨paths, u, expanded, h⟩ := Action.bind_ok.mp h
  obtain ⟨rfl, same⟩ := Action.sources_ok expanded
  obtain ⟨texts, u', read, h⟩ := Action.bind_ok.mp h
  obtain ⟨rfl, same'⟩ := Action.readAll_ok read
  obtain ⟨rfl, same''⟩ := Action.foldlM_ok (fun _ => withSeed) mergeSeed_ok h
  rw [same] at same' ⊢
  exact ⟨rfl, same''.trans same'⟩

/-- What was scanned so far, with one more source. -/
def scannedWith (options : Options) (tree : Tree) (done : Scanned) (path : String) : Scanned :=
  match Action.textOf tree path with
  | some text =>
    let scan := Occurrence.scan options done.messages path text
    if scan.scanned then ⟨scan.store, done.paths ++ [Path.normal path]⟩ else done
  | none => done

theorem scanSource_ok {options : Options} {done result : Scanned} {path : String} {s t : Session}
    (h : (scanSource options done path).run s = (.ok result, t)) :
    result = scannedWith options s.tree done path ∧ t.tree = s.tree := by
  unfold scanSource at h
  obtain ⟨text, u, read, h⟩ := Action.bind_ok.mp h
  obtain ⟨rfl, same⟩ := Action.readSource_ok read
  unfold scannedWith
  cases found : Action.textOf s.tree path with
  | none =>
      rw [found] at h
      obtain ⟨rfl, rfl⟩ := Action.pure_ok.mp h
      exact ⟨rfl, same⟩
  | some text =>
      rw [found] at h
      obtain ⟨_, u₁, said, h⟩ := Action.bind_ok.mp h
      dsimp only at h ⊢
      cases scanned : (Occurrence.scan options done.messages path text).scanned with
      | false =>
          rw [scanned] at h
          obtain ⟨rfl, rfl⟩ := Action.pure_ok.mp h
          exact ⟨rfl, (Action.tree_of_say said).trans same⟩
      | true =>
          rw [scanned] at h
          obtain ⟨_, u₂, told, h⟩ := Action.bind_ok.mp h
          obtain ⟨rfl, rfl⟩ := Action.pure_ok.mp h
          exact ⟨rfl, (Action.tree_of_sayLine told).trans ((Action.tree_of_say said).trans same)⟩

theorem textOf_eq_some {tree : Tree} {path : String} {text : List Char} :
    Action.textOf tree path = some text ↔ tree.text (Path.ofText path) = .ok text := by
  unfold Action.textOf
  cases tree.text (Path.ofText path) <;> simp [Except.toOption]

/-- One more source adds its messages, and its path when it is scanned. -/
theorem scannedWith_spec (options : Options) (tree : Tree) (done : Scanned) (path : String) :
    (scannedWith options tree done path).messages = withSource options tree done.messages path ∧
    ∀ known, known ∈ (scannedWith options tree done path).paths ↔
      known ∈ done.paths ∨ (Path.normal path = known ∧ Scans options tree path) := by
  unfold scannedWith withSource Scans
  cases read : Action.textOf tree path with
  | none =>
      -- a file that cannot be read is not scanned
      refine ⟨rfl, fun known => ?_⟩
      have never : ¬∃ text, tree.text (Path.ofText path) = .ok text ∧
          ∃ found, Occurrence.Found options path text found := by
        rintro ⟨text, held, -⟩
        rw [textOf_eq_some.mpr held] at read
        cases read
      simp [never]
  | some text =>
      have only : (∃ text, tree.text (Path.ofText path) = .ok text ∧
          ∃ found, Occurrence.Found options path text found) ↔
            ∃ found, Occurrence.Found options path text found := by
        rw [textOf_eq_some] at read
        refine ⟨?_, fun h => ⟨text, read, h⟩⟩
        rintro ⟨other, held, h⟩
        rw [read] at held
        cases held
        exact h
      dsimp only
      rcases Occurrence.scan_cases options done.messages path text with
        ⟨found, this, scanned, -⟩ | ⟨never, scanned, same⟩
      · rw [if_pos scanned]
        refine ⟨rfl, fun known => ?_⟩
        rw [only, List.mem_append, List.mem_singleton]
        simp [eq_comm, show ∃ found, Occurrence.Found options path text found from ⟨found, this⟩]
      · rw [if_neg (by simp [scanned]), same]
        refine ⟨rfl, fun known => ?_⟩
        rw [only]
        simp [never]

theorem foldl_scannedWith (options : Options) (tree : Tree) (files : List String)
    (done : Scanned) :
    (files.foldl (scannedWith options tree) done).messages =
      files.foldl (withSource options tree) done.messages ∧
    ∀ known, known ∈ (files.foldl (scannedWith options tree) done).paths ↔
      known ∈ done.paths ∨ ∃ path ∈ files, Path.normal path = known ∧ Scans options tree path := by
  induction files generalizing done with
  | nil => simp
  | cons file rest ih =>
      obtain ⟨messages, paths⟩ := scannedWith_spec options tree done file
      obtain ⟨messages', paths'⟩ := ih (scannedWith options tree done file)
      rw [messages] at messages'
      refine ⟨messages', fun known => ?_⟩
      rw [List.foldl_cons, paths', paths, List.exists_mem_cons_iff, or_assoc]

/-! ## Dropping keys -/

theorem mayPurge_iff {options : Options} {configured scanned : List String} :
    mayPurge options configured scanned = true ↔
      options.purge = true ∧ (∃ path, path ∈ scanned) ∧
        ∀ path ∈ configured, Path.normal path ∈ scanned := by
  unfold mayPurge
  simp only [Bool.and_eq_true, Bool.not_eq_true', List.isEmpty_eq_false_iff_exists_mem,
    List.all_eq_true, List.contains_iff_mem, and_assoc]

/-- The decision after some files were scanned, in terms of the files. -/
theorem mayPurge_scanned (options : Options) (tree : Tree) (configured files : List String)
    (seeds : Store) :
    mayPurge options configured (files.foldl (scannedWith options tree) ⟨seeds, []⟩).paths = true ↔
      options.purge = true ∧ (∃ path ∈ files, Scans options tree path) ∧
        ∀ path ∈ configured, ∃ scanned ∈ files,
          Path.normal scanned = Path.normal path ∧ Scans options tree scanned := by
  have paths := (foldl_scannedWith options tree files ⟨seeds, []⟩).2
  rw [mayPurge_iff]
  simp only [paths, List.not_mem_nil, false_or]
  refine and_congr_right fun _ => and_congr_left fun _ => ?_
  constructor
  · rintro ⟨_, path, there, -, scans⟩
    exact ⟨path, there, scans⟩
  · rintro ⟨path, there, scans⟩
    exact ⟨_, path, there, rfl, scans⟩

end MessageCatalog.Project
