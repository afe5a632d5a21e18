import MessageCatalog.Config.Target
import MessageCatalog.Project.Session
import MessageCatalog.Proofs.Basic
import MessageCatalog.Proofs.Files.Resolved

/-!
# MessageCatalog.Proofs.Project.Loaded -- the sources of a configuration that was loaded

The patterns of a configuration are seen from the folder of its file, wherever the program runs. When
no name on the way to that folder has a wild character, they find what they find from inside the
folder, in the same order; otherwise the way is read as a pattern too.
-/

namespace MessageCatalog.Project

open MessageCatalog.Config MessageCatalog.Files MessageCatalog.Text

variable {tree : Tree}

/-! ## Sources as they are found from a folder -/

/-- The files of a pattern as they are found from a folder, each once. -/
def sourcesFrom (tree : Tree) (here : Place) (pattern : String) : List String :=
  if isWild pattern then distinct (tree.globFrom here pattern)
  else if tree.isFileFrom here pattern then [pattern]
  else []

/-- From the top they are the files that the pattern expands to. -/
theorem sourcesFrom_top (tree : Tree) (pattern : String) :
    sourcesFrom tree [] pattern = (Action.expandSources tree [pattern]).1 := by
  rw [Action.expandSources, List.foldl_cons, List.foldl_nil, Action.addSources, sourcesFrom,
    Tree.globFrom_top, Tree.isFileFrom_top]
  split
  · rfl
  · split <;> rfl

/-- Patterns expand to the files of each, and of several that are the same the first stays. -/
theorem expandSources_eq_distinct (tree : Tree) (patterns : List String) :
    (Action.expandSources tree patterns).1 = distinct (patterns.flatMap (sourcesFrom tree [])) := by
  have step : ∀ (found : List String × Report.Log) (pattern : String),
      (Action.addSources tree found pattern).1 = (sourcesFrom tree [] pattern).foldl addNew found.1 := by
    intro found pattern
    rw [Action.addSources, sourcesFrom, Tree.globFrom_top, Tree.isFileFrom_top]
    split
    · exact (foldl_addNew_distinct _ _).symm
    · split <;> rfl
  have all : ∀ found : List String × Report.Log,
      (patterns.foldl (Action.addSources tree) found).1 =
        (patterns.flatMap (sourcesFrom tree [])).foldl addNew found.1 := by
    induction patterns with
    | nil => exact fun _ => rfl
    | cons pattern rest ih =>
        intro found
        rw [List.foldl_cons, ih, step, List.flatMap_cons, List.foldl_append]
  exact all ([], [])

/-- What a pattern finds behind the path of a plain folder. -/
theorem expandSources_resolve {base : Path} {here : Place} {pattern : String}
    (h : PlainFolder tree base here) (proper : tree.Proper) (steady : Steady pattern) :
    sourcesFrom tree [] (base.resolve pattern) =
      (sourcesFrom tree here pattern).map base.resolve := by
  rw [sourcesFrom, sourcesFrom, Tree.globFrom_top, steady.isWild_resolve h]
  split
  · next wild =>
    obtain ⟨one, two, names, inside, behind', resolve⟩ := steady.exists_names h proper wild
    have apart : ∀ folder, Function.Injective (behind folder) := by
      intro folder first second same
      rw [behind_eq_append folder first, behind_eq_append folder second] at same
      exact String.append_right_inj _ |>.mp same
    rw [inside, behind', distinct_map (apart one), distinct_map (apart two), List.map_map]
    refine List.map_congr_left fun name there => ?_
    rw [Function.comp_apply, resolve name (mem_distinct.mp there)]
  · rw [Tree.isFileFrom_top, steady.isFile_resolve h]
    split <;> rfl

/-! ## Loading a configuration -/

/-- The file of a configuration lists patterns as the sources of an operation. -/
def Lists (tree : Tree) (file : String) (op : Operation) (patterns : List String) : Prop :=
  ∃ text tables entries, tree.characters (Path.ofText file) = .ok text ∧
    Toml.read? text = some tables ∧ tables.lookup op.name = some (.table entries) ∧
    listOf ((entries.lookup "src").getD (.array [])) = .ok (patterns.map .text)

variable {file : String} {config : Configuration}

/-- A configuration is loaded from the tables of its file. -/
theorem exists_tables_of_load (loaded : Configuration.load tree file = .ok config) :
    ∃ text tables, tree.characters (Path.ofText file) = .ok text ∧ Toml.read? text = some tables ∧
      Configuration.ofTables (Path.ofText file).parent tables = .ok config := by
  unfold Configuration.load at loaded
  dsimp only at loaded
  split at loaded
  · cases loaded
  · cases loaded
  · next text read =>
    split at loaded
    · next tables written => exact ⟨text, tables, read, written, loaded⟩
    · cases loaded

/-- The file of a configuration lies in a folder, which its path leads to from the top. -/
theorem exists_folder_of_load (loaded : Configuration.load tree file = .ok config) :
    (Path.ofText file).root = "" ∧
      ∃ here, tree.follow [] (Path.ofText file).parent.parts = .ok (.folder here) := by
  obtain ⟨text, -, read, -, -⟩ := exists_tables_of_load loaded
  rw [Tree.characters] at read
  obtain ⟨bytes, found, -⟩ := exists_bind_eq_ok read
  rw [mapError_ok, Tree.bytes] at found
  split at found
  · cases found
  next relative =>
  have root : (Path.ofText file).root = "" := by
    rw [Path.isAbsolute, Bool.not_eq_true, Bool.not_eq_false', String.isEmpty_iff] at relative
    exact relative
  refine ⟨root, ?_⟩
  obtain ⟨spot, led, there⟩ := exists_bind_eq_ok found
  rw [Path.parent]
  dsimp only
  generalize (Path.ofText file).parts = parts at led ⊢
  by_cases none : parts = []
  · subst none
    exact ⟨[], rfl⟩
  -- what goes on to the file goes on from a folder
  rw [← List.dropLast_append_getLast none, Tree.follow_append (List.cons_ne_nil _ _)] at led
  split at led
  · next here folder => exact ⟨here, folder⟩
  · cases led
  · cases led

theorem mapM_resolvedPath (base : Path) (patterns : List String) :
    (patterns.map Setting.text).mapM (resolvedPath base) = .ok (patterns.map base.resolve) := by
  induction patterns with
  | nil => rfl
  | cons pattern rest ih =>
      rw [List.map_cons, List.mapM_cons, ih]
      rfl

/-- The targets of a configuration are read from the tables of its operations. -/
theorem lookup_targets {base : Path} {given : List (Operation × Setting)}
    {targets : List (Operation × Target)}
    (read : given.mapM (fun (op, value) => do return (op, ← Target.read base op value)) = .ok targets)
    {op : Operation} {value : Setting} (there : given.lookup op = some value) :
    ∃ target, targets.lookup op = some target ∧ Target.read base op value = .ok target := by
  induction given generalizing targets with
  | nil => cases there
  | cons pair rest ih =>
      obtain ⟨own, setting⟩ := pair
      rw [List.mapM_cons] at read
      obtain ⟨first, one, read⟩ := exists_bind_eq_ok read
      obtain ⟨others, later, same⟩ := exists_bind_eq_ok read
      obtain ⟨target, own', same'⟩ := exists_bind_eq_ok one
      cases same
      cases same'
      by_cases here : op = own
      · subst here
        rw [List.lookup_cons_self] at there ⊢
        cases there
        exact ⟨target, rfl, own'⟩
      · have other : (op == own) = false := beq_eq_false_iff_ne.mpr here
        rw [List.lookup_cons, other] at there ⊢
        exact ih later there

theorem lookup_given (tables : Table) (op : Operation) :
    (Operation.all.filterMap fun op => (tables.lookup op.name).map fun value => (op, value)).lookup op =
      tables.lookup op.name := by
  have all : ∀ ops : List Operation, op ∈ ops →
      (ops.filterMap fun op => (tables.lookup op.name).map fun value => (op, value)).lookup op =
        tables.lookup op.name := by
    intro ops
    induction ops with
    | nil => exact nofun
    | cons first rest ih =>
        intro there
        by_cases here : op = first
        · subst here
          cases found : tables.lookup op.name with
          | none =>
              -- then none of the others can be found either
              rw [List.filterMap_cons, found, Option.map_none]
              refine List.lookup_eq_none_iff.mpr fun pair inside => ?_
              obtain ⟨other, -, made⟩ := List.mem_filterMap.mp inside
              obtain ⟨value, found', rfl⟩ := Option.map_eq_some_iff.mp made
              rw [bne_iff_ne]
              rintro rfl
              rw [found] at found'
              cases found'
          | some value =>
              rw [List.filterMap_cons, found, Option.map_some, List.lookup_cons_self]
        · have later := ih ((List.mem_cons.mp there).resolve_left here)
          rw [List.filterMap_cons]
          cases tables.lookup first.name with
          | none => exact later
          | some value =>
              have other : (op == first) = false := beq_eq_false_iff_ne.mpr here
              rw [Option.map_some, List.lookup_cons, other]
              exact later
  exact all Operation.all (by cases op <;> decide)

/-- The sources of a loaded configuration are the patterns of its file, seen from its folder. -/
theorem sources_of_load (loaded : Configuration.load tree file = .ok config) {op : Operation}
    {patterns : List String} (lists : Lists tree file op patterns) :
    (config.target op).sources = patterns.map (Path.ofText file).parent.resolve := by
  obtain ⟨text, tables, read, written, loaded⟩ := exists_tables_of_load loaded
  obtain ⟨text', tables', entries, read', written', table, listed⟩ := lists
  rw [read] at read'
  cases read'
  rw [written] at written'
  cases written'
  rw [Configuration.ofTables] at loaded
  dsimp only at loaded
  split at loaded
  · cases loaded
  -- the check of the names, the table of the options, and what is read from it
  obtain ⟨-, -, loaded⟩ := exists_bind_eq_ok loaded
  obtain ⟨written, -, loaded⟩ := exists_bind_eq_ok loaded
  obtain ⟨settings, -, loaded⟩ := exists_bind_eq_ok loaded
  obtain ⟨options, -, loaded⟩ := exists_bind_eq_ok loaded
  obtain ⟨targets, made, same⟩ := exists_bind_eq_ok loaded
  cases same
  obtain ⟨target, found, own⟩ := lookup_targets made ((lookup_given tables op).trans table)
  rw [Target.read] at own
  obtain ⟨entries', table', own⟩ := exists_bind_eq_ok own
  cases table'
  obtain ⟨destination, -, own⟩ := exists_bind_eq_ok own
  obtain ⟨items, listed', own⟩ := exists_bind_eq_ok own
  rw [listed] at listed'
  cases listed'
  obtain ⟨sources, resolved, own⟩ := exists_bind_eq_ok own
  rw [mapM_resolvedPath] at resolved
  cases resolved
  cases own
  rw [Configuration.target, found]
  rfl

/-- The patterns of a loaded configuration are its sources, seen from the folder of its file. When no
name on the way to that folder has a wild character, each finds what it finds from inside the folder,
in the same order, and together they find all of that, each file once. -/
theorem expandSources_loaded {tree : Tree} {file : String} {config : Configuration} {op : Operation}
    {patterns : List String} (proper : tree.Proper)
    (loaded : Configuration.load tree file = .ok config) (lists : Lists tree file op patterns)
    (plain : ∀ part ∈ (Path.ofText file).parent.parts, isWild part = false) :
    (config.target op).sources = patterns.map (Path.ofText file).parent.resolve ∧
    ∃ here, tree.follow [] (Path.ofText file).parent.parts = .ok (.folder here) ∧
      (∀ pattern ∈ patterns, Steady pattern →
        (Action.expandSources tree [(Path.ofText file).parent.resolve pattern]).1 =
          (sourcesFrom tree here pattern).map (Path.ofText file).parent.resolve) ∧
      ((∀ pattern ∈ patterns, Steady pattern) →
        (Action.expandSources tree (config.target op).sources).1 =
          distinct ((patterns.flatMap (sourcesFrom tree here)).map (Path.ofText file).parent.resolve)) := by
  obtain ⟨root, here, leads⟩ := exists_folder_of_load loaded
  have folder : PlainFolder tree (Path.ofText file).parent here :=
    ⟨root, fun part there => Path.isPart_of_mem (List.dropLast_subset _ there), plain, leads⟩
  have sources := sources_of_load loaded lists
  refine ⟨sources, here, leads, fun pattern _ steady => ?_, fun all => ?_⟩
  · rw [← sourcesFrom_top, expandSources_resolve folder proper steady]
  · rw [sources, expandSources_eq_distinct, List.flatMap_map, List.map_flatMap]
    refine congrArg distinct (List.flatMap_congr fun pattern there => ?_)
    exact expandSources_resolve folder proper (all pattern there)

/-! ## Folders with and without brackets in their name -/

/-- A configuration that names a page, and all pages. -/
def pagesText : String := "[update]\nsrc = [\"page.html\", \"*.html\"]\ndest = \"@.json\"\n"

/-- A folder with a configuration and a page. -/
def pagesIn (folder : String) : Tree :=
  ⟨Keyed.ofList [(folder ++ "/locales.toml", encodeUtf8 pagesText.toList), (folder ++ "/page.html", [])],
    [folder]⟩

/-- Whether tables list a page and all pages as the sources of an update. -/
def listsPages (tables : Table) : Bool :=
  match tables.lookup Operation.update.name with
  | some (.table entries) =>
    match entries.lookup "src" with
    | some (.array [.text first, .text second]) => first == "page.html" && second == "*.html"
    | _ => false
  | _ => false

theorem lists_pages {tree : Tree} {file : String}
    (read : tree.characters (Path.ofText file) = .ok pagesText.toList) :
    Lists tree file .update ["page.html", "*.html"] := by
  have checked : (Toml.read? pagesText.toList).any listsPages = true := by decide +kernel
  obtain ⟨tables, written, checked⟩ := (Option.any_eq_true _ _).mp checked
  rw [listsPages] at checked
  split at checked
  · next entries table =>
    split at checked
    · next first second src =>
      rw [Bool.and_eq_true, beq_iff_eq, beq_iff_eq] at checked
      obtain ⟨rfl, rfl⟩ := checked
      refine ⟨_, tables, entries, read, written, table, ?_⟩
      rw [src]
      rfl
    · cases checked
  · cases checked

/-- In a folder with a plain name the patterns find what they find inside. -/
theorem expandSources_loaded_plain :
    ∃ config, Configuration.load (pagesIn "conf") "conf/locales.toml" = .ok config ∧
      (config.target .update).sources = ["conf/page.html", "conf/*.html"] ∧
      (Action.expandSources (pagesIn "conf") ["conf/page.html"]).1 = ["conf/page.html"] ∧
      (Action.expandSources (pagesIn "conf") ["conf/*.html"]).1 =
        (sourcesFrom (pagesIn "conf") ["conf"] "*.html").map (Files.Path.mk "" ["conf"]).resolve := by
  have loads : (Configuration.load (pagesIn "conf") "conf/locales.toml").isOk = true := by
    decide +kernel
  cases loaded : Configuration.load (pagesIn "conf") "conf/locales.toml" with
  | error why =>
      rw [loaded] at loads
      cases loads
  | ok config =>
      have proper : (pagesIn "conf").Proper := ⟨by decide +kernel, by decide +kernel⟩
      obtain ⟨sources, here, leads, each, -⟩ := expandSources_loaded proper loaded
        (lists_pages (by decide +kernel)) (by decide +kernel)
      have led : (pagesIn "conf").follow [] (Path.ofText "conf/locales.toml").parent.parts =
          .ok (.folder ["conf"]) := by decide +kernel
      rw [led] at leads
      cases leads
      have parent : (Path.ofText "conf/locales.toml").parent = ⟨"", ["conf"]⟩ := by decide +kernel
      rw [parent] at sources each
      have page := each "page.html" (by decide) ⟨by decide +kernel, by decide +kernel, by decide +kernel⟩
      have pages := each "*.html" (by decide) ⟨by decide +kernel, by decide +kernel, by decide +kernel⟩
      exact ⟨config, rfl, sources.trans (by decide +kernel), page.trans (by decide +kernel), pages⟩

/-- A name in brackets is not one that it stands for. -/
theorem matchesName_brackets : matchesName "conf[1]" "conf[1]" = false := by
  have wilds : wildsOf "conf[1]" =
      [.exactly 'c', .exactly 'o', .exactly 'n', .exactly 'f', .oneOf [('1', '1')] false] := by
    decide
  have chars : "conf[1]".toList = ['c', 'o', 'n', 'f', '[', '1', ']'] := by decide
  rw [matchesName, wilds, chars]
  simp [matchesWilds, Wild.accepts]

/-- Behind a name in brackets nothing is found, since no folder has the name that it stands for. -/
theorem not_mem_bracketed :
    "conf[1]/page.html" ∉ sourcesFrom (pagesIn "conf[1]") [] "conf[1]/page.html" := by
  intro there
  have wild : isWild "conf[1]/page.html" = true := by decide
  have split : splitPattern "conf[1]/page.html" = ("", ["conf[1]", "page.html"]) := by decide
  rw [sourcesFrom, if_pos wild, mem_distinct, Tree.globFrom_top, Tree.mem_glob wild, Tree.Finds,
    if_pos wild, split] at there
  obtain ⟨name, inside, -⟩ := Tree.mem_expandParts_cons.mp there.2
  rcases Tree.mem_namesFor.mp inside with ⟨whole, -⟩ | ⟨-, -, place, led, known, fits⟩ | ⟨-, plain, -⟩
  · exact absurd whole (by decide)
  · have top : (pagesIn "conf[1]").folderAt "" = some [] := rfl
    rw [top] at led
    cases led
    have only : (pagesIn "conf[1]").namesIn [] (!List.isEmpty ["page.html"]) = ["conf[1]"] := by
      decide
    rw [only, List.mem_singleton] at known
    rw [known, matchesName_brackets] at fits
    cases fits
  · exact absurd plain (by decide)

/-- In a folder whose name has brackets they do not find it. -/
theorem expandSources_misses_bracketed :
    ¬∀ (tree : Tree) (file : String) (config : Configuration) (op : Operation) (patterns : List String)
      (here : Place), tree.Proper → Configuration.load tree file = .ok config →
        Lists tree file op patterns →
        tree.follow [] (Path.ofText file).parent.parts = .ok (.folder here) →
        ∀ pattern ∈ patterns, (Path.ofText pattern).isAbsolute = false →
          (Action.expandSources tree [(Path.ofText file).parent.resolve pattern]).1 =
            (sourcesFrom tree here pattern).map (Path.ofText file).parent.resolve := by
  intro found
  have loads : (Configuration.load (pagesIn "conf[1]") "conf[1]/locales.toml").isOk = true := by
    decide +kernel
  cases loaded : Configuration.load (pagesIn "conf[1]") "conf[1]/locales.toml" with
  | error why =>
      rw [loaded] at loads
      cases loads
  | ok config =>
      have proper : (pagesIn "conf[1]").Proper := ⟨by decide +kernel, by decide +kernel⟩
      have same := found _ _ config .update _ ["conf[1]"] proper loaded (lists_pages (by decide +kernel))
        (by decide +kernel) "page.html" (by decide) (by decide +kernel)
      have page : sourcesFrom (pagesIn "conf[1]") ["conf[1]"] "page.html" = ["page.html"] := by
        decide +kernel
      have resolved : (Path.ofText "conf[1]/locales.toml").parent.resolve "page.html" =
          "conf[1]/page.html" := by decide +kernel
      rw [page, List.map_singleton, resolved] at same
      refine not_mem_bracketed ?_
      rw [sourcesFrom_top, same]
      exact List.mem_singleton_self _

end MessageCatalog.Project
