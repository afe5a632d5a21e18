import MessageCatalog.Proofs.Files.Overwrite
import MessageCatalog.Proofs.Project.Action
import MessageCatalog.Proofs.Text.Utf8
import MessageCatalog.Project.Update

/-!
# MessageCatalog.Proofs.Project.Success -- when actions succeed

What an action does depends on the files that it finds, and not on what was said before. With the
files that it needs it comes to its end with a known result and leaves known files; what it says on
the way is left open. Actions are put together by their ends: the next one starts from the files
that the one before it leaves.
-/

namespace MessageCatalog.Project

open MessageCatalog.Files MessageCatalog.Message MessageCatalog.Report MessageCatalog.Text

namespace Action

variable {α β : Type} {tree after last : Tree}

/-- With some files an action comes to its end with a result, and leaves other files. -/
def Gives (x : Action α) (tree : Tree) (a : α) (after : Tree) : Prop :=
  ∀ s : Session, s.tree = tree → ∃ t, x.run s = (.ok a, t) ∧ t.tree = after

theorem gives_pure (a : α) : Gives (pure a) tree a tree :=
  fun s same => ⟨s, pure_ok.mpr ⟨rfl, rfl⟩, same⟩

theorem Gives.bind {x : Action α} {f : α → Action β} {a : α} {b : β}
    (first : Gives x tree a after) (second : Gives (f a) after b last) :
    Gives (x >>= f) tree b last := by
  intro s same
  obtain ⟨t, ran, left⟩ := first s same
  obtain ⟨u, ran', left'⟩ := second t left
  exact ⟨u, bind_ok.mpr ⟨a, t, ran, ran'⟩, left'⟩

theorem gives_ofExcept {x : Except Failure α} {a : α} (h : x = .ok a) :
    Gives (ofExcept x) tree a tree :=
  fun s same => ⟨s, ofExcept_ok.mpr ⟨h, rfl⟩, same⟩

/-! ## Files and the log -/

theorem gives_say (lines : Log) : Gives (say lines) tree () tree :=
  fun _ same => ⟨_, say_ok.mpr rfl, same⟩

theorem gives_sayLine (level : Level) (text : String) : Gives (sayLine level text) tree () tree :=
  gives_say _

theorem gives_files : Gives files tree tree tree :=
  fun s same => ⟨s, files_ok.mpr ⟨same, rfl⟩, same⟩

theorem gives_write {path text : String}
    (h : tree.write (Path.ofText path) (encodeUtf8 text.toList) = .ok after) :
    Gives (write path text) tree () after := by
  rintro s rfl
  refine ⟨{ s with tree := after }, ?_, rfl⟩
  unfold write
  refine bind_ok.mpr ⟨s, s, rfl, ?_⟩
  rw [Tree.writeText, h]
  rfl

theorem gives_readText {path : String} {text : List Char}
    (h : tree.text (Path.ofText path) = .ok text) : Gives (readText path) tree text tree :=
  fun s same => ⟨s, readText_ok.mpr ⟨same ▸ h, rfl⟩, same⟩

theorem gives_sources (patterns : List String) :
    Gives (sources patterns) tree (expandSources tree patterns).1 tree :=
  gives_files.bind ((gives_say _).bind (gives_pure _))

theorem gives_readSource (path : String) :
    Gives (readSource path) tree (textOf tree path) tree := by
  refine gives_files.bind ?_
  unfold textOf
  cases tree.text (Path.ofText path) with
  | ok text => exact gives_pure _
  | error fault => exact (gives_sayLine _ _).bind (gives_pure _)

theorem gives_readAll (paths : List String) :
    Gives (readAll paths) tree
      (paths.filterMap fun path => (textOf tree path).map fun text => (path, text)) tree := by
  induction paths with
  | nil => exact gives_pure _
  | cons path rest ih =>
      refine (gives_readSource path).bind (ih.bind ?_)
      rw [List.filterMap_cons]
      cases textOf tree path with
      | none => exact gives_pure _
      | some text => exact gives_pure _

/-! ## One after the other -/

/-- Parts that leave the files as they are, one after the other. -/
theorem gives_foldlM {step : β → α → Action β} (result : β → α → β) {items : List α}
    (each : ∀ item ∈ items, ∀ b, Gives (step b item) tree (result b item) tree) (b : β) :
    Gives (items.foldlM step b) tree (items.foldl result b) tree := by
  induction items generalizing b with
  | nil => exact gives_pure _
  | cons item rest ih =>
      rw [List.foldlM_cons]
      exact (each item List.mem_cons_self b).bind
        (ih (fun other there => each other (List.mem_cons_of_mem _ there)) _)

theorem gives_forM {f : α → Action Unit} {items : List α}
    (each : ∀ item ∈ items, Gives (f item) tree () tree) : Gives (items.forM f) tree () tree := by
  induction items with
  | nil => exact gives_pure _
  | cons item rest ih =>
      rw [List.forM_eq_forM, List.forM_cons]
      exact (each item List.mem_cons_self).bind
        (ih fun other there => each other (List.mem_cons_of_mem _ there))

/-! ## Stores and engines -/

theorem gives_readStore {source : String} {text : List Char} {store : Store}
    (h : Store.read source text = .ok store) : Gives (readStore source text) tree store tree :=
  fun s same => ⟨s, readStore_ok.mpr ⟨h, rfl⟩, same⟩

theorem gives_readStoreOr {level : Level} {source : String} {text : List Char} {store : Store}
    (h : Store.read source text = .ok store) :
    Gives (readStoreOr level source text) tree (some store) tree := by
  unfold readStoreOr
  rw [h]
  exact gives_pure _

theorem gives_storeText {options : Config.Options} {store : Store}
    {selection : Option (List String)} {text : String}
    (h : Store.write store options.storeLayout options.flatStores selection = .ok text) :
    Gives (storeText options store selection) tree text tree :=
  fun s same => ⟨s, storeText_ok.mpr ⟨h, rfl⟩, same⟩

theorem gives_engineOf {data : Locale.Data} {locale : String} {engine : Engine}
    (h : Engine.forLocale data locale = .ok engine) :
    Gives (engineOf data locale) tree engine tree := by
  have found : (Engine.forLocale data locale).mapError Failure.unknownLocale = .ok engine := by
    rw [h]
    rfl
  exact (gives_ofExcept found).bind ((gives_sayLine _ _).bind (gives_pure _))

/-- The engine of each locale, in order. -/
theorem gives_pairs {data : Locale.Data} {locales : List String}
    (served : ∀ locale ∈ locales, ∃ engine, Engine.forLocale data locale = .ok engine) :
    ∃ pairs : List (String × Engine), pairs.map Prod.fst = locales ∧
      (∀ own ∈ pairs, Engine.forLocale data own.1 = .ok own.2) ∧
      Gives (locales.mapM fun locale => do return (locale, ← engineOf data locale)) tree pairs
        tree := by
  induction locales with
  | nil => exact ⟨[], rfl, by simp, gives_pure _⟩
  | cons locale rest ih =>
      obtain ⟨engine, found⟩ := served locale List.mem_cons_self
      obtain ⟨pairs, names, own, gives⟩ :=
        ih fun other there => served other (List.mem_cons_of_mem _ there)
      refine ⟨(locale, engine) :: pairs, by rw [List.map_cons, names], ?_, ?_⟩
      · exact List.forall_mem_cons.mpr ⟨found, own⟩
      · have first :
            Gives (do return (locale, ← engineOf data locale)) tree (locale, engine) tree :=
          (gives_engineOf found).bind (gives_pure _)
        rw [List.mapM_cons]
        exact first.bind (gives.bind (gives_pure _))

/-- The engines of locales for which there are rules. -/
theorem gives_enginesOf {data : Locale.Data} (tree : Tree) {locales : List String}
    (served : ∀ locale ∈ locales, ∃ engine, Engine.forLocale data locale = .ok engine) :
    ∃ engines : Keyed Engine, Gives (enginesOf data locales) tree engines tree ∧
      ∀ locale engine, engines.get? locale = some engine ↔
        locale ∈ locales ∧ Engine.forLocale data locale = .ok engine := by
  obtain ⟨pairs, names, own, gives⟩ := gives_pairs served
  refine ⟨Keyed.ofList pairs, gives.bind (gives_pure _), fun locale engine =>
    ⟨fun found => ?_, ?_⟩⟩
  · have there := Keyed.mem_of_get?_ofList found
    have inside : locale ∈ pairs.map Prod.fst := List.mem_map.mpr ⟨(locale, engine), there, rfl⟩
    rw [names] at inside
    exact ⟨inside, own (locale, engine) there⟩
  · rintro ⟨there, known⟩
    have inside : locale ∈ (Keyed.ofList pairs).keys := by
      rw [Keyed.mem_keys_ofList, names]
      exact there
    obtain ⟨other, found⟩ := (Keyed.mem_keys_iff _).mp inside
    have made : Engine.forLocale data locale = .ok other :=
      own (locale, other) (Keyed.mem_of_get?_ofList found)
    rw [found, Except.ok.inj (made.symm.trans known)]

end Action

theorem gives_destinationOf {target : Config.Target} {tree : Tree}
    (named : target.destination ≠ "") :
    Action.Gives (destinationOf target) tree target.destination tree := by
  have some' : target.destination.isEmpty = false := by
    simpa using named
  unfold destinationOf
  rw [some', if_neg (by decide)]
  exact Action.gives_pure _

end MessageCatalog.Project
