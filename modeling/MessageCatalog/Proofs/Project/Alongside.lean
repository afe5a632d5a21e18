import Mathlib.Data.List.Forall2
import MessageCatalog.Project.Build
import MessageCatalog.Proofs.Files.Shape
import MessageCatalog.Proofs.Project.Success

/-!
# MessageCatalog.Proofs.Project.Alongside -- two runs side by side

Two actions run on trees that are alike, in a sense that is left open. They stay in step when both
end with the same failure and trees that are alike, or both come to their ends with what is asked
for there. The first may also end with a failure that is excused, whatever the second does. What is
in step at every part is in step as a whole.
-/

namespace MessageCatalog.Project

open MessageCatalog.Bundle MessageCatalog.Config MessageCatalog.Files MessageCatalog.Message
open MessageCatalog.Report MessageCatalog.Text

namespace Action

variable {α β γ δ ι : Type}

/-! ## Actions that fail -/

/-- With some files an action ends with a failure, and leaves other files. -/
def Fails (x : Action α) (tree : Tree) (failure : Failure) (after : Tree) : Prop :=
  ∀ s : Session, s.tree = tree → ∃ t, x.run s = (.error failure, t) ∧ t.tree = after

theorem fails_throw (failure : Failure) (tree : Tree) :
    Fails (throw failure : Action α) tree failure tree :=
  fun s same => ⟨s, rfl, same⟩

theorem Fails.bind {x : Action α} {tree after : Tree} {failure : Failure}
    (h : Fails x tree failure after) (f : α → Action β) : Fails (x >>= f) tree failure after := by
  intro s same
  obtain ⟨t, ran, left⟩ := h s same
  exact ⟨t, by rw [run_bind, ran], left⟩

theorem Gives.fails {x : Action α} {f : α → Action β} {tree between after : Tree} {a : α}
    {failure : Failure} (first : Gives x tree a between) (second : Fails (f a) between failure after) :
    Fails (x >>= f) tree failure after := by
  intro s same
  obtain ⟨t, ran, left⟩ := first s same
  obtain ⟨u, ran', left'⟩ := second t left
  exact ⟨u, (run_bind_ok ran).trans ran', left'⟩

theorem fails_write {path text : String} {tree : Tree} {fault : Files.Fault}
    (h : tree.write (Path.ofText path) (encodeUtf8 text.toList) = .error fault) :
    Fails (write path text) tree (.unwritable fault) tree := by
  rintro s rfl
  have got : (get : Action Session).run s = (.ok s, s) := rfl
  refine ⟨s, ?_, rfl⟩
  unfold write
  rw [run_bind_ok got, Tree.writeText, h]
  rfl

/-! ## In step -/

/-- How two runs side by side may end. -/
def Ends (excused : Failure → Prop) (alike : Tree → Tree → Prop)
    (good : α → β → Tree → Tree → Prop) :
    Except Failure α × Session → Except Failure β × Session → Prop
  | (.ok a, s), (.ok b, s') => good a b s.tree s'.tree
  | (.ok _, _), (.error _, _) => False
  | (.error failure, s), (.error failure', s') =>
    excused failure ∨ failure = failure' ∧ alike s.tree s'.tree
  | (.error failure, _), (.ok _, _) => excused failure

/-- Two actions are in step on two trees. -/
def Alongside (excused : Failure → Prop) (alike : Tree → Tree → Prop) (one two : Tree)
    (x : Action α) (y : Action β) (good : α → β → Tree → Tree → Prop) : Prop :=
  ∀ s s', s.tree = one → s'.tree = two → Ends excused alike good (x.run s) (y.run s')

/-- Both come to their ends with results that go together, and leave the trees as they are. -/
def Still (one two : Tree) (good : α → β → Prop) : α → β → Tree → Tree → Prop :=
  fun a b left right => good a b ∧ left = one ∧ right = two

section

variable {excused : Failure → Prop} {alike : Tree → Tree → Prop} {one two left right : Tree}
  {x : Action α} {y : Action β} {good : α → β → Tree → Tree → Prop}

theorem alongside_gives {a : α} {b : β} (first : Gives x one a left) (second : Gives y two b right)
    (h : good a b left right) : Alongside excused alike one two x y good := by
  intro s s' same same'
  obtain ⟨t, ran, rfl⟩ := first s same
  obtain ⟨t', ran', rfl⟩ := second s' same'
  rw [ran, ran']
  exact h

theorem alongside_fails {failure : Failure} (first : Fails x one failure left)
    (second : Fails y two failure right) (h : alike left right) :
    Alongside excused alike one two x y good := by
  intro s s' same same'
  obtain ⟨t, ran, rfl⟩ := first s same
  obtain ⟨t', ran', rfl⟩ := second s' same'
  rw [ran, ran']
  exact Or.inr ⟨rfl, h⟩

theorem alongside_excused {failure : Failure} (first : Fails x one failure left)
    (h : excused failure) : Alongside excused alike one two x y good := by
  intro s s' same _
  obtain ⟨t, ran, -⟩ := first s same
  rw [ran]
  rcases (y.run s' : Except Failure β × Session) with ⟨_ | _, _⟩
  · exact Or.inl h
  · exact h

theorem Alongside.bind {f : α → Action γ} {g : β → Action δ} {last : γ → δ → Tree → Tree → Prop}
    (first : Alongside excused alike one two x y good)
    (second : ∀ a b left right, good a b left right →
      Alongside excused alike left right (f a) (g b) last) :
    Alongside excused alike one two (x >>= f) (y >>= g) last := by
  intro s s' same same'
  have ends := first s s' same same'
  rw [run_bind, run_bind]
  revert ends
  rcases (x.run s : Except Failure α × Session) with ⟨failure | a, t⟩ <;>
    rcases (y.run s' : Except Failure β × Session) with ⟨failure' | b, t'⟩
  · exact id
  · intro ends
    show Ends excused alike last (.error failure, t) ((g b).run t')
    rcases ((g b).run t' : Except Failure δ × Session) with ⟨_ | _, _⟩
    · exact Or.inl ends
    · exact ends
  · exact False.elim
  · exact fun ends => second a b _ _ ends t t' rfl rfl

/-- The second part starts from the same trees when the first leaves them as they are. -/
theorem Alongside.still {f : α → Action γ} {g : β → Action δ} {same : α → β → Prop}
    {last : γ → δ → Tree → Tree → Prop}
    (first : Alongside excused alike one two x y (Still one two same))
    (second : ∀ a b, same a b → Alongside excused alike one two (f a) (g b) last) :
    Alongside excused alike one two (x >>= f) (y >>= g) last := by
  refine first.bind fun a b left right h => ?_
  obtain ⟨pair, rfl, rfl⟩ := h
  exact second a b pair

theorem alongside_files : Alongside excused alike one two files files
    (Still one two fun tree tree' => one = tree ∧ two = tree') :=
  alongside_gives gives_files gives_files ⟨⟨rfl, rfl⟩, rfl, rfl⟩

theorem alongside_ofExcept {value value' : Except Failure α} (h : alike one two)
    (same : value = value') :
    Alongside excused alike one two (ofExcept value) (ofExcept value')
      (Still one two fun a b => a = b ∧ value = .ok a) := by
  subst same
  cases value with
  | ok a => exact alongside_gives (gives_pure a) (gives_pure a) ⟨⟨rfl, rfl⟩, rfl, rfl⟩
  | error failure => exact alongside_fails (fails_throw _ _) (fails_throw _ _) h

/-- What an action in step with itself has done when it succeeds. -/
theorem Alongside.ok_of_self {x : Action α} {same : α → α → Prop} {tree : Tree} {s t : Session}
    {a : α} (h : Alongside (fun _ => False) (fun _ _ => True) tree tree x x (Still tree tree same))
    (start : s.tree = tree) (ran : x.run s = (.ok a, t)) : same a a ∧ t.tree = tree := by
  have ends := h s s start start
  rw [ran] at ends
  exact ⟨ends.1, ends.2.1⟩

/-! ## Over a list -/

/-- Parts that leave the trees as they are and give the same results. -/
theorem alongside_mapM {items : List ι} {f g : ι → Action α} (made : ι → α → Prop)
    (each : ∀ item ∈ items, Alongside excused alike one two (f item) (g item)
      (Still one two fun a b => a = b ∧ made item a)) :
    Alongside excused alike one two (items.mapM f) (items.mapM g)
      (Still one two fun as bs => as = bs ∧ List.Forall₂ made items as) := by
  induction items with
  | nil => exact alongside_gives (gives_pure _) (gives_pure _) ⟨⟨rfl, .nil⟩, rfl, rfl⟩
  | cons item rest ih =>
      rw [List.mapM_cons, List.mapM_cons]
      refine (each item List.mem_cons_self).still fun a b pair => ?_
      obtain ⟨rfl, first⟩ := pair
      refine (ih fun other there => each other (List.mem_cons_of_mem _ there)).still
        fun as bs pair => ?_
      obtain ⟨rfl, others⟩ := pair
      exact alongside_gives (gives_pure _) (gives_pure _) ⟨⟨rfl, .cons first others⟩, rfl, rfl⟩

/-- Parts that keep the trees alike, one for each item that either run has a value for. -/
theorem alongside_forM {items : List ι} (value value' : ι → Option α) {f g : α → Action Unit}
    (each : ∀ item ∈ items, ∀ one two, alike one two →
      Alongside excused alike one two ((value item).elim (pure ()) f)
        ((value' item).elim (pure ()) g) fun _ _ => alike)
    (h : alike one two) :
    Alongside excused alike one two ((items.filterMap value).forM f)
      ((items.filterMap value').forM g) fun _ _ => alike := by
  induction items generalizing one two with
  | nil => exact alongside_gives (gives_pure _) (gives_pure _) h
  | cons item rest ih =>
      have split : ∀ (value : ι → Option α) (f : α → Action Unit),
          ((item :: rest).filterMap value).forM f =
            ((value item).elim (pure ()) f >>= fun _ => (rest.filterMap value).forM f) := by
        intro value f
        rw [List.filterMap_cons]
        cases value item with
        | none => rfl
        | some a => rfl
      rw [split, split]
      refine (each item List.mem_cons_self one two h).bind fun _ _ left right h => ?_
      exact ih (fun other there => each other (List.mem_cons_of_mem _ there)) h

/-- Parts that keep the trees alike, one for each item. -/
theorem alongside_forM_self {items : List ι} {f g : ι → Action Unit}
    (each : ∀ item ∈ items, ∀ one two, alike one two →
      Alongside excused alike one two (f item) (g item) fun _ _ => alike)
    (h : alike one two) :
    Alongside excused alike one two (items.forM f) (items.forM g) fun _ _ => alike := by
  have all := alongside_forM some some each h
  rwa [List.filterMap_some] at all

end

end Action

/-! ## Before the first file is written -/

section

open MessageCatalog.Project.Action

variable {excused : Failure → Prop} {alike : Tree → Tree → Prop} {one two : Tree}
  {names : List String}

theorem expandSources_congr (shape : one.SameShape two) (patterns : List String) :
    expandSources one patterns = expandSources two patterns := by
  have step : addSources one = addSources two := by
    funext found pattern
    rw [addSources, addSources, shape.glob, shape.isFile]
  unfold expandSources
  rw [step]

theorem alongside_destinationOf (h : alike one two) (target : Target) :
    Alongside excused alike one two (destinationOf target) (destinationOf target)
      (Still one two fun a b => a = b ∧ a = target.destination) := by
  unfold destinationOf
  split
  · exact alongside_fails (fails_throw _ _) (fails_throw _ _) h
  · exact alongside_gives (gives_pure _) (gives_pure _) ⟨⟨rfl, rfl⟩, rfl, rfl⟩

theorem alongside_sourcesOf (shape : one.SameShape two) (target : Target)
    (given : Option (List String)) :
    Alongside excused alike one two (sourcesOf target given) (sourcesOf target given)
      (Still one two fun a b => a = b ∧ a = (expandSources one (given.getD target.sources)).1) := by
  refine alongside_gives (gives_sources _) (gives_sources _) ⟨⟨?_, rfl⟩, rfl, rfl⟩
  rw [expandSources_congr shape]

theorem alongside_localesOf (h : alike one two) (options : Options) (paths : List String) :
    Alongside excused alike one two (localesOf options paths) (localesOf options paths)
      (Still one two fun a b => a = b ∧ List.Forall₂ (fun path own => own.1 = path ∧
        localeOfPath options.localeInPath path = .ok own.2) paths a) := by
  refine alongside_mapM _ fun path _ => ?_
  refine (alongside_ofExcept h rfl).still fun a b pair => ?_
  obtain ⟨rfl, found⟩ := pair
  exact alongside_gives (gives_pure _) (gives_pure _) ⟨⟨rfl, rfl, found⟩, rfl, rfl⟩

theorem alongside_engineOf {data : Locale.Data} (h : alike one two) (locale : String) :
    Alongside excused alike one two (engineOf data locale) (engineOf data locale)
      (Still one two fun a b => a = b ∧ Engine.forLocale data locale = .ok a) := by
  refine (alongside_ofExcept h rfl).still fun a b pair => ?_
  obtain ⟨rfl, found⟩ := pair
  have known : Engine.forLocale data locale = .ok a := mapError_ok.mp found
  exact alongside_gives ((gives_sayLine _ _).bind (gives_pure _))
    ((gives_sayLine _ _).bind (gives_pure _)) ⟨⟨rfl, known⟩, rfl, rfl⟩

theorem alongside_enginesOf {data : Locale.Data} (h : alike one two) (locales : List String) :
    Alongside excused alike one two (enginesOf data locales) (enginesOf data locales)
      (Still one two fun a b => a = b ∧
        ∀ locale engine, (locale, engine) ∈ a.pairs →
          Engine.forLocale data locale = .ok engine) := by
  unfold enginesOf
  refine (alongside_mapM (fun _ own => Engine.forLocale data own.1 = .ok own.2)
    fun locale _ => ?_).still fun a b pair => ?_
  · refine (alongside_engineOf h locale).still fun a b pair => ?_
    obtain ⟨rfl, known⟩ := pair
    exact alongside_gives (gives_pure _) (gives_pure _) ⟨⟨rfl, known⟩, rfl, rfl⟩
  · obtain ⟨rfl, all⟩ := pair
    refine alongside_gives (gives_pure _) (gives_pure _) ⟨⟨rfl, fun locale engine there => ?_⟩,
      rfl, rfl⟩
    have own : ∀ pair ∈ a, Engine.forLocale data pair.1 = .ok pair.2 :=
      ((List.forall₂_and_left _ _).mp (all.flip.imp fun _ _ known => ⟨known, known⟩)).1
    exact own (locale, engine)
      (Keyed.mem_of_get?_ofList ((Keyed.get?_eq_some_iff _).mpr there))

/-- The files that modules are made with, other than the stores, lead elsewhere. -/
structure Elsewhere (data : Locale.Data) (options : Options) (names : List String) : Prop where
  template : ∀ path ∈ options.templateFile, Path.normal path ∉ names
  runtime : ∀ path ∈ options.runtimeFile, Path.normal path ∉ names
  rules : ∀ template ∈ options.rulesFile, ∀ locale engine,
    Engine.forLocale data locale = .ok engine →
    Path.normal (substituteLocale template options.placeholder engine.language) ∉ names

theorem namedText_congr (shape : one.SameShape two) (same : Tree.SameOff names one two)
    {path : String} (elsewhere : Path.normal path ∉ names) (what : String) :
    namedText one path what = namedText two path what := by
  rw [namedText, namedText, shape.isFile, shape.text same elsewhere]

theorem alongside_openWorkshop {data : Locale.Data} (h : alike one two)
    (shape : one.SameShape two) (same : Tree.SameOff names one two) {options : Options}
    (elsewhere : Elsewhere data options names) (locales : List String) :
    Alongside excused alike one two (openWorkshop data options locales)
      (openWorkshop data options locales) (Still one two Eq) := by
  unfold openWorkshop
  refine (alongside_enginesOf h locales).still fun engines _ pair => ?_
  obtain ⟨rfl, known⟩ := pair
  refine alongside_files.still fun _ _ pair => ?_
  obtain ⟨rfl, rfl⟩ := pair
  have template : templateText one options = templateText two options := by
    rw [templateText, templateText]
    cases named : options.templateFile with
    | none => rfl
    | some path => exact namedText_congr shape same (elsewhere.template path named) _
  have runtime : runtimeText one options = runtimeText two options := by
    rw [runtimeText, runtimeText]
    cases named : options.runtimeFile with
    | none => rfl
    | some path => exact namedText_congr shape same (elsewhere.runtime path named) _
  refine (alongside_ofExcept h template).still fun _ _ pair => ?_
  obtain ⟨rfl, -⟩ := pair
  refine (alongside_ofExcept h runtime).still fun _ _ pair => ?_
  obtain ⟨rfl, -⟩ := pair
  refine (alongside_mapM (fun _ _ => True) fun own there => ?_).still fun _ _ pair => ?_
  · have rules : rulesText one options own.2 = rulesText two options own.2 := by
      rw [rulesText, rulesText]
      cases named : options.rulesFile with
      | none => rfl
      | some template =>
          exact namedText_congr shape same
            (elsewhere.rules template named own.1 own.2 (known own.1 own.2 there)) _
    refine (alongside_ofExcept h rules).still fun _ _ pair => ?_
    obtain ⟨rfl, -⟩ := pair
    exact alongside_gives (gives_pure _) (gives_pure _) ⟨⟨rfl, trivial⟩, rfl, rfl⟩
  · obtain ⟨rfl, -⟩ := pair
    exact alongside_gives (gives_pure _) (gives_pure _) ⟨rfl, rfl, rfl⟩

end

end MessageCatalog.Project
