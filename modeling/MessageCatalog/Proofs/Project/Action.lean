import MessageCatalog.Project.Session
import MessageCatalog.Proofs.Basic
import MessageCatalog.Proofs.Files.Write

/-!
# MessageCatalog.Proofs.Project.Action -- what actions that succeed have done

An action that succeeds is taken apart from its end: every part of it has succeeded, each on the
session that the one before it left. What only looks at files or says something leaves the files as
they are.
-/

namespace MessageCatalog.Project

open MessageCatalog.Files MessageCatalog.Message MessageCatalog.Report MessageCatalog.Text

namespace Action

variable {α β : Type} {s t : Session}

/-! ## Parts of an action -/

theorem pure_ok {a b : α} : (pure a : Action α).run s = (.ok b, t) ↔ a = b ∧ s = t := by
  show ((Except.ok a, s) : Except Failure α × Session) = (.ok b, t) ↔ _
  simp

/-- The session that the first part leaves is the one that the second starts from. -/
theorem run_bind (x : Action α) (f : α → Action β) (s : Session) :
    (x >>= f).run s =
      (match (x.run s : Except Failure α × Session) with
      | (.ok a, u) => (f a).run u
      | (.error failure, u) => (.error failure, u)) := by
  show (ExceptT.bindCont f (x s : Except Failure α × Session).1 :
    StateM Session (Except Failure β)) (x s : Except Failure α × Session).2 = _
  show _ = match (x s : Except Failure α × Session) with
    | (.ok a, u) => (f a).run u
    | (.error failure, u) => (.error failure, u)
  rcases (x s : Except Failure α × Session) with ⟨_ | _, _⟩ <;> rfl

theorem bind_ok {x : Action α} {f : α → Action β} {b : β} :
    (x >>= f).run s = (.ok b, t) ↔
      ∃ a u, x.run s = (.ok a, u) ∧ (f a).run u = (.ok b, t) := by
  rw [run_bind]
  rcases (x.run s : Except Failure α × Session) with ⟨failure | a, u⟩
  · refine ⟨fun h => ?_, ?_⟩
    · cases h
    · rintro ⟨a, u', got, -⟩
      cases got
  · refine ⟨fun h => ⟨a, u, rfl, h⟩, ?_⟩
    rintro ⟨a', u', got, h⟩
    cases got
    exact h

/-- A part that comes to its end is followed by the next. -/
theorem run_bind_ok {x : Action α} {f : α → Action β} {a : α} (h : x.run s = (.ok a, t)) :
    (x >>= f).run s = (f a).run t := by
  rw [run_bind, h]

theorem throw_ok {failure : Failure} {b : α} :
    ¬(throw failure : Action α).run s = (.ok b, t) := by
  intro h
  cases h

theorem ofExcept_ok {x : Except Failure α} {b : α} :
    (ofExcept x).run s = (.ok b, t) ↔ x = .ok b ∧ s = t := by
  cases x with
  | ok a =>
      rw [ofExcept, pure_ok, Except.ok.injEq]
  | error failure =>
      refine ⟨fun h => absurd h throw_ok, ?_⟩
      rintro ⟨h, -⟩
      cases h

/-- An action without a result has succeeded when its outcome says so. -/
theorem run_of_isOk {x : Action Unit} (h : (x.run s).1.isOk = true) :
    x.run s = (.ok (), (x.run s).2) := by
  revert h
  rcases (x.run s : Except Failure Unit × Session) with ⟨failure | done, t⟩
  · intro h
    cases h
  · exact fun _ => rfl

/-- An action whose outcome says that it succeeded has not failed. -/
theorem ne_error_of_isOk {x : Action Unit} (h : (x.run s).1.isOk = true) (failure : Failure) :
    (x.run s).1 ≠ .error failure := by
  intro failed
  rw [failed] at h
  cases h

/-! ## Files and the log -/

theorem say_ok {lines : Log} {u : Unit} :
    (say lines).run s = (.ok u, t) ↔ { s with log := s.log ++ lines } = t := by
  show ((Except.ok (), { s with log := s.log ++ lines }) : Except Failure Unit × Session) =
    (.ok u, t) ↔ _
  simp

theorem tree_of_say {lines : Log} {u : Unit} (h : (say lines).run s = (.ok u, t)) :
    t.tree = s.tree := by
  rw [← say_ok.mp h]

theorem tree_of_sayLine {level : Level} {text : String} {u : Unit}
    (h : (sayLine level text).run s = (.ok u, t)) : t.tree = s.tree :=
  tree_of_say h

theorem files_ok {tree : Tree} : files.run s = (.ok tree, t) ↔ s.tree = tree ∧ s = t := by
  show ((Except.ok s.tree, s) : Except Failure Tree × Session) = (.ok tree, t) ↔ _
  simp

theorem write_ok {path text : String} {u : Unit} (h : (write path text).run s = (.ok u, t)) :
    s.tree.write (Path.ofText path) (encodeUtf8 text.toList) = .ok t.tree := by
  unfold write at h
  obtain ⟨s', u', got, h⟩ := bind_ok.mp h
  cases got
  split at h
  · next tree wrote =>
    cases h
    exact wrote
  · exact absurd h throw_ok

theorem readText_ok {path : String} {text : List Char} :
    (readText path).run s = (.ok text, t) ↔
      s.tree.text (Path.ofText path) = .ok text ∧ s = t := by
  unfold readText
  rw [bind_ok]
  constructor
  · rintro ⟨tree, u, got, h⟩
    obtain ⟨rfl, rfl⟩ := files_ok.mp got
    obtain ⟨read, rfl⟩ := ofExcept_ok.mp h
    exact ⟨mapError_ok.mp read, rfl⟩
  · rintro ⟨h, rfl⟩
    exact ⟨s.tree, s, files_ok.mpr ⟨rfl, rfl⟩, ofExcept_ok.mpr ⟨mapError_ok.mpr h, rfl⟩⟩

/-! ## Sources -/

theorem sources_ok {patterns found : List String}
    (h : (sources patterns).run s = (.ok found, t)) :
    found = (expandSources s.tree patterns).1 ∧ t.tree = s.tree := by
  unfold sources at h
  obtain ⟨tree, u, got, h⟩ := bind_ok.mp h
  obtain ⟨rfl, rfl⟩ := files_ok.mp got
  dsimp only at h
  obtain ⟨_, u', said, h⟩ := bind_ok.mp h
  obtain ⟨rfl, rfl⟩ := pure_ok.mp h
  exact ⟨rfl, tree_of_say said⟩

/-- The text of the file at a path, if there is one that can be read. -/
def textOf (tree : Tree) (path : String) : Option (List Char) :=
  (tree.text (Path.ofText path)).toOption

theorem readSource_ok {path : String} {text : Option (List Char)}
    (h : (readSource path).run s = (.ok text, t)) :
    text = textOf s.tree path ∧ t.tree = s.tree := by
  unfold readSource at h
  obtain ⟨tree, u, got, h⟩ := bind_ok.mp h
  obtain ⟨rfl, rfl⟩ := files_ok.mp got
  unfold textOf
  split at h
  · next found =>
    obtain ⟨rfl, rfl⟩ := pure_ok.mp h
    rw [found]
    exact ⟨rfl, rfl⟩
  · next failed =>
    obtain ⟨_, u', said, h⟩ := bind_ok.mp h
    obtain ⟨rfl, rfl⟩ := pure_ok.mp h
    rw [failed]
    exact ⟨rfl, tree_of_sayLine said⟩

theorem readAll_ok {paths : List String} {texts : List (String × List Char)}
    (h : (readAll paths).run s = (.ok texts, t)) :
    texts = paths.filterMap (fun path => (textOf s.tree path).map fun text => (path, text)) ∧
      t.tree = s.tree := by
  induction paths generalizing s texts with
  | nil =>
      obtain ⟨rfl, rfl⟩ := pure_ok.mp h
      exact ⟨rfl, rfl⟩
  | cons path rest ih =>
      unfold readAll at h
      obtain ⟨text, u, first, h⟩ := bind_ok.mp h
      obtain ⟨others, u', second, h⟩ := bind_ok.mp h
      obtain ⟨rfl, rfl⟩ := pure_ok.mp h
      obtain ⟨rfl, same⟩ := readSource_ok first
      obtain ⟨rfl, same'⟩ := ih second
      rw [same] at same'
      refine ⟨?_, same'⟩
      rw [same, List.filterMap_cons]
      cases textOf s.tree path <;> rfl

/-! ## Stores -/

theorem readStore_ok {source : String} {text : List Char} {store : Store} :
    (readStore source text).run s = (.ok store, t) ↔
      Store.read source text = .ok store ∧ s = t := by
  rw [readStore, ofExcept_ok, mapError_ok]

theorem readStoreOr_ok {level : Level} {source : String} {text : List Char} {store : Option Store}
    (h : (readStoreOr level source text).run s = (.ok store, t)) :
    store = (Store.read source text).toOption ∧ t.tree = s.tree := by
  unfold readStoreOr at h
  split at h
  · next found =>
    obtain ⟨rfl, rfl⟩ := pure_ok.mp h
    rw [found]
    exact ⟨rfl, rfl⟩
  · next failed =>
    obtain ⟨_, u, said, h⟩ := bind_ok.mp h
    obtain ⟨rfl, rfl⟩ := pure_ok.mp h
    rw [failed]
    exact ⟨rfl, tree_of_sayLine said⟩
  · exact absurd h throw_ok

theorem storeText_ok {options : Config.Options} {store : Store}
    {selection : Option (List String)} {text : String} :
    (storeText options store selection).run s = (.ok text, t) ↔
      Store.write store options.storeLayout options.flatStores selection = .ok text ∧ s = t := by
  rw [storeText, ofExcept_ok, mapError_ok]

/-! ## One after the other -/

/-- Parts that take a result on, one after the other, when each does what a function of the files
says and leaves the files as they are. -/
theorem foldlM_ok {step : β → α → Action β} (result : Tree → β → α → β)
    (one : ∀ {s t : Session} {b b' : β} {a : α}, (step b a).run s = (.ok b', t) →
      b' = result s.tree b a ∧ t.tree = s.tree)
    {items : List α} {b b' : β} (h : (items.foldlM step b).run s = (.ok b', t)) :
    b' = items.foldl (result s.tree) b ∧ t.tree = s.tree := by
  induction items generalizing s b with
  | nil =>
      obtain ⟨rfl, rfl⟩ := pure_ok.mp h
      exact ⟨rfl, rfl⟩
  | cons item rest ih =>
      rw [List.foldlM_cons] at h
      obtain ⟨next, u, first, h⟩ := bind_ok.mp h
      obtain ⟨rfl, same⟩ := one first
      obtain ⟨rfl, same'⟩ := ih h
      rw [same]
      exact ⟨rfl, same'.trans same⟩

/-- When all parts together succeed each of them has. -/
theorem foldlM_each {step : β → α → Action β} {items : List α} {b b' : β}
    (h : (items.foldlM step b).run s = (.ok b', t)) {item : α} (there : item ∈ items) :
    ∃ c c' u u', (step c item).run u = (.ok c', u') := by
  induction items generalizing s b with
  | nil => cases there
  | cons first rest ih =>
      rw [List.foldlM_cons] at h
      obtain ⟨next, u, own, h⟩ := bind_ok.mp h
      rcases List.mem_cons.mp there with rfl | there
      · exact ⟨b, next, s, u, own⟩
      · exact ih h there

end Action

end MessageCatalog.Project
