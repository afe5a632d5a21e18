import MessageCatalog.Project.Run
import MessageCatalog.Proofs.Project.Alongside
import MessageCatalog.Proofs.Project.Purge
import MessageCatalog.Proofs.Store.Broken

/-!
# MessageCatalog.Proofs.Project.Takes -- what operations do with the texts of stores

Three operations read the files of stores, and each does one thing with a text that is a store: it
writes one file. A text that is found to be no store leaves a line in the log and changes no file.
Only a text whose reading breaks off ends the operation.
-/

namespace MessageCatalog.Project

open MessageCatalog.Bundle MessageCatalog.Config MessageCatalog.Files MessageCatalog.Message
open MessageCatalog.Report MessageCatalog.Store MessageCatalog.Text

/-! ## Bytes that can be judged -/

/-- The bytes of a file hold a store, or they are found to hold none. -/
def Judged (content : List UInt8) : Prop :=
  ∀ chars, decodeUtf8 content = .ok chars → ∀ fault, ¬BreaksWith (unifyLineEnds chars) fault

/-- Only a surrogate that stands alone and the files of an entry can keep bytes from being judged. -/
theorem judged_of_not_breaks {content : List UInt8}
    (h : ∀ chars, decodeUtf8 content = .ok chars → ¬Breaks (unifyLineEnds chars)) :
    Judged content := by
  intro chars decoded fault broken
  rcases read_cases "" (unifyLineEnds chars) with ⟨store, read⟩ | ⟨error, read⟩ | ⟨-, breaks⟩
  · rw [broken.read ""] at read
    cases read
  · rw [broken.read ""] at read
    exact broken.other error (Except.error.inj read)
  · exact h chars decoded breaks

/-! ## The log only grows -/

namespace Action

variable {α β : Type}

/-- What was said before stays, however an action ends. -/
def SaysMore (x : Action α) : Prop := ∀ s : Session, s.log <+: (x.run s).2.log

theorem saysMore_pure (a : α) : SaysMore (pure a : Action α) := fun _ => List.prefix_rfl

theorem saysMore_ofExcept (x : Except Failure α) : SaysMore (ofExcept x) := by
  cases x <;> exact fun _ => List.prefix_rfl

theorem saysMore_say (lines : Log) : SaysMore (say lines) := fun _ => List.prefix_append _ _

theorem SaysMore.bind {x : Action α} {f : α → Action β} (first : SaysMore x)
    (second : ∀ a, SaysMore (f a)) : SaysMore (x >>= f) := by
  intro s
  have said := first s
  rw [run_bind]
  revert said
  rcases (x.run s : Except Failure α × Session) with ⟨failure | a, t⟩
  · exact id
  · exact fun said => said.trans (second a t)

theorem saysMore_write (path text : String) : SaysMore (write path text) := by
  intro s
  have got : (get : Action Session).run s = (.ok s, s) := rfl
  unfold write
  rw [run_bind_ok got]
  cases s.tree.writeText (Path.ofText path) text <;> exact List.prefix_rfl

theorem saysMore_readStoreOr (level : Level) (source : String) (text : List Char) :
    SaysMore (readStoreOr level source text) := by
  unfold readStoreOr
  split
  · exact saysMore_pure _
  · exact (saysMore_say _).bind fun _ => saysMore_pure _
  · exact fun _ => List.prefix_rfl

end Action

/-! ## What an operation does with the text of a store -/

/-- An action does nothing to the files. -/
def Idle (x : Action Unit) : Prop := ∀ tree, Action.Gives x tree () tree

/-- An action writes a text to a file, or fails with it. -/
structure Writes (x : Action Unit) (path text : String) : Prop where
  done : ∀ {tree after}, tree.write (Path.ofText path) (encodeUtf8 text.toList) = .ok after →
    Action.Gives x tree () after
  failed : ∀ {tree fault}, tree.write (Path.ofText path) (encodeUtf8 text.toList) = .error fault →
    Action.Fails x tree (.unwritable fault) tree

/-- What is made of the stores of some paths is written to files, one for each path. A text that is
found to be no store is reported, and nothing is written for it. -/
structure Takes (level : Level) (step : String → List Char → Action Unit)
    (out : String → String) : Prop where
  stores : ∀ path,
    (∀ text store, Store.read path text = .ok store → Idle (step path text)) ∨
    (∀ text store, Store.read path text = .ok store →
      ∃ made, Writes (step path text) (out path) made)
  others : ∀ path text error, Store.read path text = .error (.format error) →
    ∀ s : Session,
      (step path text).run s = (.ok (), ⟨s.tree, s.log ++ [⟨level, error.message⟩]⟩)
  broken : ∀ path {text fault}, BreaksWith text fault →
    ∀ tree, Action.Fails (step path text) tree (.store fault) tree
  saysMore : ∀ path text, Action.SaysMore (step path text)

theorem Takes.idle {level : Level} {step : String → List Char → Action Unit} {out : String → String}
    (h : Takes level step out) {path : String} {text : List Char} {error : FormatError}
    (read : Store.read path text = .error (.format error)) : Idle (step path text) :=
  fun _ s same => ⟨_, h.others path text error read s, same⟩

theorem writes_write {path text : String} : Writes (Action.write path text) path text :=
  ⟨fun wrote => Action.gives_write wrote, fun failed => Action.fails_write failed⟩

theorem Writes.after {α : Type} {x : Action α} {f : α → Action Unit} {a : α} {path text : String}
    (gives : ∀ tree, Action.Gives x tree a tree) (h : Writes (f a) path text) :
    Writes (x >>= f) path text :=
  ⟨fun wrote => (gives _).bind (h.done wrote), fun failed => (gives _).fails (h.failed failed)⟩

theorem Writes.before {x y : Action Unit} {path text : String} (h : Writes x path text)
    (idle : Idle y) : Writes (x >>= fun _ => y) path text :=
  ⟨fun wrote => (h.done wrote).bind (idle _), fun failed => (h.failed failed).bind _⟩

/-- Reading a text that is found to be none leaves a line. -/
theorem run_readStoreOr {level : Level} {source : String} {text : List Char} {error : FormatError}
    (h : Store.read source text = .error (.format error)) (s : Session) :
    (Action.readStoreOr level source text).run s =
      (.ok none, ⟨s.tree, s.log ++ [⟨level, error.message⟩]⟩) := by
  unfold Action.readStoreOr
  rw [h]
  rfl

theorem fails_readStoreOr {level : Level} {source : String} {text : List Char}
    {fault : Store.Fault} (h : BreaksWith text fault) (tree : Tree) :
    Action.Fails (Action.readStoreOr level source text) tree (.store fault) tree := by
  unfold Action.readStoreOr
  rw [h.read]
  cases fault with
  | format error => exact absurd rfl (h.other error)
  | _ => exact Action.fails_throw _ _

theorem takes_buildModule (options : Options) (destination : String) (workshop : Workshop)
    (localeOf : String → String) :
    Takes .error (fun path text => buildModule options destination workshop path (localeOf path) text)
      fun path => substituteLocale destination options.placeholder (localeOf path) where
  stores path := by
    cases engine : workshop.engines.get? (localeOf path) with
    | none =>
        refine Or.inl fun text store read tree => ?_
        unfold buildModule
        rw [engine]
        exact (Action.gives_readStoreOr read).bind (Action.gives_pure _)
    | some engine' =>
        refine Or.inr fun text store read => ⟨String.ofList (Parts.render
          ⟨localeOf path, options.objectName, (workshop.rules.get? (localeOf path)).getD [],
            workshop.runtime, (compileStore options engine' store (some path)).1⟩
          workshop.template), ?_⟩
        unfold buildModule
        rw [engine]
        refine Writes.after (fun _ => Action.gives_readStoreOr read) ?_
        refine Writes.after (fun _ => Action.gives_say _) ?_
        refine Writes.after (fun _ => Action.gives_sayLine _ _) ?_
        exact writes_write.before fun _ => Action.gives_sayLine _ _
  others path text error read s := by
    unfold buildModule
    rw [Action.run_bind, run_readStoreOr read]
    cases workshop.engines.get? (localeOf path) <;> rfl
  broken path text fault read tree := by
    unfold buildModule
    exact (fails_readStoreOr read tree).bind _
  saysMore path text := by
    unfold buildModule
    refine (Action.saysMore_readStoreOr _ _ _).bind fun store => ?_
    split
    · refine (Action.saysMore_say _).bind fun _ => (Action.saysMore_say _).bind fun _ => ?_
      exact (Action.saysMore_write _ _).bind fun _ => Action.saysMore_say _
    · exact Action.saysMore_pure _

theorem takes_exportStore (options : Options) (destination : String)
    (localeOf : String → String) :
    Takes .error (fun path text => exportStore options destination path (localeOf path) text)
      fun path => substituteLocale destination options.placeholder (localeOf path) where
  stores path := by
    refine Or.inr fun text store read => ⟨Sheet.writeStore options.sheet store (localeOf path), ?_⟩
    unfold exportStore
    refine Writes.after (fun _ => Action.gives_readStoreOr read) ?_
    refine Writes.after (fun _ => Action.gives_sayLine _ _) ?_
    exact writes_write.before fun _ => Action.gives_sayLine _ _
  others path text error read s := by
    unfold exportStore
    rw [Action.run_bind, run_readStoreOr read]
    rfl
  broken path text fault read tree := by
    unfold exportStore
    exact (fails_readStoreOr read tree).bind _
  saysMore path text := by
    unfold exportStore
    refine (Action.saysMore_readStoreOr _ _ _).bind fun store => ?_
    cases store with
    | none => exact Action.saysMore_pure _
    | some store =>
        refine (Action.saysMore_say _).bind fun _ => ?_
        exact (Action.saysMore_write _ _).bind fun _ => Action.saysMore_say _

/-! ## Entries that are taken in -/

section

variable {options : Options}

/-- The bytes of a file are text, and can be judged. -/
def Legible (content : List UInt8) : Prop :=
  (∃ chars, decodeUtf8 content = .ok chars) ∧ Judged content

theorem legible_of_storeIn {content : List UInt8} {store : Store} (h : StoreIn content store) :
    Legible content := by
  obtain ⟨chars, decoded, read⟩ := h
  refine ⟨⟨chars, decoded⟩, fun chars' decoded' fault broken => ?_⟩
  rw [decoded] at decoded'
  cases decoded'
  cases (read "").symm.trans (broken.read "")

/-- Takes entries into the store of a text, and writes it back. -/
def takeInto (options : Options) (entries : Keyed Entry) (path : String) (text : List Char) :
    Action Unit := do
  match ← Action.readStoreOr .warning path text with
  | none => return ()
  | some store =>
    Action.write path (← Action.storeText options (extendAll store entries.pairs true) none)
    Action.sayLine .info s!"Updated locale file {path}."

/-- What is written for a store is a store again. -/
theorem writes_takeInto {layout : Json.Layout} (chosen : options.storeLayout = some layout)
    (blank : layout.Blank) (entries : Keyed Entry) {path : String} {text : List Char}
    {store : Store} (read : Store.read path text = .ok store) :
    ∃ made written, Writes (takeInto options entries path text) path made ∧
      StoreIn (encodeUtf8 made.toList) written := by
  have entries' := holds_extendAll_update (holds_of_read read) entries
  obtain ⟨made, _, wrote, -⟩ := read_text entries' blank options.flatStores none path
  rw [← chosen] at wrote
  obtain ⟨written, isWritten, -⟩ := storeIn_write entries'
    (fun other there => by rw [chosen] at there; cases there; exact blank) wrote
  refine ⟨made, written, ?_, isWritten⟩
  refine Writes.after (fun _ => Action.gives_readStoreOr read) ?_
  refine Writes.after (fun _ => Action.gives_storeText wrote) ?_
  exact writes_write.before fun _ => Action.gives_sayLine _ _

theorem takes_takeInto {layout : Json.Layout} (chosen : options.storeLayout = some layout)
    (blank : layout.Blank) (entries : Keyed Entry) : Takes .warning (takeInto options entries) id where
  stores path := by
    refine Or.inr fun text store read => ?_
    obtain ⟨made, -, writes, -⟩ := writes_takeInto chosen blank entries read
    exact ⟨made, writes⟩
  others path text error read s := by
    unfold takeInto
    rw [Action.run_bind, run_readStoreOr read]
    rfl
  broken path _ _ read tree := (fails_readStoreOr read tree).bind _
  saysMore path text := by
    refine (Action.saysMore_readStoreOr _ _ _).bind fun store => ?_
    cases store with
    | none => exact Action.saysMore_pure _
    | some store =>
        refine (Action.saysMore_ofExcept _).bind fun _ => ?_
        exact (Action.saysMore_write _ _).bind fun _ => Action.saysMore_say _

/-- Bytes that are taken into stay as they are, or they hold a store and legible bytes come in their
place. -/
theorem gives_takeInto {layout : Json.Layout} (chosen : options.storeLayout = some layout)
    (blank : layout.Blank) (entries : Keyed Entry) {tree : Tree} {path : String}
    {content : List UInt8} (leads : tree.Leads path content) (judged : Judged content)
    {text : List Char} (read : tree.text (Path.ofText path) = .ok text) :
    ∃ after, Action.Gives (takeInto options entries path text) tree () after ∧
      after.SameShape tree ∧ Tree.SameOff [Path.normal path] after tree ∧
      (after.files.get? (Path.normal path) = some content ∨
        (∃ store, StoreIn content store) ∧
          ∃ content', after.files.get? (Path.normal path) = some content' ∧ Legible content') := by
  obtain ⟨chars, decoded, rfl⟩ := leads.text_ok.mp read
  rcases read_cases path (unifyLineEnds chars) with ⟨store, isStore⟩ | ⟨error, none⟩ | ⟨⟨fault, broken⟩, -⟩
  · obtain ⟨made, written, writes, isWritten⟩ := writes_takeInto chosen blank entries isStore
    obtain ⟨after, stored, folders, keys⟩ := leads.overwrite (encodeUtf8 made.toList)
    refine ⟨after, writes.done stored, ⟨folders, keys⟩, Tree.sameOff_write stored, Or.inr
      ⟨⟨store, chars, decoded, read_source isStore⟩, _, ?_, legible_of_storeIn isWritten⟩⟩
    rw [Tree.get?_write stored, if_pos rfl]
  · exact ⟨tree, (takes_takeInto chosen blank entries).idle none tree, ⟨rfl, rfl⟩,
      fun _ _ => rfl, Or.inl leads.held⟩
  · exact absurd broken (judged chars decoded fault)

end

/-! ## The texts at paths -/

section

variable {level : Level} {step : String → List Char → Action Unit} {out : String → String}
  {one two : Tree} {path : String}

/-- What is done with the text that a path leads to. -/
def stepAt (step : String → List Char → Action Unit) (tree : Tree) (path : String) : Action Unit :=
  (Action.textOf tree path).elim (pure ()) (step path)

/-- A file that can be judged is a store, or nothing is done with it. -/
theorem storeAt_or_idle (takes : Takes level step out) {tree : Tree}
    (judged : ∀ content, tree.files.get? (Path.normal path) = some content → Judged content) :
    (∃ store, StoreAt tree path store) ∨ Idle (stepAt step tree path) := by
  unfold stepAt
  cases found : Action.textOf tree path with
  | none => exact Or.inr fun _ => Action.gives_pure _
  | some text =>
      have read := textOf_eq_some.mp found
      rcases read_cases path text with ⟨store, isStore⟩ | ⟨error, none⟩ | ⟨⟨fault, broken⟩, -⟩
      · exact Or.inl ⟨store, text, read, isStore⟩
      · exact Or.inr (takes.idle none)
      · obtain ⟨content, chars, leads, decoded, rfl⟩ := Tree.leads_of_text read
        exact absurd broken (judged content leads.held chars decoded fault)

theorem stepAt_storeAt (step : String → List Char → Action Unit) {tree : Tree} {store : Store}
    (h : StoreAt tree path store) :
    ∃ text, stepAt step tree path = step path text ∧ Store.read path text = .ok store := by
  obtain ⟨text, read, isStore⟩ := h
  refine ⟨text, ?_, isStore⟩
  rw [stepAt, textOf_eq_some.mpr read]
  rfl

theorem storeUnder_of_storeAt {tree : Tree} {store : Store} (h : StoreAt tree path store) :
    StoreUnder tree (Path.normal path) store := by
  obtain ⟨text, read, isStore⟩ := h
  obtain ⟨content, chars, leads, decoded, rfl⟩ := Tree.leads_of_text read
  exact ⟨content, leads.held, chars, decoded, read_source isStore⟩

/-- The line of a file that cannot be read as a text. -/
def unread (tree : Tree) (path : String) : Log :=
  match tree.text (Path.ofText path) with
  | .ok _ => []
  | .error fault => [⟨.error, s!"Unable to read {path}: {fault.message}"⟩]

theorem unread_of_error {tree : Tree} {path : String} {fault : ReadFault}
    (failed : tree.text (Path.ofText path) = .error fault) :
    unread tree path = [⟨.error, s!"Unable to read {path}: {fault.message}"⟩] := by
  unfold unread
  rw [failed]

theorem run_readAll (paths : List String) (s : Session) :
    (Action.readAll paths).run s =
      (.ok (paths.filterMap fun path => (Action.textOf s.tree path).map fun text => (path, text)),
        ⟨s.tree, s.log ++ paths.flatMap (unread s.tree)⟩) := by
  induction paths generalizing s with
  | nil =>
      rw [List.flatMap_nil, List.append_nil]
      rfl
  | cons path rest ih =>
      have one : (Action.readSource path).run s =
          (.ok (Action.textOf s.tree path), ⟨s.tree, s.log ++ unread s.tree path⟩) := by
        unfold Action.readSource Action.textOf unread
        rw [Action.run_bind_ok (Action.files_ok.mpr ⟨rfl, rfl⟩)]
        cases s.tree.text (Path.ofText path) with
        | ok text =>
            rw [List.append_nil]
            rfl
        | error fault => rfl
      rw [Action.readAll, Action.run_bind_ok one, Action.run_bind_ok (ih _)]
      rw [List.filterMap_cons, List.flatMap_cons, List.append_assoc]
      cases Action.textOf s.tree path <;> rfl

/-- What is done with the texts of some paths. -/
def stepAll (step : String → List Char → Action Unit) (tree : Tree) (paths : List String) :
    Action Unit :=
  (paths.filterMap fun path => (Action.textOf tree path).map fun text => (path, text)).forM
    fun own => step own.1 own.2

theorem stepAll_cons (tree : Tree) (rest : List String) :
    stepAll step tree (path :: rest) = (stepAt step tree path >>= fun _ => stepAll step tree rest) := by
  unfold stepAll stepAt
  rw [List.filterMap_cons]
  cases Action.textOf tree path <;> rfl

theorem saysMore_stepAt (takes : Takes level step out) (tree : Tree) (path : String) :
    Action.SaysMore (stepAt step tree path) := by
  unfold stepAt
  cases Action.textOf tree path with
  | none => exact Action.saysMore_pure _
  | some text => exact takes.saysMore path text

/-- What was done at a path when the operation goes on behind it. -/
structure Done (level : Level) (out : String → String) (tree : Tree) (path : String)
    (s t : Session) : Prop where
  /-- A text that is found to be no store has its line. -/
  reported : ∀ text error, Action.textOf tree path = some text →
    Store.read path text = .error (.format error) → ⟨level, error.message⟩ ∈ t.log
  /-- A file that changed is that of a store. -/
  changed : ∀ key, t.tree.files.get? key ≠ s.tree.files.get? key →
    (∃ store, StoreAt tree path store) ∧ key = Path.normal (out path)

theorem stepAt_ok (takes : Takes level step out) {tree : Tree} {s t : Session}
    (ran : (stepAt step tree path).run s = (.ok (), t)) : Done level out tree path s t := by
  unfold stepAt at ran
  cases found : Action.textOf tree path with
  | none =>
      rw [found] at ran
      obtain ⟨-, rfl⟩ := Action.pure_ok.mp ran
      refine ⟨fun text error other => ?_, fun key differs => absurd rfl differs⟩
      rw [found] at other
      cases other
  | some text =>
      rw [found] at ran
      have own : ∀ {other}, Action.textOf tree path = some other → other = text := fun same =>
        Option.some.inj (same.symm.trans found)
      rcases read_cases path text with ⟨store, read⟩ | ⟨error, read⟩ | ⟨⟨fault, broken⟩, -⟩
      · refine ⟨fun other error same none => ?_, fun key differs => ?_⟩
        · rw [own same, read] at none
          cases none
        · have isStore : ∃ store, StoreAt tree path store :=
            ⟨store, text, textOf_eq_some.mp found, read⟩
          refine ⟨isStore, ?_⟩
          rcases takes.stores path with idle | writes
          · obtain ⟨u, ran', same⟩ := idle text store read s.tree s rfl
            cases ran'.symm.trans ran
            exact absurd (by rw [same]) differs
          obtain ⟨made, writes⟩ := writes text store read
          cases wrote : s.tree.write (Path.ofText (out path)) (encodeUtf8 made.toList) with
          | error fault =>
              obtain ⟨u, ran', -⟩ := writes.failed wrote s rfl
              cases ran'.symm.trans ran
          | ok after =>
              obtain ⟨u, ran', same⟩ := writes.done wrote s rfl
              cases ran'.symm.trans ran
              by_contra other
              exact differs (by rw [same, Tree.get?_write wrote, if_neg other])
      · have ran' := takes.others path text error read s
        cases ran'.symm.trans ran
        refine ⟨fun other error' same none => ?_, fun key differs => absurd rfl differs⟩
        rw [own same, read] at none
        cases none
        exact List.mem_append_right _ List.mem_cons_self
      · obtain ⟨u, ran', -⟩ := takes.broken path broken s.tree s rfl
        cases ran'.symm.trans ran

/-- What was done when an operation has come to its end: every path was done with, and no file has
changed but those of stores. -/
theorem stepAll_ok (takes : Takes level step out) {tree : Tree} {paths : List String}
    {s t : Session} (ran : (stepAll step tree paths).run s = (.ok (), t)) :
    s.log <+: t.log ∧
    (∀ path ∈ paths, ∀ text error, Action.textOf tree path = some text →
      Store.read path text = .error (.format error) → ⟨level, error.message⟩ ∈ t.log) ∧
    ∀ key, t.tree.files.get? key ≠ s.tree.files.get? key →
      ∃ path ∈ paths, (∃ store, StoreAt tree path store) ∧ key = Path.normal (out path) := by
  induction paths generalizing s with
  | nil =>
      obtain ⟨-, rfl⟩ := Action.pure_ok.mp ran
      exact ⟨List.prefix_rfl, fun path there => absurd there List.not_mem_nil,
        fun key differs => absurd rfl differs⟩
  | cons path rest ih =>
      rw [stepAll_cons] at ran
      obtain ⟨_, u, first, others⟩ := Action.bind_ok.mp ran
      have done := stepAt_ok takes first
      have said := saysMore_stepAt takes tree path s
      rw [first] at said
      obtain ⟨said', reported, changed⟩ := ih others
      refine ⟨said.trans said', ?_, fun key differs => ?_⟩
      · rintro other (_ | ⟨_, there⟩) text error found none
        · exact said'.subset (done.reported text error found none)
        · exact reported other there text error found none
      · by_cases later : t.tree.files.get? key = u.tree.files.get? key
        · rw [later] at differs
          exact ⟨path, List.mem_cons_self, done.changed key differs⟩
        · obtain ⟨other, there, isStore⟩ := changed key later
          exact ⟨other, List.mem_cons_of_mem _ there, isStore⟩

end

end MessageCatalog.Project
