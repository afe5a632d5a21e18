import MessageCatalog.Proofs.Bundle.Wrapped
import MessageCatalog.Proofs.Script.Literal

/-!
# MessageCatalog.Proofs.Bundle.Independent -- messages are compiled one by one

Every key of a store is compiled as if it were the only one. Of the keys with a script under one
name the last in order gives the script, and two keys share a name only when they are the same in
small form, which takes a minifier for keys. A key with a fault has no script, and the others have
the scripts that they have without it.
-/

namespace MessageCatalog.Bundle

open MessageCatalog.Config MessageCatalog.Message MessageCatalog.Report

open MessageCatalog.Sheet (plainEngine)

variable {options : Options} {engine : Engine} {file : Option String} {store : Store}

/-! ## One key of many -/

theorem valueOf_only (store : Store) (key : String) :
    valueOf (store.only key) key = valueOf store key := by
  rw [valueOf, valueOf, Keyed.get?_only]

theorem valueOf_erase (store : Store) {key other : String} (apart : other ≠ key) :
    valueOf (store.erase key) other = valueOf store other := by
  rw [valueOf, valueOf, Keyed.get?_erase_of_ne store apart]

/-- What a key alone is compiled to under a name. -/
theorem get?_compileStore_only {key : String} (there : key ∈ store.keys) (name : String) :
    (compileStore options engine (store.only key) file).1.get? name =
      scriptUnder options engine name key (valueOf store key) := by
  have keys : (store.only key).sortedKeys = [key] := by
    rw [Keyed.sortedKeys, Keyed.keys_only there]
    exact Keyed.ascending_of_pairwise (List.pairwise_singleton _ _)
  rw [compileStore_messages, keys]
  show (addMessage options engine file (Keyed.empty, []) key (valueOf _ key)).1.get? name = _
  rw [get?_addMessage, valueOf_only]
  exact Option.or_none

/-- Of the messages that have a script under a name the last one gives it. -/
theorem get?_addMessages (name : String) (keys : List String) (done : CompiledMessages × Log) :
    (addMessages options engine file store done keys).1.get? name =
      (keys.reverse.findSome? fun key => scriptUnder options engine name key (valueOf store key)).or
        (done.1.get? name) := by
  induction keys using List.reverseRecOn with
  | nil => rfl
  | append_singleton front last ih =>
      rw [addMessages, List.foldl_append, List.foldl_cons, List.foldl_nil, get?_addMessage]
      rw [addMessages] at ih
      rw [ih, List.reverse_append, List.reverse_singleton, List.singleton_append,
        List.findSome?_cons]
      cases scriptUnder options engine name last (valueOf store last) <;> rfl

/-- The names of a store in order, cut at one of them: what stands behind it is what is greater. -/
theorem mem_behind_iff {front back : List String} {key later : String}
    (cut : store.sortedKeys = front ++ key :: back) :
    later ∈ back ↔ later ∈ store.keys ∧ key < later := by
  have ordered : (front ++ key :: back).Pairwise (· ≤ ·) := cut ▸ Keyed.pairwise_ascending store.keys
  have distinct : (front ++ key :: back).Nodup :=
    cut ▸ Keyed.nodup_ascending.mpr store.nodup_keys
  have names : later ∈ store.keys ↔ later ∈ front ++ key :: back := by
    rw [← cut, Keyed.sortedKeys, Keyed.mem_ascending]
  rw [List.pairwise_append, List.pairwise_cons] at ordered
  rw [List.nodup_append, List.nodup_cons] at distinct
  obtain ⟨-, ⟨behind, -⟩, before⟩ := ordered
  obtain ⟨-, ⟨absent, -⟩, -⟩ := distinct
  rw [names]
  constructor
  · intro there
    refine ⟨List.mem_append_right _ (List.mem_cons_of_mem _ there),
      lt_of_le_of_ne (behind later there) ?_⟩
    rintro rfl
    exact absent there
  · rintro ⟨there, greater⟩
    rcases List.mem_append.mp there with there | there
    · exact absurd (before later there key List.mem_cons_self) (not_le_of_gt greater)
    · exact (List.mem_cons.mp there).resolve_left (ne_of_gt greater)

/-- The script under a name is that of the last key that has one alone. -/
theorem get?_compileStore_eq_some {name script : String} :
    (compileStore options engine store file).1.get? name = some script ↔
      ∃ key ∈ store.keys,
        scriptUnder options engine name key (valueOf store key) = some script ∧
        ∀ later ∈ store.keys, key < later →
          scriptUnder options engine name later (valueOf store later) = none := by
  have nothing : (Keyed.empty : CompiledMessages).get? name = none := rfl
  rw [compileStore_messages, get?_addMessages]
  dsimp only
  rw [nothing, Option.or_none, List.findSome?_eq_some_iff]
  constructor
  · rintro ⟨behind, key, before, cut, found, none_of⟩
    have cut : store.sortedKeys = before.reverse ++ key :: behind.reverse := by
      rw [← List.reverse_reverse store.sortedKeys, cut]
      simp
    refine ⟨key, ?_, found, fun later there greater => none_of later ?_⟩
    · rw [← Keyed.mem_ascending, ← Keyed.sortedKeys, cut]
      simp
    · exact List.mem_reverse.mp ((mem_behind_iff cut).mpr ⟨there, greater⟩)
  · rintro ⟨key, there, found, none_of⟩
    obtain ⟨front, back, cut⟩ := List.append_of_mem (Keyed.mem_ascending.mpr there)
    refine ⟨back.reverse, key, front.reverse, ?_, found, fun later behind => ?_⟩
    · rw [Keyed.sortedKeys, cut]
      simp
    · obtain ⟨known, greater⟩ := (mem_behind_iff cut).mp (List.mem_reverse.mp behind)
      exact none_of later known greater

/-! ## Keys under one name -/

/-- A literal is read back to the text that it denotes, so different texts have different ones. -/
theorem literal_injective : Function.Injective Script.literal := by
  intro one two same
  have read : Script.decode (Script.literal one) = .ok one := Script.decode_quoted (.inl rfl) one
  rw [same] at read
  exact Except.ok.inj (read.symm.trans (Script.decode_quoted (.inl rfl) two))

/-- The name of a message is its key in small form, escaped and in quotes. -/
theorem shrink_of_scriptUnder {name key value script : String}
    (found : scriptUnder options engine name key value = some script) :
    ∃ small, Content.shrink (Content.keyMinifier options) key.toList = .ok small ∧
      name.toList = Script.literal small := by
  obtain ⟨content, prepared⟩ : ∃ content, prepare options key.toList value.toList =
      .ok (name.toList, content) := by
    by_contra none
    rw [scriptUnder_of_other (not_exists.mp none)] at found
    cases found
  obtain ⟨cleaned, clean, afterClean⟩ := exists_bind_eq_ok prepared
  obtain ⟨_, -, last⟩ := exists_bind_eq_ok afterClean
  obtain ⟨small, shrunk, written⟩ := clean_key (mapError_ok.mp clean)
  refine ⟨small, shrunk, ?_⟩
  rw [Script.literal, ← written]
  exact (congrArg Prod.fst (Except.ok.inj last)).symm

/-- Two keys with scripts under one name are the same in small form. -/
theorem shrink_eq_of_scriptUnder {name key value script other value' script' : String}
    (one : scriptUnder options engine name key value = some script)
    (two : scriptUnder options engine name other value' = some script') :
    ∃ small, Content.shrink (Content.keyMinifier options) key.toList = .ok small ∧
      Content.shrink (Content.keyMinifier options) other.toList = .ok small := by
  obtain ⟨small, shrunk, written⟩ := shrink_of_scriptUnder one
  obtain ⟨small', shrunk', written'⟩ := shrink_of_scriptUnder two
  obtain rfl : small = small' := literal_injective (written.symm.trans written')
  exact ⟨small, shrunk, shrunk'⟩

/-! ## Keys without a script -/

theorem messages_addMessage (done : CompiledMessages × Log) (key value : String) :
    (addMessage options engine file done key value).1 =
      match compileMessage options engine key.toList value.toList with
      | .ok (some (name, script)) => done.1.set (String.ofList name) (String.ofList script)
      | _ => done.1 := by
  unfold addMessage
  cases compileMessage options engine key.toList value.toList with
  | error problem => rfl
  | ok written => cases written <;> rfl

/-- A key with a fault changes nothing for the keys that are left when it is taken out. -/
theorem messages_erase {key : String} {problem : Problem}
    (fault : compileMessage options engine key.toList (valueOf store key).toList = .error problem)
    (keys : List String) {done done' : CompiledMessages × Log} (same : done.1 = done'.1) :
    (addMessages options engine file (store.erase key) done (keys.filter fun k => k != key)).1 =
      (addMessages options engine file store done' keys).1 := by
  induction keys generalizing done done' with
  | nil => exact same
  | cons first rest ih =>
      by_cases own : first = key
      · subst own
        rw [List.filter_cons_of_neg (by simp)]
        refine ih ?_
        dsimp only
        rw [messages_addMessage, fault, same]
      · rw [List.filter_cons_of_pos (by simpa using own)]
        refine ih ?_
        dsimp only
        rw [messages_addMessage, messages_addMessage, valueOf_erase store own, same]

/-! ## All messages of a store -/

/-- What a store is compiled to is what each of its keys alone is compiled to. A name has the script
of the last key, in ascending order, that has one under it alone, and no script when no key has one.
Different keys have scripts under one name only when keys are made smaller and these are the same
then. A key with a fault has no script, and without it the store is compiled to the same. -/
theorem compileStore_independent (options : Options) (engine : Engine) (store : Store)
    (file : Option String) :
    (∀ name script, (compileStore options engine store file).1.get? name = some script ↔
      ∃ key ∈ store.keys,
        (compileStore options engine (store.only key) file).1.get? name = some script ∧
        ∀ later ∈ store.keys, key < later →
          name ∉ (compileStore options engine (store.only later) file).1.keys) ∧
    (∀ key ∈ store.keys, ∀ other ∈ store.keys, key ≠ other → ∀ name,
      name ∈ (compileStore options engine (store.only key) file).1.keys →
      name ∈ (compileStore options engine (store.only other) file).1.keys →
      ∃ minifier small, Content.keyMinifier options = some minifier ∧
        Content.shrink (some minifier) key.toList = .ok small ∧
        Content.shrink (some minifier) other.toList = .ok small) ∧
    ∀ key ∈ store.keys, ∀ problem,
      compileMessage options engine key.toList (valueOf store key).toList = .error problem →
      (compileStore options engine (store.only key) file).1.keys = [] ∧
        (compileStore options engine (store.erase key) file).1 =
          (compileStore options engine store file).1 := by
  refine ⟨fun name script => ?_, fun key there other there' apart name one two => ?_,
    fun key there problem fault => ⟨?_, ?_⟩⟩
  · rw [get?_compileStore_eq_some]
    refine exists_congr fun key => and_congr_right fun there => ?_
    rw [get?_compileStore_only there]
    refine and_congr_right fun _ => forall₃_congr fun later known _ => ?_
    rw [← Keyed.get?_eq_none_iff, get?_compileStore_only known]
  · obtain ⟨script, one⟩ := (Keyed.mem_keys_iff _).mp one
    obtain ⟨script', two⟩ := (Keyed.mem_keys_iff _).mp two
    rw [get?_compileStore_only there] at one
    rw [get?_compileStore_only there'] at two
    obtain ⟨small, shrunk, shrunk'⟩ := shrink_eq_of_scriptUnder one two
    cases minifier : Content.keyMinifier options with
    | none =>
        -- keys that are left as they are have names of their own
        rw [minifier] at shrunk shrunk'
        have same : key.toList = other.toList := Except.ok.inj (shrunk.trans shrunk'.symm)
        exact absurd (String.toList_injective same) apart
    | some minifier' =>
        rw [minifier] at shrunk shrunk'
        exact ⟨minifier', small, rfl, shrunk, shrunk'⟩
  · refine List.eq_nil_iff_forall_not_mem.mpr fun name named => ?_
    obtain ⟨script, found⟩ := (Keyed.mem_keys_iff _).mp named
    rw [get?_compileStore_only there, scriptUnder, fault] at found
    cases found
  · rw [compileStore_messages, compileStore_messages, Keyed.sortedKeys, Keyed.keys_erase,
      Keyed.ascending_filter]
    exact messages_erase fault _ rfl

/-! ## Keys that are the same in small form -/

/-- Options that make contents and keys smaller. -/
def smallKeys : Options :=
  { smallOptions with contentMinifier := some ⟨true, true⟩, keyMinifier := some ⟨true, true⟩ }

/-- Two keys that differ in white space, and a key whose text is no message. -/
def spacedKeys : Store :=
  Keyed.ofList [("a  b", .bare "x"), ("a b", .bare "y"), ("c", .bare "\x7b")]

/-- The name of both keys. -/
def spacedName : String := "\"a b\""

/-- Each of the two keys alone has a script under the name, and these differ. -/
theorem pairs_spacedKeys_only :
    (compileStore smallKeys plainEngine (spacedKeys.only "a  b") none).1.pairs =
        [(spacedName, "\"x\"")] ∧
      (compileStore smallKeys plainEngine (spacedKeys.only "a b") none).1.pairs =
        [(spacedName, "\"y\"")] ∧
      (compileMessage smallKeys plainEngine "c".toList (valueOf spacedKeys "c").toList).isOk =
        false := by decide +kernel

/-- The last of the two keys gives the script, and the key with a fault makes no difference. -/
theorem compileStore_independent_spacedKeys :
    (compileStore smallKeys plainEngine spacedKeys none).1.get? spacedName = some "\"y\"" ∧
    (∃ minifier small, Content.keyMinifier smallKeys = some minifier ∧
      Content.shrink (some minifier) "a  b".toList = .ok small ∧
      Content.shrink (some minifier) "a b".toList = .ok small) ∧
    (compileStore smallKeys plainEngine (spacedKeys.erase "c") none).1 =
      (compileStore smallKeys plainEngine spacedKeys none).1 := by
  obtain ⟨scripts, alike, faults⟩ := compileStore_independent smallKeys plainEngine spacedKeys none
  obtain ⟨first, second, fault⟩ := pairs_spacedKeys_only
  obtain ⟨problem, fault⟩ : ∃ problem, compileMessage smallKeys plainEngine "c".toList
      (valueOf spacedKeys "c").toList = .error problem := by
    cases compiled : compileMessage smallKeys plainEngine "c".toList
        (valueOf spacedKeys "c").toList with
    | error problem => exact ⟨problem, rfl⟩
    | ok written =>
        rw [compiled] at fault
        cases fault
  obtain ⟨left, same⟩ := faults "c" (by decide) problem fault
  refine ⟨(scripts _ _).mpr ⟨"a b", by decide, ?_, ?_⟩, ?_, same⟩
  · rw [Keyed.get?, second, List.lookup_cons_self]
  · intro later there greater
    have last : later = "c" := by
      have known : later = "a  b" ∨ later = "a b" ∨ later = "c" := by
        simpa [spacedKeys, Keyed.mem_keys_ofList] using there
      rcases known with rfl | rfl | rfl
      · exact absurd greater (by decide)
      · exact absurd greater (lt_irrefl _)
      · rfl
    rw [last, left]
    exact List.not_mem_nil
  · refine alike "a  b" (by decide) "a b" (by decide) (by decide) spacedName ?_ ?_
    · rw [Keyed.keys, first]
      exact List.mem_cons_self
    · rw [Keyed.keys, second]
      exact List.mem_cons_self

/-- The script of a key alone is not always the script of its name. -/
theorem compileStore_losesScript :
    ¬∀ (options : Options) (engine : Engine) (store : Store) (file : Option String),
      ∀ key ∈ store.keys, ∀ name script,
        (compileStore options engine (store.only key) file).1.get? name = some script →
        (compileStore options engine store file).1.get? name = some script := by
  intro kept
  obtain ⟨first, second, -⟩ := pairs_spacedKeys_only
  have one := kept smallKeys plainEngine spacedKeys none "a  b" (by decide) spacedName "\"x\""
    (by rw [Keyed.get?, first, List.lookup_cons_self])
  have two := kept smallKeys plainEngine spacedKeys none "a b" (by decide) spacedName "\"y\""
    (by rw [Keyed.get?, second, List.lookup_cons_self])
  rw [one] at two
  exact absurd two (by decide)

end MessageCatalog.Bundle
