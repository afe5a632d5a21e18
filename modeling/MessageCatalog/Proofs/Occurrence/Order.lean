import MessageCatalog.Proofs.Basic
import MessageCatalog.Proofs.Occurrence.Source
import MessageCatalog.Proofs.Store.Order

/-!
# MessageCatalog.Proofs.Occurrence.Order -- sources that are scanned in any order

Sources are scanned one after the other into the same store. Which order that is decides neither the
keys nor the files under them. It does decide the text of a new key: the first source that holds the
key says it, and an element marked by its content says another text than a script or an attribute
for one and the same key.
-/

namespace MessageCatalog.Occurrence

open MessageCatalog.Config MessageCatalog.Store

/-! ## Many sources -/

/-- The store after some sources, each a path with its text, have been scanned in order. -/
def scanAll (options : Options) (store : Store) (sources : List (String × List Char)) : Store :=
  sources.foldl (fun store (path, text) => (scan options store path text).store) store

/-- The occurrences that a source adds to a store; a source that is not scanned adds none. -/
def occurrences (options : Options) (source : String × List Char) : List (String × Entry) :=
  match kindOf? options source.1 with
  | none => []
  | some kind =>
    match ofKind options kind source.1 source.2 with
    | .ok found => found.entries
    | .error _ => []

/-- The text of a key as the first of the sources that holds it says it. -/
def firstText? (options : Options) (key : String) (sources : List (String × List Char)) :
    Option String :=
  (under key (sources.flatMap (occurrences options))).head?.map Entry.value

theorem store_scan (options : Options) (store : Store) (source : String × List Char) :
    (scan options store source.1 source.2).store =
      extendAll store (occurrences options source) false := by
  unfold scan occurrences
  cases kindOf? options source.1 with
  | none => rfl
  | some kind =>
      dsimp only
      cases ofKind options kind source.1 source.2 with
      | error message => rfl
      | ok found => rfl

/-- Scanning sources is one merge of all their occurrences. -/
theorem scanAll_eq (options : Options) (store : Store) (sources : List (String × List Char)) :
    scanAll options store sources =
      extendAll store (sources.flatMap (occurrences options)) false := by
  induction sources generalizing store with
  | nil => rfl
  | cons source rest ih =>
      have step : scanAll options store (source :: rest) =
          scanAll options (scan options store source.1 source.2).store rest := rfl
      rw [step, ih, store_scan, List.flatMap_cons]
      unfold extendAll
      rw [List.foldl_append]

theorem get?_scanAll (options : Options) (store : Store) (sources : List (String × List Char))
    (key : String) :
    (scanAll options store sources).get? key =
      gathered (store.get? key) (under key (sources.flatMap (occurrences options))) := by
  rw [scanAll_eq, get?_extendAll_gathered]

theorem extra_of_occurrence {options : Options} {source : String × List Char}
    {item : String × Entry} (there : item ∈ occurrences options source) : item.2.extra = [] := by
  unfold occurrences at there
  split at there
  · cases there
  · split at there
    · next found read => exact bare_ofKind read item there
    · cases there

/-! ## What stands under a key -/

theorem isSome_scanAll (options : Options) (store : Store) (sources : List (String × List Char))
    (key : String) :
    ((scanAll options store sources).get? key).isSome =
      ((store.get? key).isSome || !(under key (sources.flatMap (occurrences options))).isEmpty) := by
  rw [get?_scanAll, isSome_gathered]

/-- The text under a key is the one that was there, or else the first that a source says. -/
theorem value_scanAll {options : Options} {store : Store} {sources : List (String × List Char)}
    {key : String} {slot : Slot} (h : (scanAll options store sources).get? key = some slot) :
    some slot.toEntry.value =
      ((store.get? key).map fun slot => slot.toEntry.value).or
        (firstText? options key sources) := by
  have all := value_gathered (store.get? key)
    (under key (sources.flatMap (occurrences options)))
  rw [← get?_scanAll, h] at all
  exact all

/-- Sources bring no further fields. -/
theorem extra_scanAll {options : Options} {store : Store} {sources : List (String × List Char)}
    {key : String} {slot : Slot} (h : (scanAll options store sources).get? key = some slot) :
    slot.toEntry.extra = ((store.get? key).map fun slot => slot.toEntry.extra).getD [] := by
  have all := extra_gathered (store.get? key)
    (under key (sources.flatMap (occurrences options)))
  rw [← get?_scanAll, h, Option.map_some] at all
  cases before : store.get? key with
  | some slot =>
      rw [before] at all
      exact Option.some.inj all
  | none =>
      rw [before, Option.map_none, Option.none_or] at all
      obtain ⟨first, here, same⟩ := Option.map_eq_some_iff.mp all.symm
      obtain ⟨item, there, found⟩ := List.mem_filterMap.mp (List.mem_of_head? here)
      obtain ⟨source, _, occurs⟩ := List.mem_flatMap.mp there
      have taken : item.2 = first := by
        by_cases name : key = item.1
        · simpa [name] using found
        · simp [name] at found
      rw [← same, ← taken, extra_of_occurrence occurs]
      rfl

/-! ## The order of the sources -/

/-- The order of the sources decides neither the keys nor, under a key, the files and the further
fields. The text under a key is the same for two orders just when the key was there before or the
first source that holds it says the same in both. -/
theorem scanAll_perm (options : Options) (store : Store)
    {sources others : List (String × List Char)} (order : sources.Perm others) :
    (∀ key, key ∈ (scanAll options store sources).keys ↔
      key ∈ (scanAll options store others).keys) ∧
    ∀ key one other, (scanAll options store sources).get? key = some one →
      (scanAll options store others).get? key = some other →
      one.toEntry.files = other.toEntry.files ∧ one.toEntry.extra = other.toEntry.extra ∧
      (one.toEntry.value = other.toEntry.value ↔
        key ∈ store.keys ∨ firstText? options key sources = firstText? options key others) := by
  -- the entries that come for a key are the same, in another order
  have come : ∀ key, (under key (sources.flatMap (occurrences options))).Perm
      (under key (others.flatMap (occurrences options))) :=
    fun key => (order.flatMap_right (occurrences options)).filterMap _
  refine ⟨fun key => ?_, fun key one other left right => ⟨?_, ?_, ?_⟩⟩
  · rw [Keyed.mem_keys_iff, Keyed.mem_keys_iff, ← Option.isSome_iff_exists,
      ← Option.isSome_iff_exists, isSome_scanAll, isSome_scanAll, (come key).isEmpty_eq]
  · have files := files_gathered_perm (come key) (store.get? key)
    rw [← get?_scanAll, ← get?_scanAll, left, right] at files
    exact Option.some.inj files
  · rw [extra_scanAll left, extra_scanAll right]
  · rw [← Option.some_inj, value_scanAll left, value_scanAll right]
    cases before : store.get? key with
    | some slot =>
        have there : key ∈ store.keys := (store.mem_keys_iff).mpr ⟨slot, before⟩
        simp [there]
    | none =>
        have absent : key ∉ store.keys := (store.get?_eq_none_iff).mp before
        simp [absent]

/-! ## Two pages -/

/-- A page that marks an element by its content, in which blanks are collapsed. -/
def contentPage : String × List Char := ("b.html", "<p localize>a  b</p>".toList)

/-- A page with the same key as the value of an attribute, which is kept. -/
def attributePage : String × List Char := ("a.html", "<p localize=\"a  b\"></p>".toList)

/-- Whichever page comes first says the text. -/
theorem scanAll_twoPages :
    ¬∀ key one other,
      (scanAll pagesOnly Keyed.empty [contentPage, attributePage]).get? key = some one →
      (scanAll pagesOnly Keyed.empty [attributePage, contentPage]).get? key = some other →
      one.toEntry.value = other.toEntry.value := by
  intro same
  have first : ((scanAll pagesOnly Keyed.empty [contentPage, attributePage]).get? "a  b").map
      (fun slot => slot.toEntry.value) = some "a b" := by decide +kernel
  have second : ((scanAll pagesOnly Keyed.empty [attributePage, contentPage]).get? "a  b").map
      (fun slot => slot.toEntry.value) = some "a  b" := by decide +kernel
  obtain ⟨one, left, text⟩ := Option.map_eq_some_iff.mp first
  obtain ⟨other, right, text'⟩ := Option.map_eq_some_iff.mp second
  have equal := same "a  b" one other left right
  rw [text, text'] at equal
  exact absurd equal (by decide)

/-- Both pages are files of their key in either order, and its texts are not the same. -/
theorem scanAll_twoPages_perm :
    ∃ one other,
      (scanAll pagesOnly Keyed.empty [contentPage, attributePage]).get? "a  b" = some one ∧
      (scanAll pagesOnly Keyed.empty [attributePage, contentPage]).get? "a  b" = some other ∧
      one.toEntry.files = other.toEntry.files ∧ one.toEntry.value ≠ other.toEntry.value := by
  have first : ((scanAll pagesOnly Keyed.empty [contentPage, attributePage]).get? "a  b").isSome =
      true := by decide +kernel
  have second : ((scanAll pagesOnly Keyed.empty [attributePage, contentPage]).get? "a  b").isSome =
      true := by decide +kernel
  obtain ⟨one, left⟩ := Option.isSome_iff_exists.mp first
  obtain ⟨other, right⟩ := Option.isSome_iff_exists.mp second
  have order : [contentPage, attributePage].Perm [attributePage, contentPage] :=
    List.Perm.swap attributePage contentPage []
  obtain ⟨files, -, value⟩ :=
    (scanAll_perm pagesOnly Keyed.empty order).2 "a  b" one other left right
  refine ⟨one, other, left, right, files, fun same => ?_⟩
  have new : "a  b" ∉ (Keyed.empty : Store).keys := by decide
  have differs : firstText? pagesOnly "a  b" [contentPage, attributePage] ≠
      firstText? pagesOnly "a  b" [attributePage, contentPage] := by decide +kernel
  exact (value.mp same).elim new differs

end MessageCatalog.Occurrence
