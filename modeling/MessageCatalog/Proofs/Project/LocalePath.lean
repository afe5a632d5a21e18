import Mathlib
import MessageCatalog.Config.Options
import MessageCatalog.Locale.RuleTable
import MessageCatalog.Project.File
import MessageCatalog.Proofs.Basic
import MessageCatalog.Proofs.Pattern.Match
import MessageCatalog.Proofs.Text.Run
import MessageCatalog.Proofs.Text.Search

/-!
# MessageCatalog.Proofs.Project.LocalePath -- the locale of a store is found in its path

An update writes the store of a locale at the path that its template gives; a build and an export
take the locale from the path again. With the default pattern that is the run of word characters in
front of the last slash, whatever the folders before it. A template that gives every locale a folder
of its own is undone by it as long as the code has no hyphen, which is no word character: of a code
with hyphens only what stands behind the last one is found.
-/

namespace MessageCatalog.Project

open MessageCatalog.Config MessageCatalog.Pattern MessageCatalog.Text

/-! ## The default pattern -/

/-- The characters of words. -/
def wordSet : CharSet := ⟨[.ofClass .word false false], false, false⟩

/-- The characters that are no slash. -/
def nameSet : CharSet := ⟨[.range '/' '/'], true, false⟩

/-- A slash and the last name of a path. -/
def lastName : Pattern :=
  .both (.both (.one (.single '/' false)) (.repeated (.one nameSet) 1 none .longest))
    (.boundary .lastLineEnd)

/-- Word characters in front of the last name of a path. -/
def folderName : Pattern :=
  .both (.repeated (.one wordSet) 1 none .longest) (.ahead lastName false)

theorem patternSetting_default :
    patternSetting defaults "locale_pattern" = .ok ⟨"\\w+(?=/[^/]+$)", folderName⟩ := by
  cbv

theorem wordSet_contains : wordSet.contains = isWord := by
  funext c
  simp [CharSet.contains, wordSet, SetItem.contains, CharClass.contains]

theorem nameSet_contains {c : Char} : nameSet.contains c = true ↔ c ≠ '/' := by
  simp [CharSet.contains, nameSet, contains_range_self]

/-- A slash and a name behind it, which is the last. -/
def EndsPath (text : List Char) : Prop := ∃ name, text = '/' :: name ∧ name ≠ [] ∧ '/' ∉ name

section Matching

variable {k : Place → Option Place} {before text : List Char} {groups : List (Nat × List Char)}

theorem run_lastName_of_ends (before : List Char) (groups : List (Nat × List Char))
    (ends : EndsPath text) :
    ∃ before', lastName.run ⟨before, text, groups⟩ some = some ⟨before', [], groups⟩ := by
  obtain ⟨name, rfl, nonempty, last⟩ := ends
  obtain ⟨c, rest, rfl⟩ := List.exists_cons_of_ne_nil nonempty
  have members : ∀ d ∈ c :: rest, nameSet.contains d = true := fun d hd =>
    nameSet_contains.mpr fun slash => last (slash ▸ hd)
  have slash : (CharSet.single '/' false).contains '/' = true := by
    rw [contains_single]
    rfl
  refine ⟨rest.reverse ++ [c] ++ '/' :: before, ?_⟩
  rw [lastName, run, run, run_one_cons, if_pos slash, run_repeated_one,
    if_pos (members c List.mem_cons_self)]
  refine farthest_of_end (fun d hd => members d (List.mem_cons_of_mem c hd)) ?_
  simp [run, Boundary.holds]

/-- Up to the end of the line nothing but a name is read, and the line feed that may be left is no
slash either. -/
theorem name_of_run {name : List Char} {q : Place}
    (found : (Pattern.repeated (.one nameSet) 1 none .longest).run ⟨before, name, groups⟩
      (fun p => (Pattern.boundary .lastLineEnd).run p some) = some q) :
    name ≠ [] ∧ '/' ∉ name := by
  cases name with
  | nil => cases found
  | cons c rest =>
      rw [run_repeated_one] at found
      split at found
      · next member =>
          obtain ⟨run, beyond, rfl, members, there⟩ := exists_of_farthest found
          have ended : beyond = [] ∨ beyond = ['\n'] := by
            rw [Pattern.run] at there
            split at there
            · next holds => simpa [Boundary.holds] using holds
            · cases there
          refine ⟨List.cons_ne_nil c _, fun slash => ?_⟩
          simp only [List.mem_cons, List.mem_append] at slash
          rcases slash with rfl | slash | slash
          · exact nameSet_contains.mp member rfl
          · exact nameSet_contains.mp (members '/' slash) rfl
          · rcases ended with rfl | rfl
            · cases slash
            · exact absurd slash (by decide)
      · cases found

theorem ends_of_run_lastName {q : Place}
    (found : lastName.run ⟨before, text, groups⟩ some = some q) : EndsPath text := by
  cases text with
  | nil => cases found
  | cons slash name =>
      rw [lastName, run, run, run_one_cons, contains_single] at found
      split at found
      · next same =>
          obtain rfl : slash = '/' := by simpa using same
          exact ⟨name, rfl, name_of_run found⟩
      · cases found

/-- Looking ahead for the last name reads nothing. -/
theorem run_ahead_of_ends (ends : EndsPath text) :
    (Pattern.ahead lastName false).run ⟨before, text, groups⟩ k = k ⟨before, text, groups⟩ := by
  obtain ⟨_, found⟩ := run_lastName_of_ends before groups ends
  rw [run, found]
  rfl

theorem run_ahead_of_not_ends (goes : ¬EndsPath text) :
    (Pattern.ahead lastName false).run ⟨before, text, groups⟩ k = none := by
  rw [run]
  split
  · next found => exact absurd (ends_of_run_lastName found) goes
  · rfl

/-- The run of word characters at a place, if the last name of the path comes behind it. -/
theorem run_folderName (before text : List Char) :
    folderName.run ⟨before, text, []⟩ some =
      if (text.takeWhile isWord).isEmpty then none
      else (Pattern.ahead lastName false).run
        ⟨(text.takeWhile isWord).reverse ++ before, text.dropWhile isWord, []⟩ some := by
  cases text with
  | nil => rfl
  | cons c rest =>
      have fails : ∀ before c rest, wordSet.contains c = true →
          (Pattern.ahead lastName false).run ⟨before, c :: rest, []⟩ some = none := by
        intro before c rest member
        refine run_ahead_of_not_ends ?_
        rintro ⟨name, same, -⟩
        cases same
        rw [wordSet_contains] at member
        exact absurd member (by decide)
      rw [folderName, run, run_repeated_one, farthest_of_fails fails, wordSet_contains]
      by_cases member : isWord c = true
      · simp [member]
      · simp [member]

/-- No match starts where more than the last name comes behind the word characters. -/
theorem run_folderName_of_not_ends (goes : ¬EndsPath (text.dropWhile isWord)) :
    folderName.run ⟨before, text, []⟩ some = none := by
  rw [run_folderName]
  split
  · rfl
  · exact run_ahead_of_not_ends goes

/-- In front of the last name, a match starts nowhere before the last run of word characters: what
comes behind an earlier one has a slash of its own or does not start with one. -/
theorem run_folderName_earlier {part run name : List Char} (some : part ≠ [])
    (ends : ∀ c ∈ part.getLast?, isWord c = false) :
    folderName.run ⟨before, part ++ (run ++ '/' :: name), []⟩ Option.some = none := by
  have left : part.dropWhile isWord ≠ [] := by
    intro none
    rw [List.dropWhile_eq_nil_iff] at none
    have last := ends _ (List.getLast?_eq_some_getLast some)
    rw [none _ (List.getLast_mem some)] at last
    cases last
  -- so there is a slash behind the character at which the word characters end
  obtain ⟨c, rest, same⟩ := List.exists_cons_of_ne_nil left
  refine run_folderName_of_not_ends ?_
  rw [List.dropWhile_append, same, if_neg (by simp)]
  rintro ⟨name', split, -, last⟩
  cases split
  exact last (by simp)

/-- In the last name no match starts. -/
theorem run_folderName_last {part name : List Char} (last : '/' ∉ name)
    (suffix : part <:+ '/' :: name) : folderName.run ⟨before, part ++ [], []⟩ some = none := by
  rw [List.append_nil]
  rcases List.suffix_cons_iff.mp suffix with rfl | within
  · rw [run_folderName, List.takeWhile_cons_of_neg (by decide)]
    rfl
  · refine run_folderName_of_not_ends ?_
    rintro ⟨name', split, -⟩
    have there : '/' ∈ part.dropWhile isWord := by simp [split]
    exact last (within.subset (List.dropWhile_suffix isWord |>.subset there))

/-- The default pattern finds the word characters in front of the last slash of a path, and nothing
where there are none. -/
theorem search_folderName {path name : List Char} (nonempty : name ≠ []) (last : '/' ∉ name) :
    folderName.search (path ++ '/' :: name) =
      if (path.rtakeWhile isWord).isEmpty then none else some (path.rtakeWhile isWord) := by
  have whole := List.rdropWhile_append_rtakeWhile (p := isWord) (l := path)
  have members : ∀ c ∈ path.rtakeWhile isWord, isWord c = true := fun c hc =>
    List.mem_rtakeWhile_imp hc
  have front : ∀ part, part ≠ [] → part <:+ path.rdropWhile isWord →
      ∀ c ∈ part.getLast?, isWord c = false := by
    intro part some suffix c hc
    have other := List.rdropWhile_last_not isWord path (suffix.ne_nil some)
    rw [← suffix.getLast some] at other
    rw [List.getLast?_eq_some_getLast some, Option.mem_some_iff] at hc
    simpa [hc] using other
  -- from here on the path is its last run of word characters and what comes before
  generalize path.rdropWhile isWord = lead, path.rtakeWhile isWord = run at whole members front ⊢
  subst whole
  have found : folderName.search (lead ++ run ++ '/' :: name) =
      folderName.searchFrom lead.reverse (run ++ '/' :: name) := by
    rw [search, List.append_assoc, searchFrom_append fun part some suffix before =>
      run_folderName_earlier some (front part some suffix), List.append_nil]
  rw [found]
  cases run with
  | nil =>
      have absent : folderName.searchFrom lead.reverse ('/' :: name ++ []) = none := by
        rw [searchFrom_append fun part _ suffix before => run_folderName_last last suffix]
        rfl
      rwa [List.append_nil] at absent
  | cons c run =>
      have longest : LongestRun isWord (c :: run ++ '/' :: name) (c :: run) ('/' :: name) := by
        refine ⟨rfl, members, ?_⟩
        rintro d ⟨⟩
        decide
      obtain ⟨taken, dropped⟩ := longestRun_iff.mp longest
      have here : folderName.run ⟨lead.reverse, c :: run ++ '/' :: name, []⟩ some =
          some ⟨(c :: run).reverse ++ lead.reverse, '/' :: name, []⟩ := by
        rw [run_folderName, taken, dropped]
        exact run_ahead_of_ends ⟨name, rfl, nonempty, last⟩
      rw [searchFrom_of_run here, Place.since, List.length_append, Nat.add_sub_cancel,
        List.take_left]
      rfl

end Matching

/-! ## Templates with a folder for every locale -/

/-- A template in which the placeholder stands once, as the name of the folder of the file. -/
structure FolderTemplate (placeholder : String) where
  /-- The folders in front: nothing, or a path and the slash behind it. -/
  base : String
  file : String
  closed : ∀ c ∈ base.toList.getLast?, c = '/'
  named : file ≠ ""
  plain : ∀ c ∈ file.toList, c ≠ '/' ∧ c ≠ '\\'
  once : ¬placeholder.toList <:+: base.toList ∧ ¬placeholder.toList <:+: file.toList

/-- The template as it is written. -/
def FolderTemplate.written {placeholder : String} (template : FolderTemplate placeholder) : String :=
  template.base ++ placeholder ++ "/" ++ template.file

theorem substituteLocale_written {placeholder : String} (template : FolderTemplate placeholder)
    (some : placeholder ≠ "") (foreign : '/' ∉ placeholder.toList) (locale : String) :
    (substituteLocale template.written placeholder locale).toList =
      template.base.toList ++ locale.toList ++ '/' :: template.file.toList := by
  have split : template.written.toList =
      template.base.toList ++ placeholder.toList ++ '/' :: template.file.toList := by
    simp [FolderTemplate.written]
  rw [substituteLocale, String.toList_ofList, split]
  exact replaceAll_between (by simpa using some) foreign template.closed template.once.1
    template.once.2

/-! ## Codes -/

/-- Letters, digits, hyphens and underscores of ASCII, a letter or a digit at the end. -/
structure IsLocaleCode (code : String) : Prop where
  spelled : ∀ c ∈ code.toList, isAsciiAlphanumeric c = true ∨ c = '_' ∨ c = '-'
  ends : ∃ c ∈ code.toList.getLast?, isAsciiAlphanumeric c = true

/-- What is behind the last hyphen of a code. -/
def lastPart (code : String) : String := String.ofList (code.toList.rtakeWhile (· != '-'))

theorem lastPart_eq_iff {code : String} : lastPart code = code ↔ '-' ∉ code.toList := by
  rw [lastPart, ← String.toList_inj, String.toList_ofList, List.rtakeWhile_eq_self_iff]
  simp only [bne_iff_ne, ne_eq]
  exact ⟨fun h there => h _ there rfl, fun h c there same => h (same ▸ there)⟩

namespace IsLocaleCode

variable {code : String}

theorem lastPart_ne_nil (h : IsLocaleCode code) : (lastPart code).toList ≠ [] := by
  obtain ⟨c, last, plain⟩ := h.ends
  obtain ⟨some, rfl⟩ := List.mem_getLast?_eq_getLast last
  rw [lastPart, String.toList_ofList, Ne, List.rtakeWhile_eq_nil_iff]
  intro none
  have hyphen : code.toList.getLast some = '-' := by simpa using none some
  rw [hyphen] at plain
  exact absurd plain (by decide)

theorem backslash_not_mem (h : IsLocaleCode code) : '\\' ∉ code.toList := by
  intro there
  rcases h.spelled _ there with plain | same | same
  · exact absurd plain (by decide)
  · cases same
  · cases same

theorem isWord_iff (h : IsLocaleCode code) {c : Char} (there : c ∈ code.toList) :
    isWord c = true ↔ c ≠ '-' := by
  constructor
  · rintro word rfl
    exact absurd word (by decide)
  · intro other
    rcases h.spelled c there with plain | rfl | rfl
    · rw [isWord, plain, Bool.true_or, Bool.true_or]
    · decide
    · exact absurd rfl other

/-- Behind a slash, the word characters at the end of a code are its last part. -/
theorem rtakeWhile_isWord (h : IsLocaleCode code) {front : List Char}
    (closed : ∀ c ∈ front.getLast?, c = '/') :
    (front ++ code.toList).rtakeWhile isWord = (lastPart code).toList := by
  obtain ⟨split, inside, stop⟩ := longestRun_takeWhile (· != '-') code.toList.reverse
  have among : ∀ c ∈ code.toList.reverse.takeWhile (· != '-'), c ∈ code.toList := fun c hc =>
    List.mem_reverse.mp (List.takeWhile_subset _ hc)
  have longest : LongestRun isWord (front ++ code.toList).reverse
      (code.toList.reverse.takeWhile (· != '-'))
      (code.toList.reverse.dropWhile (· != '-') ++ front.reverse) := by
    refine ⟨?_, fun c hc => ?_, fun c hc => ?_⟩
    · rw [← List.append_assoc, ← split, List.reverse_append]
    · exact (h.isWord_iff (among c hc)).mpr (by simpa using inside c hc)
    · cases rest : code.toList.reverse.dropWhile (· != '-') with
      | nil =>
          rw [rest, List.nil_append, List.head?_reverse] at hc
          rw [closed c hc]
          decide
      | cons d others =>
          rw [rest] at hc stop
          have hyphen : d = '-' := by simpa using stop d rfl
          cases hc
          rw [hyphen]
          decide
  rw [lastPart, String.toList_ofList, List.rtakeWhile, List.rtakeWhile,
    (longestRun_iff.mp longest).1]

end IsLocaleCode

/-! ## Writing and finding -/

/-- A character of a path, a backslash being a slash. -/
def forwardSlash (c : Char) : Char := if c == '\\' then '/' else c

theorem map_forwardSlash {text : List Char} (plain : '\\' ∉ text) :
    text.map forwardSlash = text := by
  have kept : ∀ c ∈ text, forwardSlash c = id c := by
    intro c there
    have other : c ≠ '\\' := fun same => plain (same ▸ there)
    simp [forwardSlash, other]
  rw [List.map_congr_left kept, List.map_id]

/-- With the default pattern the locale of a path is the word characters in front of its last
slash. -/
theorem localeOfPath_folderName {source path : String} {front name : List Char} (some : name ≠ [])
    (last : '/' ∉ name) (split : path.toList.map forwardSlash = front ++ '/' :: name) :
    localeOfPath ⟨source, folderName⟩ path =
      if (front.rtakeWhile isWord).isEmpty then .error (.noLocale source path)
      else .ok (String.ofList (front.rtakeWhile isWord)) := by
  have same : (fun c : Char => if c == '\\' then '/' else c) = forwardSlash := rfl
  rw [localeOfPath, same, split]
  dsimp only
  rw [search_folderName some last]
  cases front.rtakeWhile isWord <;> rfl

/-- The options keep the pattern and the placeholder that the settings give. -/
theorem located_of_read {settings : Table} {options : Options}
    (read : Options.ofSettings settings = .ok options) :
    patternSetting settings "locale_pattern" = .ok options.localeInPath ∧
      options.placeholder = textSetting settings "locale_placeholder" := by
  rw [Options.ofSettings] at read
  dsimp only at read
  split at read
  · cases read
  split at read
  · cases read
  obtain ⟨_, -, read⟩ := exists_bind_eq_ok read
  obtain ⟨_, -, read⟩ := exists_bind_eq_ok read
  obtain ⟨localeInPath, located, read⟩ := exists_bind_eq_ok read
  obtain ⟨_, -, read⟩ := exists_bind_eq_ok read
  cases read
  exact ⟨located, rfl⟩

/-- The settings find the locale of a path, and mark its place in a template, as by default. -/
structure FindsAsDefault (settings : Table) : Prop where
  search : setting settings "locale_pattern" = setting defaults "locale_pattern"
  mark : setting settings "locale_placeholder" = setting defaults "locale_placeholder"

/-- The placeholder that stands for a locale by default. -/
def defaultMark : String := "\x7blocale\x7d"

theorem FindsAsDefault.located {settings : Table} (h : FindsAsDefault settings)
    {options : Options} (read : Options.ofSettings settings = .ok options) :
    options.localeInPath = ⟨"\\w+(?=/[^/]+$)", folderName⟩ ∧ options.placeholder = defaultMark := by
  obtain ⟨located, marked⟩ := located_of_read read
  rw [patternSetting, h.search, ← patternSetting, patternSetting_default] at located
  rw [textSetting, h.mark] at marked
  refine ⟨(Except.ok.inj located).symm, marked.trans ?_⟩
  cbv

/-- In the path that a template gives for a code, the last part of the code is found. -/
theorem localeOfPath_written {source : String} (template : FolderTemplate defaultMark)
    {code : String} (isCode : IsLocaleCode code) :
    localeOfPath ⟨source, folderName⟩ (substituteLocale template.written defaultMark code) =
      .ok (lastPart code) := by
  have text := substituteLocale_written template (by decide) (by decide) code
  have plain : '\\' ∉ code.toList ++ '/' :: template.file.toList := by
    intro there
    rcases List.mem_append.mp there with there | there
    · exact isCode.backslash_not_mem there
    · rcases List.mem_cons.mp there with same | there
      · cases same
      · exact (template.plain _ there).2 rfl
  have split : (substituteLocale template.written defaultMark code).toList.map forwardSlash =
      template.base.toList.map forwardSlash ++ code.toList ++ '/' :: template.file.toList := by
    rw [text, List.append_assoc, List.map_append, map_forwardSlash plain, List.append_assoc]
  have closed : ∀ c ∈ (template.base.toList.map forwardSlash).getLast?, c = '/' := by
    intro c hc
    rw [List.getLast?_map, Option.mem_def, Option.map_eq_some_iff] at hc
    obtain ⟨d, hd, rfl⟩ := hc
    rw [template.closed d hd]
    rfl
  rw [localeOfPath_folderName (by simpa using template.named)
    (fun slash => (template.plain _ slash).1 rfl) split, isCode.rtakeWhile_isWord closed,
    if_neg (by simpa using isCode.lastPart_ne_nil), String.ofList_toList]

/-- A path that is written for a locale is taken back for the last part of the locale's code, and
so for the locale itself just when its code has no hyphen. -/
theorem localeOfPath_substituteLocale {settings : Table} {options : Options}
    (read : Options.ofSettings settings = .ok options) (finds : FindsAsDefault settings)
    (template : FolderTemplate defaultMark) {code : String} (isCode : IsLocaleCode code) :
    let path := substituteLocale template.written options.placeholder code
    localeOfPath options.localeInPath path = .ok (lastPart code) ∧
      (localeOfPath options.localeInPath path = .ok code ↔ '-' ∉ code.toList) := by
  obtain ⟨located, marked⟩ := finds.located read
  intro path
  have found : localeOfPath options.localeInPath path = .ok (lastPart code) := by
    rw [located]
    simp only [path, marked]
    exact localeOfPath_written template isCode
  exact ⟨found, by rw [found, Except.ok.injEq, lastPart_eq_iff]⟩

/-- The template of stores in folders that are named for their locales. -/
def storeFolder : FolderTemplate defaultMark where
  base := "app/js/locale/"
  file := "i18n.json"
  closed := by simp
  named := by simp
  plain := by simp
  once := by
    have absent {text : List Char} (brace : '\x7b' ∉ text) : ¬defaultMark.toList <:+: text :=
      fun found => brace (found.subset (by simp [defaultMark]))
    exact ⟨absent (by simp), absent (by simp)⟩

example : storeFolder.written = "app/js/locale/\x7blocale\x7d/i18n.json" := by cbv

theorem exists_default : ∃ options, Options.ofSettings defaults = .ok options := by
  have ok : (Options.ofSettings defaults).isOk = true := by cbv
  cases read : Options.ofSettings defaults with
  | ok options => exact ⟨options, rfl⟩
  | error fault =>
      rw [read] at ok
      cases ok

/-- A code with underscores is found as it is. -/
theorem localeOfPath_underscores :
    FindsAsDefault defaults ∧ IsLocaleCode "zh_Hant_TW" ∧
      ∃ options, Options.ofSettings defaults = .ok options ∧
        localeOfPath options.localeInPath
          (substituteLocale storeFolder.written options.placeholder "zh_Hant_TW") =
            .ok "zh_Hant_TW" := by
  have finds : FindsAsDefault defaults := ⟨rfl, rfl⟩
  have isCode : IsLocaleCode "zh_Hant_TW" := ⟨by simp; decide, by simp; decide⟩
  obtain ⟨options, read⟩ := exists_default
  refine ⟨finds, isCode, options, read, ?_⟩
  exact (localeOfPath_substituteLocale read finds storeFolder isCode).2.mpr (by simp)

/-- A code with a hyphen is not found, although its locale is known. -/
theorem localeOfPath_hyphen :
    ¬∀ settings options, Options.ofSettings settings = .ok options → FindsAsDefault settings →
      ∀ (template : FolderTemplate defaultMark) (code : String), IsLocaleCode code →
        (Locale.common.find? (Locale.normalize code)).isSome = true →
          localeOfPath options.localeInPath
            (substituteLocale template.written options.placeholder code) = .ok code := by
  have isCode : IsLocaleCode "en-US" := ⟨by simp; decide, by simp; decide⟩
  have known : (Locale.common.find? (Locale.normalize "en-US")).isSome = true := by cbv
  have finds : FindsAsDefault defaults := ⟨rfl, rfl⟩
  obtain ⟨options, read⟩ := exists_default
  obtain ⟨located, marked⟩ := finds.located read
  -- at the default settings the statement would make the last part of the code the whole code
  intro all
  have whole := all defaults options read finds storeFolder "en-US" isCode known
  rw [located, marked, localeOfPath_written storeFolder isCode, Except.ok.injEq,
    lastPart_eq_iff] at whole
  exact whole (by simp)

end MessageCatalog.Project
