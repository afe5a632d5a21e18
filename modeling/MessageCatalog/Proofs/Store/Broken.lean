import MessageCatalog.Store.Basic

/-!
# MessageCatalog.Proofs.Store.Broken -- texts that hold no store

A text that holds no store is found to be none, whatever stands in it, with two exceptions: a
surrogate in it may stand alone, and under the files of an entry there may be a value that has no
items and is not taken for an empty list. Reading breaks off there with a fault of another kind.
-/

namespace MessageCatalog.Store

open MessageCatalog.Json

/-- Values that stand for no list of files, not even for an empty one: true, and every number other
than zero. -/
def Itemless : Value → Prop
  | .bool b => b = true
  | .int n => n ≠ 0
  | .real x => x.isZero = false
  | _ => False

/-- A value of a store with such a value as its files. -/
def ItemlessFiles (value : Value) : Prop :=
  ∃ fields files, value = .object fields ∧ Members.get? fields "files" = some files ∧
    Itemless files

theorem filesOf_error {field : Option Value} {fault : Fault}
    (h : Entry.filesOf field = .error fault) :
    fault = .notIterable ∧ ∃ files, field = some files ∧ Itemless files := by
  cases field with
  | none => cases h
  | some value =>
      unfold Entry.filesOf at h
      dsimp only at h
      split at h
      · cases h
      next truthy =>
      cases value with
      | null => exact absurd rfl truthy
      | bool b =>
          cases h
          exact ⟨rfl, _, rfl, by simpa [Value.isTruthy, Itemless] using truthy⟩
      | int n =>
          cases h
          exact ⟨rfl, _, rfl, by simpa [Value.isTruthy, Itemless] using truthy⟩
      | real x =>
          cases h
          exact ⟨rfl, _, rfl, by simpa [Value.isTruthy, Itemless] using truthy⟩
      | text s => cases h
      | array items => cases h
      | object members => cases h

/-- A value is read as an entry, or it is found to be none, or its files have no items. -/
theorem ofJson_error {value : Value} {fault : Fault} (h : Entry.ofJson value = .error fault) :
    (∃ error, fault = .format error) ∨ fault = .notIterable ∧ ItemlessFiles value := by
  cases value with
  | text s => cases h
  | object members =>
      unfold Entry.ofJson at h
      dsimp only at h
      cases files : Entry.filesOf (Members.get? members "files") with
      | ok list =>
          rw [files] at h
          cases h
      | error other =>
          rw [files] at h
          cases h
          obtain ⟨rfl, value, held, itemless⟩ := filesOf_error files
          exact Or.inr ⟨rfl, members, value, rfl, held, itemless⟩
  | _ =>
      cases h
      exact Or.inl ⟨_, rfl⟩

theorem entriesOf_error {members : Members} {fault : Fault}
    (h : entriesOf members = .error fault) :
    (∃ error, fault = .format error) ∨
      fault = .notIterable ∧ ∃ member ∈ members, ItemlessFiles member.2 := by
  induction members with
  | nil => cases h
  | cons member rest ih =>
      unfold entriesOf at h
      cases first : Entry.ofJson member.2 with
      | error other =>
          rw [first] at h
          cases h
          rcases ofJson_error first with none | ⟨same, itemless⟩
          · exact Or.inl none
          · exact Or.inr ⟨same, member, List.mem_cons_self, itemless⟩
      | ok entry =>
          rw [first] at h
          cases others : entriesOf rest with
          | ok entries =>
              rw [others] at h
              cases h
          | error other =>
              rw [others] at h
              cases h
              rcases ih others with none | ⟨same, held, there, itemless⟩
              · exact Or.inl none
              · exact Or.inr ⟨same, held, List.mem_cons_of_mem _ there, itemless⟩

/-- A surrogate in a text stands alone, or the files of some entry have no items. -/
def Breaks (text : List Char) : Prop :=
  Json.read text = .error .loneSurrogate ∨
    ∃ members, Json.read text = .ok (.object members) ∧ ∃ member ∈ members, ItemlessFiles member.2

/-- Reading a text as a store breaks off with a fault, wherever the text comes from. -/
structure BreaksWith (text : List Char) (fault : Fault) : Prop where
  other : ∀ error, fault ≠ .format error
  read : ∀ source, Store.read source text = .error fault

theorem breaksWith_notIterable {text : List Char} {value : Json.Value}
    (whole : Json.read text = .ok value) (h : ofJson value = .error .notIterable) :
    BreaksWith text .notIterable where
  other error same := Fault.noConfusion same
  read source := by
    unfold Store.read
    rw [whole]
    exact h

theorem breaksWith_loneSurrogate {text : List Char}
    (whole : Json.read text = .error .loneSurrogate) : BreaksWith text .loneSurrogate where
  other error same := Fault.noConfusion same
  read source := by
    unfold Store.read
    rw [whole]

/-- A text is a store, or it is found to be none, or reading it breaks off. -/
theorem read_cases (source : String) (text : List Char) :
    (∃ store, Store.read source text = .ok store) ∨
    (∃ error, Store.read source text = .error (.format error)) ∨
    (∃ fault, BreaksWith text fault) ∧ Breaks text := by
  cases whole : Json.read text with
  | error unread =>
      cases unread with
      | malformed error =>
          refine Or.inr (Or.inl ⟨.invalidJson source error, ?_⟩)
          unfold Store.read
          rw [whole]
      | loneSurrogate => exact Or.inr (Or.inr ⟨⟨_, breaksWith_loneSurrogate whole⟩, Or.inl whole⟩)
  | ok value =>
      have same : Store.read source text = ofJson value := by
        unfold Store.read
        rw [whole]
      rw [same]
      cases value with
      | object members =>
          cases entries : entriesOf members with
          | ok entries' =>
              refine Or.inl ⟨ofEntries entries', ?_⟩
              rw [ofJson, entries]
              rfl
          | error fault =>
              have failed : ofJson (.object members) = .error fault := by
                rw [ofJson, entries]
                rfl
              rcases entriesOf_error entries with ⟨error, rfl⟩ | ⟨rfl, breaks⟩
              · exact Or.inr (Or.inl ⟨error, failed⟩)
              · exact Or.inr (Or.inr
                  ⟨⟨_, breaksWith_notIterable whole failed⟩, Or.inr ⟨members, whole, breaks⟩⟩)
      | _ => exact Or.inr (Or.inl ⟨_, rfl⟩)

end MessageCatalog.Store
