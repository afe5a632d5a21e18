import MessageCatalog.Config.Options

/-!
# MessageCatalog.Proofs.Basic -- what the proofs share

A computation that has come to its end without a failure has succeeded in each of its parts.

For the runs that show what a statement is about there are options in which every pattern matches
everywhere, so that every file is a page and every link may stay, and the rest is as it is by default.
-/

namespace MessageCatalog

/-! ## Computations that succeed -/

section

variable {ε δ α β : Type}

theorem exists_bind_eq_ok {x : Except ε α} {f : α → Except ε β} {b : β}
    (h : (x >>= f) = .ok b) : ∃ a, x = .ok a ∧ f a = .ok b := by
  cases x with
  | error why => cases h
  | ok a => exact ⟨a, rfl, h⟩

theorem map_eq_ok {x : Except ε α} {f : α → β} {b : β} (h : x.map f = .ok b) :
    ∃ a, x = .ok a ∧ f a = b := by
  cases x with
  | error why => cases h
  | ok a => exact ⟨a, rfl, Except.ok.inj h⟩

/-- Another wording of failures does not change what succeeds. -/
theorem mapError_ok {x : Except ε α} {f : ε → δ} {a : α} : x.mapError f = .ok a ↔ x = .ok a := by
  constructor
  · intro h
    cases x with
    | error why => cases h
    | ok found =>
        cases h
        rfl
  · intro h
    cases h
    rfl

end

/-! ## Options to run things with -/

namespace Config

/-- A pattern that matches everywhere. -/
def anywhere : WrittenPattern := ⟨"", .empty⟩

/-- Options with one locale under which every file is a page. -/
def pagesOnly : Options where
  locales := ["de"]
  attributes := ["localize"]
  functions := ["localize"]
  pageFiles := anywhere
  scriptFiles := anywhere
  localeInPath := anywhere
  allowedLinks := anywhere
  placeholder := "@"
  objectName := "i18n"
  flatStores := false
  wrapStatic := false
  purge := true
  rulesFile := none
  runtimeFile := none
  templateFile := none
  contentMinifier := some ⟨true, true⟩
  keyMinifier := none
  storeLayout := some (.spaces 2)
  sheet := ⟨"\"", ",", "\r\n", "ID", ["files"]⟩
  seeds := []

end Config

end MessageCatalog
