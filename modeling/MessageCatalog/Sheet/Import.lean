import MessageCatalog.Bundle.Compiled
import MessageCatalog.Failure
import MessageCatalog.Sheet.Reader

/-!
# MessageCatalog.Sheet.Import -- localized texts out of a table

A table has a column of keys and a column for every locale. Every cell that is not empty is cleaned
like the content of a page and has to be a message of its locale. A cell with a fault is reported
and skipped.
-/

namespace MessageCatalog.Sheet

open MessageCatalog.Config MessageCatalog.Message MessageCatalog.Report

/-- The entries that a table holds for each locale, in the order in which they come. -/
abbrev Imported := Keyed (Keyed Store.Entry)

/-- The marks of a format: its delimiter and its quote have to be single characters. -/
def marksOf (format : SheetFormat) : Except Failure Marks :=
  match format.delimiter.toList, format.quote.toList with
  | [delimiter], [quote] => .ok ⟨delimiter, quote⟩
  | _, _ => .error .badSheetFormat

/-- The content of a cell, if it has any. -/
def readCell (options : Options) (engine : Engine) (key value : List Char) :
    Except Problem (Option (List Char)) := do
  let cleaned ← (Content.clean options key value false).mapError Bundle.markupProblem
  if cleaned.content.isEmpty then return none
  let content ← (Content.keepPlain value cleaned.content).mapError Bundle.markupProblem
  let _ ← (engine.parse content).mapError Bundle.messageProblem
  return some content

/-- Adds the cell of a locale in the row of a key. -/
def addCell (options : Options) (file : Option String) (record : Record) (key : String)
    (done : Imported × Log) (engine : String × Engine) : Imported × Log :=
  match record.get? engine.1 with
  | none => done
  | some value =>
    if value.isEmpty then done
    else
      match readCell options engine.2 key.toList value.toList with
      | .ok none => done
      | .ok (some content) =>
        let entries := (done.1.get? engine.1).getD Keyed.empty
        (done.1.set engine.1 (entries.set key (.ofText (String.ofList content))), done.2)
      | .error problem => (done.1, done.2 ++ [problem.warning key (some engine.1) file])

/-- Adds the cells of a row. A row without a key is skipped. -/
def addRecord (options : Options) (engines : Keyed Engine) (file : Option String)
    (done : Imported × Log) (record : Record) : Imported × Log :=
  match record.get? options.sheet.keyLabel with
  | none => done
  | some key =>
    if key.isEmpty then done
    else engines.pairs.foldl (addCell options file record key) done

/-- The localized texts of a table, and what there is to say about them. -/
def readTable (options : Options) (engines : Keyed Engine) (file : Option String)
    (text : List Char) : Except Failure (Imported × Log) := do
  let marks ← marksOf options.sheet
  let (imported, log) :=
    (readRecords marks text).foldl (addRecord options engines file) (Keyed.empty, [])
  let counts := imported.pairs.map fun (locale, entries) =>
    (⟨.debug, s!"Read {entries.size} {locale} translations from {known file}"⟩ : Line)
  return (imported, log ++ counts)

end MessageCatalog.Sheet
