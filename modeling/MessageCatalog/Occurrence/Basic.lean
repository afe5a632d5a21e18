import MessageCatalog.Report.Log
import MessageCatalog.Store.Entry

/-!
# MessageCatalog.Occurrence.Basic -- messages as sources hold them

Every place in a source where a message is used is an occurrence: a key with an entry that names the
source. Looking for occurrences goes on past those that cannot be used and says so.
-/

namespace MessageCatalog.Occurrence

/-- What a source holds: its occurrences in order, and what there is to say about it. -/
structure Findings where
  entries : List (String × Store.Entry)
  log : Report.Log
  deriving Repr, Inhabited

namespace Findings

/-- Nothing. -/
def none : Findings := ⟨[], []⟩

/-- One occurrence of a key with its text. -/
def one (path : String) (key text : List Char) : Findings :=
  ⟨[(String.ofList key, ⟨String.ofList text, [path], []⟩)], []⟩

/-- One thing to say. -/
def say (line : Report.Line) : Findings := ⟨[], [line]⟩

/-- Findings with others after them. -/
def append (a b : Findings) : Findings := ⟨a.entries ++ b.entries, a.log ++ b.log⟩

instance : Append Findings := ⟨append⟩

/-- All findings of a list, in order. -/
def concat (all : List Findings) : Findings := all.foldr append none

end Findings

end MessageCatalog.Occurrence
