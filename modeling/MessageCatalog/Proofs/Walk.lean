import MessageCatalog.Proofs.Message.Walk
import MessageCatalog.Proofs.Script.Walk

/-!
# MessageCatalog.Proofs.Walk -- walks over texts stop in order

A walk over a text may stop because the text breaks the notation. It may not stop because a
character was asked for where there is none, however the text is cut off or malformed, and it does
not go on for ever. The walks over messages and over literals come to what the readers come to that
never hold a cursor, so all that is left to say is where these find their faults.
-/

namespace MessageCatalog

open MessageCatalog.Message MessageCatalog.Script MessageCatalog.Text

/-! ## Faults are found inside the text -/

theorem Message.parse_error_inside {context : Context} {text : List Char} {e : ParseError}
    (h : parse context text = .error e) : e.position.Inside text := by
  unfold parse at h
  split at h
  · cases h
  · cases h
    exact Position.at_inside text _

/-- An error that says where it was found says a place inside the token. -/
def Script.LiteralError.Inside (token : List Char) : LiteralError → Prop
  | .malformed _ position => position.Inside token
  | .loneSurrogate => True

theorem Script.decode_error_inside {token : List Char} {e : LiteralError}
    (h : decode token = .error e) : e.Inside token := by
  unfold decode at h
  split at h
  · cases h
    exact Position.at_inside token _
  · obtain rfl := denoted_eq_error h
    trivial

/-! ## Walks stop nowhere else -/

variable {ε α : Type}

/-- The ways in which a walk ends that is a reader with its errors as faults. -/
theorem Text.walk_ends {walk : Walk ε α} {read : Except ε α} {inside : ε → Prop}
    (same : walk = read.mapError Stop.fault) (found : ∀ e, read = .error e → inside e) :
    (∃ a, walk = .ok a ∧ read = .ok a) ∨
      ∃ e, walk = .error (.fault e) ∧ read = .error e ∧ inside e := by
  cases read with
  | ok a => exact .inl ⟨a, same, rfl⟩
  | error e => exact .inr ⟨e, same, rfl, found e rfl⟩

/-- A walk over any text with any categories and any limit to nesting gives a message or stops at a
fault of the notation; a walk over any token gives a text or stops at a fault of the notation.
Results and faults are those of the readers, and a fault stands at a place inside what was walked
over. So no walk asks for a character behind the last one, and none runs out of steps. -/
theorem walks_stop_inside :
    (∀ (context : Context) (text : List Char),
      (∃ message, parseAt context text = .ok message ∧ parse context text = .ok message) ∨
        ∃ e, parseAt context text = .error (.fault e) ∧ parse context text = .error e ∧
          e.position.Inside text) ∧
    ∀ token : List Char,
      (∃ text, decodeAt token = .ok text ∧ decode token = .ok text) ∨
        ∃ e, decodeAt token = .error (.fault e) ∧ decode token = .error e ∧ e.Inside token :=
  ⟨fun context text => walk_ends (parseAt_eq context text) fun _ => parse_error_inside,
    fun token => walk_ends (decodeAt_eq token) fun _ => decode_error_inside⟩

end MessageCatalog
