import Mathlib.Data.List.Perm.Subperm
import MessageCatalog.Proofs.Occurrence.Source

/-!
# MessageCatalog.Proofs.Occurrence.Call -- every call is found or reported

A call starts where the name of one of the functions stands before an opening parenthesis. Its
argument is a quoted text in front of a comma or of the closing parenthesis, and then it is a
message, or else the call is reported. The scan says one thing of each call that has a token behind
its argument, in the order of the calls, and it says nothing else. The name, the parenthesis, the
argument and what follows it are looked at together, so a call among the last three tokens of a
script is passed over without a word: `localize()` without a semicolon, where the script ends.
-/

namespace MessageCatalog.Occurrence

open MessageCatalog.Script

variable {functions : List String} {path : String} {tokens : Tokens} {i : Nat} {found : Findings}

/-! ## Calls -/

/-- A call of one of the functions starts at a place among some tokens. -/
def CallAt (functions : List String) (tokens : Tokens) (i : Nat) : Prop :=
  ∃ name parenthesis, tokens[i]? = some name ∧ tokens[i + 1]? = some parenthesis ∧
    name.kind = .identifier ∧ name.text ∈ functions ∧
    parenthesis.kind = .punctuator ∧ parenthesis.text = "("

/-- The call at a place has a quoted text as its first argument, in front of a comma or of the
closing parenthesis. -/
def QuotedAt (tokens : Tokens) (i : Nat) (argument : Token) : Prop :=
  ∃ closing, tokens[i + 2]? = some argument ∧ tokens[i + 3]? = some closing ∧
    argument.kind = .string ∧ closing.kind = .punctuator ∧
    (closing.text = ")" ∨ closing.text = ",")

/-- What there is to say of the call at a place: its message, or one warning with the place of its
argument. -/
inductive Tells (path : String) (tokens : Tokens) (i : Nat) : Findings → Prop
  | message {argument : Token} {key : List Char} : QuotedAt tokens i argument →
      decode argument.text.toList = .ok key → Tells path tokens i (.one path key key)
  | undecodable {argument : Token} {fault : LiteralError} : QuotedAt tokens i argument →
      decode argument.text.toList = .error fault →
      Tells path tokens i (.say ⟨.warning, "Unable to decode locale string from " ++
        placeText path argument.position ++ ": " ++ fault.message⟩)
  | unrecognized {text : String} : (∀ argument, ¬QuotedAt tokens i argument) →
      (∀ argument, tokens[i + 2]? = some argument →
        text = "Unable to parse locale string from " ++ placeText path argument.position ++ ".") →
      Tells path tokens i (.say ⟨.warning, text⟩)

/-- Findings say one thing of each of some calls, in the order of the calls, and nothing else. -/
def Reports (told : Nat → Prop) (path : String) (tokens : Tokens) (found : Findings) : Prop :=
  ∃ parts : List (Nat × Findings), (parts.map Prod.fst).Pairwise (· < ·) ∧
    (∀ i, i ∈ parts.map Prod.fst ↔ told i) ∧
    (∀ part ∈ parts, Tells path tokens part.1 part.2) ∧
    found = .concat (parts.map Prod.snd)

theorem callAt_cons (first : Token) :
    CallAt functions (first :: tokens) (i + 1) ↔ CallAt functions tokens i := by
  simp only [CallAt, List.getElem?_cons_succ]

theorem quotedAt_cons (first argument : Token) :
    QuotedAt (first :: tokens) (i + 1) argument ↔ QuotedAt tokens i argument := by
  have behind : ∀ n, (first :: tokens)[i + 1 + n]? = tokens[i + n]? := by
    intro n
    rw [Nat.add_right_comm, List.getElem?_cons_succ]
  simp only [QuotedAt, behind]

theorem Tells.cons (first : Token) (h : Tells path tokens i found) :
    Tells path (first :: tokens) (i + 1) found := by
  cases h with
  | message quoted decoded => exact .message ((quotedAt_cons first _).mpr quoted) decoded
  | undecodable quoted fault => exact .undecodable ((quotedAt_cons first _).mpr quoted) fault
  | unrecognized other place =>
      refine .unrecognized (fun argument => mt (quotedAt_cons first argument).mp (other argument))
        fun argument there => place argument ?_
      rwa [Nat.add_right_comm, List.getElem?_cons_succ] at there

/-! ## One thing of each call -/

theorem startsCall_iff {name parenthesis : Token} {rest : Tokens} :
    startsCall functions name parenthesis = true ↔
      CallAt functions (name :: parenthesis :: rest) 0 := by
  simp [startsCall, isMark, CallAt, and_assoc]

/-- What the scan says of the call that some tokens start with. -/
theorem tells_argument (path : String) (name parenthesis argument closing : Token)
    (rest : Tokens) :
    Tells path (name :: parenthesis :: argument :: closing :: rest) 0
      (argumentFindings path argument closing) := by
  have quoted : ∀ other, QuotedAt (name :: parenthesis :: argument :: closing :: rest) 0 other ↔
      argument = other ∧
        (argument.kind == .string && (isMark closing ")" || isMark closing ",")) = true := by
    intro other
    simp only [QuotedAt, Nat.zero_add, List.getElem?_cons_succ, List.getElem?_cons_zero,
      Option.some.injEq, isMark, Bool.and_eq_true, Bool.or_eq_true, beq_iff_eq]
    grind
  unfold argumentFindings
  split
  · next recognized =>
      have own := (quoted argument).mpr ⟨rfl, recognized⟩
      split
      · next key decoded => exact .message own decoded
      · next fault decoded => exact .undecodable own decoded
  · next other =>
      refine .unrecognized (fun any recognized => other ((quoted any).mp recognized).2) ?_
      rintro _ ⟨⟩
      rfl

theorem Reports.congr {told told' : Nat → Prop} (h : Reports told path tokens found)
    (same : ∀ i, told i ↔ told' i) : Reports told' path tokens found := by
  obtain ⟨parts, order, calls, rest⟩ := h
  exact ⟨parts, order, fun i => (calls i).trans (same i), rest⟩

/-- With one more token in front every call stands one place further behind. -/
theorem Reports.shift {told : Nat → Prop} (first : Token) (h : Reports told path tokens found) :
    Reports (fun i => ∃ j, told j ∧ j + 1 = i) path (first :: tokens) found := by
  obtain ⟨parts, order, calls, tells, rfl⟩ := h
  have places : (parts.map fun part => (part.1 + 1, part.2)).map Prod.fst =
      (parts.map Prod.fst).map (· + 1) := by
    rw [List.map_map, List.map_map]
    rfl
  refine ⟨parts.map fun part => (part.1 + 1, part.2), ?_, ?_, ?_, ?_⟩
  · rw [places, List.pairwise_map]
    exact order.imp Nat.succ_lt_succ
  · intro i
    rw [places, List.mem_map]
    exact exists_congr fun j => and_congr_left fun _ => calls j
  · intro part there
    obtain ⟨before, inside, rfl⟩ := List.mem_map.mp there
    exact (tells before inside).cons first
  · rw [List.map_map]
    rfl

/-- The call that some tokens start with comes before all others. -/
theorem Reports.call {told : Nat → Prop} {here : Findings} (h : Reports told path tokens found)
    (behind : ∀ i, told i → 0 < i) (own : Tells path tokens 0 here) :
    Reports (fun i => i = 0 ∨ told i) path tokens (here ++ found) := by
  obtain ⟨parts, order, calls, tells, rfl⟩ := h
  refine ⟨(0, here) :: parts, ?_, fun i => ?_, List.forall_mem_cons.mpr ⟨own, tells⟩, rfl⟩
  · exact List.pairwise_cons.mpr ⟨fun i there => behind i ((calls i).mp there), order⟩
  · rw [List.map_cons, List.mem_cons, calls]

/-! ## All calls -/

/-- A call has a token behind its argument. -/
def Reached (functions : List String) (tokens : Tokens) (i : Nat) : Prop :=
  CallAt functions tokens i ∧ i + 3 < tokens.length

theorem reached_succ (first : Token) :
    Reached functions (first :: tokens) (i + 1) ↔ Reached functions tokens i := by
  rw [Reached, Reached, callAt_cons, List.length_cons]
  exact and_congr_right fun _ => by omega

/-- Tokens without a fourth one are few. -/
theorem length_lt_four {tokens : Tokens} (short : ∀ name parenthesis argument closing rest,
    tokens = name :: parenthesis :: argument :: closing :: rest → False) : tokens.length < 4 := by
  match tokens, short with
  | [], _ | [_], _ | [_, _], _ | [_, _, _], _ => simp
  | _ :: _ :: _ :: _ :: _, short => exact (short _ _ _ _ _ rfl).elim

/-- The scan says one thing of every call that has a token behind its argument. -/
theorem ofTokens_reports (functions : List String) (path : String) (tokens : Tokens) :
    Reports (Reached functions tokens) path tokens (ofTokens functions path tokens) := by
  fun_induction ofTokens functions path tokens with
  | case1 name parenthesis argument closing rest here ih =>
      have shifted := ih.shift name
      unfold here
      split
      · next starts =>
          have own := tells_argument path name parenthesis argument closing rest
          refine (shifted.call (by rintro _ ⟨j, -, rfl⟩; exact j.succ_pos) own).congr ?_
          rintro (_ | i)
          · exact iff_of_true (Or.inl rfl) ⟨startsCall_iff.mp starts, by simp⟩
          · simp [reached_succ]
      · next other =>
          refine shifted.congr ?_
          rintro (_ | i)
          · have none : ¬Reached functions (name :: parenthesis :: argument :: closing :: rest) 0 :=
              fun reached => other (startsCall_iff.mpr reached.1)
            simp [none]
          · simp [reached_succ]
  | case2 tokens short =>
      refine ⟨[], List.Pairwise.nil, fun i => ?_, List.forall_mem_nil _, rfl⟩
      refine iff_of_false List.not_mem_nil fun reached => ?_
      have few := length_lt_four short
      have more := reached.2
      omega

/-! ## Calls that are passed over -/

/-- How much there is in some findings. -/
def Findings.size (found : Findings) : Nat := found.entries.length + found.log.length

theorem Tells.size (h : Tells path tokens i found) : found.size = 1 := by
  cases h <;> rfl

/-- As much is said as there are calls. -/
theorem size_concat {parts : List (Nat × Findings)}
    (tells : ∀ part ∈ parts, Tells path tokens part.1 part.2) :
    (Findings.concat (parts.map Prod.snd)).size = (parts.map Prod.fst).length := by
  induction parts with
  | nil => rfl
  | cons part rest ih =>
      rw [List.forall_mem_cons] at tells
      have sizes : ∀ a b : Findings, (a.append b).size = a.size + b.size := by
        intro a b
        simp only [Findings.size, Findings.append, List.length_append]
        omega
      have later := ih tells.2
      rw [List.length_map] at later ⊢
      show (part.2.append (Findings.concat (rest.map Prod.snd))).size = _
      rw [sizes, tells.1.size, later, List.length_cons, Nat.add_comm]

/-- The same findings do not report some calls and fewer calls. -/
theorem Reports.told_of_told {some all : Nat → Prop} (fewer : Reports some path tokens found)
    (more : Reports all path tokens found) (inside : ∀ i, some i → all i) (told : all i) :
    some i := by
  obtain ⟨parts, order, calls, tells, same⟩ := fewer
  obtain ⟨parts', order', calls', tells', same'⟩ := more
  have distinct : (parts.map Prod.fst).Nodup := order.imp Nat.ne_of_lt
  have within : parts.map Prod.fst ⊆ parts'.map Prod.fst :=
    fun j there => (calls' j).mpr (inside j ((calls j).mp there))
  have long : (parts'.map Prod.fst).length ≤ (parts.map Prod.fst).length := by
    refine Nat.le_of_eq ?_
    rw [← size_concat tells, ← size_concat tells', ← same, ← same']
  have perm := (distinct.subperm within).perm_of_length_le long
  exact (calls i).mp (perm.mem_iff.mpr ((calls' i).mpr told))

/-- Every call is reported just when none stands among the last three tokens. -/
theorem reports_calls_iff (functions : List String) (path : String) (tokens : Tokens) :
    Reports (CallAt functions tokens) path tokens (ofTokens functions path tokens) ↔
      ∀ i, CallAt functions tokens i → i + 3 < tokens.length := by
  have reached := ofTokens_reports functions path tokens
  constructor
  · exact fun all i call => (reached.told_of_told all (fun _ => And.left) call).2
  · exact fun short => reached.congr fun i => and_iff_left_of_imp (short i)

/-- The scan says one thing of each call that has a token behind its argument, in the order of the
calls, and says nothing else; and these are all calls just when none stands among the last three
tokens. -/
theorem ofTokens_reports_iff (functions : List String) (path : String) (tokens : Tokens) :
    Reports (fun i => CallAt functions tokens i ∧ i + 3 < tokens.length) path tokens
        (ofTokens functions path tokens) ∧
      (Reports (CallAt functions tokens) path tokens (ofTokens functions path tokens) ↔
        ∀ i, CallAt functions tokens i → i + 3 < tokens.length) :=
  ⟨ofTokens_reports functions path tokens, reports_calls_iff functions path tokens⟩

/-- The tokens of a script that is a call without an argument. -/
def emptyCall : Tokens :=
  [⟨.identifier, "localize", ⟨1, 1⟩⟩, ⟨.punctuator, "(", ⟨1, 9⟩⟩, ⟨.punctuator, ")", ⟨1, 10⟩⟩]

/-- A call that a script ends with is not always reported. -/
theorem not_reports_emptyCall :
    ¬∀ (functions : List String) (path : String) (tokens : Tokens),
      Reports (CallAt functions tokens) path tokens (ofTokens functions path tokens) := by
  intro all
  have call : CallAt ["localize"] emptyCall 0 :=
    ⟨_, _, rfl, rfl, rfl, List.mem_singleton.mpr rfl, rfl, rfl⟩
  have reached := (reports_calls_iff _ _ _).mp (all ["localize"] "a.js" emptyCall) 0 call
  exact absurd reached (by decide)

end MessageCatalog.Occurrence
