import Mathlib.Data.List.Nodup
import MessageCatalog.Json.Value
import MessageCatalog.Proofs.Basic
import MessageCatalog.Proofs.Json.Written
import MessageCatalog.Proofs.Number.Shortest

/-!
# MessageCatalog.Proofs.Json.Faithful -- a value that was read is written and read as itself

Whatever is read has numbers of the format only, and objects that have each of their names once.
Such a value loses nothing when it is written: the digits of its numbers read back, and no member
replaces another. Members are set one after the other, which keeps the names distinct; each value is
one that came, and members with distinct names are kept as they are.
-/

namespace MessageCatalog.Json

open MessageCatalog.Number MessageCatalog.Text

/-! ## Setting a name -/

theorem Members.mem_names_set {members : Members} {name other : String} {value : Value} :
    other ∈ (members.set name value).map Prod.fst ↔
      other = name ∨ other ∈ members.map Prod.fst := by
  induction members with
  | nil => simp [Members.set]
  | cons member rest ih =>
      obtain ⟨first, before⟩ := member
      rw [Members.set]
      by_cases same : first = name
      · subst same
        simp
      · rw [if_neg (by simpa using same), List.map_cons, List.mem_cons, ih, List.map_cons,
          List.mem_cons]
        exact or_left_comm

theorem Members.nodup_set {members : Members} (distinct : (members.map Prod.fst).Nodup)
    (name : String) (value : Value) : ((members.set name value).map Prod.fst).Nodup := by
  induction members with
  | nil => exact List.nodup_singleton name
  | cons member rest ih =>
      obtain ⟨first, before⟩ := member
      rw [List.map_cons, List.nodup_cons] at distinct
      rw [Members.set]
      split
      · exact List.nodup_cons.mpr distinct
      · next other =>
        refine List.nodup_cons.mpr ⟨fun there => ?_, ih distinct.2⟩
        rcases Members.mem_names_set.mp there with same | there
        · exact other (beq_iff_eq.mpr same)
        · exact distinct.1 there

theorem Members.mem_set {members : Members} {name : String} {value : Value}
    {member : String × Value} (there : member ∈ members.set name value) :
    member.2 = value ∨ member ∈ members := by
  induction members with
  | nil =>
      rw [Members.set, List.mem_singleton] at there
      exact Or.inl (congrArg Prod.snd there)
  | cons head rest ih =>
      obtain ⟨first, before⟩ := head
      rw [Members.set] at there
      split at there
      · rcases List.mem_cons.mp there with rfl | there
        · exact Or.inl rfl
        · exact Or.inr (List.mem_cons_of_mem _ there)
      · rcases List.mem_cons.mp there with rfl | there
        · exact Or.inr List.mem_cons_self
        · exact (ih there).imp_right (List.mem_cons_of_mem _)

/-! ## Setting names in order -/

/-- Sets some members one after the other. -/
def Members.setAll (members : Members) (pairs : List (String × Value)) : Members :=
  pairs.foldl (fun members (name, value) => Members.set members name value) members

theorem Members.mem_names_setAll {pairs : List (String × Value)} {members : Members}
    {name : String} :
    name ∈ (members.setAll pairs).map Prod.fst ↔
      name ∈ members.map Prod.fst ∨ name ∈ pairs.map Prod.fst := by
  induction pairs generalizing members with
  | nil => simp [Members.setAll]
  | cons pair rest ih =>
      show name ∈ ((Members.set members pair.1 pair.2).setAll rest).map Prod.fst ↔ _
      rw [ih, Members.mem_names_set, List.map_cons, List.mem_cons, or_assoc]
      exact or_left_comm

/-- The names are those that were set. -/
theorem Members.mem_names_ofList {pairs : List (String × Value)} {name : String} :
    name ∈ (Members.ofList pairs).map Prod.fst ↔ name ∈ pairs.map Prod.fst := by
  show name ∈ (Members.setAll [] pairs).map Prod.fst ↔ _
  rw [Members.mem_names_setAll]
  simp

theorem Members.setAll_cons {pairs : List (String × Value)} {first : String} (value : Value)
    (apart : first ∉ pairs.map Prod.fst) (members : Members) :
    Members.setAll ((first, value) :: members) pairs = (first, value) :: members.setAll pairs := by
  induction pairs generalizing members with
  | nil => rfl
  | cons pair rest ih =>
      rw [List.map_cons, List.mem_cons, not_or] at apart
      have behind : Members.set ((first, value) :: members) pair.1 pair.2 =
          (first, value) :: Members.set members pair.1 pair.2 := by
        rw [Members.set, if_neg (by simpa using apart.1)]
      show (Members.set ((first, value) :: members) pair.1 pair.2).setAll rest = _
      rw [behind, ih apart.2]
      rfl

/-- A member whose name does not come again stays in front. -/
theorem Members.ofList_cons {pairs : List (String × Value)} {first : String} (value : Value)
    (apart : first ∉ pairs.map Prod.fst) :
    Members.ofList ((first, value) :: pairs) = (first, value) :: Members.ofList pairs :=
  Members.setAll_cons value apart []

theorem Members.ofList_of_nodup {pairs : List (String × Value)}
    (distinct : (pairs.map Prod.fst).Nodup) : Members.ofList pairs = pairs := by
  induction pairs with
  | nil => rfl
  | cons pair rest ih =>
      rw [List.map_cons, List.nodup_cons] at distinct
      rw [Members.ofList_cons pair.2 distinct.1, ih distinct.2]

theorem Members.nodup_setAll {pairs : List (String × Value)} {members : Members}
    (distinct : (members.map Prod.fst).Nodup) : ((members.setAll pairs).map Prod.fst).Nodup := by
  induction pairs generalizing members with
  | nil => exact distinct
  | cons pair rest ih => exact ih (Members.nodup_set distinct pair.1 pair.2)

theorem Members.nodup_ofList (pairs : List (String × Value)) :
    ((Members.ofList pairs).map Prod.fst).Nodup :=
  Members.nodup_setAll List.nodup_nil

theorem Members.mem_setAll {pairs : List (String × Value)} {members : Members}
    {member : String × Value} (there : member ∈ members.setAll pairs) :
    (∃ pair ∈ pairs, member.2 = pair.2) ∨ member ∈ members := by
  induction pairs generalizing members with
  | nil => exact Or.inr there
  | cons pair rest ih =>
      rcases ih there with ⟨own, inside, same⟩ | before
      · exact Or.inl ⟨own, List.mem_cons_of_mem _ inside, same⟩
      · rcases Members.mem_set before with same | before
        · exact Or.inl ⟨pair, List.mem_cons_self, same⟩
        · exact Or.inr before

/-- Each value is one that was set. -/
theorem Members.mem_ofList {pairs : List (String × Value)} {member : String × Value}
    (there : member ∈ Members.ofList pairs) : ∃ pair ∈ pairs, member.2 = pair.2 :=
  (Members.mem_setAll there).resolve_right List.not_mem_nil

/-! ## Values that are read as they were -/

/-- A number of the format is read from its digits. -/
theorem reread_of_proper {x : Double} (h : x.Proper) : reread x = x := by
  cases x with
  | nan => rfl
  | infinite negative => cases negative <;> rfl
  | finite negative significand exponent =>
      obtain ⟨digits, power, spells, same⟩ := Double.ofDecimal_magnitude h negative
      rw [reread_spells spells, same]

/-- A value with numbers of the format, whose objects have each of their names once. -/
inductive Value.Faithful : Value → Prop where
  | null : Value.Faithful .null
  | bool (b : Bool) : Value.Faithful (.bool b)
  | int (n : Int) : Value.Faithful (.int n)
  | real {x : Double} (proper : x.Proper) : Value.Faithful (.real x)
  | text (s : String) : Value.Faithful (.text s)
  | array {items : List Value} (all : ∀ item ∈ items, Value.Faithful item) :
      Value.Faithful (.array items)
  | object {members : Members} (distinct : (members.map Prod.fst).Nodup)
      (all : ∀ member ∈ members, Value.Faithful member.2) : Value.Faithful (.object members)

theorem rereadItems_of {items : List Value} (h : ∀ item ∈ items, item.reread = item) :
    rereadItems items = items := by
  induction items with
  | nil => rw [rereadItems]
  | cons item rest ih =>
      rw [rereadItems, h item List.mem_cons_self,
        ih fun other there => h other (List.mem_cons_of_mem _ there)]

theorem rereadMembers_of {members : Members}
    (h : ∀ member ∈ members, member.2.reread = member.2) : rereadMembers members = members := by
  induction members with
  | nil => rw [rereadMembers]
  | cons member rest ih =>
      obtain ⟨name, value⟩ := member
      rw [rereadMembers, h (name, value) List.mem_cons_self,
        ih fun other there => h other (List.mem_cons_of_mem _ there)]

theorem Value.Faithful.reread {value : Value} (h : value.Faithful) : value.reread = value := by
  induction h with
  | null | bool _ | int _ | text _ => rw [Value.reread]
  | real proper => rw [Value.reread, reread_of_proper proper]
  | array _ ih => rw [Value.reread, rereadItems_of ih]
  | object distinct _ ih =>
      rw [Value.reread, rereadMembers_of ih, Members.ofList_of_nodup distinct]

/-! ## Whatever is read -/

variable {value : Value} {text rest : List Char}

theorem faithful_of_readUnsigned {negative : Bool}
    (read : readUnsigned negative text = some (value, rest)) : value.Faithful := by
  unfold readUnsigned at read
  split at read
  · cases read
  · dsimp only at read
    split at read
    · cases read
      exact .real (Double.proper_ofDecimal _ _ _)
    split at read
    · cases read
      exact .int _
    · cases read
      exact .real (Double.proper_ofDecimal _ _ _)

theorem faithful_of_readNumber (read : readNumber text = some (value, rest)) : value.Faithful := by
  unfold readNumber at read
  split at read
  · exact faithful_of_readUnsigned read
  · exact faithful_of_readUnsigned read

theorem faithful_of_constant {constant : String × Value} (there : constant ∈ constants) :
    constant.2.Faithful := by
  have all : ∀ constant ∈ constants, constant.2.Faithful := by
    simp only [constants, List.forall_mem_cons]
    exact ⟨.null, .bool true, .bool false, .real trivial, .real trivial, .real trivial, by simp⟩
  exact all constant there

theorem faithful_of_readScalar (read : readScalar text = .ok (value, rest)) : value.Faithful := by
  unfold readScalar at read
  split at read
  · next result found =>
    cases read
    obtain ⟨constant, there, inside⟩ := List.exists_of_findSome?_eq_some found
    obtain ⟨_, -, same⟩ := Option.map_eq_some_iff.mp inside
    cases same
    exact faithful_of_constant there
  split at read
  · next result found =>
    cases read
    exact faithful_of_readNumber found
  · cases read

/-- What the reader takes with some fuel is faithful. -/
structure FaithfulAt (lone : Nat → Option Char) (fuel : Nat) : Prop where
  value : ∀ {text value rest}, readValue lone fuel text = .ok (value, rest) → value.Faithful
  items : ∀ {text items rest}, readItems lone fuel text = .ok (items, rest) →
    ∀ item ∈ items, Value.Faithful item
  members : ∀ {text members rest}, readMembers lone fuel text = .ok (members, rest) →
    ∀ member ∈ members, Value.Faithful member.2

theorem FaithfulAt.readValue {lone : Nat → Option Char} {fuel : Nat} (h : FaithfulAt lone fuel)
    (read : readValue lone (fuel + 1) text = .ok (value, rest)) : value.Faithful := by
  unfold Json.readValue at read
  split at read
  · obtain ⟨_, -, same⟩ := map_eq_ok read
    cases same
    exact .text _
  · split at read
    · cases read
      exact .array (List.forall_mem_nil _)
    · obtain ⟨⟨items, _⟩, inside, same⟩ := map_eq_ok read
      cases same
      exact .array (h.items inside)
  · split at read
    · cases read
      exact .object List.nodup_nil (List.forall_mem_nil _)
    · obtain ⟨⟨pairs, _⟩, inside, same⟩ := map_eq_ok read
      cases same
      refine .object (Members.nodup_ofList pairs) fun member there => ?_
      obtain ⟨pair, came, same⟩ := Members.mem_ofList there
      rw [same]
      exact h.members inside pair came
  · exact faithful_of_readScalar read

theorem FaithfulAt.readItems {lone : Nat → Option Char} {fuel : Nat} (h : FaithfulAt lone fuel)
    {items : List Value} (read : readItems lone (fuel + 1) text = .ok (items, rest)) :
    ∀ item ∈ items, Value.Faithful item := by
  unfold Json.readItems at read
  split at read
  · cases read
  next first behind =>
  split at read
  · cases read
    exact List.forall_mem_singleton.mpr (h.value behind)
  · obtain ⟨⟨others, _⟩, inside, same⟩ := map_eq_ok read
    cases same
    exact List.forall_mem_cons.mpr ⟨h.value behind, h.items inside⟩
  · cases read

theorem FaithfulAt.readMembers {lone : Nat → Option Char} {fuel : Nat} (h : FaithfulAt lone fuel)
    {members : List (String × Value)}
    (read : readMembers lone (fuel + 1) text = .ok (members, rest)) :
    ∀ member ∈ members, Value.Faithful member.2 := by
  unfold Json.readMembers at read
  split at read
  · split at read
    · cases read
    split at read
    · split at read
      · cases read
      next first behind =>
      split at read
      · cases read
        exact List.forall_mem_singleton.mpr (h.value behind)
      · obtain ⟨⟨others, _⟩, inside, same⟩ := map_eq_ok read
        cases same
        exact List.forall_mem_cons.mpr ⟨h.value behind, h.members inside⟩
      · cases read
    · cases read
  · cases read

theorem faithfulAt (lone : Nat → Option Char) (fuel : Nat) : FaithfulAt lone fuel := by
  induction fuel with
  | zero =>
      refine ⟨fun {text value rest} read => ?_, fun {text items rest} read => ?_,
        fun {text members rest} read => ?_⟩
      · rw [Json.readValue] at read
        cases read
      · rw [Json.readItems] at read
        cases read
      · rw [Json.readMembers] at read
        cases read
  | succ fuel ih => exact ⟨ih.readValue, ih.readItems, ih.readMembers⟩

/-- Whatever is read is written and read as itself. -/
theorem faithful_of_read (read : Json.read text = .ok value) : value.Faithful := by
  unfold Json.read at read
  split at read
  · cases read
  split at read
  · next found =>
    cases read
    unfold readDocument at found
    split at found
    · cases found
    split at found
    · cases found
    next inside =>
    split at found
    · cases found
      exact (faithfulAt _ _).value inside
    · cases found
  · cases read

end MessageCatalog.Json
