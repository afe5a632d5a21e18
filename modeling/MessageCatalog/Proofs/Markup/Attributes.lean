import Mathlib.Data.List.Nodup
import Mathlib.Data.String.Basic
import MessageCatalog.Proofs.Markup.Rendered
import MessageCatalog.Proofs.Text.Search

/-!
# MessageCatalog.Proofs.Markup.Attributes -- attributes are written and read again

The attributes of an element are settled once they have been read: each name stands once, and a list
of words is written with single spaces. Written in the order of their names and read again, settled
attributes are the same, and in the same order.
-/

namespace MessageCatalog.Markup

open MessageCatalog.Text

/-! ## Settled attributes -/

/-- Attributes as they are once they have been read for an element: no name stands twice, and values
that are lists of words are written as such. -/
structure SettledAttributes (element : String) (attributes : List (String × List Char)) : Prop where
  distinct : (attributes.map Prod.fst).Nodup
  values : ∀ a ∈ attributes, attributeValue element a.1 a.2 = a.2

theorem attributeValue_attributeValue (element name : String) (value : List Char) :
    attributeValue element name (attributeValue element name value) =
      attributeValue element name value := by
  simp only [attributeValue]
  split
  · rw [words_joinWith rfl fun word there => mem_words there]
  · rfl

variable {element : String} {attributes : List (String × List Char)}

theorem map_fst_setAttribute (found : List (String × List Char)) (name : String)
    (value : List Char) : (setAttribute found name value).map Prod.fst =
      if name ∈ found.map Prod.fst then found.map Prod.fst else found.map Prod.fst ++ [name] := by
  induction found with
  | nil => rfl
  | cons first rest ih =>
      obtain ⟨n, v⟩ := first
      rw [setAttribute]
      split
      · next same =>
          rw [beq_iff_eq] at same
          simp [same]
      · next other =>
          have apart : ¬name = n := fun same => other (beq_iff_eq.mpr same.symm)
          rw [List.map_cons, ih]
          simp only [List.map_cons, List.mem_cons, apart, false_or]
          split <;> rfl

theorem nodup_setAll {found : List (String × List Char)} (h : (found.map Prod.fst).Nodup)
    (read : List Attribute) : ((setAll found read).map Prod.fst).Nodup := by
  induction read generalizing found with
  | nil => exact h
  | cons a rest ih =>
      refine ih ?_
      rw [map_fst_setAttribute]
      split
      · exact h
      · next new =>
          refine List.nodup_append.mpr ⟨h, List.nodup_singleton _, ?_⟩
          intro name there other same
          rintro rfl
          exact new (List.mem_singleton.mp same ▸ there)

/-- The attributes that are read for an element are settled. -/
theorem settledAttributes_attributesOf (element : String) (read : List Attribute) :
    SettledAttributes element (attributesOf element read) where
  distinct := by
    have names : (attributesOf element read).map Prod.fst = (setAll [] read).map Prod.fst := by
      rw [attributesOf, List.map_map]
      rfl
    have none : (([] : List (String × List Char)).map Prod.fst).Nodup := List.nodup_nil
    rw [names]
    exact nodup_setAll none read
  values := by
    intro a there
    obtain ⟨⟨name, value⟩, -, rfl⟩ := List.mem_map.mp there
    exact attributeValue_attributeValue element name value

theorem SettledAttributes.filter (h : SettledAttributes element attributes)
    (keeps : String × List Char → Bool) : SettledAttributes element (attributes.filter keeps) where
  distinct := h.distinct.sublist (List.filter_sublist.map _)
  values := fun a there => h.values a (List.mem_of_mem_filter there)

theorem SettledAttributes.perm {others : List (String × List Char)} (h : SettledAttributes element attributes)
    (same : others.Perm attributes) : SettledAttributes element others where
  distinct := (same.map _).nodup_iff.mpr h.distinct
  values := fun a there => h.values a (same.mem_iff.mp there)

/-! ## Reading them again -/

/-- Attributes with their values, as a start tag has them. -/
def asRead (attributes : List (String × List Char)) : List Attribute :=
  attributes.map fun a => ⟨a.1, some a.2⟩

/-- A name that is new is set at the end. -/
theorem setAttribute_new {found : List (String × List Char)} {name : String} (value : List Char)
    (new : name ∉ found.map Prod.fst) : setAttribute found name value = found ++ [(name, value)] := by
  induction found with
  | nil => rfl
  | cons first rest ih =>
      obtain ⟨n, v⟩ := first
      rw [List.map_cons, List.mem_cons, not_or] at new
      rw [setAttribute, if_neg (fun same => new.1 (beq_iff_eq.mp same).symm), ih new.2]
      rfl

theorem setAll_asRead {found : List (String × List Char)}
    (distinct : ((found ++ attributes).map Prod.fst).Nodup) :
    setAll found (asRead attributes) = found ++ attributes := by
  induction attributes generalizing found with
  | nil => exact (List.append_nil found).symm
  | cons a rest ih =>
      have new : a.1 ∉ found.map Prod.fst := by
        rw [List.map_append, List.map_cons] at distinct
        exact fun there => (List.nodup_append.mp distinct).2.2 a.1 there a.1 List.mem_cons_self rfl
      have step : setAll found (asRead (a :: rest)) =
          setAll (setAttribute found a.1 a.2) (asRead rest) := rfl
      rw [step, setAttribute_new _ new, ih (by rwa [List.append_assoc]), List.append_assoc]
      rfl

/-- Settled attributes are read as they are. -/
theorem SettledAttributes.read (h : SettledAttributes element attributes) :
    attributesOf element (asRead attributes) = attributes := by
  have all : setAll [] (asRead attributes) = attributes := setAll_asRead h.distinct
  have same : ∀ a ∈ attributes, (a.1, attributeValue element a.1 a.2) = a := by
    intro a there
    rw [h.values a there]
  show (setAll [] (asRead attributes)).map (fun a => (a.1, attributeValue element a.1 a.2)) = _
  rw [all]
  exact (List.map_congr_left same).trans (List.map_id _)

/-! ## Their order -/

theorem nameBefore_iff {a b : String × List Char} : nameBefore a b = true ↔ a.1 ≤ b.1 := by
  rw [nameBefore, Bool.or_eq_true, decide_eq_true_eq, beq_iff_eq]
  exact le_iff_lt_or_eq.symm

/-- Attributes in the order of their names. -/
def inOrder (attributes : List (String × List Char)) : List (String × List Char) :=
  attributes.mergeSort nameBefore

theorem inOrder_perm (attributes : List (String × List Char)) :
    (inOrder attributes).Perm attributes := List.mergeSort_perm ..

theorem inOrder_inOrder (attributes : List (String × List Char)) :
    inOrder (inOrder attributes) = inOrder attributes := by
  have transitive : ∀ a b c : String × List Char, nameBefore a b = true → nameBefore b c = true →
      nameBefore a c = true := by
    intro a b c hab hbc
    rw [nameBefore_iff] at hab hbc ⊢
    exact le_trans hab hbc
  have total : ∀ a b : String × List Char, (nameBefore a b || nameBefore b a) = true := by
    intro a b
    rw [Bool.or_eq_true, nameBefore_iff, nameBefore_iff]
    exact le_total a.1 b.1
  exact List.mergeSort_of_pairwise (List.pairwise_mergeSort transitive total attributes)

end MessageCatalog.Markup
