import Mathlib.Order.Defs.LinearOrder
import Mathlib.Order.RelClasses
import ArnCore.Collections.OrderedMap

/-!
# Sorted association lists

The representation invariant of a `std::map`: the keys increase strictly.  A
sorted list is determined by its lookups, so whatever is computed from the
entries depends on the map they represent and on nothing else.
-/

namespace ArnCore.Collections.OrderedMap

variable {Key Value : Type} [DecidableEq Key] [LT Key]
  {key other : Key} {value : Value} {entries others : List (Key × Value)}

/-- The keys increase strictly. -/
def Sorted (entries : List (Key × Value)) : Prop :=
  entries.Pairwise fun left right => left.1 < right.1

/-- Remove the entry of a key, if there is one. -/
def erase (key : Key) : List (Key × Value) → List (Key × Value)
  | [] => []
  | entry :: rest => if entry.1 = key then rest else entry :: erase key rest

omit [LT Key] in
theorem mem_of_mem_erase {entry : Key × Value}
    (member : entry ∈ erase key entries) : entry ∈ entries := by
  induction entries with
  | nil => exact member
  | cons head rest induction =>
      unfold erase at member
      split at member
      · exact List.mem_cons_of_mem _ member
      · rcases List.mem_cons.mp member with rfl | inRest
        · exact List.mem_cons_self
        · exact List.mem_cons_of_mem _ (induction inRest)

theorem Sorted.erase (sorted : Sorted entries) :
    Sorted (erase key entries) := by
  induction entries with
  | nil => exact sorted
  | cons head rest induction =>
      obtain ⟨first, others⟩ := List.pairwise_cons.mp sorted
      rw [OrderedMap.erase]
      split
      · exact others
      · apply List.pairwise_cons.mpr
        refine ⟨fun entry member => ?_, induction others⟩
        exact first entry (mem_of_mem_erase member)

section Irreflexive

variable [Std.Irrefl (fun left right : Key => left < right)]

/-- In a sorted list the first key does not occur again. -/
theorem Sorted.find?_rest {entry : Key × Value}
    (sorted : Sorted (entry :: entries)) :
    find? entry.1 entries = none := by
  apply find?_eq_none_iff.mpr
  intro later member same
  have less := (List.pairwise_cons.mp sorted).1 later member
  rw [same] at less
  exact Std.Irrefl.irrefl (r := fun left right : Key => left < right) _ less

/-- Lookups of a sorted list after a removal. -/
theorem Sorted.find?_erase (sorted : Sorted entries) :
    find? other (OrderedMap.erase key entries) =
      if key = other then none else find? other entries := by
  induction entries with
  | nil => simp [OrderedMap.erase]
  | cons head rest induction =>
      have later := induction (List.pairwise_cons.mp sorted).2
      have absent := sorted.find?_rest
      rw [OrderedMap.erase]
      by_cases found : head.1 = key
      · subst found
        rw [if_pos rfl, find?_cons]
        by_cases same : head.1 = other
        · subst same
          rw [if_pos rfl, absent]
        · rw [if_neg same, if_neg same]
      · rw [if_neg found, find?_cons, find?_cons, later]
        by_cases same : head.1 = other
        · rw [if_pos same, if_pos same, if_neg]
          rintro rfl
          exact found same
        · rw [if_neg same, if_neg same]

/-- The entries of a sorted list are what is found in it. -/
theorem Sorted.mem_iff (sorted : Sorted entries) :
    (key, value) ∈ entries ↔ find? key entries = some value := by
  refine ⟨fun member => ?_, mem_of_find?_eq_some⟩
  induction entries with
  | nil => cases member
  | cons head rest induction =>
      rw [find?_cons]
      rcases List.mem_cons.mp member with rfl | inRest
      · rw [if_pos rfl]
      · have found := induction (List.pairwise_cons.mp sorted).2 inRest
        rw [if_neg, found]
        rintro rfl
        rw [sorted.find?_rest] at found
        cases found

omit [DecidableEq Key] in
theorem Sorted.nodup (sorted : Sorted entries) : entries.Nodup := by
  apply List.Pairwise.imp ?_ sorted
  rintro left right less rfl
  exact Std.Irrefl.irrefl (r := fun left right : Key => left < right) _ less

end Irreflexive

section Ordered

variable [DecidableRel (fun left right : Key => left < right)]

theorem mem_of_mem_insert {entry : Key × Value}
    (member : entry ∈ insert key value entries) :
    entry = (key, value) ∨ entry ∈ entries := by
  induction entries with
  | nil => exact Or.inl (List.mem_singleton.mp member)
  | cons head rest induction =>
      unfold insert at member
      split_ifs at member with same less
      · rcases List.mem_cons.mp member with first | inRest
        · exact Or.inl first
        · exact Or.inr (List.mem_cons_of_mem _ inRest)
      · exact List.mem_cons.mp member
      · rcases List.mem_cons.mp member with rfl | inserted
        · exact Or.inr List.mem_cons_self
        · exact (induction inserted).imp_right (List.mem_cons_of_mem _)

variable [IsStrictTotalOrder Key (fun left right => left < right)]

/-- An assignment keeps the keys in order. -/
theorem Sorted.insert (sorted : Sorted entries) :
    Sorted (insert key value entries) := by
  induction entries with
  | nil => exact List.pairwise_singleton _ _
  | cons head rest induction =>
      obtain ⟨first, later⟩ := List.pairwise_cons.mp sorted
      rw [OrderedMap.insert]
      split_ifs with same less
      · subst same
        exact List.pairwise_cons.mpr ⟨first, later⟩
      · apply List.pairwise_cons.mpr
        refine ⟨fun entry member => ?_, sorted⟩
        rcases List.mem_cons.mp member with rfl | inRest
        · exact less
        · exact IsTrans.trans (r := fun left right : Key => left < right)
            _ _ _ less (first entry inRest)
      · apply List.pairwise_cons.mpr
        refine ⟨fun entry member => ?_, induction later⟩
        rcases mem_of_mem_insert member with rfl | inRest
        · by_contra notLess
          exact same (Std.Trichotomous.trichotomous
            (r := fun left right : Key => left < right) _ _ notLess less)
        · exact first entry inRest

omit [DecidableRel (fun left right : Key => left < right)] in
/-- Sorted lists with the same lookups are equal. -/
theorem Sorted.ext
    (sorted : Sorted entries) (also : Sorted others)
    (same : ∀ key, find? key entries = find? key others) :
    entries = others := by
  have permuted : entries.Perm others := by
    apply (List.perm_ext_iff_of_nodup sorted.nodup also.nodup).mpr
    rintro ⟨key, value⟩
    rw [sorted.mem_iff, also.mem_iff, same]
  apply permuted.eq_of_pairwise ?_ sorted also
  intro left right _ _ less greater
  exact absurd (IsTrans.trans (r := fun left right : Key => left < right)
    _ _ _ less greater) (Std.Irrefl.irrefl _)

end Ordered

end ArnCore.Collections.OrderedMap
