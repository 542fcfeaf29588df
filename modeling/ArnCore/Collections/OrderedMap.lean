import Mathlib.Data.List.Basic

/-!
# Ordered association lists

The entries of a `std::map` in iteration order.  Insertion keeps the entries in
key order; only lookups and the set of keys matter to most proofs, and those
equations hold of every list of entries.
-/

namespace ArnCore.Collections.OrderedMap

variable {Key Value : Type} [DecidableEq Key]

/-! ## Lookup -/

/-- The value stored under a key. -/
def find? (key : Key) : List (Key × Value) → Option Value
  | [] => none
  | entry :: rest => if entry.1 = key then some entry.2 else find? key rest

variable {key other : Key} {value : Value} {entries : List (Key × Value)}

@[simp]
theorem find?_nil : find? key ([] : List (Key × Value)) = none := rfl

@[simp]
theorem find?_cons {entry : Key × Value} :
    find? key (entry :: entries) =
      if entry.1 = key then some entry.2 else find? key entries := rfl

theorem find?_eq_none_iff :
    find? key entries = none ↔ ∀ entry ∈ entries, entry.1 ≠ key := by
  induction entries with
  | nil => simp
  | cons head rest induction =>
      by_cases same : head.1 = key
      · simp [same]
      · simp [same, induction]

theorem mem_of_find?_eq_some
    (found : find? key entries = some value) :
    (key, value) ∈ entries := by
  induction entries with
  | nil => simp at found
  | cons head rest induction =>
      by_cases same : head.1 = key
      · simp only [find?_cons, same, if_true, Option.some.injEq] at found
        subst same
        subst found
        exact List.mem_cons_self
      · simp only [find?_cons, same, if_false] at found
        exact List.mem_cons_of_mem _ (induction found)

/-- Lookups of a map whose values were replaced one by one. -/
theorem find?_map {Other : Type} (replace : Value → Other) :
    find? key (entries.map fun entry => (entry.1, replace entry.2)) =
      (find? key entries).map replace := by
  induction entries with
  | nil => rfl
  | cons head rest induction =>
      rw [List.map_cons, find?_cons, find?_cons, induction]
      split_ifs <;> rfl

/-! ## Insertion -/

variable [LT Key] [DecidableRel (fun left right : Key => left < right)]

/-- Assign a value to a key, inserting the key at its place when it is new. -/
def insert (key : Key) (value : Value) :
    List (Key × Value) → List (Key × Value)
  | [] => [(key, value)]
  | entry :: rest =>
      if entry.1 = key then
        (key, value) :: rest
      else if key < entry.1 then
        (key, value) :: entry :: rest
      else
        entry :: insert key value rest

@[simp]
theorem find?_insert_self :
    find? key (insert key value entries) = some value := by
  induction entries with
  | nil => simp [insert]
  | cons entry rest induction =>
      by_cases same : entry.1 = key
      · simp [insert, same]
      · by_cases less : key < entry.1
        · simp [insert, same, less]
        · simp [insert, same, less, induction]

theorem find?_insert_of_ne (different : key ≠ other) :
    find? other (insert key value entries) = find? other entries := by
  induction entries with
  | nil => simp [insert, different]
  | cons entry rest induction =>
      by_cases same : entry.1 = key
      · simp [insert, same, different]
      · by_cases less : key < entry.1
        · simp [insert, same, less, different]
        · simp [insert, same, less, induction]

/-- Lookups of a map after an assignment. -/
theorem find?_insert :
    find? other (insert key value entries) =
      if key = other then some value else find? other entries := by
  by_cases same : key = other
  · subst same
    simp
  · rw [find?_insert_of_ne same, if_neg same]

/-- A new key adds one entry and changes no other. -/
theorem insert_perm_of_find?_eq_none
    (fresh : find? key entries = none) :
    (insert key value entries).Perm ((key, value) :: entries) := by
  induction entries with
  | nil => exact .refl _
  | cons head rest induction =>
      have different : head.1 ≠ key :=
        find?_eq_none_iff.mp fresh head List.mem_cons_self
      simp only [find?_cons, different, if_false] at fresh
      by_cases less : key < head.1
      · simp [insert, different, less]
      · simp only [insert, different, less, if_false]
        exact ((induction fresh).cons head).trans (.swap _ _ _)

/-- A key behind all others is inserted at the end. -/
theorem insert_of_lt
    (behind : ∀ entry ∈ entries, entry.1 ≠ key ∧ ¬ key < entry.1) :
    insert key value entries = entries ++ [(key, value)] := by
  induction entries with
  | nil => rfl
  | cons head rest induction =>
      obtain ⟨⟨different, notLess⟩, others⟩ := List.forall_mem_cons.mp behind
      rw [insert, if_neg different, if_neg notLess, induction others]
      rfl

/-- Assignments to a map whose values were replaced one by one. -/
theorem insert_map {Other : Type} (replace : Value → Other) :
    insert key (replace value)
        (entries.map fun entry => (entry.1, replace entry.2)) =
      (insert key value entries).map
        fun entry => (entry.1, replace entry.2) := by
  induction entries with
  | nil => rfl
  | cons head rest induction =>
      rw [List.map_cons, insert, insert, induction]
      split_ifs <;> rfl

end ArnCore.Collections.OrderedMap
