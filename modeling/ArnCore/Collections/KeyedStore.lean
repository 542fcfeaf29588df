import Mathlib.Data.List.Induction
import Mathlib.Data.Set.Card
import Mathlib.Logic.Function.Basic
import ArnCore.Collections.SortedMap

/-!
# Stores of values under their own keys

A store is a partial map from keys to values in which every value lies under
the key that is read off the value itself.  Its updates are performed on sorted
entries; what they do is said on the map, and the two agree along every run.
-/

namespace ArnCore.Collections.KeyedStore

/-! ## Runs that reply -/

section Runs

variable {State Other Command Reply : Type}

/-- Commands one after the other: what they reply, and where they lead. -/
def run (step : State → Command → Reply × State) (start : State)
    (commands : List Command) : List Reply × State :=
  commands.foldl
    (fun reached command =>
      let next := step reached.2 command
      (reached.1 ++ [next.1], next.2))
    ([], start)

theorem run_concat
    (step : State → Command → Reply × State) (start : State)
    (commands : List Command) (last : Command) :
    run step start (commands ++ [last]) =
      ((run step start commands).1 ++
          [(step (run step start commands).2 last).1],
        (step (run step start commands).2 last).2) := by
  rw [run, List.foldl_append]
  rfl

/-- A relation that every command preserves gives a run the same replies. -/
theorem run_simulates
    {step : State → Command → Reply × State}
    {specified : Other → Command → Reply × Other}
    {related : State → Other → Prop} {start : State} {initial : Other}
    (starts : related start initial)
    (steps : ∀ state other command, related state other →
      (step state command).1 = (specified other command).1 ∧
        related (step state command).2 (specified other command).2)
    (commands : List Command) :
    (run step start commands).1 = (run specified initial commands).1 ∧
      related (run step start commands).2
        (run specified initial commands).2 := by
  induction commands using List.reverseRecOn with
  | nil => exact ⟨rfl, starts⟩
  | append_singleton commands last induction =>
      obtain ⟨replies, reached⟩ := induction
      obtain ⟨reply, next⟩ := steps _ _ last reached
      rw [run_concat, run_concat]
      exact ⟨by rw [replies, reply], next⟩

end Runs

variable {Key Value : Type}

/-- What is done to a store. -/
inductive Update (Key Value : Type) where
  | emplace (value : Value)
  | erase (key : Key)
  | clear

/-! ## Updates of a map -/

section Maps

variable [DecidableEq Key]

/-- An update of the map: whether it was accepted, and the map. -/
def Update.onMap (keyOf : Value → Key) (refused : Key → Bool)
    (map : Key → Option Value) : Update Key Value →
      Bool × (Key → Option Value)
  | .emplace value =>
      if refused (keyOf value) || (map (keyOf value)).isSome then
        (false, map)
      else
        (true, Function.update map (keyOf value) (some value))
  | .erase key => ((map key).isSome, Function.update map key none)
  | .clear => (true, fun _ => none)

end Maps

/-! ## Entries that represent a map -/

variable [DecidableEq Key] [LT Key]

/-- Sorted entries that represent a map of values under their own keys. -/
structure Represents (keyOf : Value → Key) (refused : Key → Bool)
    (entries : List (Key × Value)) (map : Key → Option Value) : Prop where
  sorted : OrderedMap.Sorted entries
  found : ∀ key, OrderedMap.find? key entries = map key
  keyed : ∀ key value, map key = some value →
    keyOf value = key ∧ refused key = false

variable {keyOf : Value → Key} {refused : Key → Bool}
  {entries others : List (Key × Value)} {map : Key → Option Value}

theorem represents_nil :
    Represents keyOf refused [] (fun _ => none) where
  sorted := List.Pairwise.nil
  found := fun _ => rfl
  keyed := nofun

section Reading

variable [IsStrictTotalOrder Key (fun left right => left < right)]

theorem Represents.erase
    (represents : Represents keyOf refused entries map) (key : Key) :
    Represents keyOf refused (OrderedMap.erase key entries)
      (Function.update map key none) where
  sorted := represents.sorted.erase
  found := by
    intro other
    rw [represents.sorted.find?_erase, Function.update_apply,
      represents.found]
    exact if_congr eq_comm rfl rfl
  keyed := by
    intro other stored found
    rw [Function.update_apply] at found
    split at found
    · cases found
    · exact represents.keyed other stored found

/-- Two lists of entries that represent one map are the same list. -/
theorem Represents.unique
    (represents : Represents keyOf refused entries map)
    (also : Represents keyOf refused others map) :
    entries = others :=
  represents.sorted.ext also.sorted fun key =>
    (represents.found key).trans (also.found key).symm

/-- The values are listed exactly when they lie under their own key. -/
theorem Represents.mem_values
    (represents : Represents keyOf refused entries map) {value : Value} :
    value ∈ entries.map Prod.snd ↔ map (keyOf value) = some value := by
  constructor
  · intro member
    obtain ⟨⟨key, stored⟩, inEntries, rfl⟩ := List.mem_map.mp member
    have found := represents.sorted.mem_iff.mp inEntries
    rw [represents.found] at found
    rwa [(represents.keyed key stored found).1]
  · intro found
    apply List.mem_map.mpr
    refine ⟨(keyOf value, value), ?_, rfl⟩
    rw [represents.sorted.mem_iff, represents.found, found]

/-- The values are listed in the order of their keys. -/
theorem Represents.values_sorted
    (represents : Represents keyOf refused entries map) :
    (entries.map Prod.snd).Pairwise
      fun left right => keyOf left < keyOf right := by
  have keys : ∀ entry ∈ entries, keyOf entry.2 = entry.1 := by
    rintro ⟨key, stored⟩ inEntries
    have found := represents.sorted.mem_iff.mp inEntries
    rw [represents.found] at found
    exact (represents.keyed key stored found).1
  apply List.pairwise_map.mpr
  apply represents.sorted.imp_of_mem
  intro left right inLeft inRight less
  rwa [keys left inLeft, keys right inRight]

/-- There are as many entries as keys with a value. -/
theorem Represents.length_eq
    (represents : Represents keyOf refused entries map) :
    entries.length = {key | map key ≠ none}.ncard := by
  have keys : {key | map key ≠ none} = {key | key ∈ entries.map Prod.fst} := by
    ext key
    show map key ≠ none ↔ key ∈ entries.map Prod.fst
    rw [← represents.found, ne_eq, OrderedMap.find?_eq_none_iff]
    simp
  have distinct : (entries.map Prod.fst).Nodup := by
    apply List.pairwise_map.mpr
    apply represents.sorted.imp
    rintro left right less same
    rw [same] at less
    exact Std.Irrefl.irrefl (r := fun left right : Key => left < right) _ less
  rw [keys, ← List.coe_toFinset, Set.ncard_coe_finset,
    List.toFinset_card_of_nodup distinct, List.length_map]

end Reading

/-! ## Updates of the entries -/

variable [DecidableRel (fun left right : Key => left < right)]

/-- An update of the entries: whether it was accepted, and the entries. -/
def Update.onEntries (keyOf : Value → Key) (refused : Key → Bool)
    (entries : List (Key × Value)) : Update Key Value →
      Bool × List (Key × Value)
  | .emplace value =>
      if refused (keyOf value) ||
          (OrderedMap.find? (keyOf value) entries).isSome then
        (false, entries)
      else
        (true, OrderedMap.insert (keyOf value) value entries)
  | .erase key =>
      if (OrderedMap.find? key entries).isSome then
        (true, OrderedMap.erase key entries)
      else
        (false, entries)
  | .clear => (true, [])

variable [IsStrictTotalOrder Key (fun left right => left < right)]

theorem Represents.insert
    (represents : Represents keyOf refused entries map) {value : Value}
    (accepted : refused (keyOf value) = false) :
    Represents keyOf refused (OrderedMap.insert (keyOf value) value entries)
      (Function.update map (keyOf value) (some value)) where
  sorted := represents.sorted.insert
  found := by
    intro key
    rw [OrderedMap.find?_insert, Function.update_apply, represents.found]
    exact if_congr eq_comm rfl rfl
  keyed := by
    intro key stored found
    rw [Function.update_apply] at found
    split at found
    · rename_i same
      cases found
      exact ⟨same.symm, same ▸ accepted⟩
    · exact represents.keyed key stored found

/-- One update is answered as the map says, and leaves what the map says. -/
theorem Represents.update
    (represents : Represents keyOf refused entries map)
    (update : Update Key Value) :
    (update.onEntries keyOf refused entries).1 =
        (update.onMap keyOf refused map).1 ∧
      Represents keyOf refused (update.onEntries keyOf refused entries).2
        (update.onMap keyOf refused map).2 := by
  cases update with
  | emplace value =>
      simp only [Update.onEntries, Update.onMap, represents.found]
      split
      · exact ⟨rfl, represents⟩
      · rename_i fresh
        rw [Bool.or_eq_true, not_or, Bool.not_eq_true] at fresh
        exact ⟨rfl, represents.insert fresh.1⟩
  | erase key =>
      simp only [Update.onEntries, Update.onMap, represents.found]
      split
      · rename_i present
        exact ⟨present.symm, represents.erase key⟩
      · rename_i absent
        rw [Bool.not_eq_true, Option.isSome_eq_false_iff,
          Option.isNone_iff_eq_none] at absent
        refine ⟨by rw [absent]; rfl, ?_⟩
        show Represents keyOf refused entries (Function.update map key none)
        rw [← absent, Function.update_eq_self]
        exact represents
  | clear => exact ⟨rfl, represents_nil⟩

/-! ## Values stored one after the other -/

/-- The entries after storing values in a new store. -/
def emplaceAll (keyOf : Value → Key) (refused : Key → Bool)
    (values : List Value) : List (Key × Value) :=
  values.foldl
    (fun entries value =>
      ((Update.emplace value).onEntries keyOf refused entries).2) []

/-- The first value with a key, unless the key is refused. -/
def firstOf (keyOf : Value → Key) (refused : Key → Bool)
    (values : List Value) (key : Key) : Option Value :=
  if refused key then none
  else values.find? fun value => keyOf value = key

omit [LT Key] [DecidableRel (fun left right : Key => left < right)]
  [IsStrictTotalOrder Key (fun left right => left < right)] in
/-- One more value is stored as the map says. -/
theorem firstOf_concat (values : List Value) (last : Value) :
    firstOf keyOf refused (values ++ [last]) =
      ((Update.emplace last).onMap keyOf refused
        (firstOf keyOf refused values)).2 := by
  simp only [Update.onMap]
  split
  · rename_i taken
    rw [Bool.or_eq_true] at taken
    show firstOf keyOf refused (values ++ [last]) =
      firstOf keyOf refused values
    funext key
    simp only [firstOf] at taken ⊢
    split
    · rfl
    · rename_i accepted
      rw [List.find?_append]
      cases found : values.find? fun value => keyOf value = key with
      | some value => rfl
      | none =>
          by_cases same : keyOf last = key
          · subst same
            simp [accepted, found] at taken
          · simp [same]
  · rename_i fresh
    rw [Bool.or_eq_true, not_or] at fresh
    show firstOf keyOf refused (values ++ [last]) =
      Function.update (firstOf keyOf refused values) (keyOf last) (some last)
    funext key
    rw [Function.update_apply]
    by_cases same : key = keyOf last
    · subst same
      have unstored : values.find? (fun value => keyOf value = keyOf last) =
          none := by
        simpa [firstOf, fresh.1] using fresh.2
      rw [if_pos rfl, firstOf, if_neg fresh.1, List.find?_append, unstored]
      simp
    · have different : ¬ keyOf last = key := fun equal => same equal.symm
      simp [firstOf, List.find?_append, different, same]

/-- A key is given to the first value that comes with it. -/
theorem emplaceAll_represents (values : List Value) :
    Represents keyOf refused (emplaceAll keyOf refused values)
      (firstOf keyOf refused values) := by
  induction values using List.reverseRecOn with
  | nil =>
      have nothing : firstOf keyOf refused [] = fun _ => none := by
        funext key
        simp [firstOf]
      rw [nothing]
      exact represents_nil
  | append_singleton values last induction =>
      have stored : emplaceAll keyOf refused (values ++ [last]) =
          ((Update.emplace last).onEntries keyOf refused
            (emplaceAll keyOf refused values)).2 := by
        rw [emplaceAll, List.foldl_append]
        rfl
      rw [stored, firstOf_concat]
      exact (induction.update (.emplace last)).2

omit [LT Key] [DecidableRel (fun left right : Key => left < right)]
  [IsStrictTotalOrder Key (fun left right => left < right)] in
/-- Where no two values share a key, a value is found under its own. -/
theorem find?_eq_some_iff_of_nodup
    {values : List Value} (distinct : (values.map keyOf).Nodup)
    {key : Key} {value : Value} :
    (values.find? fun other => keyOf other = key) = some value ↔
      value ∈ values ∧ keyOf value = key := by
  constructor
  · intro found
    exact ⟨List.mem_of_find?_eq_some found, by
      simpa using List.find?_some found⟩
  · rintro ⟨member, rfl⟩
    cases found : values.find? fun other => keyOf other = keyOf value with
    | none => exact absurd (List.find?_eq_none.mp found value member) (by simp)
    | some other =>
        have same : keyOf other = keyOf value := by
          simpa using List.find?_some found
        rw [List.inj_on_of_nodup_map distinct
          (List.mem_of_find?_eq_some found) member same]

/-- Values with different keys are stored in any order. -/
theorem emplaceAll_perm
    {values permuted : List Value} (order : values.Perm permuted)
    (distinct : (values.map keyOf).Nodup) :
    emplaceAll keyOf refused values = emplaceAll keyOf refused permuted := by
  have also : (permuted.map keyOf).Nodup :=
    (order.map keyOf).nodup_iff.mp distinct
  have sameMap :
      firstOf keyOf refused values = firstOf keyOf refused permuted := by
    funext key
    unfold firstOf
    split
    · rfl
    · apply Option.ext
      intro value
      rw [find?_eq_some_iff_of_nodup distinct,
        find?_eq_some_iff_of_nodup also, order.mem_iff]
  have represents : Represents keyOf refused
      (emplaceAll keyOf refused permuted) (firstOf keyOf refused values) := by
    rw [sameMap]
    exact emplaceAll_represents permuted
  exact (emplaceAll_represents values).unique represents

end ArnCore.Collections.KeyedStore
