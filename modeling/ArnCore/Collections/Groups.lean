import Mathlib.Data.List.Basic

/-!
# Lists of groups

Every entry of a list that is no answer is followed by its own answers, and
every answer follows its entry in that way.  What remains of such a list when
entries are dropped at the front is one again unless it starts with an answer.
-/

namespace ArnCore.Collections

variable {Entry : Type} {IsAnswer : Entry → Prop}
  {Answered : Entry → List Entry → Prop}

/-- Groups of an entry and its answers, one behind the other. -/
inductive Grouped (IsAnswer : Entry → Prop)
    (Answered : Entry → List Entry → Prop) : List Entry → Prop where
  | nil : Grouped IsAnswer Answered []
  | group {entry : Entry} {answers rest : List Entry}
      (starts : ¬ IsAnswer entry)
      (answered : Answered entry answers)
      (answering : ∀ answer ∈ answers, IsAnswer answer)
      (later : Grouped IsAnswer Answered rest) :
      Grouped IsAnswer Answered (entry :: (answers ++ rest))

namespace Grouped

variable {entry : Entry} {entries rest : List Entry}

/-- Groups start with an entry that is no answer. -/
theorem starts (grouped : Grouped IsAnswer Answered entries) :
    ∀ entry, entries.head? = some entry → ¬ IsAnswer entry := by
  cases grouped with
  | nil => nofun
  | group starts answered answering later =>
      rintro entry ⟨⟩
      exact starts

/-- An entry that has no answers stands alone. -/
theorem cons_iff
    (starts : ¬ IsAnswer entry)
    (alone : ∀ answers, Answered entry answers ↔ answers = []) :
    Grouped IsAnswer Answered (entry :: rest) ↔
      Grouped IsAnswer Answered rest := by
  constructor
  · intro grouped
    generalize same : entry :: rest = entries at grouped
    cases grouped with
    | nil => cases same
    | group _ answered _ later =>
        rw [List.cons.injEq] at same
        obtain ⟨rfl, rfl⟩ := same
        rw [(alone _).mp answered]
        exact later
  · intro grouped
    exact .group starts ((alone []).mpr rfl) (by simp) grouped

/-- What remains behind the first entries, when it starts with no answer. -/
theorem drop
    (grouped : Grouped IsAnswer Answered entries) (count : Nat)
    (starts : ∀ entry, (entries.drop count).head? = some entry →
      ¬ IsAnswer entry) :
    Grouped IsAnswer Answered (entries.drop count) := by
  induction grouped generalizing count with
  | nil =>
      rw [List.drop_nil]
      exact .nil
  | @group entry answers rest first answered answering later induction =>
      cases count with
      | zero => exact .group first answered answering later
      | succ count =>
          rw [List.drop_succ_cons] at starts ⊢
          by_cases inside : count < answers.length
          · -- The answers are cut: what remains starts with one of them.
            rw [List.drop_append_of_le_length (Nat.le_of_lt inside),
              List.drop_eq_getElem_cons inside] at starts
            exact absurd (answering _ (List.getElem_mem inside))
              (starts _ rfl)
          · rw [List.drop_append, List.drop_eq_nil_of_le (by omega),
              List.nil_append] at starts ⊢
            exact induction _ starts

theorem drop_iff
    (grouped : Grouped IsAnswer Answered entries) (count : Nat) :
    Grouped IsAnswer Answered (entries.drop count) ↔
      ∀ entry, entries[count]? = some entry → ¬ IsAnswer entry := by
  rw [← List.head?_drop]
  exact ⟨fun remaining => remaining.starts, grouped.drop count⟩

theorem append
    {front : List Entry} (first : Grouped IsAnswer Answered front)
    (second : Grouped IsAnswer Answered rest) :
    Grouped IsAnswer Answered (front ++ rest) := by
  induction first with
  | nil => exact second
  | group starts answered answering later induction =>
      rw [List.cons_append, List.append_assoc]
      exact .group starts answered answering induction

/-- Entries that have no answers. -/
theorem of_alone
    (starts : ∀ entry ∈ entries, ¬ IsAnswer entry)
    (alone : ∀ entry ∈ entries, Answered entry []) :
    Grouped IsAnswer Answered entries := by
  induction entries with
  | nil => exact .nil
  | cons entry entries induction =>
      obtain ⟨first, later⟩ := List.forall_mem_cons.mp starts
      obtain ⟨answered, others⟩ := List.forall_mem_cons.mp alone
      exact .group first answered (by simp) (induction later others)

end Grouped

/-! ## The last group -/

/-- The last entry that is no answer lacks its answers. -/
def EndsOpen (IsAnswer : Entry → Prop) (Answered : Entry → List Entry → Prop)
    (entries : List Entry) : Prop :=
  ∃ front entry answers, entries = front ++ entry :: answers ∧
    ¬ IsAnswer entry ∧ (∀ answer ∈ answers, IsAnswer answer) ∧
    ¬ Answered entry answers

/-- Groups; behind the last entry there may be any answers. -/
def GroupedButLast (IsAnswer : Entry → Prop)
    (Answered : Entry → List Entry → Prop) (entries : List Entry) : Prop :=
  Grouped IsAnswer Answered entries ∨
    ∃ front entry answers, entries = front ++ entry :: answers ∧
      Grouped IsAnswer Answered front ∧ ¬ IsAnswer entry ∧
      ∀ answer ∈ answers, IsAnswer answer

theorem GroupedButLast.grouped
    {entries : List Entry}
    (grouped : GroupedButLast IsAnswer Answered entries)
    (complete : ¬ EndsOpen IsAnswer Answered entries) :
    Grouped IsAnswer Answered entries := by
  rcases grouped with grouped | ⟨front, entry, answers, rfl, before, starts,
    answering⟩
  · exact grouped
  · have answered : Answered entry answers := by
      by_contra lacking
      exact complete ⟨front, entry, answers, rfl, starts, answering, lacking⟩
    have last := Grouped.group starts answered answering .nil
    rw [List.append_nil] at last
    exact before.append last

/-- The answers of a group end where the next entry is no answer. -/
theorem answered_of_grouped
    {entry next : Entry} {answers rest : List Entry}
    (grouped : Grouped IsAnswer Answered (entry :: (answers ++ next :: rest)))
    (answering : ∀ answer ∈ answers, IsAnswer answer)
    (other : ¬ IsAnswer next) : Answered entry answers := by
  generalize same : entry :: (answers ++ next :: rest) = entries at grouped
  cases grouped with
  | nil => cases same
  | @group _ own behind starts answered all later =>
      obtain ⟨rfl, tails⟩ := List.cons.inj same
      rcases List.append_eq_append_iff.mp tails with
        ⟨more, rfl, cut⟩ | ⟨more, rfl, cut⟩
      · cases more with
        | nil => rwa [List.append_nil] at answered
        | cons first more =>
            obtain ⟨rfl, -⟩ := List.cons.inj cut
            exact absurd (all _ (by simp)) other
      · cases more with
        | nil => rwa [List.append_nil]
        | cons first more =>
            subst cut
            exact absurd (answering first (by simp)) (later.starts first rfl)

/-- What lacks its answers lacks them when an entry follows. -/
theorem EndsOpen.not_grouped
    {entries rest : List Entry} {next : Entry}
    (ends : EndsOpen IsAnswer Answered entries) (other : ¬ IsAnswer next) :
    ¬ Grouped IsAnswer Answered (entries ++ next :: rest) := by
  obtain ⟨front, entry, answers, rfl, starts, answering, lacking⟩ := ends
  intro grouped
  rw [List.append_assoc, List.cons_append] at grouped
  have behind := grouped.drop front.length
  rw [List.drop_left] at behind
  refine lacking (answered_of_grouped (behind ?_) answering other)
  rintro _ ⟨⟩
  exact starts

end ArnCore.Collections
