import Mathlib.Data.List.Infix

/-!
# Cutting a growing buffer at a delimiter

A receiver keeps a buffer, appends what arrives and removes every frame that is
closed by a delimiter, always at the leftmost occurrence.  The frames do not
depend on how the input was divided: draining what is left of a first part
together with a second part yields what the whole would have yielded.
-/

namespace ArnCore.Framing

variable {Symbol : Type} [DecidableEq Symbol]

/--
The frame before the leftmost occurrence of `delimiter` and what follows that
occurrence.
-/
def cut? (delimiter : List Symbol) :
    List Symbol → Option (List Symbol × List Symbol)
  | [] => if delimiter = [] then some ([], []) else none
  | symbol :: rest =>
      if delimiter <+: symbol :: rest then
        some ([], (symbol :: rest).drop delimiter.length)
      else
        (cut? delimiter rest).map fun (frame, tail) => (symbol :: frame, tail)

variable {delimiter : List Symbol}

/-- A cut removes the delimiter and nothing else. -/
theorem cut?_eq_some
    {buffer frame rest : List Symbol}
    (found : cut? delimiter buffer = some (frame, rest)) :
    buffer = frame ++ delimiter ++ rest := by
  induction buffer generalizing frame with
  | nil =>
      by_cases empty : delimiter = []
      · simp only [cut?, empty, if_true, Option.some.injEq,
          Prod.mk.injEq] at found
        rw [← found.1, ← found.2, empty]
        rfl
      · simp [cut?, empty] at found
  | cons symbol tail induction =>
      by_cases here : delimiter <+: symbol :: tail
      · simp only [cut?, here, if_true, Option.some.injEq,
          Prod.mk.injEq] at found
        obtain ⟨after, joined⟩ := here
        rw [← found.1, ← found.2, ← joined, List.drop_left]
        rfl
      · simp only [cut?, here, if_false, Option.map_eq_some_iff,
          Prod.exists, Prod.mk.injEq] at found
        obtain ⟨shorter, after, foundTail, sameFrame, sameRest⟩ := found
        subst sameFrame
        subst sameRest
        simp [induction foundTail]

/-- Without a cut the delimiter occurs nowhere. -/
theorem cut?_eq_none_iff
    {buffer : List Symbol} :
    cut? delimiter buffer = none ↔ ¬ delimiter <:+: buffer := by
  induction buffer with
  | nil =>
      by_cases empty : delimiter = [] <;> simp [cut?, empty]
  | cons symbol tail induction =>
      by_cases here : delimiter <+: symbol :: tail
      · simp [cut?, here, here.isInfix]
      · simp [cut?, here, induction, List.infix_cons_iff]

/-- What arrives later does not move the leftmost occurrence. -/
theorem cut?_append
    {buffer frame rest : List Symbol}
    (later : List Symbol)
    (found : cut? delimiter buffer = some (frame, rest)) :
    cut? delimiter (buffer ++ later) = some (frame, rest ++ later) := by
  induction buffer generalizing frame with
  | nil =>
      by_cases empty : delimiter = []
      · subst empty
        simp only [cut?, if_true, Option.some.injEq,
          Prod.mk.injEq] at found
        rw [← found.1, ← found.2]
        cases later <;> simp [cut?]
      · simp [cut?, empty] at found
  | cons symbol tail induction =>
      by_cases here : delimiter <+: symbol :: tail
      · have stillHere : delimiter <+: symbol :: (tail ++ later) :=
          here.trans (List.prefix_append _ _)
        have short : delimiter.length ≤ (symbol :: tail).length :=
          here.length_le
        simp only [cut?, here, if_true, Option.some.injEq,
          Prod.mk.injEq] at found
        rw [← found.1, ← found.2, List.cons_append, cut?,
          if_pos stillHere, ← List.cons_append,
          List.drop_append_of_le_length short]
      · simp only [cut?, here, if_false, Option.map_eq_some_iff,
          Prod.exists, Prod.mk.injEq] at found
        obtain ⟨shorter, after, foundTail, sameFrame, sameRest⟩ := found
        subst sameFrame
        subst sameRest
        -- An occurrence at this position would already lie in `buffer`,
        -- since the occurrence found later does.
        have notHere : ¬ delimiter <+: symbol :: (tail ++ later) := by
          intro occurrence
          have long := congrArg List.length (cut?_eq_some foundTail)
          simp only [List.length_append] at long
          apply here
          refine List.prefix_of_prefix_length_le occurrence
            (List.prefix_append (symbol :: tail) later) ?_
          simp only [List.length_cons]
          omega
        simp [cut?, notHere, induction foundTail]

theorem cut?_length_lt
    {buffer frame rest : List Symbol}
    (nonempty : delimiter ≠ [])
    (found : cut? delimiter buffer = some (frame, rest)) :
    rest.length < buffer.length := by
  have long := congrArg List.length (cut?_eq_some found)
  have positive := List.length_pos_of_ne_nil nonempty
  simp only [List.length_append] at long
  omega

/-- A frame without the first symbol of the delimiter is cut where it ends. -/
theorem cut?_of_head_notMem
    {first : Symbol} {frame : List Symbol}
    (absent : first ∉ frame) (delimiter later : List Symbol) :
    cut? (first :: delimiter) (frame ++ first :: delimiter ++ later) =
      some (frame, later) := by
  induction frame with
  | nil =>
      rw [List.nil_append, List.cons_append, cut?, if_pos (by simp)]
      simp
  | cons symbol frame induction =>
      obtain ⟨different, rest⟩ := List.ne_and_not_mem_of_not_mem_cons absent
      have notHere : ¬ first :: delimiter <+:
          symbol :: (frame ++ first :: delimiter ++ later) := by
        rintro ⟨after, joined⟩
        exact different (List.cons.inj joined).1
      rw [List.cons_append, List.cons_append, cut?, if_neg notHere,
        induction rest]
      rfl

/--
A frame is cut where it ends unless the delimiter begins in it before, which may
be seen without the last symbol of the delimiter.
-/
theorem cut?_of_not_infix
    {delimiter frame : List Symbol} (nonempty : delimiter ≠ [])
    (absent : ¬ delimiter <:+: frame ++ delimiter.dropLast)
    (later : List Symbol) :
    cut? delimiter (frame ++ delimiter ++ later) = some (frame, later) := by
  induction frame with
  | nil =>
      cases delimiter with
      | nil => exact absurd rfl nonempty
      | cons first rest =>
          rw [List.nil_append, List.cons_append, cut?, if_pos (by simp)]
          simp
  | cons symbol frame induction =>
      have notHere :
          ¬ delimiter <+: symbol :: (frame ++ delimiter ++ later) := by
        intro occurrence
        have front : (symbol :: frame) ++ delimiter.dropLast <+:
            symbol :: (frame ++ delimiter ++ later) := by
          rw [List.append_assoc, ← List.cons_append, List.prefix_append_right_inj]
          exact (List.dropLast_prefix delimiter).trans (List.prefix_append _ _)
        have short :
            delimiter.length ≤ ((symbol :: frame) ++ delimiter.dropLast).length := by
          simp only [List.length_append, List.length_cons, List.length_dropLast]
          omega
        exact absent
          (List.prefix_of_prefix_length_le occurrence front short).isInfix
      rw [List.cons_append, List.cons_append, cut?, if_neg notHere, induction]
      · rfl
      · exact fun inside => absent (inside.trans (List.suffix_cons _ _).isInfix)

/-- A nonempty delimiter. -/
abbrev Delimiter (Symbol : Type) :=
  { delimiter : List Symbol // delimiter ≠ [] }

/-- All closed frames of a buffer in order, and the open rest. -/
def drain (delimiter : Delimiter Symbol) (buffer : List Symbol) :
    List (List Symbol) × List Symbol :=
  match _found : cut? delimiter.val buffer with
  | none => ([], buffer)
  | some (frame, rest) =>
      let (frames, tail) := drain delimiter rest
      (frame :: frames, tail)
termination_by buffer.length
decreasing_by exact cut?_length_lt delimiter.property _found

section Drain

variable {delimiter : Delimiter Symbol}

theorem drain_of_none
    {buffer : List Symbol}
    (absent : cut? delimiter.val buffer = none) :
    drain delimiter buffer = ([], buffer) := by
  rw [drain]
  split
  · rfl
  · rename_i found
    rw [absent] at found
    cases found

theorem drain_of_some
    {buffer frame rest : List Symbol}
    (found : cut? delimiter.val buffer = some (frame, rest)) :
    drain delimiter buffer =
      (frame :: (drain delimiter rest).1, (drain delimiter rest).2) := by
  rw [drain]
  split
  · rename_i absent
    rw [found] at absent
    cases absent
  · rename_i found'
    rw [found] at found'
    cases found'
    rfl

/-- The open rest contains no delimiter. -/
theorem drain_rest
    (buffer : List Symbol) :
    cut? delimiter.val (drain delimiter buffer).2 = none := by
  cases found : cut? delimiter.val buffer with
  | none => rwa [drain_of_none found]
  | some pieces =>
      rw [drain_of_some found]
      exact drain_rest pieces.2
termination_by buffer.length
decreasing_by exact cut?_length_lt delimiter.property found

/-- The open rest is the end of the buffer. -/
theorem drain_rest_suffix
    (buffer : List Symbol) :
    (drain delimiter buffer).2 <:+ buffer := by
  cases found : cut? delimiter.val buffer with
  | none => simp [drain_of_none found]
  | some pieces =>
      rw [drain_of_some found]
      refine (drain_rest_suffix pieces.2).trans ?_
      exact ⟨_, (cut?_eq_some found).symm⟩
termination_by buffer.length
decreasing_by exact cut?_length_lt delimiter.property found

/-- Draining in two parts. -/
theorem drain_append
    (first second : List Symbol) :
    drain delimiter (first ++ second) =
      ((drain delimiter first).1 ++
          (drain delimiter ((drain delimiter first).2 ++ second)).1,
        (drain delimiter ((drain delimiter first).2 ++ second)).2) := by
  cases found : cut? delimiter.val first with
  | none => simp [drain_of_none found]
  | some pieces =>
      have shorter := drain_append pieces.2 second
      rw [drain_of_some (cut?_append second found), drain_of_some found,
        shorter]
      rfl
termination_by first.length
decreasing_by exact cut?_length_lt delimiter.property found

end Drain

end ArnCore.Framing
