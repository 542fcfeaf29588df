import ArnCore.Net.MultilineEvents
import Mathlib.Algebra.Order.Ring.Int

/-!
# Finishing a stream

At the end of a stream the decoder treats what it still holds as a last event.
A tail that begins with a `data:` line is closed by a blank line; any other tail
is delivered as it stands.  Only in the first case is that the event a blank
line would have closed, and the newline of a terminated last line stays in the
buffer.
-/

namespace ArnCore.Net.FinishedStream

open ArnCore.Framing
open ArnCore.Net.MultilineEvents
open ArnCore.Net.SseDecoder

/-! ## Lines of a stream -/

/-- A line of an event stream: empty, a `data:` line, or one that carries nothing. -/
inductive StreamLine : List Char → Prop where
  | empty : StreamLine []
  | data {line : List Char} (tagged : "data:".toList <+: line) :
      StreamLine line
  | passing {line : List Char} (passes : PassingLine line) : StreamLine line

/-- A stream of such lines, the last one possibly without its newline. -/
def MadeOfLines (stream : List Char) : Prop :=
  ∀ line ∈ stream.splitOn '\n', StreamLine line

/-! ## A payload is shorter than its event -/

/-- The length of some lines, each with its newline. -/
def lengthOfLines (lines : List (List Char)) : Nat :=
  (lines.map fun line => line.length + 1).sum

theorem lengthOfLines_splitOn (event : List Char) :
    lengthOfLines (event.splitOn '\n') = event.length + 1 := by
  induction event with
  | nil => rfl
  | cons symbol event induction =>
      rw [List.splitOn_cons_eq_if_modifyHead]
      split_ifs
      · simp only [lengthOfLines, List.map_cons, List.length_nil,
          List.sum_cons, List.length_cons] at induction ⊢
        omega
      · obtain ⟨head, lines, split⟩ := List.exists_cons_of_ne_nil
          (List.splitOn_ne_nil '\n' event)
        rw [split] at induction ⊢
        simp only [lengthOfLines, List.modifyHead_cons, List.map_cons,
          List.sum_cons, List.length_cons] at induction ⊢
        omega

theorem length_dropFirstChar_le (character : Char) (line : List Char) :
    (dropFirstChar character line).length ≤ line.length := by
  cases line with
  | nil => exact Nat.le_refl _
  | cons first rest =>
      rw [dropFirstChar]
      split_ifs
      · simp
      · exact Nat.le_refl _

theorem length_dropLastChar_le (character : Char) (line : List Char) :
    (dropLastChar character line).length ≤ line.length := by
  rw [dropLastChar]
  split_ifs
  · simp
  · exact Nat.le_refl _

/-- A line adds less than its own length, or nothing. -/
theorem appendLine_eq_or_length_lt (data line : List Char) :
    appendLine data line = data ∨
      (appendLine data line).length < data.length + line.length := by
  rw [appendLine]
  cases found : dataField? (dropLastChar '\r' line) with
  | none => exact Or.inl rfl
  | some field =>
      right
      obtain ⟨tag, split, same⟩ := List.dropPrefix?_eq_some_iff.mp found
      have tagged : tag = "data:".toList := eq_of_beq same
      have whole := length_dropLastChar_le '\r' line
      rw [split, tagged, List.length_append] at whole
      have rest := length_dropFirstChar_le ' ' field
      have tagLength : "data:".toList.length = 5 := rfl
      simp only
      split_ifs
      · simp only [List.length_append]
        omega
      · simp only [List.length_append, List.length_singleton]
        omega

theorem foldl_appendLine_eq_or_length_lt
    (lines : List (List Char)) (data : List Char) :
    lines.foldl appendLine data = data ∨
      (lines.foldl appendLine data).length + 1 <
        data.length + lengthOfLines lines := by
  induction lines generalizing data with
  | nil => exact Or.inl rfl
  | cons line lines induction =>
      have total : lengthOfLines (line :: lines) =
          line.length + 1 + lengthOfLines lines := rfl
      rw [List.foldl_cons, total]
      rcases induction (appendLine data line) with same | shorter
      · rw [same]
        rcases appendLine_eq_or_length_lt data line with kept | added
        · exact Or.inl kept
        · right
          omega
      · right
        rcases appendLine_eq_or_length_lt data line with kept | added
        · rw [kept] at shorter ⊢
          omega
        · omega

/-- An event is longer than the payload it carries. -/
theorem payload_eq_nil_or_length_lt (event : List Char) :
    payload event = [] ∨ (payload event).length < event.length := by
  have bound := foldl_appendLine_eq_or_length_lt (event.splitOn '\n') []
  rw [lengthOfLines_splitOn, List.length_nil] at bound
  exact bound.imp id fun shorter => by
    rw [payload]
    omega

/-! ## Closing the tail -/

variable {pending : List Char}

/-- A tail without its last newline. -/
def withoutNewline (pending : List Char) : List Char :=
  dropLastChar '\n' pending

theorem not_infix_concat
    (settled : Settled pending) (unended : pending.getLast? ≠ some '\n') :
    ¬ blankLine.val <:+: pending ++ ['\n'] := by
  rw [List.infix_concat_iff, not_or]
  refine ⟨?_, settled.2⟩
  rintro ⟨before, same⟩
  have split : pending = before ++ ['\n'] := by
    have joined : (before ++ ['\n']) ++ ['\n'] = pending ++ ['\n'] := by
      rw [← same]
      simp [blankLine]
    exact (List.append_cancel_right joined).symm
  rw [split] at unended
  simp at unended

/-- Two newlines close the tail; the newline of its last line is left over. -/
theorem push_blankLine (settled : Settled pending) :
    push pending "\n\n".toList =
      (payloads [withoutNewline pending],
        if pending.getLast? = some '\n' then ['\n'] else []) := by
  have kept : withoutReturns "\n\n".toList = blankLine.val := rfl
  rw [push, kept]
  by_cases ended : pending.getLast? = some '\n'
  · obtain ⟨body, rfl⟩ := List.getLast?_eq_some_iff.mp ended
    have framed := cut?_of_not_infix blankLine.property
      (show ¬ blankLine.val <:+: body ++ blankLine.val.dropLast from settled.2)
      ['\n']
    have joined : body ++ ['\n'] ++ blankLine.val =
        body ++ blankLine.val ++ ['\n'] := by
      simp [blankLine]
    rw [joined, drain_of_some framed, drain_of_none rfl, if_pos ended,
      withoutNewline, dropLastChar, if_pos ended, List.dropLast_concat]
  · have framed := cut?_of_not_infix blankLine.property
      (not_infix_concat settled ended) []
    rw [List.append_nil] at framed
    rw [drain_of_some framed, drain_of_none rfl, if_neg ended, withoutNewline,
      dropLastChar, if_neg ended]

/-- A tail that is delivered as it stands is no payload. -/
theorem payloads_ne_self (some : pending ≠ []) :
    payloads [withoutNewline pending] ≠ [pending] := by
  intro same
  have shorter := length_dropLastChar_le '\n' pending
  have delivered : payload (withoutNewline pending) = pending := by
    have member : pending ∈ payloads [withoutNewline pending] := by simp [same]
    exact (List.mem_singleton.mp (List.mem_of_mem_filter member)).symm
  rcases payload_eq_nil_or_length_lt (withoutNewline pending) with
    nothing | less
  · exact some (delivered.symm.trans nothing)
  · rw [delivered, withoutNewline] at less
    omega

/-! ## Finishing -/

/-- What `finish` meets is empty, or data whose last line has no newline yet. -/
def OpenData (pending : List Char) : Prop :=
  pending = [] ∨
    (dataField? pending).isSome = true ∧ pending.getLast? ≠ some '\n'

/-- `finish` does to a tail what two newlines do, and leaves nothing. -/
theorem finish_eq_push_iff (settled : Settled pending) :
    (finish pending).1 = (push pending "\n\n".toList).1 ∧
        (finish pending).2 = [] ↔
      OpenData pending := by
  have closing := push_blankLine settled
  rw [finish, OpenData]
  by_cases empty : pending = []
  · subst empty
    have nothing : payloads [withoutNewline []] = [] := rfl
    rw [closing, nothing]
    simp
  · rw [if_neg empty]
    cases tagged : (dataField? pending).isSome with
    | true =>
        rw [if_pos rfl, closing]
        simp [empty]
    | false =>
        have differ := payloads_ne_self empty
        rw [closing]
        simp [empty, Ne.symm differ]

/-- The end of a stream is one last event. -/
structure FinishesAsEvent (chunks : List (List Char)) : Prop where
  delivered : (pushAll [] chunks).1 ++ (finish (pushAll [] chunks).2).1 =
    (push [] (chunks.flatten ++ "\n\n".toList)).1
  emptied : (finish (pushAll [] chunks).2).2 = []
  again : (finish (finish (pushAll [] chunks).2).2).1 = []
  fresh : ∀ later,
    pushAll (finish (pushAll [] chunks).2).2 later = pushAll [] later

/-- It is one when the tail is closed by `finish` as by two newlines. -/
theorem finishesAsEvent_iff_closed (chunks : List (List Char)) :
    FinishesAsEvent chunks ↔
      (finish (pushAll [] chunks).2).1 =
          (push (pushAll [] chunks).2 "\n\n".toList).1 ∧
        (finish (pushAll [] chunks).2).2 = [] := by
  have closed : (push [] (chunks.flatten ++ "\n\n".toList)).1 =
      (pushAll [] chunks).1 ++
        (push (pushAll [] chunks).2 "\n\n".toList).1 := by
    rw [pushAll_eq_push_flatten Reachable.constructed.settled chunks,
      push_append]
  constructor
  · intro finishes
    have delivered := finishes.delivered
    rw [closed] at delivered
    exact ⟨List.append_cancel_left delivered, finishes.emptied⟩
  · rintro ⟨same, emptied⟩
    constructor
    · rw [closed, same]
    · exact emptied
    · rw [emptied]
      rfl
    · intro later
      rw [emptied]

theorem settled_pushAll (chunks : List (List Char)) :
    Settled (pushAll [] chunks).2 := by
  rw [pushAll_eq_push_flatten Reachable.constructed.settled chunks]
  exact push_settled _ (by simp)

/--
Finishing a stream delivers what two more newlines would, and leaves the decoder
as new, exactly when the decoder holds nothing or data of an open line.
-/
theorem finishes_as_event_iff (chunks : List (List Char)) :
    FinishesAsEvent chunks ↔ OpenData (pushAll [] chunks).2 :=
  (finishesAsEvent_iff_closed chunks).trans
    (finish_eq_push_iff (settled_pushAll chunks))

/-- Data behind another field of its event is delivered with that field. -/
theorem finished_tail_delivered_raw :
    ¬ ∀ chunks : List (List Char),
      MadeOfLines chunks.flatten → FinishesAsEvent chunks := by
  intro finishes
  have lines : MadeOfLines ["event: done\ndata: Hi".toList].flatten := by
    intro line member
    have split : ["event: done\ndata: Hi".toList].flatten.splitOn '\n' =
        ["event: done".toList, "data: Hi".toList] := by decide
    rw [split, List.mem_cons, List.mem_singleton] at member
    rcases member with rfl | rfl
    · exact .passing ⟨by decide, "event:", by decide, by decide⟩
    · exact .data (by decide)
  have held : (pushAll [] ["event: done\ndata: Hi".toList]).2 =
      "event: done\ndata: Hi".toList := by
    have absent : cut? blankLine.val "event: done\ndata: Hi".toList = none := by
      decide
    exact congrArg Prod.snd (drain_of_none absent)
  have opened := (finish_eq_push_iff (settled_pushAll _)).mp
    ((finishesAsEvent_iff_closed _).mp (finishes _ lines))
  rw [held] at opened
  revert opened
  simp [OpenData, dataField?, List.dropPrefix?]

end ArnCore.Net.FinishedStream
