import ArnCore.Net.SseDecoder

/-!
# Sending events of one line

A server sends an event of one line as a `data:` line and a blank line.  The
decoder gives back exactly the events that were sent, in order.
-/

namespace ArnCore.Net.EventStream

open ArnCore.Framing
open ArnCore.Net.SseDecoder

/-- The text of an event that fits on one line. -/
structure SingleLine (event : String) : Prop where
  nonempty : event ≠ ""
  noNewline : '\n' ∉ event.toList
  noReturn : '\r' ∉ event.toList

/-- The line that carries an event. -/
def dataLine (event : String) : List Char :=
  "data: ".toList ++ event.toList

/-- The bytes that send an event. -/
def sentEvent (event : String) : List Char :=
  dataLine event ++ "\n\n".toList

/-- The bytes that send a sequence of events. -/
def sentStream (events : List String) : List Char :=
  (events.map sentEvent).flatten

theorem notMem_dataLine
    {event : String} {character : Char}
    (notTag : character ∉ "data: ".toList)
    (absent : character ∉ event.toList) :
    character ∉ dataLine event := by
  intro member
  rcases List.mem_append.mp member with inTag | inEvent
  · exact notTag inTag
  · exact absent inEvent

variable {event : String}

/-- The payload of a data line is the event it was made from. -/
theorem payload_dataLine (line : SingleLine event) :
    payload (dataLine event) = event.toList := by
  have noNewline : '\n' ∉ dataLine event :=
    notMem_dataLine (by decide) line.noNewline
  have noReturn : '\r' ∉ dataLine event :=
    notMem_dataLine (by decide) line.noReturn
  have oneLine : (dataLine event).splitOn '\n' = [dataLine event] := by
    apply List.splitOnP_eq_singleton
    intro character member
    rw [beq_eq_false_iff_ne]
    rintro rfl
    exact noNewline member
  have kept : dropLastChar '\r' (dataLine event) = dataLine event := by
    rw [dropLastChar, if_neg]
    intro last
    exact noReturn (List.mem_of_getLast? last)
  have field : dataField? (dataLine event) = some (' ' :: event.toList) := by
    have split : dataLine event =
        "data:".toList ++ ' ' :: event.toList := rfl
    rw [dataField?, split, List.dropPrefix?_append_of_beq _ (by simp)]
  rw [payload, oneLine, List.foldl_cons, List.foldl_nil, appendLine, kept,
    field]
  rfl

theorem withoutReturns_of_notMem
    {bytes : List Char} (absent : '\r' ∉ bytes) :
    withoutReturns bytes = bytes := by
  apply List.filter_eq_self.mpr
  intro byte member
  rw [decide_eq_true_iff]
  rintro rfl
  exact absent member

/-- The frame of a sent event is its data line. -/
theorem push_sentEvent (line : SingleLine event) :
    push [] (sentEvent event) = ([event.toList], []) := by
  have noReturn : '\r' ∉ sentEvent event := by
    intro member
    rcases List.mem_append.mp member with inLine | inEnd
    · exact notMem_dataLine (by decide) line.noReturn inLine
    · revert inEnd
      decide
  have framed : cut? blankLine.val (sentEvent event) =
      some (dataLine event, []) := by
    have closed := cut?_of_head_notMem
      (notMem_dataLine (by decide) line.noNewline) ['\n'] []
    rwa [List.append_nil] at closed
  rw [push, List.nil_append, withoutReturns_of_notMem noReturn,
    drain_of_some framed, drain_of_none rfl]
  simp [payloads, payload_dataLine line, line.nonempty]

/-- The decoder delivers what was sent and keeps nothing. -/
theorem push_sentStream
    {events : List String} (lines : ∀ event ∈ events, SingleLine event) :
    push [] (sentStream events) = (events.map String.toList, []) := by
  induction events with
  | nil => exact push_nil ⟨by simp, by simp⟩
  | cons event events induction =>
      obtain ⟨line, rest⟩ := List.forall_mem_cons.mp lines
      rw [sentStream, List.map_cons, List.flatten_cons, push_append,
        push_sentEvent line]
      rw [sentStream] at induction
      rw [induction rest]
      rfl

end ArnCore.Net.EventStream
