import ArnCore.Framing.Delimiter
import Mathlib.Data.List.Basic

/-!
# The event-stream decoder

`SseDecoder` owns the buffer `pending_`.  `push` appends a chunk without its
carriage returns, removes every event closed by an empty line and delivers the
payload of its `data:` lines.  `finish` treats what is left as a last event.

A `char` of the source is a `Char` here.  The decoder only compares characters
with `'\r'`, `'\n'`, `' '` and those of `data:`, so that nothing depends on how
bytes are grouped into code points.  The callback is modelled by the list of
delivered payloads, in the order of the calls.
-/

namespace ArnCore.Net.SseDecoder

open ArnCore.Framing

/-- The blank line that closes an event, after normalization: two newlines. -/
def blankLine : Delimiter Char :=
  ⟨['\n', '\n'], by simp⟩

/-- The bytes kept by `push`: transport-level carriage returns are dropped. -/
def withoutReturns (bytes : List Char) : List Char :=
  bytes.filter fun byte => byte ≠ '\r'

/-- `line.starts_with("data:")`, and the rest of the line after that prefix. -/
def dataField? (line : List Char) : Option (List Char) :=
  line.dropPrefix? "data:".toList

/-- Drop one character from the end when it is `character`. -/
def dropLastChar (character : Char) (line : List Char) : List Char :=
  if line.getLast? = some character then line.dropLast else line

/-- Drop one character from the front when it is `character`. -/
def dropFirstChar (character : Char) : List Char → List Char
  | [] => []
  | first :: rest => if first = character then rest else first :: rest

/-- One line of an event appended to the payload collected so far. -/
def appendLine (data line : List Char) : List Char :=
  match dataField? (dropLastChar '\r' line) with
  | none => data
  | some field =>
      (if data = [] then data else data ++ ['\n']) ++ dropFirstChar ' ' field

/-- The payload of an event; it is delivered unless it is empty. -/
def payload (event : List Char) : List Char :=
  (event.splitOn '\n').foldl appendLine []

/-- The payloads delivered for a sequence of events. -/
def payloads (events : List (List Char)) : List (List Char) :=
  (events.map payload).filter fun data => data ≠ []

/-- `push`: the payloads delivered, and `pending_` afterwards. -/
def push (pending bytes : List Char) : List (List Char) × List Char :=
  let drained := drain blankLine (pending ++ withoutReturns bytes)
  (payloads drained.1, drained.2)

/-- `finish`: the payloads delivered, and `pending_` afterwards. -/
def finish (pending : List Char) : List (List Char) × List Char :=
  if pending = [] then
    ([], pending)
  else if (dataField? pending).isSome then
    push pending "\n\n".toList
  else
    ([pending], [])

/-- Several pushes one after the other. -/
def pushAll (pending : List Char) :
    List (List Char) → List (List Char) × List Char
  | [] => ([], pending)
  | chunk :: chunks =>
      let first := push pending chunk
      let later := pushAll first.2 chunks
      (first.1 ++ later.1, later.2)

/-- The buffers of decoders that were fed and finished in any order. -/
inductive Reachable : List Char → Prop where
  | constructed : Reachable []
  | pushed {pending : List Char} (bytes : List Char)
      (reachable : Reachable pending) :
      Reachable (push pending bytes).2
  | finished {pending : List Char} (reachable : Reachable pending) :
      Reachable (finish pending).2

/-! ## Normalization -/

@[simp]
theorem withoutReturns_append (first second : List Char) :
    withoutReturns (first ++ second) =
      withoutReturns first ++ withoutReturns second :=
  List.filter_append ..

theorem return_notMem_withoutReturns (bytes : List Char) :
    '\r' ∉ withoutReturns bytes := by
  simp [withoutReturns]

@[simp]
theorem payloads_append (first second : List (List Char)) :
    payloads (first ++ second) = payloads first ++ payloads second := by
  simp [payloads]

/-- `ReturnsInserted S T`: `T` is `S` with `'\r'` before some of its newlines. -/
inductive ReturnsInserted : List Char → List Char → Prop where
  | nil : ReturnsInserted [] []
  | keep (byte : Char) {plain inserted : List Char}
      (rest : ReturnsInserted plain inserted) :
      ReturnsInserted (byte :: plain) (byte :: inserted)
  | insert {plain inserted : List Char}
      (rest : ReturnsInserted plain inserted) :
      ReturnsInserted ('\n' :: plain) ('\r' :: '\n' :: inserted)

protected theorem ReturnsInserted.refl (bytes : List Char) :
    ReturnsInserted bytes bytes := by
  induction bytes with
  | nil => exact .nil
  | cons byte bytes induction => exact .keep byte induction

theorem ReturnsInserted.withoutReturns_eq
    {plain inserted : List Char}
    (relation : ReturnsInserted plain inserted) :
    withoutReturns inserted = withoutReturns plain := by
  unfold withoutReturns
  induction relation with
  | nil => rfl
  | keep byte rest induction =>
      rw [List.filter_cons, List.filter_cons, induction]
  | insert rest induction =>
      rw [List.filter_cons_of_neg (by simp), List.filter_cons,
        List.filter_cons, induction]

/-! ## The buffer -/

/-- No carriage return and no blank line is left in the buffer. -/
def Settled (pending : List Char) : Prop :=
  '\r' ∉ pending ∧ ¬ ['\n', '\n'] <:+: pending

theorem push_settled
    {pending : List Char} (bytes : List Char)
    (clean : '\r' ∉ pending) :
    Settled (push pending bytes).2 := by
  constructor
  · intro member
    have source :
        '\r' ∈ pending ++ withoutReturns bytes :=
      (drain_rest_suffix _).mem member
    rcases List.mem_append.mp source with old | new
    · exact clean old
    · exact return_notMem_withoutReturns bytes new
  · have absent :
        cut? blankLine.val (push pending bytes).2 = none :=
      drain_rest (pending ++ withoutReturns bytes)
    exact cut?_eq_none_iff.mp absent

theorem finish_settled
    {pending : List Char} (clean : '\r' ∉ pending)
    (settled : Settled pending) :
    Settled (finish pending).2 := by
  unfold finish
  split_ifs
  · exact settled
  · exact push_settled _ clean
  · simp [Settled]

theorem Reachable.settled
    {pending : List Char} (reachable : Reachable pending) :
    Settled pending := by
  induction reachable with
  | constructed => simp [Settled]
  | pushed bytes _ induction => exact push_settled bytes induction.1
  | finished _ induction => exact finish_settled induction.1 induction

/-- A settled buffer delivers nothing by itself. -/
theorem push_nil
    {pending : List Char} (settled : Settled pending) :
    push pending [] = ([], pending) := by
  have absent : cut? blankLine.val pending = none :=
    cut?_eq_none_iff.mpr settled.2
  simp [push, withoutReturns, drain_of_none absent, payloads]

/-- Pushing two parts one after the other is pushing them at once. -/
theorem push_append
    (pending first second : List Char) :
    push pending (first ++ second) =
      ((push pending first).1 ++ (push (push pending first).2 second).1,
        (push (push pending first).2 second).2) := by
  simp only [push, withoutReturns_append, ← List.append_assoc]
  rw [drain_append (pending ++ withoutReturns first)
    (withoutReturns second)]
  simp

/-- Pushing any division of a stream is pushing the stream at once. -/
theorem pushAll_eq_push_flatten
    {pending : List Char} (settled : Settled pending)
    (chunks : List (List Char)) :
    pushAll pending chunks = push pending chunks.flatten := by
  induction chunks generalizing pending with
  | nil => exact (push_nil settled).symm
  | cons chunk chunks induction =>
      rw [List.flatten_cons, push_append, pushAll,
        induction (push_settled chunk settled.1)]

theorem push_returnsInserted
    {plain inserted : List Char}
    (relation : ReturnsInserted plain inserted)
    (pending : List Char) :
    push pending inserted = push pending plain := by
  simp only [push, relation.withoutReturns_eq]

/--
Neither the division into chunks nor the line ending changes what is delivered
or what stays in the buffer, and every push leaves the buffer settled.
-/
theorem push_independent_of_chunking
    {pending : List Char} (reachable : Reachable pending)
    (chunks : List (List Char)) :
    pushAll pending chunks = push pending chunks.flatten ∧
      (∀ inserted, ReturnsInserted chunks.flatten inserted →
        push pending inserted = push pending chunks.flatten) ∧
      ∀ bytes,
        '\r' ∉ (push pending bytes).2 ∧
          ¬ ['\n', '\n'] <:+: (push pending bytes).2 := by
  have settled := reachable.settled
  refine ⟨pushAll_eq_push_flatten settled chunks, ?_, ?_⟩
  · intro inserted relation
    exact push_returnsInserted relation pending
  · intro bytes
    exact push_settled bytes settled.1

/-- A decoder that was finished and then fed the start of another event. -/
def refedBuffer : List Char :=
  (push (finish (push [] "data: old".toList).2).2 "da".toList).2

/--
A delimiter that straddles two chunks behind a finished stream.  The line
endings without their carriage returns deliver the same, and a run of newlines
leaves no blank line in the buffer.
-/
theorem push_independent_of_chunking_straddling :
    pushAll refedBuffer ["ta: x\r".toList, [], "\n\r\n".toList] =
        push refedBuffer "ta: x\r\n\r\n".toList ∧
      push refedBuffer "ta: x\r\r\n\r\r\n".toList =
        push refedBuffer "ta: x\r\n\r\n".toList ∧
      ¬ ['\n', '\n'] <:+: (push refedBuffer "ta: x\n\n\n".toList).2 := by
  have reachable : Reachable refedBuffer :=
    .pushed "da".toList (.finished (.pushed "data: old".toList .constructed))
  obtain ⟨chunked, inserted, settled⟩ :=
    push_independent_of_chunking reachable
      ["ta: x\r".toList, [], "\n\r\n".toList]
  refine ⟨chunked, inserted _ ?_, (settled _).2⟩
  exact .keep 't' (.keep 'a' (.keep ':' (.keep ' ' (.keep 'x' (.keep '\r'
    (.insert (.keep '\r' (.insert .nil))))))))

end ArnCore.Net.SseDecoder
