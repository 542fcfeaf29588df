import ArnCore.Net.EventStream
import Mathlib.Data.List.TakeWhile

/-!
# Sending payloads of several lines

A payload is sent as one `data:` line for each of its pieces and an empty line
behind them, with comments and other fields anywhere between the lines.  Read
line by line, what is closed by the empty lines is what the decoder delivers.
It joins the pieces with a newline only where something was collected before,
so that empty pieces at the start of a payload are lost.
-/

namespace ArnCore.Net.MultilineEvents

open ArnCore.Framing
open ArnCore.Net.EventStream
open ArnCore.Net.SseDecoder

/-! ## Lines -/

/-- The bytes of some lines, each with its newline. -/
def textOfLines (lines : List (List Char)) : List Char :=
  lines.flatMap fun line => line ++ ['\n']

/-- The payloads of some lines, with what was collected before them. -/
def decodeLines (data : List Char) : List (List Char) → List (List Char)
  | [] => []
  | line :: lines =>
      if line = [] then
        (if data = [] then [] else [data]) ++ decodeLines [] lines
      else
        decodeLines (appendLine data line) lines

/-- A line without the character that ends lines, and without the one that is dropped. -/
structure CleanLine (line : List Char) : Prop where
  noNewline : '\n' ∉ line
  noReturn : '\r' ∉ line

variable {line : List Char} {lines opened : List (List Char)}

@[simp]
theorem textOfLines_append (first second : List (List Char)) :
    textOfLines (first ++ second) = textOfLines first ++ textOfLines second :=
  List.flatMap_append

theorem textOfLines_eq_intercalate (some : lines ≠ []) :
    textOfLines lines = ['\n'].intercalate lines ++ ['\n'] := by
  induction lines with
  | nil => exact absurd rfl some
  | cons line lines induction =>
      cases lines with
      | nil => simp [textOfLines]
      | cons next lines =>
          have rest := induction (List.cons_ne_nil next lines)
          have split : textOfLines (line :: next :: lines) =
              line ++ ['\n'] ++ textOfLines (next :: lines) := rfl
          rw [split, rest, List.intercalate_cons_cons]
          simp

theorem infix_append_iff_of_notMem
    {first : Char} {frame delimiter rest : List Char} (absent : first ∉ frame) :
    first :: delimiter <:+: frame ++ rest ↔ first :: delimiter <:+: rest := by
  induction frame with
  | nil => exact Iff.rfl
  | cons symbol frame induction =>
      obtain ⟨different, others⟩ := List.ne_and_not_mem_of_not_mem_cons absent
      rw [List.cons_append, List.infix_cons_iff, induction others]
      simp [different]

/-- Lines that are not empty, except for the first one, contain no blank line. -/
theorem blankLine_not_inside
    (clean : ∀ line ∈ lines, '\n' ∉ line)
    (filled : ∀ line ∈ lines.tail, line ≠ []) :
    ¬ blankLine.val <:+: textOfLines lines := by
  induction lines with
  | nil => simp [textOfLines, blankLine]
  | cons line lines induction =>
      obtain ⟨first, rest⟩ := List.forall_mem_cons.mp clean
      rw [List.tail_cons] at filled
      have others := induction rest fun line member =>
        filled line (List.mem_of_mem_tail member)
      have split : textOfLines (line :: lines) =
          line ++ '\n' :: textOfLines lines := by
        simp [textOfLines]
      rw [split, blankLine, infix_append_iff_of_notMem first,
        List.infix_cons_iff, not_or]
      refine ⟨?_, others⟩
      rw [List.prefix_cons_inj]
      cases lines with
      | nil => simp [textOfLines]
      | cons next lines =>
          obtain ⟨symbol, next, rfl⟩ := List.exists_cons_of_ne_nil
            (filled next List.mem_cons_self)
          have different : '\n' ≠ symbol :=
            (List.ne_and_not_mem_of_not_mem_cons
              (rest _ List.mem_cons_self)).1
          simp [textOfLines, different]

/-- The payload of a frame is collected from its lines. -/
theorem payload_intercalate
    (clean : ∀ line ∈ lines, '\n' ∉ line) (some : lines ≠ []) :
    payload (['\n'].intercalate lines) = lines.foldl appendLine [] := by
  rw [payload, List.splitOn_intercalate '\n' clean some]

theorem noReturn_textOfLines
    (clean : ∀ line ∈ lines, CleanLine line) :
    withoutReturns (textOfLines lines) = textOfLines lines := by
  apply withoutReturns_of_notMem
  intro member
  obtain ⟨line, isLine, inside⟩ := List.mem_flatMap.mp member
  rcases List.mem_append.mp inside with inLine | inEnd
  · exact (clean line isLine).noReturn inLine
  · revert inEnd
    decide

/-- Lines that are open yet stay in the buffer. -/
theorem push_line
    (clean : ∀ other ∈ opened ++ [line], CleanLine other)
    (filled : ∀ other ∈ (opened ++ [line]).tail, other ≠ []) :
    push (textOfLines opened) (textOfLines [line]) =
      ([], textOfLines (opened ++ [line])) := by
  have absent : cut? blankLine.val (textOfLines (opened ++ [line])) = none :=
    cut?_eq_none_iff.mpr
      (blankLine_not_inside
        (fun other member => (clean other member).noNewline) filled)
  have last : ∀ other ∈ [line], CleanLine other :=
    fun other member => clean other (List.mem_append_right _ member)
  rw [push, noReturn_textOfLines last, ← textOfLines_append,
    drain_of_none absent]
  rfl

/-- An empty line closes the lines in the buffer. -/
theorem push_emptyLine
    (clean : ∀ line ∈ opened, CleanLine line)
    (filled : ∀ line ∈ opened.tail, line ≠ []) (some : opened ≠ []) :
    push (textOfLines opened) (textOfLines [[]]) =
      (payloads [['\n'].intercalate opened], []) := by
  have newlines : ∀ line ∈ opened, '\n' ∉ line :=
    fun line member => (clean line member).noNewline
  have absent : ¬ blankLine.val <:+:
      ['\n'].intercalate opened ++ blankLine.val.dropLast := by
    have free := blankLine_not_inside newlines filled
    rwa [textOfLines_eq_intercalate some] at free
  have framed := cut?_of_not_infix blankLine.property absent []
  have joined : textOfLines opened ++ withoutReturns (textOfLines [[]]) =
      ['\n'].intercalate opened ++ blankLine.val ++ [] := by
    rw [textOfLines_eq_intercalate some, List.append_nil, List.append_assoc]
    rfl
  rw [push, joined, drain_of_some framed, drain_of_none rfl]

/--
The decoder delivers what is read line by line.  The lines that are open yet may
begin with an empty one: it closed nothing.
-/
theorem push_textOfLines
    (cleanOpened : ∀ line ∈ opened, CleanLine line)
    (filled : ∀ line ∈ opened.tail, line ≠ [])
    (clean : ∀ line ∈ lines, CleanLine line) :
    (push (textOfLines opened) (textOfLines lines)).1 =
      decodeLines (opened.foldl appendLine []) lines := by
  induction lines generalizing opened with
  | nil =>
      have settled : Settled (textOfLines opened) := by
        constructor
        · intro member
          rw [← noReturn_textOfLines cleanOpened] at member
          exact return_notMem_withoutReturns _ member
        · exact blankLine_not_inside
            (fun line member => (cleanOpened line member).noNewline) filled
      exact congrArg Prod.fst (push_nil settled)
  | cons line lines induction =>
      obtain ⟨first, rest⟩ := List.forall_mem_cons.mp clean
      have split : textOfLines (line :: lines) =
          textOfLines [line] ++ textOfLines lines :=
        textOfLines_append [line] lines
      rw [split, push_append, decodeLines]
      by_cases empty : line = []
      · subst empty
        rw [if_pos rfl]
        cases opened with
        | nil =>
            have alone := @push_line [] [] (by simpa using first) (by simp)
            rw [alone, List.foldl_nil, if_pos rfl]
            exact induction (by simpa using first) (by simp) rest
        | cons head opened =>
            rw [push_emptyLine cleanOpened filled (List.cons_ne_nil _ _)]
            have next := @induction [] (by simp) (by simp) rest
            have text : textOfLines [] = [] := rfl
            rw [text] at next
            simp only
            rw [next, List.foldl_nil]
            congr 1
            rw [payloads, List.map_singleton,
              payload_intercalate
                (fun line member => (cleanOpened line member).noNewline)
                (List.cons_ne_nil _ _)]
            by_cases nothing : (head :: opened).foldl appendLine [] = []
            · rw [nothing]
              rfl
            · rw [if_neg nothing, List.filter_cons_of_pos]
              · rfl
              · rwa [decide_eq_true_iff]
      · rw [if_neg empty]
        have cleanAll : ∀ other ∈ opened ++ [line], CleanLine other := by
          intro other member
          rcases List.mem_append.mp member with before | last
          · exact cleanOpened other before
          · exact List.mem_singleton.mp last ▸ first
        have filledAll : ∀ other ∈ (opened ++ [line]).tail, other ≠ [] := by
          intro other member
          cases opened with
          | nil => cases member
          | cons head opened =>
              rcases List.mem_append.mp member with before | last
              · exact filled other before
              · exact List.mem_singleton.mp last ▸ empty
        rw [push_line cleanAll filledAll, List.nil_append,
          induction cleanAll filledAll rest, List.foldl_append]
        rfl

/-! ## Encoding a payload -/

/--
A line that may stand between the lines of events: a comment, or a field other
than `data`.
-/
structure PassingLine (line : List Char) : Prop where
  noNewline : '\n' ∉ line
  tagged : ∃ tag ∈ [":", "event:", "id:", "retry:"], tag.toList <+: line

/-- The line that carries a piece of a payload. -/
def pieceLine (piece : List Char) : List Char :=
  "data: ".toList ++ piece

/-- The lines that carry a payload, and the empty line that ends its event. -/
def eventLines (payload : List Char) : List (List Char) :=
  (payload.splitOn '\n').map pieceLine ++ [[]]

/-- The second list has passing lines between those of the first. -/
inductive Interspersed : List (List Char) → List (List Char) → Prop where
  | nil : Interspersed [] []
  | keep (line : List Char) {plain lines : List (List Char)}
      (rest : Interspersed plain lines) :
      Interspersed (line :: plain) (line :: lines)
  | pass {line : List Char} {plain lines : List (List Char)}
      (passes : PassingLine line) (rest : Interspersed plain lines) :
      Interspersed plain (line :: lines)

/-- A passing line carries nothing. -/
theorem PassingLine.ignored
    (passes : PassingLine line) (clean : '\r' ∉ line) (data : List Char) :
    line ≠ [] ∧ appendLine data line = data := by
  have kept : dropLastChar '\r' line = line := by
    rw [dropLastChar, if_neg]
    intro last
    exact clean (List.mem_of_getLast? last)
  obtain ⟨tag, among, rest, rfl⟩ := passes.tagged
  rw [appendLine, kept, dataField?]
  simp only [List.mem_cons, List.not_mem_nil, or_false] at among
  rcases among with rfl | rfl | rfl | rfl <;>
    simp [List.dropPrefix?]

theorem PassingLine.withoutReturns
    (passes : PassingLine line) : PassingLine (withoutReturns line) where
  noNewline member := passes.noNewline (List.mem_of_mem_filter member)
  tagged := by
    obtain ⟨tag, among, rest, rfl⟩ := passes.tagged
    refine ⟨tag, among, SseDecoder.withoutReturns rest, ?_⟩
    rw [withoutReturns_append]
    simp only [List.mem_cons, List.not_mem_nil, or_false] at among
    rcases among with rfl | rfl | rfl | rfl <;> rfl

/-- Passing lines change nothing for a reader of lines. -/
theorem decodeLines_of_interspersed
    {plain : List (List Char)} (interspersed : Interspersed plain lines)
    (clean : ∀ line ∈ lines, CleanLine line) (data : List Char) :
    decodeLines data lines = decodeLines data plain := by
  induction interspersed generalizing data with
  | nil => rfl
  | keep line rest induction =>
      have others := induction (List.forall_mem_cons.mp clean).2
      rw [decodeLines, decodeLines, others, others]
  | pass passes rest induction =>
      obtain ⟨first, others⟩ := List.forall_mem_cons.mp clean
      obtain ⟨filled, same⟩ := passes.ignored first.noReturn data
      rw [decodeLines, if_neg filled, same, induction others]

/-! ## Decoding a payload -/

theorem appendLine_pieceLine
    {piece : List Char} (clean : '\r' ∉ piece) (data : List Char) :
    appendLine data (pieceLine piece) =
      (if data = [] then data else data ++ ['\n']) ++ piece := by
  have kept : dropLastChar '\r' (pieceLine piece) = pieceLine piece := by
    rw [dropLastChar, if_neg]
    intro last
    rcases List.mem_append.mp (List.mem_of_getLast? last) with inTag | inPiece
    · revert inTag
      decide
    · exact clean inPiece
  have field : dataField? (pieceLine piece) = some (' ' :: piece) := by
    have split : pieceLine piece = "data:".toList ++ ' ' :: piece := rfl
    rw [dataField?, split, List.dropPrefix?_append_of_beq _ (by simp)]
  rw [appendLine, kept, field]
  rfl

/-- Behind collected text every piece adds a newline and itself. -/
theorem foldl_pieceLine_of_ne_nil
    {pieces : List (List Char)} (clean : ∀ piece ∈ pieces, '\r' ∉ piece)
    {data : List Char} (collected : data ≠ []) :
    (pieces.map pieceLine).foldl appendLine data =
      data ++ pieces.flatMap fun piece => '\n' :: piece := by
  induction pieces generalizing data with
  | nil => simp
  | cons piece pieces induction =>
      obtain ⟨first, rest⟩ := List.forall_mem_cons.mp clean
      rw [List.map_cons, List.foldl_cons, appendLine_pieceLine first,
        if_neg collected, induction rest (by simp)]
      simp

theorem intercalate_cons
    (piece : List Char) (pieces : List (List Char)) :
    ['\n'].intercalate (piece :: pieces) =
      piece ++ pieces.flatMap fun piece => '\n' :: piece := by
  induction pieces generalizing piece with
  | nil => simp
  | cons next pieces induction =>
      rw [List.intercalate_cons_cons, induction]
      simp

/-- The decoder collects the pieces without the newlines in front of them. -/
theorem foldl_pieceLine
    {pieces : List (List Char)} (clean : ∀ piece ∈ pieces, CleanLine piece) :
    (pieces.map pieceLine).foldl appendLine [] =
      (['\n'].intercalate pieces).dropWhile (· = '\n') := by
  induction pieces with
  | nil => rfl
  | cons piece pieces induction =>
      obtain ⟨first, rest⟩ := List.forall_mem_cons.mp clean
      have returns : ∀ piece ∈ pieces, '\r' ∉ piece :=
        fun piece member => (rest piece member).noReturn
      rw [List.map_cons, List.foldl_cons, appendLine_pieceLine first.noReturn,
        if_pos rfl, List.nil_append]
      cases piece with
      | nil =>
          rw [induction rest]
          cases pieces with
          | nil => rfl
          | cons next pieces => rw [List.intercalate_cons_cons]; simp
      | cons symbol piece =>
          have different : symbol ≠ '\n' :=
            (List.ne_and_not_mem_of_not_mem_cons first.noNewline).1.symm
          rw [foldl_pieceLine_of_ne_nil returns (List.cons_ne_nil _ _),
            intercalate_cons, List.cons_append, List.dropWhile_cons_of_neg]
          exact mt of_decide_eq_true different

theorem decodeLines_append_emptyLine
    (filled : ∀ line ∈ opened, line ≠ []) (data : List Char) :
    decodeLines data (opened ++ [[]] ++ lines) =
      decodeLines (opened.foldl appendLine data) ([] :: lines) := by
  induction opened generalizing data with
  | nil => rfl
  | cons line opened induction =>
      obtain ⟨first, rest⟩ := List.forall_mem_cons.mp filled
      rw [List.cons_append, List.cons_append, decodeLines, if_neg first,
        induction rest, List.foldl_cons]

/-- The pieces of a payload contain no newline and nothing that it does not. -/
theorem mem_splitOn
    {payload piece : List Char} (member : piece ∈ payload.splitOn '\n') :
    '\n' ∉ piece ∧ piece ⊆ payload := by
  induction payload generalizing piece with
  | nil =>
      rw [List.splitOn_nil, List.mem_singleton] at member
      subst member
      simp
  | cons symbol payload induction =>
      rw [List.splitOn_cons_eq_if_modifyHead] at member
      split_ifs at member with newline
      · rcases List.mem_cons.mp member with rfl | later
        · simp
        · obtain ⟨free, inside⟩ := induction later
          exact ⟨free, List.Subset.trans inside (List.subset_cons_self _ _)⟩
      · rw [beq_iff_eq] at newline
        obtain ⟨head, pieces, split⟩ := List.exists_cons_of_ne_nil
          (List.splitOn_ne_nil '\n' payload)
        rw [split, List.modifyHead_cons] at member
        rcases List.mem_cons.mp member with rfl | later
        · obtain ⟨free, inside⟩ := induction (split ▸ List.mem_cons_self)
          constructor
          · rw [List.mem_cons, not_or]
            exact ⟨fun same => newline same.symm, free⟩
          · exact List.cons_subset_cons symbol inside
        · obtain ⟨free, inside⟩ :=
            induction (split ▸ List.mem_cons_of_mem _ later)
          exact ⟨free, List.Subset.trans inside (List.subset_cons_self _ _)⟩

theorem cleanLine_of_mem_splitOn
    {payload piece : List Char} (clean : '\r' ∉ payload)
    (member : piece ∈ payload.splitOn '\n') : CleanLine piece where
  noNewline := (mem_splitOn member).1
  noReturn inside := clean ((mem_splitOn member).2 inside)

/-- The lines of an event give its payload without the newlines in front of it. -/
theorem decodeLines_eventLines
    {payload : List Char} (clean : '\r' ∉ payload) :
    decodeLines [] (eventLines payload ++ lines) =
      ([payload.dropWhile (· = '\n')].filter fun data => data ≠ []) ++
        decodeLines [] lines := by
  have pieces := fun piece (member : piece ∈ payload.splitOn '\n') =>
    cleanLine_of_mem_splitOn clean member
  have filled : ∀ line ∈ (payload.splitOn '\n').map pieceLine, line ≠ [] := by
    intro line member
    obtain ⟨piece, -, rfl⟩ := List.mem_map.mp member
    exact List.cons_ne_nil _ _
  rw [eventLines, decodeLines_append_emptyLine filled, foldl_pieceLine pieces,
    List.intercalate_splitOn, decodeLines, if_pos rfl]
  congr 1
  by_cases nothing : payload.dropWhile (· = '\n') = []
  · simp [nothing]
  · rw [if_neg nothing, List.filter_cons_of_pos]
    · rfl
    · rwa [decide_eq_true_iff]

/-- What the lines of several events give. -/
theorem decodeLines_flatMap_eventLines
    {payloads : List (List Char)} (clean : ∀ payload ∈ payloads, '\r' ∉ payload) :
    decodeLines [] (payloads.flatMap eventLines) =
      (payloads.map (List.dropWhile (· = '\n'))).filter fun data => data ≠ [] := by
  induction payloads with
  | nil => rfl
  | cons payload payloads induction =>
      obtain ⟨first, rest⟩ := List.forall_mem_cons.mp clean
      rw [List.flatMap_cons, decodeLines_eventLines first, induction rest,
        ← List.filter_append]
      rfl

/-! ## The round trip -/

/-- Payloads come back unless they begin with what is dropped from their front. -/
theorem filter_dropWhile_eq_iff
    {payloads : List (List Char)} (filled : ∀ payload ∈ payloads, payload ≠ []) :
    ((payloads.map (List.dropWhile (· = '\n'))).filter fun data => data ≠ []) =
        payloads ↔
      ∀ payload ∈ payloads, payload.dropWhile (· = '\n') = payload := by
  constructor
  · intro same
    induction payloads with
    | nil => simp
    | cons payload payloads induction =>
        rw [List.map_cons] at same
        by_cases nothing : payload.dropWhile (· = '\n') = []
        · -- One payload less than was sent.
          rw [List.filter_cons_of_neg (by simpa using nothing)] at same
          have fewer := List.length_filter_le (fun data => decide (data ≠ []))
            (payloads.map (List.dropWhile (· = '\n')))
          rw [same, List.length_map, List.length_cons] at fewer
          omega
        · rw [List.filter_cons_of_pos (by rwa [decide_eq_true_iff]),
            List.cons.injEq] at same
          refine List.forall_mem_cons.mpr ⟨same.1, ?_⟩
          exact induction (List.forall_mem_cons.mp filled).2 same.2
  · intro kept
    rw [List.map_congr_left kept, List.map_id', List.filter_eq_self]
    intro payload member
    rw [decide_eq_true_iff]
    exact filled payload member

theorem dropWhile_newline_eq_self_iff {payload : List Char} :
    payload.dropWhile (· = '\n') = payload ↔ payload.head? ≠ some '\n' := by
  cases payload with
  | nil => simp
  | cons symbol payload => simp [List.dropWhile_eq_self_iff]

theorem Interspersed.withoutReturns
    {plain : List (List Char)} (interspersed : Interspersed plain lines)
    (clean : ∀ line ∈ plain, '\r' ∉ line) :
    Interspersed plain (lines.map SseDecoder.withoutReturns) := by
  induction interspersed with
  | nil => exact .nil
  | keep line rest induction =>
      obtain ⟨first, others⟩ := List.forall_mem_cons.mp clean
      rw [List.map_cons, withoutReturns_of_notMem first]
      exact .keep line (induction others)
  | pass passes rest induction =>
      exact .pass passes.withoutReturns (induction clean)

theorem withoutReturns_textOfLines (lines : List (List Char)) :
    withoutReturns (textOfLines lines) =
      textOfLines (lines.map withoutReturns) := by
  induction lines with
  | nil => rfl
  | cons line lines induction =>
      have split : ∀ line (lines : List (List Char)), textOfLines (line :: lines) =
          textOfLines [line] ++ textOfLines lines :=
        fun line lines => textOfLines_append [line] lines
      rw [split, withoutReturns_append, induction, List.map_cons, split]
      simp [textOfLines, withoutReturns]

theorem Interspersed.noNewline
    {plain : List (List Char)} (interspersed : Interspersed plain lines)
    (clean : ∀ line ∈ plain, '\n' ∉ line) : ∀ line ∈ lines, '\n' ∉ line := by
  induction interspersed with
  | nil => simp
  | keep line rest induction =>
      obtain ⟨first, others⟩ := List.forall_mem_cons.mp clean
      exact List.forall_mem_cons.mpr ⟨first, induction others⟩
  | pass passes rest induction =>
      exact List.forall_mem_cons.mpr ⟨passes.noNewline, induction clean⟩

/-- The lines of events are clean where their payloads are. -/
theorem cleanLine_of_mem_eventLines
    {payload : List Char} (clean : '\r' ∉ payload)
    (member : line ∈ eventLines payload) : CleanLine line := by
  rcases List.mem_append.mp member with inPieces | atEnd
  · obtain ⟨piece, isPiece, rfl⟩ := List.mem_map.mp inPieces
    obtain ⟨noNewline, noReturn⟩ := cleanLine_of_mem_splitOn clean isPiece
    have unmarked : '\n' ∉ "data: ".toList ∧ '\r' ∉ "data: ".toList := by
      decide
    constructor
    · exact List.not_mem_append unmarked.1 noNewline
    · exact List.not_mem_append unmarked.2 noReturn
  · rw [List.mem_singleton.mp atEnd]
    constructor
    · simp
    · simp

/-- What a decoder delivers of a stream of events. -/
theorem pushAll_interspersed
    {payloads : List (List Char)} {chunks : List (List Char)}
    (clean : ∀ payload ∈ payloads, '\r' ∉ payload)
    (interspersed : Interspersed (payloads.flatMap eventLines) lines)
    (sent : ReturnsInserted (textOfLines lines) chunks.flatten) :
    (pushAll [] chunks).1 =
      (payloads.map (List.dropWhile (· = '\n'))).filter
        fun data => data ≠ [] := by
  have cleanPlain : ∀ line ∈ payloads.flatMap eventLines, CleanLine line := by
    intro line member
    obtain ⟨payload, isPayload, inEvent⟩ := List.mem_flatMap.mp member
    exact cleanLine_of_mem_eventLines (clean payload isPayload) inEvent
  have stripped := interspersed.withoutReturns
    fun line member => (cleanPlain line member).noReturn
  have cleanLines :
      ∀ line ∈ lines.map SseDecoder.withoutReturns, CleanLine line := by
    intro line member
    constructor
    · exact stripped.noNewline
        (fun line member => (cleanPlain line member).noNewline) line member
    · obtain ⟨original, -, rfl⟩ := List.mem_map.mp member
      exact return_notMem_withoutReturns original
  have read := @push_textOfLines (lines.map SseDecoder.withoutReturns) []
    (by simp) (by simp) cleanLines
  have text : textOfLines [] = [] := rfl
  rw [text, List.foldl_nil, decodeLines_of_interspersed stripped cleanLines,
    decodeLines_flatMap_eventLines clean] at read
  rw [← read, pushAll_eq_push_flatten Reachable.constructed.settled,
    push_returnsInserted sent, push, push, withoutReturns_textOfLines,
    noReturn_textOfLines cleanLines]

/--
A stream of payloads, with passing lines anywhere between its lines and in any
chunks, is delivered as it was encoded exactly when no payload begins with a
newline.
-/
theorem payloads_round_trip_iff
    {payloads : List String} {lines chunks : List (List Char)}
    (filled : ∀ payload ∈ payloads, payload ≠ "")
    (clean : ∀ payload ∈ payloads, '\r' ∉ payload.toList)
    (interspersed :
      Interspersed ((payloads.map String.toList).flatMap eventLines) lines)
    (sent : ReturnsInserted (textOfLines lines) chunks.flatten) :
    (pushAll [] chunks).1 = payloads.map String.toList ↔
      ∀ payload ∈ payloads, payload.toList.head? ≠ some '\n' := by
  have cleanTexts : ∀ payload ∈ payloads.map String.toList, '\r' ∉ payload :=
    List.forall_mem_map.mpr clean
  have someTexts : ∀ payload ∈ payloads.map String.toList, payload ≠ [] := by
    refine List.forall_mem_map.mpr fun payload member => ?_
    exact String.toList_eq_nil_iff.not.mpr (filled payload member)
  rw [pushAll_interspersed cleanTexts interspersed sent,
    filter_dropWhile_eq_iff someTexts, List.forall_mem_map]
  exact forall₂_congr fun payload _ => dropWhile_newline_eq_self_iff

theorem interspersed_refl (lines : List (List Char)) :
    Interspersed lines lines := by
  induction lines with
  | nil => exact .nil
  | cons line lines induction => exact .keep line induction

/-- The lines of an event whose payload begins with a newline. -/
def greetingLines : List (List Char) :=
  (["\nHi"].map String.toList).flatMap eventLines

/-- The newline at the start of a greeting is lost. -/
theorem leading_newline_lost :
    ¬ ∀ (payloads : List String) (lines chunks : List (List Char)),
      (∀ payload ∈ payloads, payload ≠ "") →
      (∀ payload ∈ payloads, '\r' ∉ payload.toList) →
      Interspersed ((payloads.map String.toList).flatMap eventLines) lines →
      ReturnsInserted (textOfLines lines) chunks.flatten →
      (pushAll [] chunks).1 = payloads.map String.toList := by
  intro delivered
  have sent : ReturnsInserted (textOfLines greetingLines)
      [textOfLines greetingLines].flatten := by
    rw [List.flatten_singleton]
    exact .refl _
  have same := delivered ["\nHi"] greetingLines _ (by decide) (by decide)
    (interspersed_refl _) sent
  have clean : ∀ payload ∈ ["\nHi"].map String.toList, '\r' ∉ payload := by
    decide
  rw [pushAll_interspersed clean (interspersed_refl greetingLines) sent] at same
  exact absurd same (by decide)

/-- A payload with an empty piece, behind an id and around a comment. -/
theorem payloads_round_trip_iff_emptyPiece :
    (pushAll [] ["id: 7\ndata: one\nda".toList,
        "ta: \n: ping\ndata: two\n\n".toList]).1 =
        ["one\n\ntwo"].map String.toList ↔
      ∀ payload ∈ ["one\n\ntwo"], payload.toList.head? ≠ some '\n' := by
  have interspersed : Interspersed
      ((["one\n\ntwo"].map String.toList).flatMap eventLines)
      ["id: 7".toList, "data: one".toList, "data: ".toList, ": ping".toList,
        "data: two".toList, []] :=
    .pass ⟨by decide, "id:", by decide, by decide⟩ (.keep _ (.keep _
      (.pass ⟨by decide, ":", by decide, by decide⟩ (.keep _ (.keep _ .nil)))))
  exact payloads_round_trip_iff (by decide) (by decide) interspersed
    (ReturnsInserted.refl _)

end ArnCore.Net.MultilineEvents
