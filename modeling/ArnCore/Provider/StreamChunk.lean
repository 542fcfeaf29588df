import ArnCore.Provider.ModelProvider

/-!
# The stream-chunk parsers

Each parser walks through one event and adds what it finds to the parts of the
turn.  It ignores malformed data: a standard exception ends the walk, and what
was added before it stays.
-/

namespace ArnCore.Provider

open ArnCore.Interaction

/--
What a turn accumulates: the text, the tool calls (the function calls of
Gemini), and the response parts of Gemini.
-/
structure TurnParts where
  text : String := ""
  calls : List Json := []
  responseParts : List Json := []

variable {signature : Signature}

/-- The walk of a parser, on the parts of the turn. -/
abbrev Walk (signature : Signature) := Action signature TurnParts Unit

/-- The streaming callback for text. -/
abbrev TextStreamCallback (signature : Signature) :=
  Option (String → Host signature Unit)

/-- `catch (const std::exception&) {}` -/
def ignoreMalformed (walk : Walk signature) : Walk signature :=
  tryCatch walk fun failure =>
    match failure with
    | .standard _ => pure ()
    | .foreign => throw .foreign

/-- Visit the values of a range-based `for`. -/
def visitAll (visit : Json → Walk signature) : List Json → Walk signature
  | [] => pure ()
  | item :: items => do
      visit item
      visitAll visit items

/-- One event is one packet or an array of packets. -/
def packets (parsed : Json) : List Json :=
  match parsed with
  | .array items => items
  | packet => [packet]

/-- Add text to the turn and show it. -/
def addText (onText : TextStreamCallback signature) (text : Json) :
    Walk signature := do
  let chunk ← Action.ofExcept text.getString
  modify fun parts => { parts with text := parts.text ++ chunk }
  notify onText chunk

/-! ## Tool-call deltas -/

/-- The entry a new index starts with. -/
def emptyCall : Json :=
  .ofMembers
    [("id", .string ""),
      ("type", .string "function"),
      ("function",
        .ofMembers [("name", .string ""), ("arguments", .string "")])]

/-- `while (tool_calls.size() <= index) tool_calls.push_back(...)` -/
def padCalls (calls : List Json) (index : Nat) : List Json :=
  calls ++ List.replicate (index + 1 - calls.length) emptyCall

/-- Change the entry `tool_calls.at(index)`. -/
def updateCall (index : Nat) (update : Json → Except Exception Json) :
    Walk signature := do
  let parts ← get
  match parts.calls[index]? with
  | none =>
      throw (.standard
        ("[json.exception.out_of_range.401] array index " ++ toString index
          ++ " is out of range"))
  | some call => do
      let updated ← Action.ofExcept (update call)
      set { parts with calls := parts.calls.set index updated }

/-- `value[key]`, which is null when the member is missing. -/
def member (value : Json) (key : String) : Json :=
  (value.find? key).getD .null

/-- `call["function"][key] = value` -/
def assignFunction (key : String) (value call : Json) :
    Except Exception Json := do
  let function ← (member call "function").assign key value
  call.assign "function" function

/-- `call["function"]["arguments"] += fragment` -/
def appendArguments (fragment call : Json) : Except Exception Json := do
  let earlier ← (member (member call "function") "arguments").getString
  let added ← fragment.getString
  assignFunction "arguments" (.string (earlier ++ added)) call

/-- `if (change.contains(key)) ...` -/
def whenPresent (value : Json) (key : String)
    (action : Json → Walk signature) : Walk signature :=
  match value.find? key with
  | none => pure ()
  | some found => action found

/-- One element of `tool_calls` of a delta. -/
def applyChange (change : Json) : Walk signature := do
  let index ← Action.ofExcept (change.valueOr Json.getUnsigned "index" 0)
  modify fun parts => { parts with calls := padCalls parts.calls index }
  whenPresent change "id" fun id =>
    updateCall index fun call => call.assign "id" id
  whenPresent change "type" fun type =>
    updateCall index fun call => call.assign "type" type
  whenPresent change "function" fun function => do
    whenPresent function "name" fun name =>
      updateCall index (assignFunction "name" name)
    whenPresent function "arguments" fun fragment =>
      updateCall index (appendArguments fragment)

/-- The delta of the first choice of a packet. -/
def delta? (packet : Json) : Option Json :=
  match packet.find? "choices" with
  | some (.array (first :: _)) =>
      match first.find? "delta" with
      | some (.object members) => some (.object members)
      | _ => none
  | _ => none

/-- The text of a delta; a null content counts as absent. -/
def applyContent (onText : TextStreamCallback signature) (delta : Json) :
    Walk signature :=
  match delta.find? "content" with
  | none => pure ()
  | some .null => pure ()
  | some content => addText onText content

/-- One packet of a chat-completion stream. -/
def applyPacket (onText : TextStreamCallback signature) (packet : Json) :
    Walk signature :=
  match delta? packet with
  | none => pure ()
  | some delta => do
      applyContent onText delta
      let changes ← Action.ofExcept
        (delta.valueOr Except.ok "tool_calls" (.array []))
      visitAll applyChange changes.elements

/-! ## The parsers -/

section Parsers

variable (json : JsonText) (onText : TextStreamCallback signature)

/-- `parse_deepseek_stream_chunk` -/
def parseDeepseekStreamChunk (event : String) : Walk signature :=
  if event = "[DONE]" then
    pure ()
  else
    ignoreMalformed do
      let parsed ← Action.ofExcept (json.parse event)
      visitAll (applyPacket onText) (packets parsed)

/-- `parse_openrouter_stream_chunk`, which skips packets with an error. -/
def parseOpenrouterStreamChunk (event : String) : Walk signature :=
  if event = "[DONE]" then
    pure ()
  else
    ignoreMalformed do
      let parsed ← Action.ofExcept (json.parse event)
      visitAll
        (fun packet =>
          if packet.contains "error" then pure ()
          else applyPacket onText packet)
        (packets parsed)

/-- The parts of the first candidate of a packet. -/
def candidateParts (packet : Json) : List Json :=
  match packet.find? "candidates" with
  | some (.array (first :: _)) =>
      match first.find? "content" with
      | some (.object members) =>
          match (Json.object members).find? "parts" with
          | some (.array parts) => parts
          | _ => []
      | _ => []
  | _ => []

/-- One part of a Gemini response. -/
def applyPart (part : Json) : Walk signature := do
  modify fun parts =>
    { parts with responseParts := parts.responseParts ++ [part] }
  whenPresent part "text" (addText onText)
  whenPresent part "functionCall" fun call =>
    modify fun parts => { parts with calls := parts.calls ++ [call] }

/-- `parse_gemini_stream_chunk` -/
def parseGeminiStreamChunk (event : String) : Walk signature :=
  ignoreMalformed do
    let parsed ← Action.ofExcept (json.parse event)
    visitAll
      (fun packet => visitAll (applyPart onText) (candidateParts packet))
      (packets parsed)

end Parsers

/-! ## What a parser may do -/

section Safety

variable {State : Type} {world : World signature State}
  {allowed : State → signature.Op → Prop}

/-- Showing text is allowed. -/
def MayShow (world : World signature State)
    (allowed : State → signature.Op → Prop)
    (onText : TextStreamCallback signature) : Prop :=
  ∀ text, Action.Safe world allowed (notify onText text : Walk signature)

theorem safe_visitAll
    {visit : Json → Walk signature}
    (visits : ∀ item, Action.Safe world allowed (visit item))
    (items : List Json) :
    Action.Safe world allowed (visitAll visit items) := by
  induction items with
  | nil => exact .pure ()
  | cons item items induction =>
      exact .bind (visits item) fun _ => induction

theorem safe_whenPresent
    {value : Json} {key : String} {action : Json → Walk signature}
    (acts : ∀ found, Action.Safe world allowed (action found)) :
    Action.Safe world allowed (whenPresent value key action) := by
  unfold whenPresent
  cases value.find? key with
  | none => exact .pure ()
  | some found => exact acts found

theorem safe_updateCall
    (index : Nat) (update : Json → Except Exception Json) :
    Action.Safe world allowed
      (updateCall index update : Walk signature) := by
  refine .bind .get fun parts => ?_
  cases parts.calls[index]? with
  | none => exact .throw _
  | some call => exact .bind (.ofExcept _) fun updated => .modify _

theorem safe_applyChange (change : Json) :
    Action.Safe world allowed (applyChange change : Walk signature) :=
  .bind (.ofExcept _) fun index => .bind (.modify _) fun _ =>
    .bind (safe_whenPresent fun _ => safe_updateCall index _) fun _ =>
      .bind (safe_whenPresent fun _ => safe_updateCall index _) fun _ =>
        safe_whenPresent fun _ =>
          .bind (safe_whenPresent fun _ => safe_updateCall index _) fun _ =>
            safe_whenPresent fun _ => safe_updateCall index _

variable {json : JsonText} {onText : TextStreamCallback signature}

/-- Text that is added to the turn may be shown. -/
theorem safe_addText
    (shows : MayShow world allowed onText) (text : Json) :
    Action.Safe world allowed (addText onText text) :=
  .bind (.ofExcept _) fun chunk => .bind (.modify _) fun _ => shows chunk

theorem safe_applyPart
    (shows : MayShow world allowed onText) (part : Json) :
    Action.Safe world allowed (applyPart onText part) :=
  .bind (.modify _) fun _ =>
    .bind (safe_whenPresent fun text => safe_addText shows text) fun _ =>
      safe_whenPresent fun _ => .modify _

theorem safe_applyPacket
    (shows : MayShow world allowed onText) (packet : Json) :
    Action.Safe world allowed (applyPacket onText packet) := by
  have contents : ∀ delta,
      Action.Safe world allowed (applyContent onText delta) := by
    intro delta
    unfold applyContent
    cases delta.find? "content" with
    | none => exact .pure ()
    | some content =>
        cases content with
        | null => exact .pure ()
        | _ =>
            exact safe_addText shows _
  unfold applyPacket
  cases delta? packet with
  | none => exact .pure ()
  | some delta =>
      exact .bind (contents delta) fun _ => .bind (.ofExcept _) fun changes =>
        safe_visitAll safe_applyChange changes.elements

theorem safe_ignoreMalformed
    {walk : Walk signature} (walks : Action.Safe world allowed walk) :
    Action.Safe world allowed (ignoreMalformed walk) := by
  refine .tryCatch walks fun failure => ?_
  cases failure with
  | standard what => exact .pure ()
  | foreign => exact .throw _

/-- A parser of chat completions performs no operation but showing text. -/
theorem safe_parseDeepseekStreamChunk
    (shows : MayShow world allowed onText) (event : String) :
    Action.Safe world allowed
      (parseDeepseekStreamChunk json onText event) := by
  unfold parseDeepseekStreamChunk
  by_cases done : event = "[DONE]"
  · rw [if_pos done]
    exact .pure ()
  · rw [if_neg done]
    exact safe_ignoreMalformed (.bind (.ofExcept _) fun parsed =>
      safe_visitAll (safe_applyPacket shows) _)

theorem safe_parseOpenrouterStreamChunk
    (shows : MayShow world allowed onText) (event : String) :
    Action.Safe world allowed
      (parseOpenrouterStreamChunk json onText event) := by
  unfold parseOpenrouterStreamChunk
  by_cases done : event = "[DONE]"
  · rw [if_pos done]
    exact .pure ()
  · rw [if_neg done]
    refine safe_ignoreMalformed (.bind (.ofExcept _) fun parsed =>
      safe_visitAll ?_ _)
    intro packet
    cases packet.contains "error" with
    | true => exact .pure ()
    | false => exact safe_applyPacket shows packet

/-- The parser of Gemini performs no operation but showing text. -/
theorem safe_parseGeminiStreamChunk
    (shows : MayShow world allowed onText) (event : String) :
    Action.Safe world allowed (parseGeminiStreamChunk json onText event) :=
  safe_ignoreMalformed (.bind (.ofExcept _) fun _ =>
    safe_visitAll (fun _ => safe_visitAll (safe_applyPart shows) _) _)

end Safety

end ArnCore.Provider
