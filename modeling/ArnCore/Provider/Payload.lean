import ArnCore.Net.HttpClient
import ArnCore.Provider.StreamChunk

/-!
# Payloads and error messages

The JSON documents the built-in providers send, and the messages they make of
an error body.
-/

namespace ArnCore.Provider

open ArnCore.Collections
open ArnCore.Interaction
open ArnCore.Tool

variable {signature : Signature} {Locals : Type}

/-! ## Tool schemas -/

theorem sizeOf_member_lt
    {members : List (String × Json)} {entry : String × Json}
    (found : entry ∈ members) :
    sizeOf entry.2 < sizeOf (Json.object members) := by
  have smaller := List.sizeOf_lt_of_mem found
  rcases entry with ⟨key, value⟩
  simp only [Prod.mk.sizeOf_spec] at smaller
  simp only [Json.object.sizeOf_spec]
  omega

theorem sizeOf_item_lt
    {items : List Json} {item : Json} (found : item ∈ items) :
    sizeOf item < sizeOf (Json.array items) := by
  have smaller := List.sizeOf_lt_of_mem found
  simp only [Json.array.sizeOf_spec]
  omega

/--
`gemini_function_schema`: `additionalProperties` is removed from a schema node
and from the schemas below it that are visited.
-/
def geminiFunctionSchema : Json → Json
  | .object members =>
      .object ((members.attach.map fun entry =>
        (entry.1.1,
          if entry.1.1 ∈ ["properties", "$defs", "defs", "definitions"] then
            match _ : entry.1.2 with
            | .object children =>
                .object (children.attach.map fun inner =>
                  (inner.1.1, geminiFunctionSchema inner.1.2))
            | other => other
          else if entry.1.1 ∈ ["items", "not"] then
            match entry.1.2.isObject with
            | true => geminiFunctionSchema entry.1.2
            | false => entry.1.2
          else if entry.1.1 ∈ ["prefixItems", "anyOf", "oneOf", "allOf"] then
            match _ : entry.1.2 with
            | .array children =>
                .array (children.attach.map fun inner =>
                  geminiFunctionSchema inner.1)
            | other => other
          else
            entry.1.2)).filter fun member =>
              member.1 ≠ "additionalProperties")
  | other => other
termination_by schema => sizeOf schema
decreasing_by
  · rename_i child
    have outer := sizeOf_member_lt entry.2
    have within := sizeOf_member_lt inner.2
    rw [child] at outer
    exact Nat.lt_trans within outer
  · exact sizeOf_member_lt entry.2
  · rename_i child
    have outer := sizeOf_member_lt entry.2
    have within := sizeOf_item_lt inner.2
    rw [child] at outer
    exact Nat.lt_trans within outer

/-- The wire form of one declaration. -/
def geminiDeclaration (definition : ToolDefinition) : Json :=
  .ofMembers
    [("name", .string definition.name),
      ("description", .string definition.description),
      ("parameters", geminiFunctionSchema definition.parameterSchema)]

/-- `serialize_gemini_tools` -/
def serializeGeminiTools (tools : ToolRegistry signature Locals) : Json :=
  if tools.empty then
    .array []
  else
    .array
      [.ofMembers
        [("functionDeclarations",
          .array (tools.definitions.map geminiDeclaration))]]

/-- `serialize_deepseek_tools` and `serialize_openrouter_tools` -/
def serializeChatTools (tools : ToolRegistry signature Locals) : Json :=
  .array (tools.definitionsJson.map fun definition =>
    .ofMembers [("type", .string "function"), ("function", definition)])

/-! ## Payloads -/

/-- The members that offer tools to a chat-completion endpoint. -/
def chatToolMembers (tools : ToolRegistry signature Locals) (offered : Bool) :
    List (String × Json) :=
  if offered && !tools.empty then
    [("tools", serializeChatTools tools), ("tool_choice", .string "auto")]
  else
    []

/-- `build_deepseek_payload` -/
def buildDeepseekPayload (model : String) (messages : List Json)
    (tools : ToolRegistry signature Locals) : Json :=
  .ofMembers
    ([("model", .string model),
      ("messages", .array messages),
      ("max_tokens", .integer 2048),
      ("stream", .bool true)] ++
      chatToolMembers tools true)

/-- `build_openrouter_payload` -/
def buildOpenrouterPayload (model : String) (messages : List Json)
    (tools : ToolRegistry signature Locals) (supportsTools : Bool) : Json :=
  .ofMembers
    ([("model", .string model),
      ("messages", .array messages),
      ("stream", .bool true)] ++
      chatToolMembers tools supportsTools)

/-- `{{"parts", {{{"text", text}}}}}` -/
def textPart (text : String) : Json :=
  .array [.ofMembers [("text", .string text)]]

/-- `build_gemini_payload` -/
def buildGeminiPayload (systemInstruction : String) (contents : List Json)
    (tools : ToolRegistry signature Locals) : Json :=
  .ofMembers
    ([("contents", .array contents)] ++
      (if systemInstruction = "" then []
      else
        [("systemInstruction",
          .ofMembers [("parts", textPart systemInstruction)])]) ++
      (if tools.empty then [] else [("tools", serializeGeminiTools tools)]))

/-! ## Error messages -/

/-- `error_message` -/
def errorMessage (json : JsonText) (body : Json) : Except Exception String :=
  match body.find? "error" with
  | some (.string message) => .ok message
  | some (.object members) => do
      let fallback ← json.dump (.object members)
      (Json.object members).valueOr Json.getString "message" fallback
  | _ => body.valueOr Json.getString "message" "Unknown API error"

/-- The message of `parse_error`. -/
def parseError (json : JsonText) (status : Int) (provider body : String) :
    String :=
  let message := do
    let parsed ← json.parse body
    errorMessage json parsed
  match message with
  | .ok message =>
      provider ++ " returned HTTP " ++ toString status ++ ": " ++ message
  | .error _ => provider ++ " returned HTTP " ++ toString status

end ArnCore.Provider
