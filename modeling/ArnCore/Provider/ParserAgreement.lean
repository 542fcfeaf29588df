import ArnCore.Provider.StreamUpdates

/-!
# Two parsers of chat completions

The parsers of DeepSeek and of OpenRouter walk through an event in the same way,
except that OpenRouter skips the packets that report an error.  Where these are
removed from the events beforehand the two walks are the same program: they add
the same, show the same and stop at the same member.
-/

namespace ArnCore.Provider.ParserAgreement

open ArnCore.Agent.Environment
open ArnCore.Interaction
open ArnCore.Provider.BuiltInTurn
open ArnCore.Provider.StreamUpdates

variable {signature : Signature}

/-- The events of a stream, one after the other. -/
def parseEvents (parse : String → Walk signature) :
    List String → Walk signature
  | [] => pure ()
  | event :: events => do
      parse event
      parseEvents parse events

/-! ## Removing the packets that report an error -/

/-- A parsed event without its packets that have an `error` member. -/
def withoutErrors (parsed : Json) : Json :=
  match parsed with
  | .array items =>
      .array (items.filter fun packet => !packet.contains "error")
  | packet => if packet.contains "error" then .array [] else packet

/--
`other` is the text of an event whose packets with an `error` member were
removed.  The end marker and text that is no JSON stay as they are.
-/
inductive ErrorsRemoved (json : JsonText) (event : String) : String → Prop where
  | unread
      (noPackets : event = "[DONE]" ∨
        ∃ failure, json.parse event = .error failure) :
      ErrorsRemoved json event event
  | read {other : String} {parsed : Json} (notMarker : event ≠ "[DONE]")
      (parses : json.parse event = .ok parsed) (notDone : other ≠ "[DONE]")
      (reads : json.parse other = .ok (withoutErrors parsed)) :
      ErrorsRemoved json event other

/-- No packet of an event reports an error. -/
def ErrorFree (json : JsonText) (event : String) : Prop :=
  ∀ parsed, json.parse event = .ok parsed →
    ∀ packet ∈ packets parsed, packet.contains "error" = false

theorem packets_withoutErrors (parsed : Json) :
    packets (withoutErrors parsed) =
      (packets parsed).filter fun packet => !packet.contains "error" := by
  cases parsed with
  | object members =>
      cases reported : (Json.object members).contains "error" with
      | true => simp [withoutErrors, packets, reported]
      | false => simp [withoutErrors, packets, reported]
  | _ => rfl

theorem withoutErrors_eq_self
    {parsed : Json}
    (free : ∀ packet ∈ packets parsed, packet.contains "error" = false) :
    withoutErrors parsed = parsed := by
  cases parsed with
  | array items =>
      refine congrArg Json.array (List.filter_eq_self.mpr fun packet member => ?_)
      rw [free packet member]
      rfl
  | object members =>
      rw [withoutErrors, free _ (List.mem_singleton_self _)]
      · rfl
      · simp
  | _ => rfl

/-- There is nothing to remove from an event without error packets. -/
theorem ErrorFree.errorsRemoved
    {json : JsonText} {event : String} (free : ErrorFree json event) :
    ErrorsRemoved json event event := by
  by_cases done : event = "[DONE]"
  · exact .unread (Or.inl done)
  · cases parses : json.parse event with
    | error failure => exact .unread (Or.inr ⟨failure, parses⟩)
    | ok parsed =>
        have same := withoutErrors_eq_self (free parsed parses)
        exact .read done parses done (parses.trans (congrArg Except.ok same.symm))

/-! ## Agreement -/

section Agreement

variable {json : JsonText} {onText : TextStreamCallback signature}

/-- One event. -/
theorem parseOpenrouter_eq_parseDeepseek
    {event other : String} (removed : ErrorsRemoved json event other) :
    parseOpenrouterStreamChunk json onText event =
      parseDeepseekStreamChunk json onText other := by
  unfold parseOpenrouterStreamChunk parseDeepseekStreamChunk
  cases removed with
  | unread noPackets =>
      rcases noPackets with rfl | ⟨failure, failed⟩
      · rfl
      · rw [failed]
        rfl
  | @read _ parsed notMarker parses notDone reads =>
      rw [if_neg notMarker, if_neg notDone, parses, reads]
      simp only [ofExcept_bind]
      rw [packets_withoutErrors,
        visitAll_filter fun packet => packet.contains "error"]

/-- A sequence of events, each with its errors removed. -/
theorem parseEvents_of_removed
    {events others : List String}
    (removed : List.Forall₂ (ErrorsRemoved json) events others) :
    parseEvents (parseOpenrouterStreamChunk json onText) events =
      parseEvents (parseDeepseekStreamChunk json onText) others := by
  induction removed with
  | nil => rfl
  | cons first _ induction =>
      rw [parseEvents, parseEvents, parseOpenrouter_eq_parseDeepseek first,
        induction]

/--
On the same accumulators and with the same callback the parser of OpenRouter
does what the parser of DeepSeek does on the events without their error
packets; on events without such packets the parsers are interchangeable.
-/
theorem openrouter_agrees_with_deepseek
    (json : JsonText) (onText : TextStreamCallback signature) :
    (∀ events others, List.Forall₂ (ErrorsRemoved json) events others →
      parseEvents (parseOpenrouterStreamChunk json onText) events =
        parseEvents (parseDeepseekStreamChunk json onText) others) ∧
      ∀ events, (∀ event ∈ events, ErrorFree json event) →
        parseEvents (parseOpenrouterStreamChunk json onText) events =
          parseEvents (parseDeepseekStreamChunk json onText) events := by
  constructor
  · intro events others removed
    exact parseEvents_of_removed removed
  · intro events free
    refine parseEvents_of_removed ?_
    rw [List.forall₂_same]
    exact fun event member => (free event member).errorsRemoved

end Agreement

/-! ## An error behind a greeting -/

def greetingPacket : Json :=
  .object
    [("choices",
      .array [.object [("delta", .object [("content", .string "Hi")])]])]

/-- The packet of the greeting, alone and in front of an error. -/
def greetingPackets : String :=
  "[\x7b\"choices\":[\x7b\"delta\":\x7b\"content\":\"Hi\"\x7d\x7d]\x7d]"

def interruptedPackets : String :=
  "[\x7b\"choices\":[\x7b\"delta\":\x7b\"content\":\"Hi\"\x7d\x7d]\x7d," ++
    "\x7b\"error\":\"overloaded\"\x7d]"

/-- A text library that knows the two events. -/
def knownPackets : JsonText :=
  .knowing
    [⟨interruptedPackets,
        .array [greetingPacket, .object [("error", .string "overloaded")]],
        by decide +kernel⟩,
      ⟨greetingPackets, .array [greetingPacket], by decide +kernel⟩]

theorem openrouter_agrees_with_deepseek_greeting :
    parseEvents (parseOpenrouterStreamChunk knownPackets (hostText true))
        [interruptedPackets, "[DONE]"] =
      parseEvents (parseDeepseekStreamChunk knownPackets (hostText true))
        [greetingPackets, "[DONE]"] ∧
      parseEvents (parseOpenrouterStreamChunk knownPackets (hostText true))
          ["<html>"] =
        parseEvents (parseDeepseekStreamChunk knownPackets (hostText true))
          ["<html>"] := by
  have distinct : [interruptedPackets, greetingPackets].Nodup := by
    decide +kernel
  constructor
  · exact (openrouter_agrees_with_deepseek knownPackets (hostText true)).1 _ _
      (.cons
        (.read (by decide +kernel)
          (JsonText.parse_knowing distinct List.mem_cons_self)
          (by decide +kernel)
          (JsonText.parse_knowing distinct
            (List.mem_cons_of_mem _ List.mem_cons_self)))
        (.cons (.unread (Or.inl rfl)) .nil))
  · refine (openrouter_agrees_with_deepseek knownPackets (hostText true)).2 _ ?_
    intro event member
    cases List.mem_singleton.mp member
    exact nofun

end ArnCore.Provider.ParserAgreement
