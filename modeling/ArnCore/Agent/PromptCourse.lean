import Mathlib.Data.Nat.Init
import ArnCore.Agent.AgentSession
import ArnCore.Interaction.Ensures

/-!
# The course of a prompt

A prompt alternates between turns of its provider and calls of tools.  What is
known of the provider behind a turn is a condition on the turn and on the local
variables; it has to survive the tool calls, and the next turn is entered with
one response for every call.  The rules here say once how a prompt goes through
its turns and how it may be left.
-/

namespace ArnCore.Agent.PromptCourse

open ArnCore.Interaction
open ArnCore.Interaction.Action
open ArnCore.Provider
open ArnCore.Tool

variable {signature : Signature} {Locals : Type}

/-- A response carries the id and the name of its call. -/
def Responds (call : ToolCall) (response : ToolResponse) : Prop :=
  response.callId = call.id ∧ response.name = call.name

/-- How a prompt is left behind a turn. -/
inductive Leaves (cancel : CancelFlag signature) (turn : ModelTurn) :
    Except Exception ApiResult → Prop where
  | answered (ok : turn.ok = true) (settled : turn.toolCalls = []) :
      Leaves cancel turn (.ok { ok := true, message := turn.text })
  | failed (failed : turn.ok = false) :
      Leaves cancel turn (.ok (AgentSession.turnFailed turn))
  | exhausted (pending : turn.toolCalls ≠ []) :
      Leaves cancel turn
        (.ok { message := "Stopped after too many tool calls." })
  | cancelled (watched : cancel.isSome = true) :
      Leaves cancel turn (.ok AgentSession.requestCancelled)
  | threw {failure : Exception} : Leaves cancel turn (.error failure)

/-- The condition behind a turn that returned, or where it threw. -/
def AfterTurn (Turned : ModelTurn → Locals → Prop)
    (Left : Except Exception ApiResult → Locals → Prop) :
    Except Exception ModelTurn → Locals → Prop
  | .ok turn, after => Turned turn after
  | .error failure, after => Left (.error failure) after

section Turns

variable {permits shown : Event signature → Prop}
  {session : AgentSession signature Locals}
  {provider : IModelProvider signature Locals}
  {registry : ToolRegistry signature Locals}
  {callbacks : StreamCallbacks signature} {cancel : CancelFlag signature}

/-- Polls, notices and tool calls maintain a condition. -/
structure Undisturbed (permits shown : Event signature → Prop)
    (session : AgentSession signature Locals)
    (registry : ToolRegistry signature Locals)
    (callbacks : StreamCallbacks signature) (cancel : CancelFlag signature)
    (kept : Locals → Prop) : Prop where
  polls : Maintains permits shown kept
    (isSet cancel : Action signature Locals Bool)
  informs : ∀ message, Maintains permits shown kept
    (notify callbacks.onProgress message : Action signature Locals Unit)
  executes : ∀ name arguments, Maintains permits shown kept
    (registry.execute name arguments
      { cancelRequested := cancel
        confirm := session.confirmHandler })

/-- A check finds the flag set only when there is one. -/
theorem ensures_check
    {kept : Locals → Prop} {locals : Locals}
    (polls : Maintains permits shown kept
      (isSet cancel : Action signature Locals Bool))
    (holds : kept locals) :
    Ensures permits shown
      (fun outcome after => kept after ∧
        (outcome = .ok true → cancel.isSome = true))
      (isSet cancel : Action signature Locals Bool) locals := by
  cases cancel with
  | none => exact .pure ⟨holds, nofun⟩
  | some load => exact (polls locals holds).imp fun _ _ keeps => ⟨keeps, fun _ => rfl⟩

/-- The calls of a turn are answered one after the other. -/
theorem ensures_runCalls
    {kept : Locals → Prop} {locals : Locals}
    (undisturbed :
      Undisturbed permits shown session registry callbacks cancel kept)
    (holds : kept locals) (calls : List ToolCall)
    (responses : List ToolResponse) :
    Ensures permits shown
      (fun outcome after => kept after ∧
        (outcome = .ok none → cancel.isSome = true) ∧
        ∀ collected, outcome = .ok (some collected) →
          ∃ added, collected = responses ++ added ∧
            List.Forall₂ Responds calls added)
      (AgentSession.runCalls session registry callbacks cancel calls responses)
      locals := by
  induction calls generalizing locals responses with
  | nil =>
      refine .pure ⟨holds, nofun, ?_⟩
      rintro collected ⟨⟩
      exact ⟨[], (List.append_nil _).symm, .nil⟩
  | cons call calls induction =>
      refine (ensures_check undisturbed.polls holds).bind
        (fun failure after keeps => ⟨keeps.1, nofun, nofun⟩) ?_
      rintro (_ | _) after ⟨keeps, watched⟩
      · refine ((undisturbed.informs _) after keeps).bind
          (fun _ _ keeps => ⟨keeps, nofun, nofun⟩) ?_
        intro shown informed keeps
        refine ((undisturbed.executes _ _) informed keeps).bind
          (fun _ _ keeps => ⟨keeps, nofun, nofun⟩) ?_
        intro execution executed keeps
        refine (induction keeps _).imp ?_
        rintro outcome final ⟨keeps, stopped, answers⟩
        refine ⟨keeps, stopped, ?_⟩
        intro collected same
        obtain ⟨added, rfl, answered⟩ := answers collected same
        exact ⟨_ :: added, by rw [List.append_assoc]; rfl,
          .cons ⟨rfl, rfl⟩ answered⟩
      · exact .pure ⟨keeps, fun _ => watched rfl, nofun⟩

variable {Turned : ModelTurn → Locals → Prop}
  {Left : Except Exception ApiResult → Locals → Prop}

/-- What a prompt relies on behind its first turn. -/
structure Continues (permits shown : Event signature → Prop)
    (session : AgentSession signature Locals)
    (provider : IModelProvider signature Locals)
    (registry : ToolRegistry signature Locals)
    (callbacks : StreamCallbacks signature) (cancel : CancelFlag signature)
    (Turned : ModelTurn → Locals → Prop)
    (Left : Except Exception ApiResult → Locals → Prop) : Prop where
  undisturbed : ∀ turn,
    Undisturbed permits shown session registry callbacks cancel (Turned turn)
  goesOn : ∀ turn locals responses, Turned turn locals → turn.ok = true →
    turn.toolCalls ≠ [] →
    List.Forall₂ Responds turn.toolCalls responses →
    Ensures permits shown (AfterTurn Turned Left)
      (provider.continueTurn session.apiKey session.activeModel
        session.config.systemInstruction responses registry callbacks cancel)
      locals
  leaves : ∀ turn locals outcome, Turned turn locals →
    Leaves cancel turn outcome → Left outcome locals

/-- What follows a turn: the flag is checked, and a failed turn is the last. -/
theorem Continues.ensures_checked
    (continues : Continues permits shown session provider registry callbacks
      cancel Turned Left)
    {turn : ModelTurn} {locals : Locals} (turned : Turned turn locals)
    {next : Action signature Locals ApiResult}
    (goesOn : ∀ locals, Turned turn locals → turn.ok = true →
      Ensures permits shown Left next locals) :
    Ensures permits shown Left
      (do
        let stop ← isSet cancel
        if stop then
          pure AgentSession.requestCancelled
        else if turn.ok then
          next
        else
          pure (AgentSession.turnFailed turn))
      locals := by
  refine (ensures_check (continues.undisturbed turn).polls turned).bind
    (fun _ _ keeps => continues.leaves turn _ _ keeps.1 .threw) ?_
  rintro (_ | _) after ⟨keeps, watched⟩
  · cases ok : turn.ok with
    | true => exact goesOn after keeps ok
    | false => exact .pure (continues.leaves turn _ _ keeps (.failed ok))
  · exact .pure (continues.leaves turn _ _ keeps (.cancelled (watched rfl)))

theorem Continues.ensures_turnLoop
    (continues : Continues permits shown session provider registry callbacks
      cancel Turned Left)
    {round : Int} {turn : ModelTurn} {locals : Locals}
    (turned : Turned turn locals) (ok : turn.ok = true) :
    Ensures permits shown Left
      (AgentSession.turnLoop session provider registry callbacks cancel round
        turn) locals := by
  induction remaining : (session.config.maxToolRounds - round).toNat
    using Nat.strong_induction_on generalizing round turn locals with
  | _ remaining induction =>
      have undisturbed := continues.undisturbed turn
      have leaves := continues.leaves turn
      rw [AgentSession.turnLoop]
      split_ifs with settled exhausted
      · exact .pure (leaves _ _ turned (.answered ok settled))
      · exact .pure (leaves _ _ turned (.exhausted settled))
      refine (ensures_runCalls undisturbed turned turn.toolCalls []).bind
        (fun _ _ keeps => leaves _ _ keeps.1 .threw) ?_
      rintro (_ | responses) after ⟨keeps, stopped, answers⟩
      · exact .pure (leaves _ _ keeps (.cancelled (stopped rfl)))
      obtain ⟨added, same, answered⟩ := answers responses rfl
      rw [List.nil_append] at same
      obtain rfl := same
      refine (ensures_check undisturbed.polls keeps).bind
        (fun _ _ keeps => leaves _ _ keeps.1 .threw) ?_
      rintro (_ | _) checked ⟨keeps, watched⟩
      · refine (continues.goesOn turn checked responses keeps ok settled
          answered).bind (fun _ _ left => left) ?_
        intro next later turnedNext
        refine continues.ensures_checked turnedNext ?_
        intro locals turned ok
        exact induction _ (by omega) turned ok rfl
      · exact .pure (leaves _ _ keeps (.cancelled (watched rfl)))

/-- From the first turn to the end of a prompt. -/
theorem Continues.ensures_runTurns
    (continues : Continues permits shown session provider registry callbacks
      cancel Turned Left)
    {input : String} {locals : Locals}
    (starts : Ensures permits shown (AfterTurn Turned Left)
      (provider.startTurn session.apiKey session.activeModel
        session.config.systemInstruction input registry callbacks cancel)
      locals) :
    Ensures permits shown Left
      (AgentSession.runTurns session provider registry callbacks cancel input)
      locals := by
  refine starts.bind (fun _ _ left => left) ?_
  intro turn after turned
  refine continues.ensures_checked turned ?_
  intro locals turned ok
  exact continues.ensures_turnLoop turned ok

end Turns

/-! ## The whole prompt -/

section Prompt

variable {permits shown : Event signature → Prop}
  {session : AgentSession signature Locals}
  {provider : IModelProvider signature Locals}
  {callbacks : StreamCallbacks signature} {cancel : CancelFlag signature}
  {Turned : ModelTurn → Locals → Prop}
  {Left : Except Exception ApiResult → Locals → Prop}

/-- What a prompt relies on before its first turn. -/
structure Begins (permits shown : Event signature → Prop)
    (session : AgentSession signature Locals)
    (provider : IModelProvider signature Locals)
    (callbacks : StreamCallbacks signature) (cancel : CancelFlag signature)
    (input : String) (Before Ready : Locals → Prop)
    (Turned : ModelTurn → Locals → Prop)
    (Left : Except Exception ApiResult → Locals → Prop) : Prop where
  locks : Maintains permits shown Before
    (ofHost session.mutex.lock : Action signature Locals Unit)
  refuses : ∀ locals message, Before locals →
    Left (.ok { message := message }) locals
  cancels : ∀ locals, Before locals → cancel.isSome = true →
    Left (.ok AgentSession.requestCancelled) locals
  fails : ∀ locals failure, Before locals → Left (.error failure) locals
  polls : Maintains permits shown Before
    (isSet cancel : Action signature Locals Bool)
  trims : ∀ locals, Before locals →
    Ensures permits shown
      (fun outcome after =>
        match outcome with
        | .ok _ => Ready after
        | .error failure => Left (.error failure) after)
      (provider.trimHistory session.config.maxHistoryEntries) locals
  publishes : Maintains permits shown Ready
    (ofHost session.activeProvider.publish : Action signature Locals Unit)
  unpublished : ∀ locals failure, Ready locals → Left (.error failure) locals
  starts : ∀ locals, Ready locals →
    Ensures permits shown (AfterTurn Turned Left)
      (provider.startTurn session.apiKey session.activeModel
        session.config.systemInstruction input (session.tools.getD {})
        callbacks cancel) locals
  clears : ∀ outcome, Maintains permits shown (Left outcome)
    (ofHost session.activeProvider.clear : Action signature Locals Unit)
  unlocks : ∀ outcome, Maintains permits shown (Left outcome)
    (ofHost session.mutex.unlock : Action signature Locals Unit)

theorem ensures_prompt
    {input : String} {Before Ready : Locals → Prop}
    (provided : session.provider = some provider)
    (begins : Begins permits shown session provider callbacks cancel input
      Before Ready Turned Left)
    (continues : Continues permits shown session provider
      (session.tools.getD {}) callbacks cancel Turned Left)
    {locals : Locals} (before : Before locals) :
    Ensures permits shown Left (session.prompt callbacks cancel input)
      locals := by
  refine (begins.locks locals before).bind
    (fun failure after => begins.fails after failure) ?_
  intro locked locals before
  refine Ensures.scopeGuard ?_ fun outcome after left =>
    begins.unlocks outcome after left
  unfold AgentSession.promptLocked
  rw [provided]
  dsimp only
  split_ifs
  · exact .pure (begins.refuses locals _ before)
  · exact .pure (begins.refuses locals _ before)
  refine (ensures_check begins.polls before).bind
    (fun failure after keeps => begins.fails after failure keeps.1) ?_
  rintro (_ | _) checked ⟨before, watched⟩
  · refine (begins.trims checked before).bind (fun _ _ left => left) ?_
    intro trimmed after ready
    refine (begins.publishes after ready).bind
      (fun failure after ready => begins.unpublished after failure ready) ?_
    intro published after ready
    exact Ensures.scopeGuard
      (continues.ensures_runTurns (begins.starts after ready))
      fun outcome after left => begins.clears outcome after left
  · exact .pure (begins.cancels checked before (watched rfl))

end Prompt

end ArnCore.Agent.PromptCourse
