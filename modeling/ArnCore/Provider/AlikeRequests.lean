import ArnCore.Interaction.Likeness
import ArnCore.Provider.ModelList

/-!
# Requests that are alike

The loops that repeat a request, and what a provider makes of its response, do
not look at the request.  Where two requests are alike, so are a turn and a
listing that send them.
-/

namespace ArnCore.Provider.AlikeRequests

open ArnCore.Interaction
open ArnCore.Net
open ArnCore.Provider.BuiltInTurn
open ArnCore.Tool

variable {signature : Signature} {likeness : Likeness signature}
  {Locals Parts : Type} {transport : Transport signature}
  {cancel : CancelFlag signature}

/-! ## Repeated requests -/

theorem executeStreamWithRetry_alike
    (exact : likeness.Exact)
    {request other : Action signature (Streaming Parts) HttpResult}
    {onProgress : Option (String → Host signature Unit)}
    (alike : Action.Alike likeness Eq request other)
    (maxAttempts : Int) (attempt : Nat) :
    Action.Alike likeness Eq
      (executeStreamWithRetry transport cancel request onProgress maxAttempts
        attempt)
      (executeStreamWithRetry transport cancel other onProgress maxAttempts
        attempt) := by
  induction remaining : (maxAttempts - attempt).toNat
    using Nat.strong_induction_on generalizing attempt with
  | _ remaining induction =>
      unfold executeStreamWithRetry
      refine .bind_eq (.refl exact (fun _ => rfl) _) fun _ =>
        .bind_eq alike fun response => .bind_eq .get fun streaming =>
          .bind_eq (.refl exact (fun _ => rfl) _) fun stop => ?_
      by_cases final :
          isFinal stop streaming response attempt maxAttempts = true
      · rw [dif_pos final, dif_pos final]
        exact .refl exact (fun _ => rfl) _
      · rw [dif_neg final, dif_neg final]
        have less := attempt_lt_of_not_isFinal (Bool.eq_false_iff.mpr final)
        refine .bind_eq (.refl exact (fun _ => rfl) _) fun delay =>
          .bind_eq (.refl exact (fun _ => rfl) _) fun _ =>
            .bind_eq (.refl exact (fun _ => rfl) _) fun polls =>
              .bind_eq (.refl exact (fun _ => rfl) _) fun cancelled => ?_
        cases cancelled with
        | true => exact .pure rfl
        | false => exact induction _ (by omega) (attempt + 1) rfl

theorem executeWithRetry_alike
    (exact : likeness.Exact) {request other : Host signature HttpResult}
    (alike : Host.Alike likeness Eq request other)
    (maxAttempts : Int) (attempt : Nat) :
    Action.Alike likeness Eq
      (executeWithRetry transport cancel request maxAttempts attempt :
        Action signature Locals HttpResult)
      (executeWithRetry transport cancel other maxAttempts attempt) := by
  induction remaining : (maxAttempts - attempt).toNat
    using Nat.strong_induction_on generalizing attempt with
  | _ remaining induction =>
      unfold executeWithRetry
      refine .bind_eq (.ofHost alike) fun response =>
        .bind_eq (.refl exact (fun _ => rfl) _) fun stop => ?_
      split
      · exact .pure rfl
      · rename_i final
        simp only [Bool.or_eq_true, decide_eq_true_eq, not_or] at final
        refine .bind_eq (.refl exact (fun _ => rfl) _) fun delay =>
          .bind_eq (.refl exact (fun _ => rfl) _) fun polls =>
            .bind_eq (.refl exact (fun _ => rfl) _) fun cancelled => ?_
        cases cancelled with
        | true => exact .pure rfl
        | false => exact induction _ (by omega) (attempt + 1) rfl

/-! ## Turns and listings -/

section Senders

variable {json : JsonText} {errorText : HttpError → String}

/-- Requests that differ in their headers only are sent alike. -/
def SendsAlike (likeness : Likeness signature)
    (transport : Transport signature)
    (headers others : List (String × String)) : Prop :=
  ∀ path payload body more,
    Host.Alike likeness Eq
      (transport.send
        { path := path
          headers := headers ++ more
          payload := payload
          body := body })
      (transport.send
        { path := path
          headers := others ++ more
          payload := payload
          body := body })

variable {headers others : List (String × String)}

theorem turnRequest_alike
    (exact : likeness.Exact)
    (sends : SendsAlike likeness transport headers others)
    (parse : String → Walk signature) (path : String) (payload : Json) :
    Action.Alike likeness Eq
      (turnRequest json transport parse path headers payload cancel)
      (turnRequest json transport parse path others payload cancel) :=
  .bind_eq (.refl exact (fun _ => rfl) _) fun _ =>
    .bind_eq (.modify _) fun _ => .bind_eq (.ofHost (sends _ _ _ _))
      fun _ => .refl exact (fun _ => rfl) _

theorem executeTurn_alike
    (exact : likeness.Exact) {endpoint : Endpoint signature}
    (sends : ∀ transport, endpoint.client = some transport →
      SendsAlike likeness transport headers others)
    (provider path : String) (parse : String → Walk signature)
    (payload : Conversation → Json)
    (read : TurnParts → Action signature Conversation ModelTurn)
    (callbacks : StreamCallbacks signature) :
    Action.Alike likeness Eq
      (executeTurn endpoint provider path headers parse payload read callbacks
        cancel)
      (executeTurn endpoint provider path others parse payload read callbacks
        cancel) := by
  unfold executeTurn
  cases client : endpoint.client with
  | none => exact .pure rfl
  | some transport =>
      refine .bind_eq (.refl exact (fun _ => rfl) _) fun stop => ?_
      split
      · exact .pure rfl
      · refine .bind_eq .get fun conversation => .bind_eq ?_ fun received =>
          .refl exact (fun _ => rfl) _
        exact .withLocals (.bind_eq
          (executeStreamWithRetry_alike exact
            (turnRequest_alike exact (sends transport client) _ _ _) _ _)
          fun response => .refl exact (fun _ => rfl) _)

theorem get_alike
    (sends : SendsAlike likeness transport headers others) (path : String) :
    Host.Alike likeness Eq (get transport path headers)
      (get transport path others) := by
  have alike := sends path .null "" []
  rw [List.append_nil, List.append_nil] at alike
  refine Program.Alike.bind alike ?_
  rintro outcome _ (@⟨transfer, _, rfl⟩ | thrown)
  · cases transfer <;> exact .returns rfl
  · exact .throws thrown

theorem listCatalog_alike
    (exact : likeness.Exact) {endpoint : Endpoint signature}
    (sends : ∀ transport, endpoint.client = some transport →
      SendsAlike likeness transport headers others)
    (provider verified path : String) (gemini : Bool) :
    Action.Alike likeness Eq
      (listCatalog endpoint provider verified path headers gemini cancel :
        Action signature Locals ApiResult)
      (listCatalog endpoint provider verified path others gemini cancel) := by
  unfold listCatalog
  cases client : endpoint.client with
  | none => exact .pure rfl
  | some transport =>
      exact .bind_eq
        (executeWithRetry_alike exact (get_alike (sends transport client) _)
          _ _)
        fun received => .refl exact (fun _ => rfl) _

end Senders

section BuiltIns

variable {apiKey otherKey : String} {endpoint : Endpoint signature}

/-- The headers of a provider with either key are sent alike. -/
def KeysAlike (likeness : Likeness signature) (endpoint : Endpoint signature)
    (kind : BuiltIn) (apiKey otherKey : String) : Prop :=
  ∀ transport, endpoint.client = some transport →
    SendsAlike likeness transport (kind.headers apiKey) (kind.headers otherKey)

theorem listModels_alike
    (exact : likeness.Exact) {kind : BuiltIn}
    (sends : KeysAlike likeness endpoint kind apiKey otherKey) :
    Action.Alike likeness Eq (kind.listModels endpoint apiKey cancel)
      (kind.listModels endpoint otherKey cancel) := by
  rcases kind with ⟨_ | config⟩ | _
  · exact listCatalog_alike exact sends _ _ _ _
  · refine .bind_eq (.refl exact (fun _ => rfl) _) fun stop => ?_
    split
    · exact .pure rfl
    · cases client : endpoint.client with
      | none => exact .pure rfl
      | some transport =>
          exact .bind_eq
            (executeWithRetry_alike exact (get_alike (sends transport client) _)
              _ _)
            fun received => .refl exact (fun _ => rfl) _
  · exact listCatalog_alike exact sends _ _ _ _

theorem executeTurnRequest_alike
    (exact : likeness.Exact) {kind : BuiltIn}
    (sends : KeysAlike likeness endpoint kind apiKey otherKey)
    (model systemInstruction : String)
    (tools : ToolRegistry signature Conversation)
    (callbacks : StreamCallbacks signature) (cancel : CancelFlag signature) :
    Action.Alike likeness Eq
      (kind.executeTurnRequest endpoint apiKey model systemInstruction tools
        callbacks cancel)
      (kind.executeTurnRequest endpoint otherKey model systemInstruction tools
        callbacks cancel) := by
  rw [BuiltIn.executeTurnRequest_eq, BuiltIn.executeTurnRequest_eq]
  exact executeTurn_alike exact sends _ _ _ _ _ _

theorem startTurn_alike
    (exact : likeness.Exact) {kind : BuiltIn}
    (sends : KeysAlike likeness endpoint kind apiKey otherKey)
    (model systemInstruction userPrompt : String)
    (tools : ToolRegistry signature Conversation)
    (callbacks : StreamCallbacks signature) :
    Action.Alike likeness Eq
      ((kind.provider endpoint).startTurn apiKey model systemInstruction
        userPrompt tools callbacks cancel)
      ((kind.provider endpoint).startTurn otherKey model systemInstruction
        userPrompt tools callbacks cancel) := by
  have requests := executeTurnRequest_alike exact sends model
    systemInstruction tools callbacks cancel
  rcases kind with ⟨_ | config⟩ | _
  · exact .bind_eq .get fun conversation =>
      .bind_eq (.refl exact (fun _ => rfl) _) fun _ =>
        .bind_eq (.modify _) fun _ => requests
  · refine .bind_eq (.refl exact (fun _ => rfl) _) fun stop => ?_
    split
    · exact .pure rfl
    · exact .bind_eq .get fun conversation =>
        .bind_eq (.refl exact (fun _ => rfl) _) fun _ =>
          .bind_eq .get fun conversation => .bind_eq (.modify _) fun _ =>
            requests
  · exact .bind_eq (.modify _) fun _ => requests

theorem continueTurn_alike
    (exact : likeness.Exact) {kind : BuiltIn}
    (sends : KeysAlike likeness endpoint kind apiKey otherKey)
    (model systemInstruction : String) (responses : List ToolResponse)
    (tools : ToolRegistry signature Conversation)
    (callbacks : StreamCallbacks signature) :
    Action.Alike likeness Eq
      ((kind.provider endpoint).continueTurn apiKey model systemInstruction
        responses tools callbacks cancel)
      ((kind.provider endpoint).continueTurn otherKey model systemInstruction
        responses tools callbacks cancel) := by
  have requests := executeTurnRequest_alike exact sends model
    systemInstruction tools callbacks cancel
  rcases kind with ⟨_ | config⟩ | _
  · exact .bind_eq (.refl exact (fun _ => rfl) _) fun _ => requests
  · refine .bind_eq (.refl exact (fun _ => rfl) _) fun stop => ?_
    split
    · exact .pure rfl
    · exact .bind_eq (.refl exact (fun _ => rfl) _) fun _ => requests
  · exact .bind_eq (.modify _) fun _ => requests

end BuiltIns

end ArnCore.Provider.AlikeRequests
