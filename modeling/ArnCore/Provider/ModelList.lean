import ArnCore.Provider.BuiltInTurn
import ArnCore.Provider.ModelCatalog

/-!
# Listing models and preferring one

`parse_model_list` reads the catalogs of DeepSeek and Gemini, whose `list_models`
keep nothing of what they read.  Every provider prefers a model by a list of
names; where none of them is available, two providers search the list.
-/

namespace ArnCore.Provider

open ArnCore.Interaction
open ArnCore.Net
open ArnCore.Tool

/-! ## The parser -/

/-- `get<std::vector<std::string>>()` -/
def getStrings : Json → Except Exception (List String)
  | .array items => items.mapM Json.getString
  | other =>
      .error (Json.typeError 302
        ("type must be array, but is " ++ other.typeName))

/-- `if (name.starts_with("models/")) name.erase(0, 7)` -/
def withoutModels (name : String) : String :=
  if "models/".toList <+: name.toList then
    String.ofList (name.toList.drop 7)
  else
    name

/-- The name under which an item of Gemini is called. -/
def geminiModel (item : Json) : Except Exception (Option String) := do
  let methods ← item.valueOr getStrings "supportedGenerationMethods" []
  let actions ← item.valueOr getStrings "supportedActions" []
  if "generateContent" ∉ methods ∧ "generateContent" ∉ actions then
    pure none
  else do
    let name ← item.atKey "name"
    let name ← name.getString
    pure (some (withoutModels name))

/-- The id of an item of the other catalogs. -/
def chatModel (item : Json) : Except Exception (Option String) := do
  let id ← item.atKey "id"
  let id ← id.getString
  pure (some id)

/-- One element of the loop over a catalog; `none` where it continues. -/
def listedModel (gemini : Bool) : Json → Except Exception (Option String) :=
  if gemini then geminiModel else chatModel

/-- `std::ranges::sort` -/
def sortModels : List String → List String :=
  List.insertionSort fun first second => first ≤ second

/-- `parse_model_list` -/
def parseModelList (json : JsonText) (body : String) (gemini : Bool) :
    Except Exception (List String) := do
  let document ← json.parse body
  let items ← document.atKey (if gemini then "models" else "data")
  let models ← items.elements.mapM (listedModel gemini)
  pure (sortModels models.reduceOption)

/-! ## The listings -/

section Listings

variable {signature : Signature} {Locals : Type}
  (endpoint : Endpoint signature)

/-- `catch (const std::exception& exception)` of a listing. -/
def unreadableList (verified : String) :
    Except Exception (List String) → Action signature Locals ApiResult
  | .ok models =>
      pure { ok := true, message := verified, models := models }
  | .error (.standard what) =>
      pure { message := "Could not read the model list: " ++ what }
  | .error .foreign => throw .foreign

/-- `list_models`, as far as DeepSeek and Gemini agree. -/
def listCatalog (provider verified path : String)
    (headers : List (String × String)) (gemini : Bool)
    (cancel : CancelFlag signature) :
    Action signature Locals ApiResult :=
  match endpoint.client with
  | none => pure { message := "Client not initialized." }
  | some transport => do
      let received ← executeWithRetry transport cancel
        (get transport path headers) maxRequestAttempts 0
      match received with
      | .error error =>
          pure
            { message :=
                "Network request failed: " ++ endpoint.errorText error }
      | .ok response =>
          if isSuccess response.status then
            unreadableList verified
              (parseModelList endpoint.json response.body gemini)
          else
            pure
              { message :=
                  parseError endpoint.json response.status provider
                    response.body }

/-- `DeepSeekProvider::list_models` -/
def DeepSeekProvider.listModels (apiKey : String)
    (cancel : CancelFlag signature) : Action signature Locals ApiResult :=
  listCatalog endpoint "DeepSeek" "DeepSeek key verified." "/models"
    [("Authorization", "Bearer " ++ apiKey)] false cancel

/-- `GeminiProvider::list_models` -/
def GeminiProvider.listModels (apiKey : String)
    (cancel : CancelFlag signature) : Action signature Locals ApiResult :=
  listCatalog endpoint "Gemini" "Gemini key verified."
    "/v1beta/models?pageSize=1000" [("x-goog-api-key", apiKey)] true cancel

/-- `list_models` of a built-in provider. -/
def BuiltInTurn.BuiltIn.listModels (kind : BuiltInTurn.BuiltIn)
    (apiKey : String) (cancel : CancelFlag signature) :
    Action signature Conversation ApiResult :=
  match kind with
  | .chat .deepSeek => DeepSeekProvider.listModels endpoint apiKey cancel
  | .chat (.openRouter config) =>
      OpenRouterProvider.listModels endpoint config apiKey cancel
  | .gemini => GeminiProvider.listModels endpoint apiKey cancel

end Listings

/-! ## The preferred model -/

/-- `lower_ascii` -/
def lowerAscii (value : String) : String :=
  value.map Char.toLower

/-- `models.empty() ? std::string{} : models.front()` -/
def firstModel (models : List String) : String :=
  models.headD ""

/-- `DeepSeekProvider::preferred_model` -/
def DeepSeekProvider.preferredModel (models : List String) : String :=
  (["deepseek-chat", "deepseek-reasoner"].find? (· ∈ models)).getD
    (firstModel models)

namespace GeminiProvider

def preferredCandidates : List String :=
  ["gemini-flash-latest", "gemini-3.5-flash-lite", "gemini-3.5-flash",
    "gemini-3.1-flash-lite", "gemini-3.1-flash", "gemini-2.5-flash"]

/-- A flash model that answers in text. -/
def isFlash (candidate : String) : Bool :=
  let model := lowerAscii candidate
  containsText model "gemini" && containsText model "flash" &&
    !containsText model "image" && !containsText model "tts" &&
    !containsText model "transcribe"

/-- `GeminiProvider::preferred_model` -/
def preferredModel (models : List String) : String :=
  ((preferredCandidates.find? (· ∈ models)).or (models.find? isFlash)).getD
    (firstModel models)

end GeminiProvider

namespace OpenRouterProvider

def preferredCandidates : List String :=
  ["anthropic/claude-3.7-sonnet", "anthropic/claude-3.5-sonnet",
    "openai/gpt-4o", "deepseek/deepseek-chat", "openai/gpt-4o-mini",
    "google/gemini-2.0-flash-001", "meta-llama/llama-3.3-70b-instruct",
    "meta-llama/llama-3.1-70b-instruct"]

def partialCandidates : List String :=
  ["claude-3.5-sonnet", "gpt-4o", "deepseek-chat"]

/-- `OpenRouterProvider::preferred_model` -/
def preferredModel (models : List String) : String :=
  ((preferredCandidates.find? (· ∈ models)).or
    (partialCandidates.findSome? fun candidate =>
      models.find? fun model => containsText model candidate)).getD
    (firstModel models)

end OpenRouterProvider

/-- `preferred_model` of a built-in provider. -/
def BuiltInTurn.BuiltIn.preferredModel (kind : BuiltInTurn.BuiltIn) :
    List String → String :=
  match kind with
  | .chat .deepSeek => DeepSeekProvider.preferredModel
  | .chat (.openRouter _) => OpenRouterProvider.preferredModel
  | .gemini => GeminiProvider.preferredModel

theorem firstModel_mem {models : List String} (offered : models ≠ []) :
    firstModel models ∈ models := by
  cases models with
  | nil => exact absurd rfl offered
  | cons model rest => exact List.mem_cons_self

/-- Without models no model is preferred. -/
theorem preferredModel_nil (kind : BuiltInTurn.BuiltIn) :
    kind.preferredModel [] = "" := by
  rcases kind with ⟨_ | config⟩ | _
  · rfl
  · rfl
  · rfl

/-- Every provider prefers one of the models that are offered. -/
theorem preferredModel_mem
    {kind : BuiltInTurn.BuiltIn} {models : List String}
    (offered : models ≠ []) : kind.preferredModel models ∈ models := by
  have getD : ∀ {candidate : Option String},
      (∀ model, candidate = some model → model ∈ models) →
        candidate.getD (firstModel models) ∈ models := by
    rintro (_ | model) listed
    · exact firstModel_mem offered
    · exact listed model rfl
  have or : ∀ {first second : Option String},
      (∀ model, first = some model → model ∈ models) →
        (∀ model, second = some model → model ∈ models) →
          ∀ model, first.or second = some model → model ∈ models := by
    rintro (_ | model) second left right
    · exact right
    · exact left
  have named : ∀ {names : List String} model,
      names.find? (· ∈ models) = some model → model ∈ models := by
    intro names model found
    have member := List.find?_some found
    exact of_decide_eq_true member
  rcases kind with ⟨_ | config⟩ | _
  · exact getD named
  · refine getD (or named fun model found => ?_)
    obtain ⟨candidate, -, matched⟩ := List.exists_of_findSome?_eq_some found
    exact List.mem_of_find?_eq_some matched
  · exact getD (or named fun model found => List.mem_of_find?_eq_some found)

end ArnCore.Provider
