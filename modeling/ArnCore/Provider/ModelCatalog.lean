import ArnCore.Provider.BuiltInProvider
import Mathlib.Data.List.ReduceOption
import Mathlib.Data.List.Sort
import Mathlib.Data.String.Basic

/-!
# The model catalog of OpenRouter

`list_models` reads the catalog of the endpoint and rebuilds the map of the
capabilities from it.  Everything that can fail comes before the map is
touched.
-/

namespace ArnCore.Provider

open ArnCore.Collections
open ArnCore.Interaction
open ArnCore.Net
open ArnCore.Tool

/-- `OpenRouterModelEntry` -/
structure OpenRouterModelEntry where
  id : String
  name : String
  description : String
  capabilities : ModelCapabilities

/-! ## The parser -/

/-- The modality of an item says that it generates embeddings or images. -/
def hasSkippedModality (item : Json) : Bool :=
  match item.find? "architecture" with
  | some (.object members) =>
      match (Json.object members).find? "modality" with
      | some (.string modality) =>
          containsText modality "embeddings" ||
            containsText modality "image->image"
      | _ => false
  | _ => false

/-- `p.is_string() && p.get<std::string>() == "tools"` -/
def isToolsParameter : Json → Bool
  | .string parameter => parameter = "tools"
  | _ => false

/-- The capabilities an item states; an empty list of parameters states none. -/
def catalogCapabilities (item : Json) : ModelCapabilities :=
  match item.find? "supported_parameters" with
  | some (.array (parameter :: parameters)) =>
      { supportsTools := (parameter :: parameters).any isToolsParameter }
  | _ => {}

/-- One element of the loop over `data`; `none` where it continues. -/
def catalogEntry (item : Json) :
    Except Exception (Option OpenRouterModelEntry) :=
  match item.find? "id" with
  | some (.string id) =>
      if id = "" ∨ hasSkippedModality item = true then
        .ok none
      else do
        let name ← item.valueOr Json.getString "name" id
        let description ← item.valueOr Json.getString "description" ""
        pure (some
          { id := id
            name := name
            description := description
            capabilities := catalogCapabilities item })
  | _ => .ok none

/-- The items of a catalog; a document without a list of them has none. -/
def catalogItems (document : Json) : List Json :=
  match document.find? "data" with
  | some (.array items) => items
  | _ => []

/-- `std::ranges::sort` by id. -/
def sortEntries :
    List OpenRouterModelEntry → List OpenRouterModelEntry :=
  List.insertionSort fun first second => first.id ≤ second.id

/-- `parse_openrouter_model_catalog` -/
def parseOpenrouterModelCatalog (json : JsonText) (body : String) :
    Except Exception (List OpenRouterModelEntry) := do
  let document ← json.parse body
  let entries ← (catalogItems document).mapM catalogEntry
  pure (sortEntries entries.reduceOption)

/-! ## The listing -/

/-- `emplace`: an entry that is there stays. -/
def emplace (capabilities : List (String × ModelCapabilities))
    (entry : OpenRouterModelEntry) : List (String × ModelCapabilities) :=
  match OrderedMap.find? entry.id capabilities with
  | some _ => capabilities
  | none => OrderedMap.insert entry.id entry.capabilities capabilities

/-- The listing of every cancellation exit. -/
def cancelledListing : ApiResult where
  message := "Request cancelled."
  cancelled := true

namespace OpenRouterProvider

variable {signature : Signature} (endpoint : Endpoint signature)
  (config : OpenRouterConfig)

/-- What a listing makes of a 2xx response. -/
def readCatalog (response : HttpResponse) :
    Action signature Conversation ApiResult :=
  match parseOpenrouterModelCatalog endpoint.json response.body with
  | .ok entries => do
      modify fun conversation =>
        { conversation with capabilities := entries.foldl emplace [] }
      pure
        { ok := true
          message := "OpenRouter key verified."
          models := entries.map OpenRouterModelEntry.id }
  | .error (.standard what) =>
      pure { message := "Could not read the model list: " ++ what }
  | .error .foreign => throw .foreign

/-- What a listing makes of the response of its last attempt. -/
def concludeListing (received : HttpResult) :
    Action signature Conversation ApiResult :=
  match received with
  | .error error =>
      pure
        { message := "Network request failed: " ++ endpoint.errorText error }
  | .ok response =>
      if isSuccess response.status then
        readCatalog endpoint response
      else
        pure
          { message :=
              parseError endpoint.json response.status "OpenRouter"
                response.body }

/-- `list_models` -/
def listModels (apiKey : String) (cancel : CancelFlag signature) :
    Action signature Conversation ApiResult := do
  let stop ← isSet cancel
  if stop then
    pure cancelledListing
  else
    match endpoint.client with
    | none => pure { message := "Client not initialized." }
    | some transport => do
        let received ← executeWithRetry transport cancel
          (get transport (joinApiPath config.apiPathPrefix "/models")
            (requestHeaders config apiKey))
          maxRequestAttempts 0
        let stop ← isSet cancel
        if stop then
          pure cancelledListing
        else
          concludeListing endpoint received

end OpenRouterProvider

/-! ## Evaluations that do not throw -/

section Evaluations

variable {Item Value Result : Type}

theorem bind_eq_ok
    {evaluated : Except Exception Value}
    {rest : Value → Except Exception Result} {result : Result} :
    evaluated >>= rest = .ok result ↔
      ∃ value, evaluated = .ok value ∧ rest value = .ok result := by
  cases evaluated with
  | error failure => simp [bind, Except.bind]
  | ok value => simp [bind, Except.bind]

/-- A loop whose steps all return a value. -/
theorem forall₂_of_mapM
    {evaluate : Item → Except Exception Value}
    {items : List Item} {values : List Value}
    (evaluated : items.mapM evaluate = .ok values) :
    List.Forall₂ (fun item value => evaluate item = .ok value) items
      values := by
  induction items generalizing values with
  | nil =>
      cases evaluated
      exact .nil
  | cons item items induction =>
      rw [List.mapM_cons] at evaluated
      obtain ⟨value, first, evaluated⟩ := bind_eq_ok.mp evaluated
      obtain ⟨others, rest, evaluated⟩ := bind_eq_ok.mp evaluated
      cases evaluated
      exact .cons first (induction rest)

end Evaluations

/-! ## The entries of a catalog -/

/-- The id under which an item is found. -/
def itemId? (item : Json) : Option String :=
  match item.find? "id" with
  | some (.string id) => some id
  | _ => none

/-- The ids of a catalog. -/
def catalogIds (items : List Json) : List String :=
  items.filterMap itemId?

/-- An item the parser lists, under its id. -/
structure Lists (item : Json) (model : String) : Prop where
  id : itemId? item = some model
  named : model ≠ ""
  modality : hasSkippedModality item = false

/--
An item offers tools unless it lists parameters and none of them is `tools`.
-/
def OffersTools (item : Json) : Prop :=
  ∀ parameters, item.find? "supported_parameters" = some (.array parameters) →
    parameters = [] ∨ Json.string "tools" ∈ parameters

theorem supportsTools_catalogCapabilities
    (item : Json) :
    (catalogCapabilities item).supportsTools = true ↔ OffersTools item := by
  have recognised : ∀ parameter,
      isToolsParameter parameter = true ↔ parameter = .string "tools" := by
    intro parameter
    cases parameter with
    | string text => simp [isToolsParameter]
    | _ => simp [isToolsParameter]
  rw [OffersTools, catalogCapabilities]
  split
  · rename_i parameter parameters found
    simp only [found, List.any_eq_true, recognised, Option.some.injEq,
      Json.array.injEq, forall_eq', reduceCtorEq, false_or]
    exact exists_eq_right
  · rename_i unlisted
    simp only [true_iff]
    intro parameters found
    cases parameters with
    | nil => exact Or.inl rfl
    | cons parameter parameters => exact absurd found (unlisted _ _)

/-- The entry of an item that is listed. -/
theorem lists_of_catalogEntry
    {item : Json} {entry : OpenRouterModelEntry}
    (read : catalogEntry item = .ok (some entry)) :
    Lists item entry.id ∧ entry.capabilities = catalogCapabilities item := by
  unfold catalogEntry at read
  split at read
  · rename_i id found
    by_cases skipped : id = "" ∨ hasSkippedModality item = true
    · rw [if_pos skipped] at read
      cases read
    rw [if_neg skipped] at read
    rw [not_or, Bool.not_eq_true] at skipped
    obtain ⟨name, -, read⟩ := bind_eq_ok.mp read
    obtain ⟨description, -, read⟩ := bind_eq_ok.mp read
    cases read
    exact ⟨⟨by simp [itemId?, found], skipped.1, skipped.2⟩, rfl⟩
  · cases read

/-- An item that is skipped is not listed. -/
theorem not_lists_of_catalogEntry
    {item : Json} {model : String}
    (read : catalogEntry item = .ok none) : ¬ Lists item model := by
  rintro ⟨id, named, modality⟩
  unfold itemId? at id
  unfold catalogEntry at read
  split at id
  · rename_i found
    cases id
    simp only [found, named, modality, false_or, Bool.false_eq_true,
      if_false] at read
    obtain ⟨name, -, read⟩ := bind_eq_ok.mp read
    obtain ⟨description, -, read⟩ := bind_eq_ok.mp read
    cases read
  · cases id


section Entries

variable {items : List Json} {found : List (Option OpenRouterModelEntry)}

/-- The entries belong to items of the catalog. -/
theorem exists_item_of_entry
    (read : List.Forall₂ (fun item entry => catalogEntry item = .ok entry)
      items found)
    {entry : OpenRouterModelEntry} (member : entry ∈ found.reduceOption) :
    ∃ item ∈ items, catalogEntry item = .ok (some entry) := by
  rw [List.reduceOption_mem_iff] at member
  induction read with
  | nil => cases member
  | @cons item other items found first rest induction =>
      rcases List.mem_cons.mp member with rfl | later
      · exact ⟨item, List.mem_cons_self, first⟩
      · obtain ⟨item, among, reads⟩ := induction later
        exact ⟨item, List.mem_cons_of_mem _ among, reads⟩

/-- An item that is listed has an entry. -/
theorem exists_entry_of_lists
    (read : List.Forall₂ (fun item entry => catalogEntry item = .ok entry)
      items found)
    {item : Json} {model : String} (member : item ∈ items)
    (lists : Lists item model) :
    ∃ entry ∈ found.reduceOption, entry.id = model ∧
      entry.capabilities = catalogCapabilities item := by
  induction read with
  | nil => cases member
  | @cons head entry items found first rest induction =>
      rcases List.mem_cons.mp member with rfl | later
      · cases entry with
        | none => exact absurd lists (not_lists_of_catalogEntry first)
        | some entry =>
            obtain ⟨listed, capabilities⟩ := lists_of_catalogEntry first
            refine ⟨entry, by simp [List.reduceOption_mem_iff], ?_,
              capabilities⟩
            exact Option.some.inj (listed.id.symm.trans lists.id)
      · obtain ⟨listed, among, same⟩ := induction later
        rw [List.reduceOption_mem_iff] at among
        exact ⟨listed, List.reduceOption_mem_iff.mpr
          (List.mem_cons_of_mem _ among), same⟩

/-- No id is listed that the catalog does not contain. -/
theorem sublist_catalogIds
    (read : List.Forall₂ (fun item entry => catalogEntry item = .ok entry)
      items found) :
    List.Sublist (found.reduceOption.map OpenRouterModelEntry.id)
      (catalogIds items) := by
  induction read with
  | nil => exact .refl _
  | @cons item entry items found first rest induction =>
      cases entry with
      | none =>
          rw [List.reduceOption_cons_of_none]
          refine induction.trans ?_
          exact (List.sublist_cons_self item items).filterMap itemId?
      | some entry =>
          have listed := (lists_of_catalogEntry first).1.id
          rw [List.reduceOption_cons_of_some, List.map_cons, catalogIds,
            List.filterMap_cons_some listed]
          exact induction.cons_cons _

end Entries

/-! ## The capabilities of a catalog -/

/-- The entries of a listing, sorted without repetition. -/
theorem pairwise_sortEntries
    {entries : List OpenRouterModelEntry}
    (distinct : (entries.map OpenRouterModelEntry.id).Nodup) :
    (sortEntries entries).Pairwise fun first second =>
      first.id < second.id := by
  have sorted := List.pairwise_insertionSort
    (fun first second : OpenRouterModelEntry => first.id ≤ second.id) entries
  have permuted := (List.perm_insertionSort
    (fun first second : OpenRouterModelEntry => first.id ≤ second.id)
    entries).map OpenRouterModelEntry.id
  have different := List.pairwise_map.mp (permuted.nodup_iff.mpr distinct)
  exact (sorted.and different).imp fun both => lt_of_le_of_ne both.1 both.2

/-- Emplacing in increasing order appends. -/
theorem foldl_emplace
    {entries : List OpenRouterModelEntry}
    (sorted : entries.Pairwise fun first second => first.id < second.id)
    (capabilities : List (String × ModelCapabilities))
    (behind : ∀ known ∈ capabilities, ∀ entry ∈ entries,
      known.1 < entry.id) :
    entries.foldl emplace capabilities =
      capabilities ++
        entries.map fun entry => (entry.id, entry.capabilities) := by
  induction entries generalizing capabilities with
  | nil => simp
  | cons entry entries induction =>
      obtain ⟨first, rest⟩ := List.pairwise_cons.mp sorted
      have less : ∀ known ∈ capabilities, known.1 < entry.id :=
        fun known member => behind known member entry List.mem_cons_self
      have absent : OrderedMap.find? entry.id capabilities = none :=
        OrderedMap.find?_eq_none_iff.mpr fun known member =>
          (less known member).ne
      have appended : emplace capabilities entry =
          capabilities ++ [(entry.id, entry.capabilities)] := by
        rw [emplace, absent]
        exact OrderedMap.insert_of_lt fun known member =>
          ⟨(less known member).ne, (less known member).asymm⟩
      rw [List.foldl_cons, appended, induction rest _, List.append_assoc]
      · rfl
      · rintro known member other among
        rcases List.mem_append.mp member with earlier | same
        · exact behind known earlier other (List.mem_cons_of_mem _ among)
        · cases List.mem_singleton.mp same
          exact first other among

/-- What the parser makes of a document, when it does not throw. -/
theorem parseOpenrouterModelCatalog_eq_ok
    {json : JsonText} {body : String} {entries : List OpenRouterModelEntry} :
    parseOpenrouterModelCatalog json body = .ok entries ↔
      ∃ document found,
        json.parse body = .ok document ∧
        (catalogItems document).mapM catalogEntry = .ok found ∧
        sortEntries found.reduceOption = entries := by
  unfold parseOpenrouterModelCatalog
  constructor
  · intro parsed
    obtain ⟨document, read, parsed⟩ := bind_eq_ok.mp parsed
    obtain ⟨found, listed, parsed⟩ := bind_eq_ok.mp parsed
    cases parsed
    exact ⟨document, found, read, listed, rfl⟩
  · rintro ⟨document, found, read, listed, rfl⟩
    exact bind_eq_ok.mpr ⟨document, read, bind_eq_ok.mpr ⟨found, listed, rfl⟩⟩

/--
The capabilities say of every model what the catalog says of it.  Without a
catalog, and of a model that is not listed, tools are supported.
-/
def Reflects (catalog : Option (List Json))
    (capabilities : List (String × ModelCapabilities)) : Prop :=
  ∀ model,
    ((OrderedMap.find? model capabilities).getD {}).supportsTools = true ↔
      ∀ items, catalog = some items →
        ∀ item ∈ items, Lists item model → OffersTools item

theorem reflects_none : Reflects none [] := by
  intro model
  simp

/-- The map rebuilt from a catalog without repeated ids. -/
theorem emplaced_of_parsed
    {json : JsonText} {body : String} {entries : List OpenRouterModelEntry}
    {document : Json}
    (read : json.parse body = .ok document)
    (parsed : parseOpenrouterModelCatalog json body = .ok entries)
    (distinct : (catalogIds (catalogItems document)).Nodup) :
    (entries.map OpenRouterModelEntry.id).Pairwise (· < ·) ∧
      (entries.foldl emplace []).map Prod.fst =
        entries.map OpenRouterModelEntry.id ∧
      Reflects (some (catalogItems document)) (entries.foldl emplace []) := by
  obtain ⟨other, found, same, listed, rfl⟩ :=
    parseOpenrouterModelCatalog_eq_ok.mp parsed
  obtain rfl := Except.ok.inj (read.symm.trans same)
  have evaluated := forall₂_of_mapM listed
  have increasing :=
    pairwise_sortEntries (distinct.sublist (sublist_catalogIds evaluated))
  have emplaced := foldl_emplace increasing [] (by simp)
  rw [List.nil_append] at emplaced
  refine ⟨List.pairwise_map.mpr increasing, ?_, ?_⟩
  · rw [emplaced, List.map_map]
    rfl
  intro model
  rw [emplaced]
  have permuted : ∀ entry, entry ∈ sortEntries found.reduceOption ↔
      entry ∈ found.reduceOption := fun entry => List.mem_insertionSort _
  have ids : ((sortEntries found.reduceOption).map
      OpenRouterModelEntry.id).Nodup :=
    (List.pairwise_map.mpr increasing).imp LT.lt.ne
  simp only [Option.some.injEq, forall_eq']
  cases known : OrderedMap.find? model
      ((sortEntries found.reduceOption).map fun entry =>
        (entry.id, entry.capabilities)) with
  | none =>
      refine iff_of_true rfl ?_
      intro item member lists
      obtain ⟨entry, among, named, -⟩ :=
        exists_entry_of_lists evaluated member lists
      refine absurd named (OrderedMap.find?_eq_none_iff.mp known
        (entry.id, entry.capabilities) ?_)
      exact List.mem_map.mpr ⟨entry, (permuted entry).mpr among, rfl⟩
  | some capabilities =>
      obtain ⟨entry, among, same⟩ :=
        List.mem_map.mp (OrderedMap.mem_of_find?_eq_some known)
      cases same
      obtain ⟨item, member, reads⟩ :=
        exists_item_of_entry evaluated ((permuted entry).mp among)
      obtain ⟨lists, stated⟩ := lists_of_catalogEntry reads
      constructor
      · intro supported other otherMember otherLists
        obtain ⟨twin, twinAmong, twinNamed, twinStated⟩ :=
          exists_entry_of_lists evaluated otherMember otherLists
        obtain rfl := List.inj_on_of_nodup_map ids among
          ((permuted twin).mpr twinAmong) twinNamed.symm
        rw [← supportsTools_catalogCapabilities, ← twinStated]
        exact supported
      · intro offers
        have offered := supportsTools_catalogCapabilities item
        rw [← stated] at offered
        exact offered.mpr (offers item member lists)

end ArnCore.Provider
