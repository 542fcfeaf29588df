import ArnCore.Provider.ModelCatalog

/-!
# The entries of a catalog, one by one

The parser of the catalog skips the elements it cannot list and reads the rest
each on its own.  A listed element with a name or a description that is no text
throws, and then no element has an entry.
-/

namespace ArnCore.Provider.CatalogEntries

open ArnCore.Interaction

/-- The document of a body has this array of data. -/
def HasData (json : JsonText) (body : String) (items : List Json) : Prop :=
  ∃ document, json.parse body = .ok document ∧
    document.find? "data" = some (.array items)

/-- An element with an id that its modality does not exclude. -/
def isListed (item : Json) : Bool :=
  match itemId? item with
  | some id => id ≠ "" && !hasSkippedModality item
  | none => false

/-- A member that is a text, or a fallback. -/
def textOr (item : Json) (key fallback : String) : String :=
  match item.find? key with
  | some (.string text) => text
  | _ => fallback

/-- The entry of a listed element, computed from that element alone. -/
def entryOf (item : Json) : OpenRouterModelEntry :=
  let id := (itemId? item).getD ""
  { id := id
    name := textOr item "name" id
    description := textOr item "description" ""
    capabilities := catalogCapabilities item }

/-- The name and the description of an element are texts where they are there. -/
def HasTexts (item : Json) : Prop :=
  ∀ key ∈ ["name", "description"], ∀ value, item.find? key = some value →
    ∃ text, value = .string text

/-! ## One element -/

section Elements

variable {item : Json}

theorem valueOr_getString_eq_ok_iff
    {members : List (String × Json)} {key fallback text : String} :
    (Json.object members).valueOr Json.getString key fallback = .ok text ↔
      (∀ value, (Json.object members).find? key = some value →
        ∃ text, value = .string text) ∧
        textOr (.object members) key fallback = text := by
  rw [Json.valueOr, textOr, Json.find?_object]
  cases Collections.OrderedMap.find? key members with
  | none => simp
  | some value => cases value <;> simp [Json.getString]

theorem catalogEntry_of_not_listed (unlisted : isListed item = false) :
    catalogEntry item = .ok none := by
  unfold isListed itemId? at unlisted
  unfold catalogEntry
  split
  · rename_i id found
    simp only [found, Bool.and_eq_false_iff, decide_eq_false_iff_not,
      Bool.not_eq_false', not_not] at unlisted
    rw [if_pos unlisted]
  · rfl

/-- A listed element is an object with an id. -/
theorem exists_id_of_listed (listed : isListed item = true) :
    ∃ members id, item = .object members ∧
      item.find? "id" = some (.string id) ∧ itemId? item = some id ∧
      ¬ (id = "" ∨ hasSkippedModality item = true) := by
  unfold isListed itemId? at listed
  split at listed
  · rename_i id found
    split at found
    · rename_i other isId
      cases found
      obtain ⟨members, rfl⟩ : ∃ members, item = .object members := by
        cases item with
        | object members => exact ⟨members, rfl⟩
        | _ => cases isId
      refine ⟨members, id, rfl, isId, by rw [itemId?, isId], ?_⟩
      simpa [not_or] using listed
    · cases found
  · cases listed

/-- A listed element has its entry exactly when its texts are texts. -/
theorem catalogEntry_eq_ok_iff
    (listed : isListed item = true) {entry : Option OpenRouterModelEntry} :
    catalogEntry item = .ok entry ↔
      HasTexts item ∧ entry = some (entryOf item) := by
  obtain ⟨members, id, rfl, isId, named, kept⟩ := exists_id_of_listed listed
  have split : HasTexts (.object members) ↔
      (∀ value, (Json.object members).find? "name" = some value →
        ∃ text, value = .string text) ∧
      ∀ value, (Json.object members).find? "description" = some value →
        ∃ text, value = .string text := by
    simp [HasTexts]
  unfold catalogEntry
  rw [isId]
  simp only [if_neg kept]
  rw [bind_eq_ok, split]
  simp only [bind_eq_ok, valueOr_getString_eq_ok_iff]
  constructor
  · rintro ⟨name, ⟨nameText, rfl⟩, description, ⟨text, rfl⟩, returns⟩
    cases returns
    refine ⟨⟨nameText, text⟩, ?_⟩
    rw [entryOf, named]
    rfl
  · rintro ⟨⟨nameText, text⟩, rfl⟩
    refine ⟨_, ⟨nameText, rfl⟩, _, ⟨text, rfl⟩, ?_⟩
    rw [entryOf, named]
    rfl

end Elements

/-! ## All elements -/

section Catalogs

variable {items : List Json} {found : List (Option OpenRouterModelEntry)}

/-- The loop reads all elements exactly when it can read every listed one. -/
theorem mapM_catalogEntry_eq_ok_iff :
    items.mapM catalogEntry = .ok found ↔
      (∀ item ∈ items, isListed item = true → HasTexts item) ∧
        found = items.map fun item =>
          if isListed item then some (entryOf item) else none := by
  induction items generalizing found with
  | nil =>
      constructor
      · intro evaluated
        cases evaluated
        simp
      · rintro ⟨-, rfl⟩
        rfl
  | cons item items induction =>
      have first : ∀ entry, catalogEntry item = .ok entry ↔
          (isListed item = true → HasTexts item) ∧
            entry = if isListed item then some (entryOf item) else none := by
        intro entry
        cases listed : isListed item with
        | true => simp [catalogEntry_eq_ok_iff listed]
        | false =>
            rw [catalogEntry_of_not_listed listed]
            simp [eq_comm]
      rw [List.mapM_cons, bind_eq_ok, List.forall_mem_cons, List.map_cons]
      simp only [bind_eq_ok, first, induction]
      constructor
      · rintro ⟨entry, ⟨texts, rfl⟩, others, ⟨rest, rfl⟩, returns⟩
        cases returns
        exact ⟨⟨texts, rest⟩, rfl⟩
      · rintro ⟨⟨texts, rest⟩, rfl⟩
        exact ⟨_, ⟨texts, rfl⟩, _, ⟨rest, rfl⟩, rfl⟩

theorem reduceOption_entries (items : List Json) :
    (items.map fun item =>
        if isListed item then some (entryOf item) else none).reduceOption =
      (items.filter isListed).map entryOf := by
  induction items with
  | nil => rfl
  | cons item items induction =>
      cases listed : isListed item with
      | true => simp [listed, induction]
      | false => simp [listed, induction]

/-- What the parser makes of a body with data. -/
theorem parseCatalog_eq_ok_iff
    {json : JsonText} {body : String} (data : HasData json body items)
    {entries : List OpenRouterModelEntry} :
    parseOpenrouterModelCatalog json body = .ok entries ↔
      (∀ item ∈ items, isListed item = true → HasTexts item) ∧
        entries = sortEntries ((items.filter isListed).map entryOf) := by
  obtain ⟨document, parses, isData⟩ := data
  have read : catalogItems document = items := by
    rw [catalogItems, isData]
  rw [parseOpenrouterModelCatalog_eq_ok]
  constructor
  · rintro ⟨other, found, same, listed, rfl⟩
    obtain rfl := Except.ok.inj (parses.symm.trans same)
    rw [read, mapM_catalogEntry_eq_ok_iff] at listed
    obtain ⟨texts, rfl⟩ := listed
    rw [reduceOption_entries]
    exact ⟨texts, rfl⟩
  · rintro ⟨texts, rfl⟩
    refine ⟨document, items.map fun item =>
      if isListed item then some (entryOf item) else none, parses, ?_, ?_⟩
    · rw [read]
      exact mapM_catalogEntry_eq_ok_iff.mpr ⟨texts, rfl⟩
    · rw [reduceOption_entries]

/--
A catalog has, sorted by id, exactly one entry for each listed element, computed
from that element alone.
-/
structure ReadsEach (items : List Json)
    (entries : List OpenRouterModelEntry) : Prop where
  each : entries.Perm ((items.filter isListed).map entryOf)
  sorted : entries.Pairwise fun first second => first.id ≤ second.id

theorem readsEach_sortEntries (items : List Json) :
    ReadsEach items (sortEntries ((items.filter isListed).map entryOf)) where
  each := List.perm_insertionSort _ _
  sorted := List.pairwise_insertionSort _ _

/-- The ids of two catalogs, merged, are those of the catalog of both. -/
theorem ReadsEach.merge_ids
    {front rest : List Json} {first second whole : List OpenRouterModelEntry}
    (reads : ReadsEach (front ++ rest) whole)
    (firstReads : ReadsEach front first) (secondReads : ReadsEach rest second) :
    whole.map OpenRouterModelEntry.id =
      List.merge (first.map OpenRouterModelEntry.id)
        (second.map OpenRouterModelEntry.id) (· ≤ ·) := by
  have sorted : ∀ {entries : List OpenRouterModelEntry},
      (entries.Pairwise fun first second => first.id ≤ second.id) →
        (entries.map OpenRouterModelEntry.id).Pairwise (· ≤ ·) :=
    List.pairwise_map.mpr
  have merged := (sorted firstReads.sorted).merge (sorted secondReads.sorted)
  refine List.Perm.eq_of_pairwise (fun _ _ _ _ => le_antisymm)
    (sorted reads.sorted) (by simpa using merged) ?_
  refine List.Perm.trans ?_ (List.merge_perm_append _).symm
  rw [← List.map_append]
  refine List.Perm.map _ (reads.each.trans ?_)
  rw [List.filter_append, List.map_append]
  exact (firstReads.each.append secondReads.each).symm

/--
The parser returns the catalog of the elements exactly when the name and the
description of every listed element are texts where they are there.  The ids of
a catalog are then merged from those of the catalogs of two pieces of it.
-/
theorem catalog_reads_each_iff (json : JsonText) :
    (∀ body items, HasData json body items →
      ((∃ entries, parseOpenrouterModelCatalog json body = .ok entries ∧
          ReadsEach items entries) ↔
        ∀ item ∈ items, isListed item = true → HasTexts item)) ∧
      ∀ frontBody restBody body front rest whole,
        HasData json frontBody front → HasData json restBody rest →
        HasData json body (front ++ rest) →
        parseOpenrouterModelCatalog json body = .ok whole →
        ∃ first second,
          parseOpenrouterModelCatalog json frontBody = .ok first ∧
          parseOpenrouterModelCatalog json restBody = .ok second ∧
          whole.map OpenRouterModelEntry.id =
            List.merge (first.map OpenRouterModelEntry.id)
              (second.map OpenRouterModelEntry.id) (· ≤ ·) := by
  constructor
  · intro body items data
    constructor
    · rintro ⟨entries, parsed, -⟩
      exact ((parseCatalog_eq_ok_iff data).mp parsed).1
    · intro texts
      exact ⟨_, (parseCatalog_eq_ok_iff data).mpr ⟨texts, rfl⟩,
        readsEach_sortEntries items⟩
  · intro frontBody restBody body front rest whole frontData restData data
      parsed
    obtain ⟨texts, rfl⟩ := (parseCatalog_eq_ok_iff data).mp parsed
    obtain ⟨frontTexts, restTexts⟩ := List.forall_mem_append.mp texts
    exact ⟨_, _, (parseCatalog_eq_ok_iff frontData).mpr ⟨frontTexts, rfl⟩,
      (parseCatalog_eq_ok_iff restData).mpr ⟨restTexts, rfl⟩,
      (readsEach_sortEntries _).merge_ids (readsEach_sortEntries _)
        (readsEach_sortEntries _)⟩

end Catalogs

/-! ## A model without a name -/

/-- Two models: one has a description, the other a name that is null. -/
def describedModel : Json :=
  .object [("description", .string "Small"), ("id", .string "lab/small")]

def namelessModel : Json :=
  .object [("id", .string "lab/large"), ("name", .null)]

/-- The body of a catalog. -/
def catalogOf (items : List Json) : String :=
  (Json.object [("data", .array items)]).compact

def catalogDocument (items : List Json) : Document where
  text := catalogOf items
  value := .object [("data", .array items)]
  printed := rfl

/-- A text library that knows three catalogs. -/
def knownCatalogs : JsonText :=
  .knowing
    [catalogDocument [describedModel], catalogDocument [namelessModel],
      catalogDocument []]

example :
    catalogOf [describedModel] =
      "\x7b\"data\":[\x7b\"description\":\"Small\"," ++
        "\"id\":\"lab/small\"\x7d]\x7d" := by
  decide +kernel

theorem hasData_of_document
    {items : List Json}
    (known : catalogDocument items ∈
      [catalogDocument [describedModel], catalogDocument [namelessModel],
        catalogDocument []]) :
    HasData knownCatalogs (catalogOf items) items :=
  ⟨_, JsonText.parse_knowing (by decide +kernel)
    (List.mem_map_of_mem known), rfl⟩

theorem hasData_small :
    HasData knownCatalogs (catalogOf [describedModel]) [describedModel] :=
  hasData_of_document (by simp)

theorem hasData_large :
    HasData knownCatalogs (catalogOf [namelessModel]) [namelessModel] :=
  hasData_of_document (by simp)

theorem hasData_empty : HasData knownCatalogs (catalogOf []) [] :=
  hasData_of_document (by simp)

/-- The model is listed, and its name makes the parser throw. -/
theorem nameless_model_throws :
    ¬ ∀ (json : JsonText) (body : String) (items : List Json),
      HasData json body items →
      ∃ entries, parseOpenrouterModelCatalog json body = .ok entries ∧
        ReadsEach items entries := by
  intro reads
  obtain ⟨entries, parsed, -⟩ := reads _ _ _ hasData_large
  have texts := ((parseCatalog_eq_ok_iff hasData_large).mp parsed).1
    namelessModel List.mem_cons_self (by decide)
  obtain ⟨text, impossible⟩ := texts "name" (by decide) .null rfl
  cases impossible

theorem catalog_reads_each_iff_small :
    (∃ entries,
        parseOpenrouterModelCatalog knownCatalogs
            (catalogOf [describedModel]) = .ok entries ∧
        ReadsEach [describedModel] entries) ∧
      ∃ first second,
        parseOpenrouterModelCatalog knownCatalogs (catalogOf []) = .ok first ∧
        parseOpenrouterModelCatalog knownCatalogs
            (catalogOf [describedModel]) = .ok second ∧
        ["lab/small"] =
          List.merge (first.map OpenRouterModelEntry.id)
            (second.map OpenRouterModelEntry.id) (· ≤ ·) := by
  have texts : ∀ item ∈ [describedModel], isListed item = true →
      HasTexts item := by
    rintro item member - key named value found
    cases List.mem_singleton.mp member
    simp only [List.mem_cons, List.not_mem_nil, or_false] at named
    rcases named with rfl | rfl
    · cases found
    · cases found
      exact ⟨_, rfl⟩
  obtain ⟨alone, pieces⟩ := catalog_reads_each_iff knownCatalogs
  obtain ⟨entries, parsed, reads⟩ :=
    (alone _ _ hasData_small).mpr texts
  refine ⟨⟨entries, parsed, reads⟩, ?_⟩
  have ids : entries.map OpenRouterModelEntry.id = ["lab/small"] := by
    rw [((parseCatalog_eq_ok_iff hasData_small).mp parsed).2]
    decide +kernel
  rw [← ids]
  exact pieces _ _ _ [] [describedModel] entries hasData_empty hasData_small
    hasData_small parsed

end ArnCore.Provider.CatalogEntries
