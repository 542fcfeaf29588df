import ArnCore.Agent.AgentOrchestrator
import ArnCore.Collections.KeyedStore
import Mathlib.Data.String.Basic

/-!
# The registry of profiles as a catalog

A profile is registered under its own id, and the first one with an id keeps
it; a later one is refused and changes nothing.  The registry enumerates its
profiles in the order of their ids, whatever the order of registration was.
-/

namespace ArnCore.Agent.AgentRegistry

open ArnCore.Collections

/-- `profiles`: the registered profiles, in the order of their ids. -/
def listed (registry : AgentRegistry) : List AgentProfile :=
  registry.profiles.map Prod.snd

/-- `size` -/
def size (registry : AgentRegistry) : Nat :=
  registry.profiles.length

/-- `empty` -/
def isEmpty (registry : AgentRegistry) : Bool :=
  registry.profiles.isEmpty

/-- The id no profile is registered under. -/
def anonymous (id : String) : Bool :=
  id = ""

/-- Profiles registered one after the other. -/
def registered (profiles : List AgentProfile) : AgentRegistry :=
  profiles.foldl (fun registry profile => (registry.registerProfile profile).2)
    .empty

theorem registerProfile_profiles
    (registry : AgentRegistry) (profile : AgentProfile) :
    (registry.registerProfile profile).2.profiles =
      ((KeyedStore.Update.emplace profile).onEntries AgentProfile.id anonymous
        registry.profiles).2 := by
  have sameTest :
      (profile.id = "" ∨ (registry.find profile.id).isSome = true) ↔
        (anonymous profile.id ||
          (OrderedMap.find? profile.id registry.profiles).isSome) = true := by
    rw [Bool.or_eq_true, anonymous, decide_eq_true_eq]
    rfl
  simp only [registerProfile, KeyedStore.Update.onEntries]
  by_cases rejected :
      profile.id = "" ∨ (registry.find profile.id).isSome = true
  · rw [dif_pos rejected, if_pos (sameTest.mp rejected)]
  · rw [dif_neg rejected, if_neg (sameTest.not.mp rejected)]

theorem registered_profiles (profiles : List AgentProfile) :
    (registered profiles).profiles =
      KeyedStore.emplaceAll AgentProfile.id anonymous profiles := by
  induction profiles using List.reverseRecOn with
  | nil => rfl
  | append_singleton profiles last induction =>
      have next : registered (profiles ++ [last]) =
          ((registered profiles).registerProfile last).2 := by
        rw [registered, List.foldl_append]
        rfl
      rw [next, registerProfile_profiles, induction, KeyedStore.emplaceAll,
        KeyedStore.emplaceAll, List.foldl_append]
      rfl

/-! ## What the registry answers -/

/-- The registry answers for the first profile with each id. -/
structure KeepsFirst
    (profiles : List AgentProfile) (registry : AgentRegistry) : Prop where
  /-- An id is found as the first profile that came with it. -/
  found : ∀ id, registry.find id =
    if id = "" then none else profiles.find? fun profile => profile.id = id
  /-- A profile is added exactly when its id is neither empty nor taken. -/
  registers : ∀ next, (registry.registerProfile next).1 = true ↔
    next.id ≠ "" ∧ ∀ profile ∈ profiles, profile.id ≠ next.id
  /-- A profile that is not added changes nothing. -/
  rejects : ∀ next, (registry.registerProfile next).1 = false →
    (registry.registerProfile next).2 = registry
  listed : ∀ profile, profile ∈ registry.listed ↔
    registry.find profile.id = some profile
  ordered : (registry.listed.map AgentProfile.id).Pairwise (· < ·)
  size : registry.size =
    {id | id ≠ "" ∧ ∃ profile ∈ profiles, profile.id = id}.ncard
  isEmpty : registry.isEmpty = true ↔ ∀ profile ∈ profiles, profile.id = ""

theorem registerProfile_accepts_iff
    (registry : AgentRegistry) (profile : AgentProfile) :
    (registry.registerProfile profile).1 = true ↔
      profile.id ≠ "" ∧ registry.find profile.id = none := by
  rw [registerProfile]
  split_ifs with rejected
  · simp only [false_iff, not_and_or, not_not,
      ← Option.isSome_iff_ne_none]
    exact rejected
  · rw [not_or, Bool.not_eq_true, Option.isSome_eq_false_iff,
      Option.isNone_iff_eq_none] at rejected
    simpa using rejected

theorem registerProfile_rejects
    {registry : AgentRegistry} {profile : AgentProfile}
    (rejected : (registry.registerProfile profile).1 = false) :
    (registry.registerProfile profile).2 = registry := by
  rw [registerProfile] at rejected ⊢
  split_ifs with test
  · rfl
  · rw [dif_neg test] at rejected
    cases rejected

/-- A nonempty id is free exactly when no profile came with it. -/
theorem firstOf_eq_none_iff
    {profiles : List AgentProfile} {id : String} (named : id ≠ "") :
    KeyedStore.firstOf AgentProfile.id anonymous profiles id = none ↔
      ∀ profile ∈ profiles, profile.id ≠ id := by
  simp [KeyedStore.firstOf, anonymous, named]

/-- The ids that are found are those of the profiles. -/
theorem firstOf_ne_none_iff
    {profiles : List AgentProfile} {id : String} :
    KeyedStore.firstOf AgentProfile.id anonymous profiles id ≠ none ↔
      id ≠ "" ∧ ∃ profile ∈ profiles, profile.id = id := by
  by_cases named : id = ""
  · simp [KeyedStore.firstOf, anonymous, named]
  · rw [ne_eq, firstOf_eq_none_iff named]
    simp [named]

theorem registered_represents (profiles : List AgentProfile) :
    KeyedStore.Represents AgentProfile.id anonymous
      (registered profiles).profiles
      (KeyedStore.firstOf AgentProfile.id anonymous profiles) := by
  rw [registered_profiles]
  exact KeyedStore.emplaceAll_represents profiles

/-- Nothing is registered exactly when every profile came without an id. -/
theorem registered_isEmpty_iff (profiles : List AgentProfile) :
    (registered profiles).isEmpty = true ↔
      ∀ profile ∈ profiles, profile.id = "" := by
  have represents := registered_represents profiles
  rw [isEmpty, List.isEmpty_iff]
  constructor
  · intro none profile member
    by_contra named
    have stored := firstOf_ne_none_iff.mpr ⟨named, profile, member, rfl⟩
    rw [← represents.found, none] at stored
    exact stored rfl
  · intro unnamed
    rw [List.eq_nil_iff_forall_not_mem]
    rintro ⟨id, stored⟩ member
    have found := represents.sorted.mem_iff.mp member
    rw [represents.found] at found
    obtain ⟨named, profile, came, rfl⟩ :=
      firstOf_ne_none_iff.mp (by rw [found]; simp)
    exact named (unnamed profile came)

/--
After any registrations, accepted or not, an id is found as the first profile
that was registered with it, and the empty id is not found.  The next profile
is added exactly when its id is new and not empty, and else nothing changes.
The enumeration holds exactly what can be found, in strictly increasing order
of the ids.  The order of registration shows only where two profiles share an
id.
-/
theorem first_registration_wins (profiles : List AgentProfile) :
    KeepsFirst profiles (registered profiles) ∧
      ∀ permuted, profiles.Perm permuted →
        (profiles.map AgentProfile.id).Nodup →
        (registered permuted).profiles = (registered profiles).profiles := by
  have represents := registered_represents profiles
  refine ⟨⟨?_, ?_, fun _ => registerProfile_rejects, ?_, ?_, ?_,
    registered_isEmpty_iff profiles⟩, ?_⟩
  · intro id
    rw [find, represents.found, KeyedStore.firstOf, anonymous]
    simp only [decide_eq_true_eq]
  · intro next
    rw [registerProfile_accepts_iff, find, represents.found]
    exact and_congr_right firstOf_eq_none_iff
  · intro profile
    rw [listed, represents.mem_values, ← represents.found]
    rfl
  · exact List.pairwise_map.mpr represents.values_sorted
  · rw [size, represents.length_eq]
    simp only [firstOf_ne_none_iff]
  · intro permuted order distinct
    rw [registered_profiles, registered_profiles,
      KeyedStore.emplaceAll_perm order distinct]

end ArnCore.Agent.AgentRegistry
