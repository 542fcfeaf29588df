import ArnCore.Interaction.Threads

/-!
# Ownership among threads

What a mutex and a gate have in common: at most one thread is inside, and the
shared state shows what that thread has done.  Both are statements about the
phases of the threads, so that a step of one thread is an update of its phase.
-/

namespace ArnCore.Interaction.Ownership

variable {Thread Phase Scope Shared : Type}

/-! ## A mutex that is held by a phase -/

/-- The mutex is held by the thread whose phase says so. -/
def HeldBy (holds : Phase → Bool) (phases : Thread → Option Phase)
    (holder : Option Thread) : Prop :=
  ∀ thread, holder = some thread ↔
    ∃ phase, phases thread = some phase ∧ holds phase = true

namespace HeldBy

variable {holds : Phase → Bool} {phases : Thread → Option Phase}
  {holder : Option Thread}

theorem idle : HeldBy holds (fun _ => none : Thread → Option Phase) none :=
  fun _ => iff_of_false nofun nofun

/-- Two threads cannot both hold the mutex. -/
theorem unique
    (held : HeldBy holds phases holder)
    {thread other : Thread} {phase otherPhase : Phase}
    (atPhase : phases thread = some phase) (holding : holds phase = true)
    (otherAt : phases other = some otherPhase)
    (otherHolding : holds otherPhase = true) :
    thread = other := by
  have first := (held thread).mpr ⟨phase, atPhase, holding⟩
  have second := (held other).mpr ⟨otherPhase, otherAt, otherHolding⟩
  rw [first] at second
  exact Option.some.inj second

variable [DecidableEq Thread] {thread : Thread} {next : Option Phase}

/-- A step that neither takes nor releases the mutex. -/
theorem kept
    (held : HeldBy holds phases holder)
    (same : (∃ phase, next = some phase ∧ holds phase = true) ↔
      ∃ phase, phases thread = some phase ∧ holds phase = true) :
    HeldBy holds (Function.update phases thread next) holder := by
  intro other
  rw [held other]
  by_cases own : other = thread
  · subst own
    rw [Function.update_self]
    exact same.symm
  · rw [Function.update_of_ne own]

/-- A free mutex is taken. -/
theorem taken
    {phase : Phase}
    (held : HeldBy holds phases none) (takes : holds phase = true) :
    HeldBy holds (Function.update phases thread (some phase))
      (some thread) := by
  intro other
  by_cases own : other = thread
  · subst own
    rw [Function.update_self]
    exact iff_of_true rfl ⟨phase, rfl, takes⟩
  · rw [Function.update_of_ne own, ← held other]
    exact iff_of_false (fun same => own (Option.some.inj same).symm) nofun

/-- The holder releases the mutex. -/
theorem released
    {phase : Phase}
    (held : HeldBy holds phases holder)
    (owner : ∃ phase, phases thread = some phase ∧ holds phase = true)
    (releases : holds phase = false) :
    HeldBy holds (Function.update phases thread (some phase)) none := by
  intro other
  refine iff_of_false nofun ?_
  rintro ⟨found, atPhase, holding⟩
  by_cases own : other = thread
  · subst own
    rw [Function.update_self] at atPhase
    cases atPhase
    rw [releases] at holding
    exact Bool.false_ne_true holding
  · rw [Function.update_of_ne own] at atPhase
    obtain ⟨phase, ownPhase, ownHolding⟩ := owner
    exact own (held.unique atPhase holding ownPhase ownHolding)

end HeldBy

/-! ## A gate that one thread passes at a time -/

/-- Nobody is inside and the state is at rest, or one thread is inside. -/
inductive Gated (inside : Scope → Phase) (rests : Shared → Prop)
    (shows : Thread → Scope → Shared → Prop)
    (phases : Thread → Option Phase) (shared : Shared) : Prop where
  | opened
      (nobody : ∀ thread scope, phases thread ≠ some (inside scope))
      (atRest : rests shared)
  | closed (owner : Thread) (scope : Scope)
      (atPhase : phases owner = some (inside scope))
      (alone : ∀ other scope, phases other = some (inside scope) →
        other = owner)
      (shown : shows owner scope shared)

namespace Gated

variable {inside : Scope → Phase} {rests : Shared → Prop}
  {shows : Thread → Scope → Shared → Prop}
  {phases : Thread → Option Phase} {shared after : Shared}

/-- Two threads inside are the same thread. -/
theorem unique
    (gated : Gated inside rests shows phases shared)
    {thread other : Thread} {scope otherScope : Scope}
    (atPhase : phases thread = some (inside scope))
    (otherAt : phases other = some (inside otherScope)) :
    thread = other := by
  cases gated with
  | opened nobody atRest => exact absurd atPhase (nobody thread scope)
  | closed owner current ownPhase alone shown =>
      rw [alone thread scope atPhase, alone other otherScope otherAt]

/-- The state shows what the thread inside has done. -/
theorem shown
    (injective : Function.Injective inside)
    (gated : Gated inside rests shows phases shared)
    {thread : Thread} {scope : Scope}
    (atPhase : phases thread = some (inside scope)) :
    shows thread scope shared := by
  cases gated with
  | opened nobody atRest => exact absurd atPhase (nobody thread scope)
  | closed owner current ownPhase alone shown =>
      have own := alone thread scope atPhase
      subst own
      rw [ownPhase] at atPhase
      rw [← injective (Option.some.inj atPhase)]
      exact shown

variable [DecidableEq Thread] {thread : Thread} {next : Option Phase}

/-- A step of a thread that stays outside. -/
theorem outside
    (gated : Gated inside rests shows phases shared)
    (before : ∀ scope, phases thread ≠ some (inside scope))
    (later : ∀ scope, next ≠ some (inside scope))
    (rest : rests shared → rests after)
    (keeps : ∀ owner scope, shows owner scope shared →
      shows owner scope after) :
    Gated inside rests shows (Function.update phases thread next) after := by
  have elsewhere : ∀ other scope,
      Function.update phases thread next other = some (inside scope) →
        phases other = some (inside scope) := by
    intro other scope atPhase
    by_cases own : other = thread
    · subst own
      rw [Function.update_self] at atPhase
      exact absurd atPhase (later scope)
    · rwa [Function.update_of_ne own] at atPhase
  cases gated with
  | opened nobody atRest =>
      refine .opened ?_ (rest atRest)
      exact fun other scope atPhase =>
        nobody other scope (elsewhere other scope atPhase)
  | closed owner scope atPhase alone shown =>
      refine .closed owner scope ?_ ?_ (keeps owner scope shown)
      · rw [Function.update_of_ne]
        · exact atPhase
        · rintro rfl
          exact before scope atPhase
      · exact fun other found otherAt =>
          alone other found (elsewhere other found otherAt)

/-- A step of the thread inside. -/
theorem moves
    {scope target : Scope}
    (gated : Gated inside rests shows phases shared)
    (atPhase : phases thread = some (inside scope))
    (shown : shows thread target after) :
    Gated inside rests shows
      (Function.update phases thread (some (inside target))) after := by
  refine .closed thread target ?_ ?_ shown
  · rw [Function.update_self]
  · intro other found otherAt
    by_cases own : other = thread
    · exact own
    · rw [Function.update_of_ne own] at otherAt
      exact gated.unique otherAt atPhase

/-- The thread inside leaves. -/
theorem leaves
    {scope : Scope}
    (gated : Gated inside rests shows phases shared)
    (atPhase : phases thread = some (inside scope))
    (later : ∀ scope, next ≠ some (inside scope))
    (atRest : rests after) :
    Gated inside rests shows (Function.update phases thread next) after := by
  refine .opened ?_ atRest
  intro other found otherAt
  by_cases own : other = thread
  · subst own
    rw [Function.update_self] at otherAt
    exact later found otherAt
  · rw [Function.update_of_ne own] at otherAt
    exact own (gated.unique otherAt atPhase)

/-- A thread passes while nobody is inside. -/
theorem enters
    {scope : Scope}
    (gated : Gated inside rests shows phases shared)
    (free : ∀ owner scope, ¬ shows owner scope shared)
    (shown : rests shared → shows thread scope after) :
    Gated inside rests shows
      (Function.update phases thread (some (inside scope))) after := by
  cases gated with
  | opened nobody atRest =>
      refine .closed thread scope ?_ ?_ (shown atRest)
      · rw [Function.update_self]
      · intro other found otherAt
        by_cases own : other = thread
        · exact own
        · rw [Function.update_of_ne own] at otherAt
          exact absurd otherAt (nobody other found)
  | closed owner current atPhase alone shown =>
      exact absurd shown (free owner current)

end Gated

end ArnCore.Interaction.Ownership
