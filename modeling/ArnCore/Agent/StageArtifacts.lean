import ArnCore.Agent.AgentOrchestrator

/-!
# The artifacts scoped to a stage

The orchestrator collects the artifacts of completed stages in one list and
filters it for every stage.  Here the filtered list is given in closed form by
the results of the stages before.
-/

namespace ArnCore.Agent.StageArtifacts

/-- The ids of the stages, in order. -/
def stageIds : List String :=
  kStages.map StageDefinition.profileId

/-- What the completed ones among some recorded results contribute. -/
def contributions (results : List AgentResult) : List ContextArtifact :=
  ((kStages.zip results).filter fun entry =>
    entry.2.status = .completed).flatMap fun entry =>
      contribution entry.1 entry.2

/-- An artifact with the summary of a stage. -/
def summaryArtifact (type : ArtifactType) (producer : String)
    (result : AgentResult) : ContextArtifact where
  type := type
  producer := producer
  content := result.summary

/-- The artifacts in the context of a stage, by the results before it. -/
def scopedArtifacts (initial : List ContextArtifact) :
    List AgentResult → List ContextArtifact
  | [] => initial
  | [explorer] =>
      initial ++ [summaryArtifact .explorationReport explorerId explorer]
  | [explorer, planner] =>
      [summaryArtifact .explorationReport explorerId explorer,
        summaryArtifact .implementationPlan plannerId planner]
  | [explorer, planner, coder] =>
      testResults explorer.artifacts ++
        [summaryArtifact .implementationPlan plannerId planner] ++
        testResults planner.artifacts ++
        [summaryArtifact .changeSummary coderId coder] ++
        testResults coder.artifacts ++
        testResults initial
  | _ => []

/-- The context of a stage, by the results before it. -/
def scopedContext (task : OrchestrationTask) (stage : StageDefinition)
    (profile : AgentProfile) (results : List AgentResult) : AgentContext :=
  { stageContext task stage profile [] with
    artifacts := scopedArtifacts task.initialArtifacts results }

/-- The next result belongs to the next stage. -/
theorem zip_snoc
    {Stage Result : Type} {stages : List Stage} {results : List Result}
    {stage : Stage} (next : stages[results.length]? = some stage)
    (result : Result) :
    stages.zip (results ++ [result]) =
      stages.zip results ++ [(stage, result)] := by
  induction stages generalizing results with
  | nil => cases next
  | cons head tail induction =>
      cases results with
      | nil =>
          cases next
          simp
      | cons first rest =>
          have shifted : tail[rest.length]? = some stage := next
          simp [induction shifted]

theorem filter_testResults_of_included
    {profileId : String} (artifacts : List ContextArtifact)
    (reviews : profileId = reviewerId) :
    (testResults artifacts).filter (includesArtifact profileId) =
      testResults artifacts := by
  apply List.filter_eq_self.mpr
  intro artifact member
  have isTest := (List.mem_filter.mp member).2
  simp only [decide_eq_true_eq] at isTest
  simp [includesArtifact, isTest, reviews]

theorem filter_testResults_of_excluded
    {profileId : String} (artifacts : List ContextArtifact)
    (other : profileId ≠ reviewerId) :
    (testResults artifacts).filter (includesArtifact profileId) = [] := by
  apply List.filter_eq_nil_iff.mpr
  intro artifact member
  have isTest := (List.mem_filter.mp member).2
  simp only [decide_eq_true_eq] at isTest
  simp [includesArtifact, isTest, other]

/-- The filter of the source scopes exactly these artifacts to a stage. -/
theorem artifactsForStage_contributions
    {initial : List ContextArtifact} {results : List AgentResult}
    {stage : StageDefinition}
    (next : kStages[results.length]? = some stage)
    (completed : ∀ result ∈ results, result.status = .completed) :
    artifactsForStage stage.profileId initial (contributions results) =
      scopedArtifacts initial results := by
  rcases results with
    _ | ⟨explorer, _ | ⟨planner, _ | ⟨coder, _ | ⟨reviewer, more⟩⟩⟩⟩
  · cases next
    simp [artifactsForStage, contributions, scopedArtifacts, reviewerId,
      explorerId]
  · cases next
    have first := completed explorer (by simp)
    have dropped := filter_testResults_of_excluded explorer.artifacts
      (show plannerId ≠ reviewerId by decide)
    simp only [artifactsForStage, contributions, scopedArtifacts, kStages,
      contribution, List.zip_cons_cons, List.zip_nil_right,
      List.filter_cons, List.filter_nil, first, List.flatMap_cons,
      List.flatMap_nil, List.append_nil, decide_true, if_true, dropped]
    simp [includesArtifact, stageArtifact, summaryArtifact, explorerId,
      plannerId, coderId, reviewerId]
  · cases next
    have first := completed explorer (by simp)
    have second := completed planner (by simp)
    have dropped := fun artifacts =>
      filter_testResults_of_excluded artifacts
        (show coderId ≠ reviewerId by decide)
    simp only [artifactsForStage, contributions, scopedArtifacts, kStages,
      contribution, List.zip_cons_cons, List.zip_nil_right,
      List.filter_cons, List.filter_nil, first, second, List.flatMap_cons,
      List.flatMap_nil, List.append_nil, List.filter_append, decide_true,
      if_true, dropped]
    simp [includesArtifact, stageArtifact, summaryArtifact, explorerId,
      plannerId, coderId, reviewerId]
  · cases next
    have first := completed explorer (by simp)
    have second := completed planner (by simp)
    have third := completed coder (by simp)
    have kept := fun artifacts =>
      filter_testResults_of_included artifacts (Eq.refl reviewerId)
    simp only [artifactsForStage, contributions, scopedArtifacts, kStages,
      contribution, List.zip_cons_cons, List.zip_nil_right,
      List.filter_cons, List.filter_nil, first, second, third,
      List.flatMap_cons, List.flatMap_nil, List.append_nil,
      List.filter_append, decide_true, if_true, kept]
    simp [includesArtifact, stageArtifact, summaryArtifact, explorerId,
      plannerId, coderId, reviewerId]
  · simp [kStages] at next

theorem contributions_snoc
    {results : List AgentResult} {stage : StageDefinition}
    {result : AgentResult}
    (next : kStages[results.length]? = some stage) :
    contributions (results ++ [result]) =
      contributions results ++
        if result.status = .completed then contribution stage result
        else [] := by
  have staged := zip_snoc next result
  unfold contributions
  rw [staged, List.filter_append, List.flatMap_append]
  by_cases done : result.status = .completed <;> simp [done]

/-- The artifact of a stage is in the context of the next stage. -/
theorem summaryArtifact_mem_scopedArtifacts
    {initial : List ContextArtifact} {results : List AgentResult}
    {stage : StageDefinition} {result : AgentResult}
    (next : kStages[results.length]? = some stage)
    (more : results.length + 1 < 4) :
    summaryArtifact stage.outputType stage.profileId result ∈
      scopedArtifacts initial (results ++ [result]) := by
  rcases results with
    _ | ⟨explorer, _ | ⟨planner, _ | ⟨coder, later⟩⟩⟩
  · cases next
    simp [scopedArtifacts]
  · cases next
    simp [scopedArtifacts]
  · cases next
    simp [scopedArtifacts]
  · simp only [List.length_cons] at more
    omega

end ArnCore.Agent.StageArtifacts
