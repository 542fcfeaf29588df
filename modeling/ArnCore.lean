import ArnCore.Interaction.Action
import ArnCore.Confirmation.ConfirmationGate
import ArnCore.Net.SseDecoder
import ArnCore.Agent.Environment
import ArnCore.Agent.SessionProtocol
import ArnCore.Agent.AgentRuntime
import ArnCore.Agent.RuntimePermission
import ArnCore.Agent.OrchestrationFlow
import ArnCore.Net.HttpClient
import ArnCore.Provider.StreamChunk
import ArnCore.Provider.Payload
import ArnCore.Interaction.Execution
import ArnCore.Provider.RetriedTurn
import ArnCore.Net.EventStream
import ArnCore.Provider.CallDeltas
import ArnCore.Provider.ChatStream
import ArnCore.Provider.StreamedCalls
import ArnCore.Confirmation.TokenUse
import ArnCore.Confirmation.WaitOutcome
import ArnCore.Agent.PromptDiscipline
import ArnCore.Interaction.Threads
import ArnCore.Agent.SharedMemory
import ArnCore.Agent.RuntimeExclusion
import ArnCore.Agent.OrchestratorProtocol
import ArnCore.Agent.OrchestratorExclusion
import ArnCore.Agent.RuntimeFlag
import ArnCore.Agent.TracedSession
import ArnCore.Agent.ExecutionCourse
import ArnCore.Agent.OutcomeTranslation
import ArnCore.Agent.ExecutionSafety
import ArnCore.Agent.RuntimeStages
import ArnCore.Agent.EffectiveCancellation
import ArnCore.Agent.ExecutionIsolation
import ArnCore.Provider.BuiltInTurn
import ArnCore.Provider.FailedStart
import ArnCore.Provider.LastRequest
import ArnCore.Provider.ShownText
import ArnCore.Provider.GeminiStream
import ArnCore.Provider.ModelCatalog
import ArnCore.Provider.ModelDiscovery
import ArnCore.Agent.StepBudget
import ArnCore.Collections.Groups
import ArnCore.Provider.HistoryTrim
import ArnCore.Provider.StreamUpdates
import ArnCore.Provider.CompleteResponse
import ArnCore.Provider.ErrorPackets
import ArnCore.Provider.TruncatedStream
import ArnCore.Provider.CallEntries
import ArnCore.Provider.MalformedEvents
import ArnCore.Agent.BracketedCalls
import ArnCore.Agent.CooperativeStop
import ArnCore.Agent.CancelWait
import ArnCore.Net.MultilineEvents
import ArnCore.Provider.ParserAgreement
import ArnCore.Net.FinishedStream
import ArnCore.Provider.CatalogEntries
import ArnCore.Provider.PaddedCalls
import ArnCore.Provider.TextCallback
import ArnCore.Provider.GeminiSchema
import ArnCore.Provider.GeminiDeclarations
import ArnCore.Agent.StageBrackets
import ArnCore.Net.RetryCancellation
import ArnCore.Agent.PromptCourse
import ArnCore.Provider.UnflaggedPrompt
import ArnCore.Provider.ProviderSession
import ArnCore.Provider.SystemInstruction
import ArnCore.Provider.StreamedParts
import ArnCore.Provider.PairedRequests
import ArnCore.Provider.TrimLimits
import ArnCore.Net.BackOff
import ArnCore.Agent.GuardedWork
import ArnCore.Agent.WorkflowProtocol
import ArnCore.Agent.WorkflowCancellation
import ArnCore.Interaction.Completion
import ArnCore.Interaction.LockOrder
import ArnCore.Agent.LockDiscipline
import ArnCore.Agent.AgentCancellation
import ArnCore.Agent.AlikeAgents
import ArnCore.Agent.AlikeEnvironment
import ArnCore.Agent.ExceptionConfinement
import ArnCore.Agent.KeyConfinement
import ArnCore.Interaction.Focus
import ArnCore.Provider.AlikeRequests
import ArnCore.Provider.SentRequests
import ArnCore.Provider.SessionCommands
import ArnCore.Provider.SessionKeys
import ArnCore.Agent.AgentCatalog
import ArnCore.Agent.BindingOrder
import ArnCore.Agent.ConductedStages
import ArnCore.Agent.StagePermissions
import ArnCore.Agent.StandardAgents
import ArnCore.Agent.WorkflowBudget
import ArnCore.Provider.PromptDialogue
import ArnCore.Provider.SessionTranscript
