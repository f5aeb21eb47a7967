import Reflection.Native.NoOverlap
import Reflection.Scripts.BackfillCompleteness
import Reflection.Native.PlanningTotality
import Reflection.Cursor.FitCompleteness
import Reflection.Cursor.Accounting
import Reflection.Database.SessionListing
import Reflection.Database.Storage
import Reflection.Worker.DispatchSafety
import Reflection.Plugin.UsageBound
import Reflection.Plugin.HistoryCache
import Reflection.Plugin.OperationBarriers
import Reflection.Plugin.IngestionRetries
import Reflection.Shared.FramingAgreement
import Reflection.Shared.ResolutionCoherence
import Reflection.Shared.ToolRecognition
import Reflection.Shared.JsonReading
import Reflection.Shared.BoundaryIntervals
import Reflection.Shared.FragmentRanges
import Reflection.Shared.ClaimRanking
import Reflection.Server.JsonPrefix
import Reflection.Server.PromptContract
import Reflection.Server.ReferentialClosure
import Reflection.Segments.CommittedOrder
import Reflection.Segments.Finality
import Reflection.Scripts.SessionTargets
import Reflection.Database.EntityCommits
import Reflection.Server.ResolvedSegments
import Reflection.Worker.SharedEntities
import Reflection.Server.EmbeddingClient
import Reflection.Server.ExtractionNormalization
