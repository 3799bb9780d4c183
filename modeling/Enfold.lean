import Enfold.Foundation.Fallible
import Enfold.Foundation.Table
import Enfold.Store
import Enfold.Policy
import Enfold.Contradiction
import Enfold.StateSlots
import Enfold.NearDuplicate
import Enfold.Requests
import Enfold.Mutations
import Enfold.WriteService
import Enfold.Erasure
import Enfold.Schema
import Enfold.ClusterMerge
import Enfold.ClusterPlan
import Enfold.Service
import Enfold.ExtractionProcessor
import Enfold.ProposalDelivery
import Enfold.Foundation.Run
import Enfold.Foundation.UnionFind
import Enfold.Foundation.Transaction
import Enfold.History
import Enfold.WriteSource
import Enfold.WriteEffects
import Enfold.Operations
import Enfold.ConflictLedger
import Enfold.StateUniqueness
import Enfold.Reopening
import Enfold.Replay
import Enfold.BatchSequence
import Enfold.EmbeddingFencing
import Enfold.EmbeddingCoverage
import Enfold.EmbeddingActivation
import Enfold.ExtractionJobs
import Enfold.ExtractionFencing
import Enfold.ExtractionTally
import Enfold.JsonText
import Enfold.Protocol
import Enfold.ProtocolRoundTrip
import Enfold.Foundation.Tiling
import Enfold.Foundation.Timeline
import Enfold.Temporal
import Enfold.TransactionTime
import Enfold.TypedAnswers
import Enfold.ValidTime
import Enfold.AnswerableWindows
import Enfold.SlotKeys
import Enfold.SlotRepair
import Enfold.SlotVocabulary
import Enfold.PromptSafety
import Enfold.ExtractionSpans
import Enfold.ExtractionSnapshot
import Enfold.PreparedSnapshot
import Enfold.SnapshotRetry
import Enfold.ServiceRequests
import Enfold.ExtractionMandate
import Enfold.ClaimRows
import Enfold.FactEvidence
import Enfold.WriteAnswers
import Enfold.Promotion
import Enfold.PromotionRetry
import Enfold.Readability
import Enfold.UntypedTotality
import Enfold.ContradictionOrder
import Enfold.PairwiseConsistency
import Enfold.MergeProtection
import Enfold.VectorIndex
import Enfold.VectorLedger
import Enfold.VectorErasure
import Enfold.UnreviewedWrites
import Enfold.DaemonFraming
import Enfold.DaemonConnection
import Enfold.ErasureFrame
import Enfold.Foundation.Succession
import Enfold.SupersessionForest
import Enfold.InsightSources
import Enfold.Foundation.RecursiveQuery
import Enfold.MemoryHistory
import Enfold.Foundation.KeyOrder
import Enfold.Foundation.TopCluster
import Enfold.RetrievalText
import Enfold.HybridRetrieval
import Enfold.RecallRows
import Enfold.RetrievalParity
import Enfold.FrameRefusal
import Enfold.Foundation.Saturation
import Enfold.Foundation.Pooling
import Enfold.Foundation.SharedConnection
import Enfold.Foundation.Segments
import Enfold.Foundation.MatchQuery
import Enfold.Foundation.Fitting
import Enfold.JsonSize
import Enfold.RecallProjection
import Enfold.RecallBudget
import Enfold.Foundation.Base64
import Enfold.InspectPaging
import Enfold.PagingVisits
import Enfold.ServiceResponses
import Enfold.CursorCaps
import Enfold.ResponseCaps
import Enfold.ExtractionTransactions
import Enfold.ExtractionRevival
import Enfold.ClaimFreshness
import Enfold.Intervals
import Enfold.TemporalHistory
import Enfold.ErasureBlocked
import Enfold.MergeConservation
import Enfold.ContextPacking
import Enfold.TextParts
import Enfold.CitationText
import Enfold.CitationRewriting
import Enfold.CitationMerge
import Enfold.ContextLines
import Enfold.AsOfSearch
import Enfold.TranscriptPartition
import Enfold.Foundation.Bisection
import Enfold.ContextTruncation
import Enfold.KeyResolution
import Enfold.RunScopes
import Enfold.ExtractQueue
import Enfold.QueueFencing
import Enfold.Foundation.VersionedCache
import Enfold.EmbedCache
import Enfold.Foundation.BracketScan
import Enfold.JsonGrammar
import Enfold.EmbeddedJson
import Enfold.SettledEvents
import Enfold.OpenDisputes
import Enfold.ProtectedTruth
import Enfold.JobWrites
import Enfold.SnapshotDelivery
import Enfold.Reenqueue
import Enfold.WriteLocks
import Enfold.DaemonLane
import Enfold.ClientExchange
import Enfold.Reflection
import Enfold.Foundation.Rationed
import Enfold.Projections
import Enfold.ProjectionCuts
import Enfold.ProjectionAnswers
