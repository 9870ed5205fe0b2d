import RentalAgent.Foundation.Transition
import RentalAgent.Foundation.Relational
import RentalAgent.Foundation.Forest
import RentalAgent.Foundation.Pattern
import RentalAgent.Foundation.Letters
import RentalAgent.Foundation.Url
import RentalAgent.Foundation.Absorption
import RentalAgent.Foundation.ReadCommitted
import RentalAgent.Foundation.Script
import RentalAgent.Foundation.Growth
import RentalAgent.Foundation.Groups
import RentalAgent.Foundation.Joins
import RentalAgent.Values
import RentalAgent.Jobs.Queue
import RentalAgent.Jobs.QueueInvariant
import RentalAgent.Jobs.LeaseSafety
import RentalAgent.Jobs.AttemptHistory
import RentalAgent.Jobs.AttemptLimit
import RentalAgent.Database
import RentalAgent.Canonical.Fingerprint
import RentalAgent.Canonical.Facts
import RentalAgent.Canonical.Normalization
import RentalAgent.Canonical.Merge
import RentalAgent.Canonical.Admission
import RentalAgent.Canonical.Disappearance
import RentalAgent.Canonical.Frames
import RentalAgent.Canonical.Resolution
import RentalAgent.Canonical.Ownership
import RentalAgent.Canonical.Refinement
import RentalAgent.Canonical.Services
import RentalAgent.Canonical.MergeGraph
import RentalAgent.Canonical.Reversal
import RentalAgent.Canonical.Durability
import RentalAgent.Canonical.ConcurrentPlaces
import RentalAgent.Canonical.Identity
import RentalAgent.Canonical.Order
import RentalAgent.Acquisition.Drain
import RentalAgent.Acquisition.Fencing
import RentalAgent.Acquisition.Runner
import RentalAgent.Acquisition.Answers
import RentalAgent.Acquisition.HealthGate
import RentalAgent.Acquisition.RunnerSteps
import RentalAgent.Acquisition.Coverage
import RentalAgent.Canonical.Currentness
import RentalAgent.Canonical.Presence
import RentalAgent.Canonical.Standings
import RentalAgent.Canonical.CircuitBreaker
import RentalAgent.Canonical.LifecycleMoves
import RentalAgent.Acquisition.WorkerScope
import RentalAgent.Acquisition.Pipeline
import RentalAgent.Acquisition.NormalizeJobs
import RentalAgent.Acquisition.RemovalEvidence
import RentalAgent.Acquisition.SearchInventory
import RentalAgent.Acquisition.Reappearance
import RentalAgent.Canonical.Replay
import RentalAgent.Acquisition.Snippet
import RentalAgent.Acquisition.SnippetTotal
import RentalAgent.Canonical.UnitEvidence
import RentalAgent.Canonical.History
import RentalAgent.Canonical.SourceIdentity
import RentalAgent.Canonical.Sites
import RentalAgent.Canonical.Locality
import RentalAgent.Canonical.ListingFields
import RentalAgent.Canonical.FieldUpdates
import RentalAgent.Canonical.Audit
import RentalAgent.Enrichment.PageText
import RentalAgent.Enrichment.ListingContent
import RentalAgent.Enrichment.Pipelines
import RentalAgent.Enrichment.OverridePrecedence
import RentalAgent.Enrichment.EventHistory
import RentalAgent.Enrichment.PageFacts
import RentalAgent.Enrichment.Provenance
import RentalAgent.Enrichment.Location
import RentalAgent.Enrichment.Surveys
import RentalAgent.Enrichment.GeographicScope
import RentalAgent.Enrichment.BoundaryOrder
import RentalAgent.Canonical.DuplicateReview
import RentalAgent.Canonical.Freshness
import RentalAgent.Canonical.LifecycleEvents
import RentalAgent.Canonical.Selection
import RentalAgent.Jobs.DiscardInventory
import RentalAgent.Enrichment.QuotaRefusals
import RentalAgent.Enrichment.CommuteValidity
import RentalAgent.Enrichment.CurrentStops
import RentalAgent.Enrichment.PageRent
import RentalAgent.Acquisition.SnippetLayout
import RentalAgent.Acquisition.ContentHash
import RentalAgent.Enrichment.UploadMerges
import RentalAgent.Enrichment.LinkLines
import RentalAgent.Enrichment.FileEntries
import RentalAgent.Enrichment.EntryNames
import RentalAgent.Enrichment.BuildingGuards
import RentalAgent.Enrichment.CheckRuns
import RentalAgent.Enrichment.OfficialSites
import RentalAgent.Enrichment.CheckHistory
import RentalAgent.Enrichment.WalkingTimes
import RentalAgent.Enrichment.StationChecks
import RentalAgent.Enrichment.GeocodedPoints
import RentalAgent.Enrichment.GeocodingBatches
import RentalAgent.Enrichment.TransitContent
import RentalAgent.Foundation.Spans
import RentalAgent.Enrichment.PageExcerpts
import RentalAgent.Foundation.Assignments
import RentalAgent.Config.EnvUpdates
import RentalAgent.Enrichment.MediaDuplicates
import RentalAgent.Webui.StudioFacts
import RentalAgent.Canonical.UnitKeys
import RentalAgent.Canonical.AddressKeys
import RentalAgent.Exports.CsvContent
import RentalAgent.Canonical.Permanence
import RentalAgent.Enrichment.Office
import RentalAgent.Foundation.Simulation
import RentalAgent.Webui.Inventory
import RentalAgent.Webui.MapPage
import RentalAgent.Webui.Clients
import RentalAgent.Enrichment.ModelCalls
import RentalAgent.Foundation.Batch
import RentalAgent.Enrichment.DetailBatch
import RentalAgent.Foundation.Sweep
import RentalAgent.Enrichment.Usefulness
