import MigrationOperator.Health
import MigrationOperator.Main
import MigrationOperator.Server.Script
import MigrationOperator.Server.Wire
import MigrationOperator.Adopter
import MigrationOperator.Resource.Lawful
import MigrationOperator.Proofs.Codec.Fields
import MigrationOperator.Proofs.Codec.Tidy
import MigrationOperator.Proofs.Resource.Document
import MigrationOperator.Proofs.Resource.Metadata
import MigrationOperator.Proofs.Classification
import MigrationOperator.Proofs.Pipeline.Stage
import MigrationOperator.Proofs.Store.Basic
import MigrationOperator.Proofs.Json.MergePatch
import MigrationOperator.Proofs.Store.Cluster
import MigrationOperator.Proofs.Store.Trace
import MigrationOperator.Proofs.Pipeline.Tracking
import MigrationOperator.Proofs.Pipeline.Pinned
import MigrationOperator.Proofs.NoLostUpdate
import MigrationOperator.Proofs.Api.Conversation
import MigrationOperator.Proofs.Pipeline.Conversation
import MigrationOperator.Proofs.Overwriting
import MigrationOperator.Proofs.Codec.Documents
import MigrationOperator.Proofs.Ambiguity
import MigrationOperator.Proofs.Codec.Paths
import MigrationOperator.Proofs.Codec.Lossless
import MigrationOperator.Proofs.StrictDecoding
import MigrationOperator.Proofs.AtMostOnce
import MigrationOperator.Proofs.Api.Sending
import MigrationOperator.Proofs.Resource.Note
import MigrationOperator.Proofs.Pipeline.Source
import MigrationOperator.Proofs.Pipeline.Completion
import MigrationOperator.Proofs.CrashConsistency
import MigrationOperator.Proofs.Pipeline.OnCluster
import MigrationOperator.Proofs.Store.Sharing
import MigrationOperator.Proofs.Adoption.Stage
import MigrationOperator.Proofs.Adoption.Object
import MigrationOperator.Proofs.Adoption.Completion
import MigrationOperator.Proofs.Adoption.OnCluster
import MigrationOperator.Proofs.ExactlyOnce
import MigrationOperator.Proofs.Bookkeeping
import MigrationOperator.Proofs.StrippedMetadata
import MigrationOperator.Proofs.DecisionTable
import MigrationOperator.Proofs.Adoption.Persisting
import MigrationOperator.Proofs.Coexistence.Basic
import MigrationOperator.Proofs.Coexistence.Phase
import MigrationOperator.Proofs.Coexistence.Adopter
import MigrationOperator.Proofs.Coexistence.Pipeline
import MigrationOperator.Proofs.Coexistence.Regimes
import MigrationOperator.Proofs.Coexistence.OnCluster
import MigrationOperator.Proofs.Noninterference
import MigrationOperator.Proofs.LegacySettings
import MigrationOperator.Proofs.Json.OpenApi
import MigrationOperator.Proofs.MigrationRules
import MigrationOperator.Proofs.OneShot
import MigrationOperator.Proofs.PublishedSchema
import MigrationOperator.Proofs.Time.Calendar
import MigrationOperator.Proofs.Time.Text
import MigrationOperator.Proofs.Resource.Platform
import MigrationOperator.Proofs.Resumption
import MigrationOperator.Proofs.WriteContract
import MigrationOperator.Proofs.Api.Failure
import MigrationOperator.Proofs.Pipeline.Failure
import MigrationOperator.Proofs.Adoption.Failure
import MigrationOperator.Proofs.FailStop
import MigrationOperator.Proofs.RetrySchedule
import MigrationOperator.Proofs.Confinement
import MigrationOperator.Proofs.RunMetrics
import MigrationOperator.Proofs.OpenStatus
import MigrationOperator.Proofs.AddonFlags
