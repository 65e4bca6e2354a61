import TelemetryRouter.Balancer.Requests
import TelemetryRouter.Config.Document
import TelemetryRouter.Telemetry.Codec
import TelemetryRouter.Proofs.OrderedGroups
import TelemetryRouter.Proofs.Partition
import TelemetryRouter.Proofs.NormalForm
import TelemetryRouter.Proofs.RingOwner
import TelemetryRouter.Proofs.InertSteps
import TelemetryRouter.Proofs.Exporters
import TelemetryRouter.Proofs.Exports
import TelemetryRouter.Proofs.Runs
import TelemetryRouter.Proofs.Duties
import TelemetryRouter.Proofs.Grounded
import TelemetryRouter.Proofs.Leases
import TelemetryRouter.Proofs.Bystanders
import TelemetryRouter.Proofs.Orderly
import TelemetryRouter.Proofs.Stages
import TelemetryRouter.Proofs.Holders
import TelemetryRouter.Proofs.Drains
import TelemetryRouter.Proofs.Lifecycle
import TelemetryRouter.Proofs.Courses
import TelemetryRouter.Proofs.OwnMoves
import TelemetryRouter.Proofs.Rings
import TelemetryRouter.Proofs.Dispatches
import TelemetryRouter.Proofs.Endings
import TelemetryRouter.Proofs.Accounts
import TelemetryRouter.Proofs.Consistency
import TelemetryRouter.Proofs.Subscriptions
import TelemetryRouter.Proofs.Returns
import TelemetryRouter.Proofs.Detection
import TelemetryRouter.Proofs.Errands
import TelemetryRouter.Proofs.Updates
import TelemetryRouter.Proofs.Ownership
import TelemetryRouter.Proofs.Rounds
import TelemetryRouter.Proofs.LastStarts
import TelemetryRouter.Proofs.Refreshes
import TelemetryRouter.Proofs.LockOrder
import TelemetryRouter.Proofs.Posts
import TelemetryRouter.Proofs.Services
import TelemetryRouter.Proofs.Admission
import TelemetryRouter.Proofs.Clearances
import TelemetryRouter.Proofs.Shutdowns
import TelemetryRouter.Proofs.Identity
import TelemetryRouter.Proofs.Withdrawals
import TelemetryRouter.Proofs.Crossings
import TelemetryRouter.Proofs.Leftovers
import TelemetryRouter.Proofs.Recoveries
import TelemetryRouter.Proofs.Readings
import TelemetryRouter.Proofs.Parcels
import TelemetryRouter.Proofs.Tallies
import TelemetryRouter.Proofs.Gauges
import TelemetryRouter.Proofs.PassDeeds
import TelemetryRouter.Proofs.Deltas
import TelemetryRouter.Proofs.FixedLists
import TelemetryRouter.Proofs.Acceptance
import TelemetryRouter.Proofs.Choices
import TelemetryRouter.Proofs.Retries
import TelemetryRouter.Proofs.Colocation
import TelemetryRouter.Proofs.Decoding
import TelemetryRouter.Proofs.TelemetryJson
import TelemetryRouter.Proofs.DurationText
import TelemetryRouter.Proofs.ConfigJson
import TelemetryRouter.Proofs.WholeGroups
import TelemetryRouter.Proofs.FruitlessPolls
import TelemetryRouter.Proofs.ClusterServices
import TelemetryRouter.Proofs.PortText
import TelemetryRouter.Proofs.PortCompletion
import TelemetryRouter.Proofs.AddressText
import TelemetryRouter.Proofs.AddressEndpoints
import TelemetryRouter.Proofs.Cancellations
import TelemetryRouter.Proofs.Verdicts
import TelemetryRouter.Proofs.Releases
import TelemetryRouter.Proofs.Judgements
import TelemetryRouter.Proofs.Overrides
import TelemetryRouter.Proofs.Labels
import TelemetryRouter.Proofs.TimeLimits
import TelemetryRouter.Proofs.Notices
import TelemetryRouter.Proofs.Wakeups
import TelemetryRouter.Proofs.CanonicalLists
import TelemetryRouter.Proofs.Visits
