import EventHub.Scenario
import EventHub.Proofs.Registry.Agreement
import EventHub.Proofs.Registry.Gating
import EventHub.Proofs.Registry.CommitOrder
import EventHub.Proofs.Registry.Foreign
import EventHub.Proofs.Pool.Limit
import EventHub.Proofs.Replay.Isolation
import EventHub.Proofs.Replay.Abandonment
import EventHub.Proofs.Replay.Closing
import EventHub.Proofs.Simulation.Mutation
import EventHub.Proofs.Workspace.Revisions
import EventHub.Proofs.Stores.Draining
import EventHub.Proofs.Broker.Issue
import EventHub.Proofs.Views.Lasting
import EventHub.Proofs.Panics.Containment
import EventHub.Proofs.Stores.Freeze
import EventHub.Proofs.Stores.Announcement
import EventHub.Proofs.Stores.Stopping
import EventHub.Proofs.Workspace.Growth
import EventHub.Proofs.Replay.Meanwhile
import EventHub.Proofs.Replay.Resting
import EventHub.Proofs.Startup.Announcing
import EventHub.Proofs.Startup.Order
import EventHub.Proofs.Delivery.Accounting
import EventHub.Proofs.Delivery.Course
import EventHub.Proofs.Workspace.Listing
import EventHub.Proofs.Workspace.Paths
import EventHub.Proofs.Events.Sequence
import EventHub.Proofs.Workspace.Identity
import EventHub.Proofs.Mapper.Jobs
import EventHub.Proofs.Mapper.Types
import EventHub.Proofs.Jobs.Results
import EventHub.Proofs.Workspace.Walks
import EventHub.Proofs.Exports.OneRevision
