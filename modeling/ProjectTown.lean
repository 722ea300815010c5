import ProjectTown.Json
import ProjectTown.Interleave
import ProjectTown.Transact
import ProjectTown.Rows
import ProjectTown.PlanGraph
import ProjectTown.Quest
import ProjectTown.Runtime
import ProjectTown.EventStore.Tables
import ProjectTown.EventStore.Append
import ProjectTown.EventStore.Provenance
import ProjectTown.EventStore.Operations
import ProjectTown.EventStore.Consistency
import ProjectTown.EventStore.Runs
import ProjectTown.Orchestration
import ProjectTown.Service.Store
import ProjectTown.Service.Calls
import ProjectTown.Service.Worker
import ProjectTown.Service.Requests
import ProjectTown.Service.Outcomes
import ProjectTown.Service.Ledger
import ProjectTown.ModelCalls.Tables
import ProjectTown.ModelCalls.Operations
import ProjectTown.ModelCalls.Changes
import ProjectTown.ModelCalls.Attempts
import ProjectTown.ModelCalls.Recovery
import ProjectTown.ModelCalls.Runs
import ProjectTown.ModelCalls.Interrupted
import ProjectTown.ModelCalls.Tokens
import ProjectTown.ModelCalls.Costs
import ProjectTown.EventStore.Receipts
import ProjectTown.Gateway.Execute
import ProjectTown.EventStore.Outcomes
import ProjectTown.Gateway.Settled
import ProjectTown.Gateway.Once
import ProjectTown.Gateway.Exclusion
import ProjectTown.Provenance.Classify
import ProjectTown.Provenance.Records
import ProjectTown.Provenance.Agreement
import ProjectTown.Text
import ProjectTown.EventStore.Observed
import ProjectTown.Provenance.Review
import ProjectTown.Provenance.Findings
import ProjectTown.EventStore.Leases
import ProjectTown.Provenance.Snapshots
import ProjectTown.Provenance.Accepted
import ProjectTown.Provenance.Requested
import ProjectTown.Provenance.Scanning
import ProjectTown.Interrupt
import ProjectTown.ControlledWrite.Records
import ProjectTown.ControlledWrite.Chain
import ProjectTown.ControlledWrite.Disk
import ProjectTown.ControlledWrite.Operations
import ProjectTown.ControlledWrite.Publishing
import ProjectTown.ControlledWrite.Appending
import ProjectTown.ControlledWrite.Producers
import ProjectTown.ControlledWrite.Beside
import ProjectTown.ControlledWrite.Verifying
import ProjectTown.ControlledWrite.Checking
import ProjectTown.ControlledWrite.Safety
import ProjectTown.ControlledWrite.Calls
import ProjectTown.ControlledWrite.Runs
import ProjectTown.ModelCalls.Contracts
import ProjectTown.ModelCalls.Coordinator
import ProjectTown.ModelCalls.Settlement
import ProjectTown.ModelCalls.Single
import ProjectTown.ModelCalls.Conservative
import ProjectTown.ModelCalls.Stored
import ProjectTown.ModelCalls.Once
import ProjectTown.Settings.Documents
import ProjectTown.Settings.Control
import ProjectTown.Settings.Accepting
import ProjectTown.Settings.Storing
import ProjectTown.Settings.Resolving
import ProjectTown.Acyclic
import ProjectTown.PlanOrder
import ProjectTown.EventStore.Plans
import ProjectTown.Posix
import ProjectTown.Criteria
import ProjectTown.DiffScope
import ProjectTown.EventStore.LastReceipt
import ProjectTown.Lines
import ProjectTown.Materials.Cutting
import ProjectTown.EventStore.Checkpoints
import ProjectTown.Service.Replans
import ProjectTown.EventStore.Repair
import ProjectTown.Occurrences
import ProjectTown.Utf8
import ProjectTown.Proposals.Composing
import ProjectTown.Proposals.Shown
import ProjectTown.Proposals.Validating
import ProjectTown.Proposals.Accepting
import ProjectTown.Proposals.Reading
import ProjectTown.Service.Watchdog
import ProjectTown.Retrieval.Answers
import ProjectTown.DepthFirst
import ProjectTown.ModelCalls.Planning
import ProjectTown.Telemetry
import ProjectTown.Materials.Completeness
import ProjectTown.Publication.Publishers
import ProjectTown.Artifacts.Rendering
import ProjectTown.Service.Effects
import ProjectTown.Service.Evidence
