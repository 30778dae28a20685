import Crony.Lib.Table
import Crony.Lib.Guard
import Crony.Lib.Transition
import Crony.Domain
import Crony.Polling
import Crony.Text
import Crony.Store.Schema
import Crony.Store.Journal
import Crony.Store.Factory
import Crony.Store.Checkpoint
import Crony.Store.Breaker
import Crony.Store.RunnerEvents
import Crony.Store.Missions
import Crony.Store.Admission
import Crony.Store.Artifacts
import Crony.Store.Decisions
import Crony.Store.Dispatch
import Crony.Store.System
import Crony.Lifecycle.Rows
import Crony.Lifecycle.Moves
import Crony.Lifecycle.Invariant
import Crony.Lifecycle.Calm
import Crony.Lifecycle.Reports
import Crony.Lifecycle.Admissions
import Crony.Lifecycle.Settlements
import Crony.Lifecycle.Losses
import Crony.Lifecycle.Effects
import Crony.Lifecycle.Reach
import Crony.Lifecycle.Accrual
import Crony.Lifecycle.Turns
import Crony.Properties.Exclusion
import Crony.Properties.Evidence
import Crony.Properties.Binding
import Crony.Properties.Gates
import Crony.Properties.Delivery
import Crony.Properties.Endings
import Crony.Properties.Agents
import Crony.Properties.Breaker
import Crony.Lib.Depth
import Crony.Contract
import Crony.Server.Planning
import Crony.Properties.Planning
import Crony.Store.Revisions
import Crony.Store.Budgets
import Crony.Store.RevisionSystem
import Crony.Lifecycle.Revised
import Crony.Properties.Budgets
import Crony.Runner.Deliverable
import Crony.Properties.Scopes
import Crony.Properties.Contracts
import Crony.Store.Controllers
import Crony.Properties.Controllers
import Crony.Cli.Quota
import Crony.Properties.Quota
import Crony.Properties.Approvals
import Crony.Lib.Sort
import Crony.Lib.Base64
import Crony.Encoding
import Crony.Server.DependencySource
import Crony.Server.Strategies
import Crony.Properties.Strategies
import Crony.Properties.SourceDialect
import Crony.Properties.TypedSource
import Crony.Lifecycle.Bindings
import Crony.Lifecycle.Ledger
import Crony.Lifecycle.Sweeps
import Crony.Lib.Tokens
import Crony.Store.Runners
import Crony.Lifecycle.Fleet
import Crony.Properties.Runners
import Crony.Properties.Reviews
import Crony.Lifecycle.Workspaces
import Crony.Properties.Workspaces
import Crony.Properties.Polling
import Crony.Store.Cockpit
import Crony.Lifecycle.Outbox
import Crony.Lifecycle.Cockpit
import Crony.Properties.Commands
import Crony.Runner.Outbound
import Crony.Properties.Outbound
import Crony.Lib.Lineage
import Crony.Store.Publication
import Crony.Lib.Rotation
import Crony.Server.Scheduling
import Crony.Properties.Scheduling
import Crony.Cli.Project
import Crony.Properties.Project
import Crony.Server.Artifacts
import Crony.Lib.Framing
import Crony.Properties.Provenance
import Crony.Lib.FileTree
import Crony.Lib.Realpath
import Crony.Lib.Listing
import Crony.Runner.Workspace
import Crony.Properties.Fingerprint
import Crony.Properties.Snapshot
import Crony.Store.Redaction
import Crony.Properties.Redaction
import Crony.Lib.Words
import Crony.Properties.FailureReasons
import Crony.Properties.Objectives
import Crony.Properties.Studio
import Crony.Lib.Worklist
import Crony.Server.Outcomes
import Crony.Properties.Outcomes
import Crony.Properties.Graphs
import Crony.Lib.Volume
import Crony.Properties.Dialects
import Crony.Cli.Response
import Crony.Properties.Preambles
import Crony.Lib.Lossy
import Crony.Cli.Failures
import Crony.Properties.Failures
import Crony.Store.FactoryPolicy
import Crony.Properties.FactoryPolicy
import Crony.Properties.Epochs
import Crony.Lifecycle.Items
import Crony.Store.Claims
import Crony.Lib.Once
import Crony.Lifecycle.Claims
import Crony.Properties.Claims
import Crony.Lib.Replace
import Crony.Store.PublicationChecks
import Crony.Store.Publications
import Crony.Lifecycle.Publications
import Crony.Lifecycle.Publishing
import Crony.Properties.Publications
import Crony.Properties.Backing
