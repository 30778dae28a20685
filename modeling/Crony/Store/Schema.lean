/-
The tables of the store, as far as the run lifecycle reads or writes them.

Each row type lists the columns of `db/migrations` that some modelled statement
touches, with the column defaults of the migrations, so that an `INSERT` names here
exactly the columns the SQL names. Timestamps are integers (seconds); `updated_at`
and the other bookkeeping timestamps nothing reads are left out. The position of a
row in `events` is its `seq`.

A statement acts on one table. `Db.onRuns` and its siblings are those single-table
writes; `simps` gives each of them its frame lemmas, so that "every other table is
unchanged" never has to be proved again.
-/
import Mathlib.Tactic.Simps.Basic
import Crony.Contract
import Crony.Lib.Table

set_option autoImplicit false

namespace Crony.Store

/-! ## Identifiers -/

/-- `Uuid::new_v4`: the identifiers that are drawn next when those of a list are in use. Which
ones these are is left open; a database keeps the source it has. -/
structure UuidSource where
  draw : List Uuid → Nat → Uuid
  /-- An identifier that is drawn is not in use. -/
  fresh : ∀ used index, draw used index ∉ used
  /-- Two draws of one call differ. -/
  apart : ∀ used, Function.Injective (draw used)

/-- The source that counts on from the largest identifier in use. -/
def UuidSource.counting : UuidSource where
  draw used index := used.foldr max 0 + 1 + index
  fresh used index := by
    have hle : ∀ id ∈ used, id ≤ used.foldr max 0 := by
      induction used with
      | nil => exact fun _ h => absurd h List.not_mem_nil
      | cons first rest ih =>
        intro id hid
        rw [List.foldr_cons]
        rcases List.mem_cons.mp hid with rfl | hid
        · exact Nat.le_max_left _ _
        · exact Nat.le_trans (ih id hid) (Nat.le_max_right _ _)
    intro hmem
    exact Nat.not_lt_of_le (hle _ hmem) (Nat.lt_add_right index (Nat.lt_add_one _))
  apart used _ _ h := Nat.add_left_cancel h

/-! ## People and places -/

structure Actor where
  id : Uuid
  corp_id : Uuid
  kind : ActorKind
  role : String
  deriving DecidableEq, Repr

structure Room where
  id : Uuid
  corp_id : Uuid
  deriving DecidableEq, Repr

structure RoomMembership where
  room_id : Uuid
  actor_id : Uuid
  deriving DecidableEq, Repr

structure Agent where
  id : Uuid
  corp_id : Uuid
  actor_id : Uuid
  adapter : String
  mission_id : Option Uuid := none
  pinned : Bool := false
  status : AgentStatus := .idle
  station : Option String := none
  current_run_id : Option Uuid := none
  retired_at : Option Int := none
  deriving DecidableEq, Repr

/-! ## Missions, tasks and runs -/

structure Mission where
  id : Uuid
  corp_id : Uuid
  room_id : Uuid
  requested_by : Uuid
  status : MissionStatus
  budget_tokens : Int
  budget_cost_microusd : Int
  description : String := ""
  specification_version : Int := 1
  deriving DecidableEq, Repr

structure Task where
  id : Uuid
  corp_id : Uuid
  mission_id : Uuid
  status : TaskStatus
  verification_status : VerificationStatus := .pending
  contract : ContractDocument
  contract_version : Int := 1
  verification_policy : VerificationPolicy
  assigned_agent_id : Option Uuid
  required_adapter : Option String
  attempt_count : Int := 0
  max_attempts : Int
  deriving DecidableEq, Repr

structure TaskDependency where
  task_id : Uuid
  depends_on_task_id : Uuid
  deriving DecidableEq, Repr

structure Run where
  id : Uuid
  corp_id : Uuid
  task_id : Uuid
  agent_id : Uuid
  runner_id : String
  assignment_token : Uuid
  status : RunStatus
  created_at : Int
  summary : Option String := none
  provider_session_id : Option String := none
  resumed_from_run_id : Option Uuid := none
  execution_mode : ExecutionMode := .provider
  model : Option String := none
  reasoning_effort : Option String := none
  source_repository : Option String := none
  source_base_ref : Option String := none
  source_base_commit : Option String := none
  workspace_run_id : Uuid
  workspace_path : Option String := none
  workspace_branch : Option String := none
  workspace_base_ref : Option String := none
  workspace_base_commit : Option String := none
  workspace_disposition : Option WorkspaceDisposition := none
  workspace_detail : Option String := none
  workspace_fingerprint : Option String := none
  artifact_id : Option Uuid := none
  artifact_uri : Option String := none
  artifact_media_type : Option String := none
  artifact_signature : Option String := none
  artifact_sha256 : Option String := none
  verification_status : VerificationStatus := .pending
  verification_summary : Option String := none
  verification_sha256 : Option String := none
  deliverable_sha256 : Option String := none
  input_tokens : Int := 0
  output_tokens : Int := 0
  cost_microusd : Int := 0
  budget_tokens_limit : Int
  budget_cost_microusd_limit : Int
  breaker_stage : BreakerStage := .healthy
  no_progress_events : Int := 0
  repeated_tool_count : Int := 0
  last_tool_signature : Option String := none
  deriving DecidableEq, Repr

/-- `status IN ('provisioning', 'starting', 'running', 'waiting_for_input',
'waiting_for_approval', 'verifying')`. -/
def Run.active (r : Run) : Bool := r.status.is_active

/-! ## Artifacts and verification -/

inductive ArtifactRole where
  | provider_evidence | source_deliverable
  deriving DecidableEq, Repr

inductive ArtifactStatus where
  | staged | ready | rejected
  deriving DecidableEq, Repr

/-- `StoredArtifact` and the staging columns of its row. -/
structure Artifact where
  id : Uuid
  corp_id : Uuid
  task_id : Uuid
  run_id : Uuid
  producer_agent_id : Uuid
  producer_runner_id : String
  verifier : String
  object_key : String
  uri : String
  sha256 : String
  media_type : String
  bytes : Int
  artifact_role : ArtifactRole
  file_name : String
  metadata : Json
  provenance_signature : String
  retention_until : Int
  status : ArtifactStatus := .staged
  staging_key : Option String := none
  rejection_reason : Option String := none

structure SourceDeliverable where
  id : Uuid
  corp_id : Uuid
  task_id : Uuid
  run_id : Uuid
  artifact_id : Uuid
  form : String
  file_name : String
  verification_sha256 : String
  base_commit : String
  head_commit : Option String
  branch : String
  integration_state : String
  deriving DecidableEq, Repr

inductive EvidenceStatus where
  | passed | failed
  deriving DecidableEq, Repr

structure VerificationEvidence where
  id : Uuid
  corp_id : Uuid
  task_id : Uuid
  run_id : Uuid
  check_index : Nat
  kind : String
  status : EvidenceStatus
  summary : String
  payload : Json

inductive RequestStatus where
  | pending | approved | rejected
  deriving DecidableEq, Repr

structure VerificationRequest where
  run_id : Uuid
  corp_id : Uuid
  task_id : Uuid
  gate_type : String
  gate : ManualVerificationGate
  status : RequestStatus := .pending
  decided_by : Option Uuid := none
  decision_note : Option String := none
  decision_key : Option Uuid := none
  deriving DecidableEq, Repr

inductive ApprovalStatus where
  | pending | approved | rejected | expired
  deriving DecidableEq, Repr

structure ActionApproval where
  id : Uuid
  corp_id : Uuid
  room_id : Uuid
  mission_id : Uuid
  task_id : Uuid
  run_id : Uuid
  agent_id : Uuid
  action_key : String
  action : String
  risk : String
  rationale : String
  required_roles : List String
  status : ApprovalStatus := .pending
  expires_at : Int
  decided_by : Option Uuid := none
  decision_note : Option String := none
  decision_key : Option Uuid := none
  deriving DecidableEq, Repr

/-! ## Runner commands and the circuit breaker -/

inductive CommandKind where
  | approval_decision | circuit_breaker | factory_verification_recovery | control_message
  | workspace_checkpoint
  deriving DecidableEq, Repr

inductive CommandStatus where
  | pending | dispatched | failed
  deriving DecidableEq, Repr

/-- The `idempotency_key` texts of `runner_commands`; each format determines its
parameters. -/
inductive CommandKey where
  | approval_decision (approval_id decision_key : Uuid)
  | approval_expired (approval_id : Uuid)
  | breaker (run_id : Uuid) (stage : BreakerStage)
  | factory_verification_recovery (recovery_id : Uuid)
  | control_message (message_id : Uuid)
  | other (key : String)
  deriving DecidableEq, Repr

structure RunnerCommand where
  id : Uuid
  corp_id : Uuid
  runner_id : String
  run_id : Uuid
  command_kind : CommandKind
  payload : Json
  idempotency_key : CommandKey
  status : CommandStatus := .pending
  failure_detail : Option String := none

structure CircuitBreakerIncident where
  id : Uuid
  corp_id : Uuid
  mission_id : Uuid
  task_id : Uuid
  run_id : Uuid
  stage : BreakerStage
  reason : String
  deriving DecidableEq, Repr

structure CorpBudgetPolicy where
  corp_id : Uuid
  actor_tokens_per_24h : Int
  actor_cost_microusd_per_24h : Int
  corp_tokens_per_24h : Int
  corp_cost_microusd_per_24h : Int
  no_progress_event_limit : Int
  repeated_tool_limit : Int
  deriving DecidableEq, Repr

/-! ## Factory work items and verification recoveries -/

/-- The source identity columns of a work item whose `source_kind` is the only one the
migrations allow, `github_project_issue`. -/
structure FactorySource where
  source_project_owner : String
  source_project_number : Int
  source_project_item_id : String
  source_repository_owner : String
  source_repository_name : String
  source_issue_node_id : String
  source_issue_url : String
  source_title : String
  deriving DecidableEq, Repr

/-- `policy` stands for the policy document, which only the failure-authority digest and
the admission of plans read. -/
structure FactoryWorkItem where
  id : Uuid
  corp_id : Uuid
  source : FactorySource
  source_issue_number : Int
  source_revision : String
  policy : String
  state : FactoryWorkItemState
  version : Int
  claim_owner_id : Uuid
  claim_token : Uuid
  lease_expires_at : Int
  mission_id : Option Uuid := none
  failure_detail : Option String := none
  deriving DecidableEq, Repr

inductive RecoveryMode where
  | source_correction | verifier_only | checkpoint_verification
  deriving DecidableEq, Repr

inductive RecoveryStatus where
  | authorized | running | completed | failed
  deriving DecidableEq, Repr

/-- The `checkpoint` object of `checkpoint_authority`. -/
structure CheckpointAuthority where
  run_id : Uuid
  head_commit : Option String
  workspace_fingerprint : Option String
  deriving DecidableEq, Repr

/-- `expected_workspace_fingerprint` and `expected_head_commit` are the fields of the
stored `request` document that later statements read. -/
structure FactoryVerificationRecovery where
  id : Uuid
  corp_id : Uuid
  factory_work_item_id : Uuid
  mission_id : Uuid
  task_id : Uuid
  source_run_id : Uuid
  replacement_run_id : Option Uuid
  mode : RecoveryMode
  status : RecoveryStatus
  authorized_by : Uuid
  reason : String
  idempotency_key : Uuid
  contract_revision_id : Option Uuid
  previous_verification_policy : VerificationPolicy
  replacement_verification_policy : VerificationPolicy
  expected_workspace_fingerprint : Option String
  expected_head_commit : Option String
  checkpoint_authority : Option CheckpointAuthority
  deriving DecidableEq, Repr

/-- The stored `request` document of an operation, which also tells its kind. -/
inductive OperationRequest where
  | claim (document : String)
  | renew (work_item_id : Uuid) (expected_version : Int)
  | materialize (document : String)
  | transition (work_item_id : Uuid) (expected_version : Int) (state : FactoryWorkItemState)
      (failure_detail : Option String)
  deriving DecidableEq, Repr

structure FactoryOperation where
  corp_id : Uuid
  idempotency_key : String
  work_item_id : Uuid
  actor_id : Uuid
  resulting_version : Int
  claim_token : Option Uuid
  request : OperationRequest
  deriving DecidableEq, Repr

/-! ## Messages and the journal -/

inductive MessageStatus where
  | queued | reserved | immediate | delivered | cancelled
  deriving DecidableEq, Repr

structure QueuedMessage where
  id : Uuid
  corp_id : Uuid
  agent_id : Uuid
  actor_id : Uuid
  text : String
  idempotency_key : Option Uuid := none
  run_id : Option Uuid := none
  command_id : Option Uuid := none
  status : MessageStatus := .queued
  created_at : Int
  deriving DecidableEq, Repr

/-- The `type` texts of the journal that some modelled statement tells apart; a runner
may report any other text, and `other` is such a text. -/
inductive EventType where
  | run_session | run_started | run_status | run_approval_requested | run_tool_activity
  | run_artifact | run_artifact_upload | run_deliverable | run_deliverable_upload | run_usage
  | run_verification_started | run_verification_evidence | run_verification_passed
  | run_verification_waiting | run_verification_failed | run_teardown_uncertain
  | run_workspace_preserved | run_workspace_removed | run_session_terminated
  | run_completed | run_failed | run_cancelled | run_breaker_transition
  | factory_blocked | factory_claim_renewed
  | other (text : String)
  deriving DecidableEq, Repr

/-- The text a runner or the server writes. -/
def EventType.as_str : EventType → String
  | .run_session => "run.session"
  | .run_started => "run.started"
  | .run_status => "run.status"
  | .run_approval_requested => "run.approval_requested"
  | .run_tool_activity => "run.tool_activity"
  | .run_artifact => "run.artifact"
  | .run_artifact_upload => "run.artifact_upload"
  | .run_deliverable => "run.deliverable"
  | .run_deliverable_upload => "run.deliverable_upload"
  | .run_usage => "run.usage"
  | .run_verification_started => "run.verification_started"
  | .run_verification_evidence => "run.verification_evidence"
  | .run_verification_passed => "run.verification_passed"
  | .run_verification_waiting => "run.verification_waiting"
  | .run_verification_failed => "run.verification_failed"
  | .run_teardown_uncertain => "run.teardown_uncertain"
  | .run_workspace_preserved => "run.workspace_preserved"
  | .run_workspace_removed => "run.workspace_removed"
  | .run_session_terminated => "run.session_terminated"
  | .run_completed => "run.completed"
  | .run_failed => "run.failed"
  | .run_cancelled => "run.cancelled"
  | .run_breaker_transition => "run.breaker_transition"
  | .factory_blocked => "factory.blocked"
  | .factory_claim_renewed => "factory.claim_renewed"
  | .other text => text

inductive AggregateType where
  | run | mission | task | agent | corp | approval | factory_work_item
  | factory_verification_recovery | mission_contract_revision | mission_budget_revision
  | factory_controller | runner_enrollment | runner
  deriving DecidableEq, Repr

/-- `cause` of `reconcile_factory_verification_failure_tx`. -/
inductive FailureCause where
  | automated_verification | manual_verification | recovery_dispatch | recovery_admission
  | recovery_run_failure | recovery_run_cancelled | source_correction_runner_lost
  | verifier_runner_lost
  deriving DecidableEq, Repr

/-- The `idempotency_key` texts of the journal. The formats start with different
words and end in identifiers of fixed width, so equal texts have equal parameters;
`nonce` is the random UUID some formats end in. -/
inductive EventKey where
  | runner_event (runner_id : String) (event_id : Uuid)
  | mission_created (mission_id : Uuid)
  | mission_planned (mission_id : Uuid)
  | task_created (task_id : Uuid)
  | agent_staffed (agent_id : Uuid)
  | factory_mission (item_id mission_id : Uuid)
  | factory_state (item_id : Uuid) (state : FactoryWorkItemState) (version : Int)
  | factory_run_failed (item_id run_id : Uuid)
  | factory_dispatch_failed (item_id run_id : Uuid)
  | factory_resume (item_id run_id : Uuid)
  | factory_verification_failed (item_id run_id : Uuid) (cause : FailureCause)
  | factory_verified (item_id run_id : Uuid)
  | factory_awaiting_approval (item_id run_id : Uuid)
  | recovery_authorized (recovery_id : Uuid)
  | recovery_run (recovery_id : Uuid)
  | recovery_factory (recovery_id : Uuid)
  | run_requested (run_id : Uuid)
  | run_resume_requested (run_id : Uuid)
  | run_dispatch_failed (run_id : Uuid)
  | run_recovery_dispatch_failed (run_id : Uuid)
  | run_lost (run_id : Uuid)
  | artifact_ready (artifact_id : Uuid)
  | approval_decision (approval_id decision_key : Uuid)
  | approval_expired (approval_id : Uuid)
  | runner_command_failed (command_id : Uuid)
  | runner_command_ack (command_id : Uuid)
  | budget_policy_updated (nonce : Uuid)
  | breaker_event (run_id : Uuid) (stage : BreakerStage)
  | verification_decision (run_id : Uuid) (status : RequestStatus)
  | mission_contract_revision (revision_id : Uuid)
  | mission_budget_revision (revision_id : Uuid) (status : RequestStatus)
  | lease_acquire (agent_id nonce : Uuid)
  | lease_release (agent_id nonce : Uuid)
  | lease_transfer (agent_id nonce : Uuid)
  | control_message (message_id : Uuid)
  | controller_operation (controller_id : Uuid) (operation key : String)
  | controller_status (controller_id nonce : Uuid)
  | runner_enrollment_created (enrollment_id : Uuid)
  | runner_enrolled (credential_id nonce : Uuid)
  | runner_credential_rotated (credential_id nonce : Uuid)
  | runner_revoked (credential_id : Uuid)
  | agent_retired (agent_id nonce : Uuid)
  | runner_grace (runner_id : String) (connection_epoch run_id : Uuid)
  | run_reconciled (run_id connection_epoch : Uuid)
  deriving DecidableEq, Repr

structure Event where
  id : Uuid
  corp_id : Uuid
  room_id : Option Uuid := none
  actor_id : Option Uuid := none
  type : EventType
  aggregate_type : AggregateType
  aggregate_id : Uuid
  aggregate_version : Int := 0
  correlation_id : Option Uuid := none
  causation_id : Option Uuid := none
  idempotency_key : EventKey
  payload : Json := .null

/-! ## The database -/

structure Db where
  actors : List Actor := []
  rooms : List Room := []
  room_memberships : List RoomMembership := []
  agents : List Agent := []
  missions : List Mission := []
  tasks : List Task := []
  task_dependencies : List TaskDependency := []
  runs : List Run := []
  artifacts : List Artifact := []
  source_deliverables : List SourceDeliverable := []
  verification_evidence : List VerificationEvidence := []
  verification_requests : List VerificationRequest := []
  action_approvals : List ActionApproval := []
  runner_commands : List RunnerCommand := []
  circuit_breaker_incidents : List CircuitBreakerIncident := []
  corp_budget_policies : List CorpBudgetPolicy := []
  factory_work_items : List FactoryWorkItem := []
  factory_verification_recoveries : List FactoryVerificationRecovery := []
  factory_operations : List FactoryOperation := []
  queued_messages : List QueuedMessage := []
  events : List Event := []
  uuids : UuidSource := .counting

namespace Db

/-- `Uuid::new_v4`, when the identifiers `used` are in use. -/
def new_v4 (s : Db) (used : List Uuid) : Uuid := s.uuids.draw used 0

theorem new_v4_notMem (s : Db) (used : List Uuid) : s.new_v4 used ∉ used := s.uuids.fresh used 0

@[simps] def onActors (s : Db) (f : List Actor → List Actor) : Db :=
  { s with actors := f s.actors }

@[simps] def onRoomMemberships (s : Db) (f : List RoomMembership → List RoomMembership) : Db :=
  { s with room_memberships := f s.room_memberships }

@[simps] def onAgents (s : Db) (f : List Agent → List Agent) : Db :=
  { s with agents := f s.agents }

@[simps] def onMissions (s : Db) (f : List Mission → List Mission) : Db :=
  { s with missions := f s.missions }

@[simps] def onTasks (s : Db) (f : List Task → List Task) : Db :=
  { s with tasks := f s.tasks }

@[simps] def onTaskDependencies (s : Db) (f : List TaskDependency → List TaskDependency) : Db :=
  { s with task_dependencies := f s.task_dependencies }

@[simps] def onRuns (s : Db) (f : List Run → List Run) : Db :=
  { s with runs := f s.runs }

@[simps] def onArtifacts (s : Db) (f : List Artifact → List Artifact) : Db :=
  { s with artifacts := f s.artifacts }

@[simps] def onSourceDeliverables (s : Db)
    (f : List SourceDeliverable → List SourceDeliverable) : Db :=
  { s with source_deliverables := f s.source_deliverables }

@[simps] def onVerificationEvidence (s : Db)
    (f : List VerificationEvidence → List VerificationEvidence) : Db :=
  { s with verification_evidence := f s.verification_evidence }

@[simps] def onVerificationRequests (s : Db)
    (f : List VerificationRequest → List VerificationRequest) : Db :=
  { s with verification_requests := f s.verification_requests }

@[simps] def onActionApprovals (s : Db) (f : List ActionApproval → List ActionApproval) : Db :=
  { s with action_approvals := f s.action_approvals }

@[simps] def onRunnerCommands (s : Db) (f : List RunnerCommand → List RunnerCommand) : Db :=
  { s with runner_commands := f s.runner_commands }

@[simps] def onIncidents (s : Db)
    (f : List CircuitBreakerIncident → List CircuitBreakerIncident) : Db :=
  { s with circuit_breaker_incidents := f s.circuit_breaker_incidents }

@[simps] def onBudgetPolicies (s : Db) (f : List CorpBudgetPolicy → List CorpBudgetPolicy) : Db :=
  { s with corp_budget_policies := f s.corp_budget_policies }

@[simps] def onFactoryWorkItems (s : Db) (f : List FactoryWorkItem → List FactoryWorkItem) : Db :=
  { s with factory_work_items := f s.factory_work_items }

@[simps] def onRecoveries (s : Db)
    (f : List FactoryVerificationRecovery → List FactoryVerificationRecovery) : Db :=
  { s with factory_verification_recoveries := f s.factory_verification_recoveries }

@[simps] def onFactoryOperations (s : Db)
    (f : List FactoryOperation → List FactoryOperation) : Db :=
  { s with factory_operations := f s.factory_operations }

@[simps] def onQueuedMessages (s : Db) (f : List QueuedMessage → List QueuedMessage) : Db :=
  { s with queued_messages := f s.queued_messages }

@[simps] def onEvents (s : Db) (f : List Event → List Event) : Db :=
  { s with events := f s.events }

end Db

end Crony.Store
