/-
The three ways a run comes into being: a dispatch of a schedulable task, the resume of
an earlier run in its preserved workspace, and the governed recovery of a verification
failure.

Each admission checks, in its own words, that neither the task nor the agent has an
active run. `create_factory_verification_recovery` also consults checks that only read
and only refuse (the checkpoint's budget authority, the correction authority, the audited
contract revision, the item's policy document, retained receipts); `RecoveryVerdicts`
carries their answers, so that what is proved holds whatever they say. The binding of a
workspace connection to the new run is left out: it writes columns nothing here reads.
-/
import Crony.Store.Breaker
import Crony.Store.Missions

set_option autoImplicit false

open Crony.Lib

namespace Crony.Store

variable (env : Env)

/-! ## Shared pieces -/

/-- `mission_allows_dispatch`. -/
def mission_allows_dispatch (status : MissionStatus) (explicit_dispatch : Bool) : Bool :=
  status == .running || (explicit_dispatch && status == .ready)

/-- `NOT EXISTS (… task_dependencies dependency JOIN tasks parent … WHERE
dependency.task_id = $1 AND parent.status <> 'completed')`. -/
def Db.dependencies_ready (s : Db) (task_id : Uuid) : Bool :=
  !(s.task_dependencies.any fun d => d.task_id == task_id
    && s.tasks.any fun parent =>
      parent.id == d.depends_on_task_id && !(parent.status == .completed))

/-- The task has an active run. -/
def Db.task_active (s : Db) (task_id : Uuid) : Bool :=
  s.runs.any fun r => r.task_id == task_id && r.active

/-- The agent has an active run. -/
def Db.agent_active (s : Db) (agent_id : Uuid) : Bool :=
  s.runs.any fun r => r.agent_id == agent_id && r.active

/-- `reserve_queued_messages_tx`: the agent's twenty oldest queued messages. -/
def reserve_queued_messages_tx (s : Db) (corp_id agent_id run_id : Uuid) : Db :=
  let queued := ((s.queued_messages.filter fun m =>
    m.corp_id == corp_id && m.agent_id == agent_id && m.status == .queued).insertionSort
      fun a b => a.created_at ≤ b.created_at).take 20
  s.onQueuedMessages (updateWhere (fun m => (queued.map QueuedMessage.id).contains m.id)
    fun m => { m with status := .reserved, run_id := some run_id })

/-- `INSERT INTO runs`. -/
def insert_run (s : Db) (run : Run) : Except String Db := do
  ensure (∀ r ∈ s.runs, r.id ≠ run.id)
    "duplicate key value violates unique constraint runs_pkey"
  return s.onRuns (· ++ [run])

/-- `UPDATE agents SET status = 'starting', station = $1, current_run_id = $2, retired_at
= NULL WHERE id = $3`. -/
def Db.assign_agent (s : Db) (agent_id run_id : Uuid) (station : String) : Db :=
  s.onAgents (updateWhere (fun a => a.id == agent_id) fun a =>
    { a with status := .starting, station := some station, current_run_id := some run_id
             retired_at := none })

/-! ## Dispatch: `create_task_run` -/

structure TaskRunInput where
  corp_id : Uuid
  mission_id : Uuid
  task_id : Uuid
  requested_by : Option Uuid
  runner_id : String
  run_id : Uuid
  assignment_token : Uuid
  deriving DecidableEq, Repr

/-- The select of `create_task_run`. -/
def task_run_row (s : Db) (input : TaskRunInput) : Option (Mission × Task × Agent) := do
  let mission ← (s.mission? input.mission_id).filter fun m => m.corp_id == input.corp_id
  let task ← (s.task? input.task_id).filter fun t => t.mission_id == mission.id
  let agent_id ← task.assigned_agent_id
  let agent ← s.agent? agent_id
  return (mission, task, agent)

/-- An explicit dispatch needs an operator of the corp. -/
def assert_dispatch_operator (s : Db) (input : TaskRunInput) : Except String Unit :=
  match input.requested_by with
  | some actor_id => assert_mission_operator_tx s input.corp_id actor_id
  | none => pure ()

/-- An explicit dispatch needs a member of the mission's room. -/
def assert_dispatch_member (s : Db) (input : TaskRunInput) (mission : Mission) :
    Except String Unit :=
  match input.requested_by with
  | some actor_id => assert_room_membership_tx s input.corp_id mission.room_id actor_id
  | none => pure ()

/-- `create_task_run`. -/
def create_task_run (s : Db) (now : Int) (input : TaskRunInput) : Except String Db := do
  assert_dispatch_operator s input
  let (mission, task, agent) ← context (task_run_row s input) "mission or task not found"
  assert_dispatch_member s input mission
  ensure (mission_allows_dispatch mission.status input.requested_by.isSome = true)
    (if mission.status = .ready
      then "mission is held at briefing until an operator explicitly dispatches it"
      else "mission is already settled")
  ensure (agent.retired_at = none) "assigned mission worker is retired"
  ensure (task.status = .pending ∨ task.status = .ready) "task is not schedulable"
  ensure (agent.adapter = task.required_adapter.getD agent.adapter)
    "assigned agent adapter does not satisfy the task"
  ensure (s.dependencies_ready task.id = true) "task dependencies are not complete"
  ensure (s.task_active task.id = false) "task already has an active run"
  ensure (s.agent_active agent.id = false) "assigned agent already has an active run"
  ensure (task.attempt_count < task.max_attempts) "task exhausted its retry limit"
  let s ← insert_run s
    { id := input.run_id, corp_id := input.corp_id, task_id := task.id, agent_id := agent.id
      runner_id := input.runner_id, assignment_token := input.assignment_token
      status := .starting, created_at := now, workspace_run_id := input.run_id
      budget_tokens_limit := task.contract.budget_tokens
      budget_cost_microusd_limit := task.contract.budget_cost_microusd
      model := task.contract.model, reasoning_effort := task.contract.reasoning_effort
      source_repository := task.contract.source_repository
      source_base_ref := task.contract.source_base_ref
      source_base_commit := task.contract.source_base_commit }
  let s := reserve_queued_messages_tx s input.corp_id agent.id input.run_id
  let s := s.onMissions (updateWhere (fun m => m.id == mission.id && m.status.is_open) fun m =>
    { m with status := .running })
  let s := s.onTasks (updateWhere (fun t => t.id == task.id) fun t =>
    { t with status := .claimed, attempt_count := task.attempt_count + 1
             verification_status := .pending })
  let s := s.assign_agent agent.id input.run_id "dispatch"
  append_new_event_tx s
    { id := 0, corp_id := input.corp_id, room_id := some mission.room_id
      actor_id := input.requested_by, type := .other "run.requested"
      aggregate_type := .run, aggregate_id := input.run_id
      correlation_id := some mission.id, idempotency_key := .run_requested input.run_id }
    "run requested event unexpectedly existed"

/-! ## Budgets left for a resume or a recovery -/

/-- `mission_usage_tx`. -/
def mission_usage_tx (s : Db) (corp_id mission_id : Uuid) : Except String (Int × Int) := do
  let runs := (s.mission_runs mission_id).filter fun r => r.corp_id == corp_id
  return (← sum_tokens runs, ← sum_cost runs)

structure RollingBudgetRemaining where
  actor_tokens : Int
  actor_cost_microusd : Int
  corp_tokens : Int
  corp_cost_microusd : Int
  deriving DecidableEq, Repr

/-- `rolling_budget_remaining_tx`. -/
def rolling_budget_remaining_tx (s : Db) (now : Int) (corp_id requester : Uuid) :
    Except String RollingBudgetRemaining := do
  let policy := s.budget_policy corp_id
  return {
    actor_tokens := saturating_sub policy.actor_tokens_per_24h
      (← sum_tokens (s.actor_runs now corp_id requester))
    actor_cost_microusd := saturating_sub policy.actor_cost_microusd_per_24h
      (← sum_cost (s.actor_runs now corp_id requester))
    corp_tokens := saturating_sub policy.corp_tokens_per_24h
      (← sum_tokens (s.corp_runs now corp_id))
    corp_cost_microusd := saturating_sub policy.corp_cost_microusd_per_24h
      (← sum_cost (s.corp_runs now corp_id)) }

/-- The token and cost limits left to a run that continues earlier work. -/
def continuation_budget (s : Db) (now : Int) (corp_id : Uuid) (mission : Mission)
    (contract : ContractDocument) (no_mission no_rolling : String) : Except String (Int × Int) := do
  let (tokens_used, cost_used) ← mission_usage_tx s corp_id mission.id
  let tokens := mission.budget_tokens - tokens_used
  let cost := mission.budget_cost_microusd - cost_used
  ensure (0 < tokens ∧ 0 < cost) no_mission
  let rolling ← rolling_budget_remaining_tx s now corp_id mission.requested_by
  ensure (0 < rolling.actor_tokens ∧ 0 < rolling.actor_cost_microusd ∧ 0 < rolling.corp_tokens
      ∧ 0 < rolling.corp_cost_microusd) no_rolling
  return (min (min (min contract.budget_tokens tokens) rolling.actor_tokens) rolling.corp_tokens,
    min (min (min contract.budget_cost_microusd cost) rolling.actor_cost_microusd)
      rolling.corp_cost_microusd)

/-! ## Resume: `create_resume_run` -/

structure ResumeInput where
  corp_id : Uuid
  source_run_id : Uuid
  requested_by : Uuid
  run_id : Uuid
  assignment_token : Uuid
  deriving DecidableEq, Repr

/-- `ensure_generic_resume_is_not_factory_recovery`. -/
def ensure_generic_resume_is_not_factory_recovery (factory_linked : Bool) (task_status : TaskStatus)
    (source_verification_status : VerificationStatus) : Except String Unit :=
  ensure (¬ (factory_linked = true
      ∧ (task_status = .verification_failed ∨ source_verification_status = .failed)))
    "factory verification-failed lineage requires governed verification recovery"

/-- What a resume requires of the source run and its workspace. -/
def resumable_source (s : Db) (corp_id : Uuid) (source : Run) (task : Task) :
    Except String String := do
  ensure_generic_resume_is_not_factory_recovery
    (s.factory_item_of corp_id task.mission_id).isSome task.status source.verification_status
  let session ← context source.provider_session_id
    "source run has no resumable provider session"
  ensure (source.workspace_base_commit.isSome)
    "source run has no persisted workspace base commit"
  ensure (source.workspace_disposition = some .preserved)
    "source run workspace is not preserved and cannot be resumed safely"
  ensure (source.breaker_stage ≠ .stop)
    "source run reached a stop-stage breaker and cannot be resumed"
  return session

/-- `create_resume_run`. The task's own status is not consulted. -/
def create_resume_run (s : Db) (now : Int) (input : ResumeInput) : Except String Db := do
  let (source, task, mission) ← context (s.run_task_mission input.corp_id input.source_run_id)
    "source run not found"
  let scope ← RunScope.read_tx s input.corp_id input.source_run_id
  let agent ← context (s.agent? source.agent_id) "source run not found"
  assert_room_membership_tx s input.corp_id mission.room_id input.requested_by
  let session ← resumable_source s input.corp_id source task
  scope.validate_tx s input.corp_id mission.id
  ensure (s.task_active task.id = false ∧ s.agent_active agent.id = false)
    "task or assigned agent already has an active run"
  let lineage := s.workspace_lineage input.corp_id source.workspace_run_id
  ensure (lineage.any (fun r => r.breaker_stage == .stop) = false)
    "provider workspace lineage reached a stop-stage breaker and cannot be resumed"
  let latest ← latest_workspace_source_id lineage
  ensure (latest = source.id) "source run is not the latest run in its provider workspace lineage"
  let (budget_tokens, budget_cost) ← continuation_budget s now input.corp_id mission task.contract
    "mission has no remaining authorized budget; an owner or admin must approve a budget revision before resume"
    "requester or Corp rolling budget has no remaining authority; wait for the window to clear or revise Corp policy before resume"
  let s ← insert_run s
    { id := input.run_id, corp_id := input.corp_id, task_id := task.id, agent_id := agent.id
      runner_id := source.runner_id, assignment_token := input.assignment_token
      status := .starting, created_at := now, provider_session_id := some session
      resumed_from_run_id := some source.id, workspace_run_id := source.workspace_run_id
      budget_tokens_limit := budget_tokens, budget_cost_microusd_limit := budget_cost
      model := task.contract.model, reasoning_effort := task.contract.reasoning_effort
      source_repository := task.contract.source_repository
      source_base_ref := task.contract.source_base_ref
      source_base_commit := task.contract.source_base_commit }
  let s := reserve_queued_messages_tx s input.corp_id agent.id input.run_id
  let s := s.onMissions (updateWhere (fun m => m.id == mission.id) fun m =>
    { m with status := .running })
  let s := s.onTasks (updateWhere (fun t => t.id == task.id) fun t =>
    { t with status := .claimed, verification_status := .pending })
  let s := s.assign_agent agent.id input.run_id "dispatch"
  let s ← resume_tx env s scope input.corp_id mission.room_id source.id source.status input.run_id
    input.requested_by
  append_new_event_tx s
    { id := 0, corp_id := input.corp_id, room_id := some mission.room_id
      actor_id := some input.requested_by, type := .other "run.resume_requested"
      aggregate_type := .run, aggregate_id := input.run_id
      correlation_id := some mission.id, idempotency_key := .run_resume_requested input.run_id }
    "run resume event unexpectedly existed"

/-! ## Governed recovery: `create_factory_verification_recovery` -/

/-- `FactoryVerificationRecoveryMode::is_verifier_only`. -/
def RecoveryMode.is_verifier_only : RecoveryMode → Bool
  | .verifier_only | .checkpoint_verification => true
  | .source_correction => false

/-- The answers of the checks that only read and only refuse. -/
structure RecoveryVerdicts where
  /-- `budget_checkpoint::source_authority_tx` and `validate_lineage_tx`. -/
  checkpoint_authority : Option CheckpointAuthority
  /-- `checkpoint_correction::requires_authority_tx`. -/
  correction_required : Bool
  /-- `checkpoint_correction::admit_tx`: the run whose suspension is authorised. -/
  correction_authority : Option Uuid
  /-- The previous policy of the audited contract revision, when there is one that
  matches the task. -/
  revised_from : Option VerificationPolicy
  /-- `ensure_factory_recovery_policy`. -/
  policy_allows : Bool
  /-- `retained_provider_receipt::derive_tx`. -/
  receipt_allows : Bool
  /-- The rest of a replayed request is the stored one. -/
  replay_allows : Bool
  deriving DecidableEq, Repr

structure RecoveryInput where
  corp_id : Uuid
  actor_id : Uuid
  work_item_id : Uuid
  claim_token : Uuid
  expected_factory_version : Int
  source_run_id : Uuid
  mode : RecoveryMode
  reason : String
  observed_source_revision : String
  reviewed_source_snapshot : Json
  snapshot_bytes : Nat
  contract_revision_id : Option Uuid
  expected_workspace_fingerprint : String
  expected_head_commit : Option String
  idempotency_key : Uuid
  run_id : Uuid
  assignment_token : Uuid
  verdicts : RecoveryVerdicts

/-- The checks on the request itself; the normalised reason and source revision. -/
def normalize_recovery (input : RecoveryInput) : Except String (String × String) := do
  ensure (0 < input.expected_factory_version) "expected factory work-item version must be positive"
  let reason ← normalize_factory_text input.reason "factory verification recovery reason" 4000
  let revision ← normalize_factory_text input.observed_source_revision
    "observed source revision" 200
  ensure (valid_sha256 input.expected_workspace_fingerprint = true)
    "expected workspace fingerprint must be a lowercase SHA-256 digest"
  match input.expected_head_commit with
  | some head => validate_factory_base_commit head
  | none => pure ()
  ensure (input.reviewed_source_snapshot.as_object.isSome)
    "reviewed source snapshot must be a JSON object"
  ensure (input.snapshot_bytes ≤ 65536) "reviewed source snapshot cannot exceed 65,536 bytes"
  ensure (input.reviewed_source_snapshot.text? "source_revision" = some revision)
    "reviewed source snapshot does not match the observed source revision"
  ensure (¬ (input.mode = .checkpoint_verification ∧ input.contract_revision_id.isSome))
    "checkpoint verification cannot revise the preserved source policy"
  return (reason, revision)

/-- `ensure_factory_recovery_authorizer_tx`. -/
def ensure_factory_recovery_authorizer_tx (s : Db) (corp_id mission_id actor_id : Uuid) :
    Except String Unit := do
  let mission ← context ((s.mission? mission_id).filter fun m => m.corp_id == corp_id)
    "factory recovery mission or actor was not found"
  let actor ← context (s.actor? corp_id actor_id) "factory recovery mission or actor was not found"
  assert_room_membership_tx s corp_id mission.room_id actor_id
  ensure (actor.kind = .human ∧ actor.role ∈ ["owner", "admin", "manager"])
    "forbidden: factory verification recovery requires owner, admin, or manager authority"

/-- The select of the source run with its task, mission and agent. -/
def recovery_row (s : Db) (corp_id mission_id source_run_id : Uuid) :
    Option (Run × Task × Mission × Agent) := do
  let (run, task, mission) ← s.run_task_mission corp_id source_run_id
  guard (mission.id = mission_id ∧ mission.corp_id = corp_id)
  let agent ← s.agent? run.agent_id
  return (run, task, mission, agent)

/-- `provider_lineage`: the nearest session among the ancestors of a verification-only
run, 64 steps at most. -/
def recovery_provider_session (s : Db) (run : Run) : Option String :=
  let ancestors := lineage (fun child => child.resumed_from_run_id.bind fun id =>
      (s.run? id).filter fun parent => parent.corp_id == run.corp_id
        && parent.task_id == run.task_id && parent.agent_id == run.agent_id
        && parent.runner_id == run.runner_id && parent.workspace_run_id == run.workspace_run_id
        && same_source_identity run parent)
    65 (if run.execution_mode = .verification_only then some run else none)
  run.provider_session_id.or (ancestors.findSome? Run.provider_session_id)

/-- The source checkpoint a recovery starts from, and its budget authority when it
re-verifies a checkpoint. -/
def recovery_checkpoint (s : Db) (now : Int) (input : RecoveryInput) (revision : String)
    (item : FactoryWorkItem) (task : Task) (mission : Mission) :
    Except String (SourceWorkspaceCheckpoint × Option CheckpointAuthority) := do
  let checkpoint ← source_workspace_checkpoint_tx s now input.corp_id input.source_run_id
  let (checkpoint, authority) ← if input.mode = .checkpoint_verification then do
      let authority ← context input.verdicts.checkpoint_authority
        "checkpoint verification has no budget checkpoint authority"
      ensure (task.status ∈ [.failed, .cancelled, .verification_failed]
          ∧ mission.status ∈ [.failed, .cancelled] ∧ revision = item.source_revision)
        "checkpoint verification cannot replace active or accepted work"
      let owned_block := item.state = .blocked
        ∧ (failure_origin_tx env s item item.claim_token).any
          (fun origin => origin.run_id == input.source_run_id) = true
      ensure (item.state = .running ∨ item.state = .verification_failed ∨ owned_block)
        "checkpoint verification cannot clear an unrelated factory state"
      pure (if checkpoint.execution_mode = .provider
        then { checkpoint with expected_head_commit := authority.head_commit } else checkpoint,
        some authority)
    else do
      checkpoint.ensure_factory_terminal
      pure (checkpoint, none)
  checkpoint.ensure_preserved
  return (checkpoint, authority)

/-- The verification failure a recovery other than a checkpoint verification starts
from; a stale item is reconciled first. -/
def recovery_failure (s : Db) (input : RecoveryInput) (item : FactoryWorkItem) (source : Run)
    (task : Task) (mission : Mission) : Except String Db := do
  if input.mode = .checkpoint_verification then return s else do
  let failed := task.status = .verification_failed
    ∧ (task.verification_status = .failed
      ∨ (input.contract_revision_id.isSome ∧ task.verification_status = .pending))
    ∧ mission.status = .failed
  ensure failed "factory work item is not in a recoverable verification-failed state"
  ensure (source.verification_status = .failed)
    "factory verification recovery requires failed verification, task, and mission state"
  if item.state = .verification_failed then return s else do
  ensure ((s.factory_item_of input.corp_id mission.id).any
      (fun i => !(i.state == .verification_failed)) = true)
    "factory recovery could not reconcile the stale work item"
  reconcile_factory_verification_failure_tx s input.corp_id mission.id mission.room_id
    input.source_run_id (some input.actor_id)
    (item.failure_detail.getD "reconciled persisted verification failure") .recovery_admission

/-- What the workspace lineage must not contain, and that the source is its latest
run. -/
def recovery_lineage (s : Db) (input : RecoveryInput) (source : Run) : Except String Unit := do
  let lineage := s.workspace_lineage input.corp_id source.workspace_run_id
  let governed := input.mode = .source_correction
    ∧ (lineage.any (fun r => r.breaker_stage == .suspend) = true
      ∨ input.verdicts.correction_required = true)
  let authority ← if governed then
      some <$> context input.verdicts.correction_authority
        "checkpoint source correction has no authority"
    else pure none
  ensure (∀ r ∈ lineage,
      ((r.breaker_stage = .suspend ∨ r.breaker_stage = .stop) →
        input.mode = .checkpoint_verification
          ∨ (authority = some r.id ∧ r.breaker_stage = .suspend))
      ∧ r.workspace_disposition ≠ some .quarantined)
    "factory verification recovery cannot bypass a suspended, stopped, or quarantined lineage"
  let latest ← latest_workspace_source_id lineage
  ensure (latest = input.source_run_id)
    "factory verification recovery source run is not the latest workspace checkpoint"

/-- The previous and the replacement verification policy. -/
def recovery_policies (input : RecoveryInput) (task : Task) :
    Except String (VerificationPolicy × VerificationPolicy) :=
  match input.contract_revision_id with
  | none => do
    ensure (input.mode ≠ .source_correction)
      "source-correction recovery requires an explicit contract revision"
    return (task.verification_policy, task.verification_policy)
  | some _ => do
    let previous ← context input.verdicts.revised_from
      "factory recovery contract revision does not match the authoritative failed task"
    return (previous, task.verification_policy)

/-- The token and cost limits of the replacement run. -/
def recovery_budget (s : Db) (now : Int) (input : RecoveryInput) (task : Task)
    (mission : Mission) : Except String (Int × Int) :=
  if input.mode = .checkpoint_verification then do
    let _ ← mission_usage_tx s input.corp_id mission.id
    let _ ← rolling_budget_remaining_tx s now input.corp_id mission.requested_by
    return (0, 0)
  else continuation_budget s now input.corp_id mission task.contract
    "factory verification recovery has no remaining mission budget"
    "factory verification recovery has no remaining requester or Corp budget"

/-- The replacement run. A verifier works on the source's own artifact and has neither
model nor session. -/
def recovery_run (now : Int) (input : RecoveryInput) (source : Run) (task : Task)
    (session : Option String) (budget : Int × Int) : Run :=
  { id := input.run_id, corp_id := input.corp_id, task_id := task.id, agent_id := source.agent_id
    runner_id := source.runner_id, assignment_token := input.assignment_token
    status := .starting, created_at := now
    provider_session_id := if input.mode.is_verifier_only then none else session
    resumed_from_run_id := some source.id
    execution_mode := if input.mode.is_verifier_only then .verification_only else .provider
    workspace_run_id := source.workspace_run_id
    budget_tokens_limit := budget.1, budget_cost_microusd_limit := budget.2
    model := if input.mode.is_verifier_only then none else task.contract.model
    reasoning_effort :=
      if input.mode.is_verifier_only then none else task.contract.reasoning_effort
    source_repository := task.contract.source_repository
    source_base_ref := task.contract.source_base_ref
    source_base_commit := task.contract.source_base_commit
    artifact_id := if input.mode.is_verifier_only then source.artifact_id else none
    artifact_uri := if input.mode.is_verifier_only then source.artifact_uri else none
    artifact_signature := if input.mode.is_verifier_only then source.artifact_signature else none
    artifact_sha256 := if input.mode.is_verifier_only then source.artifact_sha256 else none
    artifact_media_type :=
      if input.mode.is_verifier_only then source.artifact_media_type else none }

/-- `INSERT INTO factory_verification_recoveries`, with its unique columns and the index
on the active recovery of an item. -/
def insert_recovery (s : Db) (r : FactoryVerificationRecovery) : Except String Db := do
  ensure (∀ row ∈ s.factory_verification_recoveries,
      row.id ≠ r.id ∧ row.replacement_run_id ≠ r.replacement_run_id
      ∧ ¬ (row.corp_id = r.corp_id ∧ row.idempotency_key = r.idempotency_key)
      ∧ ¬ (row.factory_work_item_id = r.factory_work_item_id ∧ row.status.is_active = true))
    "duplicate key value violates unique constraint factory_verification_recoveries"
  return s.onRecoveries (· ++ [r])

def Db.next_recovery_id (s : Db) : Uuid :=
  s.new_v4 (s.factory_verification_recoveries.map FactoryVerificationRecovery.id)

/-- The metadata of the provider artifact a verifier is sent: all of it or none. -/
def provider_artifact_complete (s : Db) (input : RecoveryInput) (source : Run) : Bool :=
  let stored := s.artifacts.any fun a => source.artifact_id == some a.id
  !input.mode.is_verifier_only
    || (stored == source.artifact_sha256.isSome && stored == source.artifact_media_type.isSome)

/-- Only a source correction has a provider that reads messages. -/
def reserve_recovery_messages (s : Db) (input : RecoveryInput) (run : Run) : Db :=
  if input.mode = .source_correction
  then reserve_queued_messages_tx s input.corp_id run.agent_id run.id else s

/-- The statements that start the replacement run. -/
def start_recovery (s : Db) (input : RecoveryInput) (reason : String) (run : Run) (task : Task)
    (mission : Mission) (attempt : Int) (authority : Option CheckpointAuthority)
    (policies : VerificationPolicy × VerificationPolicy) : Except String Db := do
  let s ← insert_run s run
  let s := reserve_recovery_messages s input run
  let s := s.onMissions (updateWhere (fun m => m.id == mission.id) fun m =>
    { m with status := .running })
  let s := s.onTasks (updateWhere (fun t => t.id == task.id) fun t =>
    { t with status := .claimed, attempt_count := attempt, verification_status := .pending })
  let s := s.assign_agent run.agent_id run.id
    (if input.mode.is_verifier_only then "review" else "dispatch")
  let s := s.onFactoryWorkItems (updateWhere
    (fun i => i.id == input.work_item_id && i.corp_id == input.corp_id)
    fun i => { i with state := .running, version := i.version + 1, failure_detail := none })
  let recovery_id := s.next_recovery_id
  insert_recovery s
    { id := recovery_id, corp_id := input.corp_id, factory_work_item_id := input.work_item_id
      mission_id := mission.id, task_id := task.id, source_run_id := input.source_run_id
      replacement_run_id := some run.id, mode := input.mode, status := .running
      authorized_by := input.actor_id, reason, idempotency_key := input.idempotency_key
      contract_revision_id := input.contract_revision_id
      previous_verification_policy := policies.1, replacement_verification_policy := policies.2
      expected_workspace_fingerprint := some input.expected_workspace_fingerprint
      expected_head_commit := input.expected_head_commit, checkpoint_authority := authority }

/-- The command and the three events of a started recovery. -/
def announce_recovery (s : Db) (input : RecoveryInput) (recovery_id : Uuid) (run : Run)
    (mission : Mission) : Except String Db := do
  let s ← insert_runner_command s
    { id := 0, corp_id := input.corp_id, runner_id := run.runner_id, run_id := run.id
      command_kind := .factory_verification_recovery
      payload := .obj [("run_id", .uuid run.id), ("source_run_id", .uuid input.source_run_id)]
      idempotency_key := .factory_verification_recovery recovery_id }
  let s ← append_new_event_tx s
    { id := 0, corp_id := input.corp_id, room_id := some mission.room_id
      actor_id := some input.actor_id, type := .other "factory.verification_recovery_authorized"
      aggregate_type := .factory_verification_recovery, aggregate_id := recovery_id
      correlation_id := some mission.id, causation_id := some input.source_run_id
      idempotency_key := .recovery_authorized recovery_id }
    "factory verification recovery event unexpectedly existed"
  let s ← append_new_event_tx s
    { id := 0, corp_id := input.corp_id, room_id := some mission.room_id
      actor_id := some input.actor_id
      type := .other (if input.mode.is_verifier_only then "run.verification_requested"
        else "run.resume_requested")
      aggregate_type := .run, aggregate_id := run.id
      correlation_id := some mission.id, causation_id := some input.source_run_id
      idempotency_key := .recovery_run recovery_id }
    "factory recovery run event unexpectedly existed"
  let item ← context (s.factory_work_item input.corp_id input.work_item_id) "no rows returned"
  append_new_event_tx s
    { id := 0, corp_id := input.corp_id, room_id := some mission.room_id
      actor_id := some input.actor_id, type := .other "factory.verification_recovery_started"
      aggregate_type := .factory_work_item, aggregate_id := input.work_item_id
      aggregate_version := item.version
      correlation_id := some mission.id, causation_id := some run.id
      idempotency_key := .recovery_factory recovery_id }
    "factory recovery state event unexpectedly existed"

/-- A replayed request changes nothing; it only has to be the stored one. -/
def replay_recovery (s : Db) (input : RecoveryInput) (reason : String)
    (r : FactoryVerificationRecovery) : Except String Db := do
  ensure_factory_recovery_authorizer_tx s input.corp_id r.mission_id input.actor_id
  ensure (r.factory_work_item_id = input.work_item_id ∧ r.authorized_by = input.actor_id
      ∧ r.source_run_id = input.source_run_id ∧ r.mode = input.mode ∧ r.reason = reason
      ∧ r.contract_revision_id = input.contract_revision_id
      ∧ r.expected_workspace_fingerprint = some input.expected_workspace_fingerprint
      ∧ r.expected_head_commit = input.expected_head_commit
      ∧ input.verdicts.replay_allows = true)
    "factory verification recovery idempotency key was reused with a different request"
  return s

/-- Everything a new recovery must satisfy; the replacement run, the attempt it counts as,
the authority and the policies it is recorded with. -/
def admit_recovery (s : Db) (now : Int) (input : RecoveryInput) (revision : String)
    (item : FactoryWorkItem) (source : Run) (task : Task) (mission : Mission) (agent : Agent) :
    Except String (Db × Run × Int × Option CheckpointAuthority
      × VerificationPolicy × VerificationPolicy) := do
  let checkpointed := input.mode = .checkpoint_verification
  let (checkpoint, authority) ← recovery_checkpoint env s now input revision item task mission
  let s ← recovery_failure s input item source task mission
  ensure (source.workspace_disposition = some .preserved)
    "factory verification recovery requires a preserved workspace"
  ensure (checkpoint.fingerprint = some input.expected_workspace_fingerprint)
    "factory verification recovery workspace fingerprint mismatch"
  ensure (checkpoint.expected_head_commit = input.expected_head_commit)
    "factory verification recovery head commit mismatch"
  recovery_lineage s input source
  ensure (∀ r ∈ s.runs, ¬ ((r.task_id = task.id ∨ r.agent_id = source.agent_id)
      ∧ r.corp_id = input.corp_id ∧ r.active = true))
    "factory verification recovery task or assigned agent already has an active run"
  ensure (checkpointed ∨ task.attempt_count < task.max_attempts)
    "factory verification recovery task exhausted its attempt limit"
  let attempt := if checkpointed then task.attempt_count else task.attempt_count + 1
  let policies ← recovery_policies input task
  ensure (revision = item.source_revision ∨ input.contract_revision_id.isSome)
    "changed source revision requires an explicit audited contract revision"
  ensure (input.reviewed_source_snapshot.i64? "issue_number" = some item.source_issue_number)
    "reviewed source snapshot does not match the factory issue"
  ensure (input.verdicts.policy_allows = true)
    "factory recovery does not satisfy the persisted policy"
  ensure (source.workspace_base_commit.isSome)
    "factory verification recovery source run has no workspace base commit"
  let budget ← recovery_budget s now input task mission
  ensure (task.required_adapter.getD agent.adapter = agent.adapter)
    "factory verification recovery assigned adapter no longer satisfies the task"
  let session := recovery_provider_session s source
  ensure (input.mode = .source_correction → session.isSome)
    "source-correction recovery requires a preserved provider session"
  ensure (checkpointed → input.verdicts.receipt_allows = true)
    "retained provider receipt is not valid"
  ensure (provider_artifact_complete s input source = true)
    "source run provider artifact metadata is incomplete"
  return (s, recovery_run now input source task session budget, attempt, authority, policies)

/-- `create_factory_verification_recovery`. -/
def create_factory_verification_recovery (s : Db) (now : Int) (input : RecoveryInput) :
    Except String Db := do
  let (reason, revision) ← normalize_recovery input
  let _ ← context (s.run_task_mission input.corp_id input.source_run_id)
    "factory verification recovery source run was not found"
  ensure (∃ a ∈ s.actors, a.id = input.actor_id ∧ a.corp_id = input.corp_id)
    "forbidden: actor does not belong to this Corp"
  match s.factory_verification_recoveries.find? fun r =>
      r.corp_id == input.corp_id && r.idempotency_key == input.idempotency_key with
  | some r => replay_recovery s input reason r
  | none => do
    let item ← context (s.factory_work_item input.corp_id input.work_item_id)
      "factory work item not found"
    ensure_active_factory_control item input.actor_id input.claim_token
      input.expected_factory_version now
    let mission_id ← context item.mission_id
      "factory verification recovery requires a linked mission"
    let (source, task, mission, agent) ← context
      (recovery_row s input.corp_id mission_id input.source_run_id)
      "factory verification recovery source context was not found"
    ensure_factory_recovery_authorizer_tx s input.corp_id mission.id input.actor_id
    let (s, run, attempt, authority, policies) ←
      admit_recovery env s now input revision item source task mission agent
    let recovery_id := s.next_recovery_id
    let s ← start_recovery s input reason run task mission attempt authority policies
    announce_recovery s input recovery_id run mission

end Crony.Store
