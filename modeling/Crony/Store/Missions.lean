/-
Missions and their Factory work items: how a task graph comes into being, alone or for
a work item, and how an operator moves the item afterwards.

The plan has been validated by the server; what the store itself checks is embedded
here. Whether a plan fits the item's policy document is decided by
`validate_factory_plan_against_policy` before anything is written; `policy_allows`
carries that verdict.
-/
import Crony.Store.Factory

set_option autoImplicit false

open Crony.Lib

namespace Crony.Store

/-! ## Plans -/

structure PlannedAgent where
  id : Uuid
  name : String
  role : String
  adapter : String
  accent : String
  deriving DecidableEq, Repr

structure PlannedTask where
  key : String
  assigned_agent_id : Uuid
  required_adapter : String
  depends_on : List String
  depth : Int
  max_attempts : Int
  contract : ContractDocument
  verification_policy : VerificationPolicy
  deriving DecidableEq, Repr

structure TaskGraphPlan where
  max_nodes : Int
  max_depth : Int
  budget_tokens : Int
  budget_cost_microusd : Int
  tasks : List PlannedTask
  staffing : List PlannedAgent
  deriving DecidableEq, Repr

/-- `TaskContract::normalize_for_adapter`. -/
def TaskContract.normalize_for_adapter (c : ContractDocument) (adapter : String) :
    ContractDocument :=
  if adapter = "fake-process" then { c with model := none, reasoning_effort := none } else c

/-- `value.replace("\r\n", "\n").replace('\r', "\n")`. -/
def unix_newlines : List Char → List Char
  | '\r' :: '\n' :: cs => '\n' :: unix_newlines cs
  | '\r' :: cs => '\n' :: unix_newlines cs
  | c :: cs => c :: unix_newlines cs
  | [] => []

/-- `normalize_mission_description`. -/
def normalize_mission_description (value : String) : Except String String := do
  let value := trim (String.ofList (unix_newlines value.toList))
  ensure (byteLen value ≤ 100000) "mission description cannot exceed 100000 bytes"
  ensure (value.toList.any (fun c => is_control c && !(c == '\n') && !(c == '\t')) = false)
    "mission description cannot contain unsupported control characters"
  return value

/-- A metadata text of a provisional worker. -/
def valid_staffing_text (value : String) (limit : Nat) : Bool :=
  value != "" && value == trim value && decide (byteLen value ≤ limit)
    && !value.toList.any is_control

/-- `validate_staffing`. -/
def validate_staffing (plan : TaskGraphPlan) : Except String Unit := do
  ensure (plan.staffing.length ≤ 8 ∧ plan.staffing.length ≤ plan.tasks.length)
    "mission staffing exceeds the bounded task graph"
  ensure ((plan.staffing.map PlannedAgent.id).Nodup ∧ ∀ a ∈ plan.staffing, a.id ≠ 0)
    "mission staffing contains an invalid or duplicate identity"
  ensure (∀ a ∈ plan.staffing, valid_staffing_text a.name 80 = true
      ∧ valid_staffing_text a.role 64 = true ∧ valid_staffing_text a.adapter 64 = true
      ∧ valid_staffing_text a.accent 32 = true)
    "mission staffing metadata is invalid"
  ensure (∀ a ∈ plan.staffing, (∃ t ∈ plan.tasks, t.assigned_agent_id = a.id)
      ∧ ∀ t ∈ plan.tasks, t.assigned_agent_id = a.id → t.required_adapter = a.adapter)
    "provisional worker is unused or mismatches its assigned runtime"

/-! ## `create_mission_tx` -/

structure CreateMissionInput where
  corp_id : Uuid
  requested_by : Uuid
  title : String
  description : String
  room_id : Uuid
  plan : TaskGraphPlan
  deriving DecidableEq, Repr

/-- The identifiers the transaction draws. -/
def Db.next_mission_id (s : Db) : Uuid := s.new_v4 (s.missions.map Mission.id)

def Db.planned_task_id (s : Db) (index : Nat) : Uuid := s.uuids.draw (s.tasks.map Task.id) index

/-- The identifier of the planned task with this key. -/
def Db.planned_task_of_key (s : Db) (plan : TaskGraphPlan) (key : String) : Option Uuid :=
  (plan.tasks.findIdx? fun t => t.key == key).map s.planned_task_id

/-- An agent a task of the new mission may be assigned to. -/
def agent_assignable (s : Db) (input : CreateMissionInput) (mission_id : Uuid) (a : Agent) : Bool :=
  a.corp_id == input.corp_id && a.retired_at.isNone
    && (a.mission_id.isNone || a.mission_id == some mission_id || a.pinned)
    && (a.mission_id.isNone || a.mission_id == some mission_id
      || s.missions.any fun m => a.mission_id == some m.id && m.corp_id == input.corp_id
        && m.room_id == input.room_id
        && s.room_memberships.any fun rm =>
          rm.room_id == m.room_id && rm.actor_id == input.requested_by)

/-- The row of a planned task. -/
def planned_task_row (s : Db) (input : CreateMissionInput) (mission_id : Uuid)
    (t : PlannedTask) (index : Nat) : Task :=
  { id := s.planned_task_id index, corp_id := input.corp_id, mission_id
    status := if t.depends_on.isEmpty then .ready else .pending
    contract := TaskContract.normalize_for_adapter t.contract t.required_adapter
    verification_policy := t.verification_policy
    assigned_agent_id := some t.assigned_agent_id
    required_adapter := some t.required_adapter
    max_attempts := t.max_attempts }

/-- The rows of `task_dependencies`. -/
def planned_dependencies (s : Db) (plan : TaskGraphPlan) : Option (List TaskDependency) := do
  let rows ← plan.tasks.zipIdx.mapM fun (t, index) => t.depends_on.mapM fun key => do
    let parent ← s.planned_task_of_key plan key
    return { task_id := s.planned_task_id index, depends_on_task_id := parent }
  return rows.flatten

/-- `persist_staffing_tx`: an actor, a membership and an idle agent for each provisional
worker. A clash with an existing agent rolls the graph back. -/
def persist_staffing_tx (s : Db) (input : CreateMissionInput) (mission_id : Uuid) :
    Except String Db := do
  ensure (∀ p ∈ input.plan.staffing, ∀ a ∈ s.agents, a.id ≠ p.id)
    "duplicate key value violates unique constraint agents_pkey"
  let worker_id := s.uuids.draw (s.actors.map Actor.id)
  let workers := input.plan.staffing.zipIdx
  let s := s.onActors (· ++ workers.map fun (p, i) =>
    { id := worker_id i, corp_id := input.corp_id, kind := .agent, role := p.role })
  let s := s.onRoomMemberships (· ++ workers.map fun (_, i) =>
    { room_id := input.room_id, actor_id := worker_id i })
  let s := s.onAgents (· ++ workers.map fun (p, i) =>
    { id := p.id, corp_id := input.corp_id, actor_id := worker_id i, adapter := p.adapter
      mission_id := some mission_id })
  input.plan.staffing.foldlM (fun s p => record_event_tx s
    { id := 0, corp_id := input.corp_id, room_id := some input.room_id
      actor_id := some input.requested_by, type := .other "agent.staffed"
      aggregate_type := .agent, aggregate_id := p.id, correlation_id := some mission_id
      idempotency_key := .agent_staffed p.id }) s

/-- `create_mission_tx`. -/
def create_mission_tx (s : Db) (input : CreateMissionInput) : Except String (Uuid × Db) := do
  let _ ← normalize_factory_text input.title "mission title" 240
  let description ← normalize_mission_description input.description
  assert_mission_operator_tx s input.corp_id input.requested_by
  validate_staffing input.plan
  assert_room_membership_tx s input.corp_id input.room_id input.requested_by
  ensure (1 ≤ input.plan.max_nodes ∧ input.plan.max_nodes ≤ 32 ∧ 0 ≤ input.plan.max_depth
      ∧ input.plan.max_depth ≤ 8 ∧ 1 ≤ input.plan.budget_tokens
      ∧ input.plan.budget_tokens ≤ 20000000)
    "new row violates check constraint missions_graph_limits_check"
  let mission_id := s.next_mission_id
  let base := s
  let s := s.onMissions (· ++ [
    { id := mission_id, corp_id := input.corp_id, room_id := input.room_id
      requested_by := input.requested_by, status := .ready
      budget_tokens := input.plan.budget_tokens
      budget_cost_microusd := input.plan.budget_cost_microusd, description }])
  let s ← append_new_event_tx s
    { id := 0, corp_id := input.corp_id, room_id := some input.room_id
      actor_id := some input.requested_by, type := .other "mission.created"
      aggregate_type := .mission, aggregate_id := mission_id
      correlation_id := some mission_id, idempotency_key := .mission_created mission_id }
    "mission created event unexpectedly existed"
  let s ← persist_staffing_tx s input mission_id
  ensure (∀ t ∈ input.plan.tasks, ∃ a ∈ s.agents, a.id = t.assigned_agent_id
      ∧ agent_assignable s input mission_id a = true ∧ a.adapter = t.required_adapter)
    "planned task references an agent outside the Corp"
  ensure ((input.plan.tasks.map PlannedTask.key).Nodup
      ∧ ∀ t ∈ input.plan.tasks, 0 ≤ t.depth ∧ t.depth ≤ 8 ∧ 1 ≤ t.max_attempts ∧ t.max_attempts ≤ 5)
    "new row violates check constraint tasks_execution_limits_check"
  let s := s.onTasks (· ++ input.plan.tasks.zipIdx.map fun (t, index) =>
    planned_task_row base input mission_id t index)
  let s ← input.plan.tasks.zipIdx.foldlM (fun s (_, index) => append_new_event_tx s
    { id := 0, corp_id := input.corp_id, room_id := some input.room_id
      actor_id := some input.requested_by, type := .other "task.created"
      aggregate_type := .task, aggregate_id := base.planned_task_id index
      correlation_id := some mission_id
      idempotency_key := .task_created (base.planned_task_id index) }
    "task created event unexpectedly existed") s
  let dependencies ← context (planned_dependencies base input.plan) "unknown planned dependency"
  ensure (dependencies.Nodup ∧ ∀ d ∈ dependencies, d.task_id ≠ d.depends_on_task_id)
    "new row violates check constraint task_dependencies_check"
  let s := s.onTaskDependencies (· ++ dependencies)
  let s ← append_new_event_tx s
    { id := 0, corp_id := input.corp_id, room_id := some input.room_id
      actor_id := some input.requested_by, type := .other "mission.planned"
      aggregate_type := .mission, aggregate_id := mission_id
      correlation_id := some mission_id, idempotency_key := .mission_planned mission_id }
    "mission planned event unexpectedly existed"
  return (mission_id, s)

/-- `create_mission`. -/
def create_mission (s : Db) (input : CreateMissionInput) : Except String Db := do
  let (_, s) ← create_mission_tx s input
  return s

/-! ## Control of a work item -/

/-- `factory_state_is_terminal`. -/
def factory_state_is_terminal : FactoryWorkItemState → Bool
  | .published | .failed | .cancelled => true
  | _ => false

/-- `factory_transition_allowed`. -/
def factory_transition_allowed (source target : FactoryWorkItemState) : Bool :=
  match source with
  | .claimed => target ∈ [FactoryWorkItemState.blocked, .failed, .cancelled]
  | .mission_created => target ∈ [FactoryWorkItemState.running, .blocked, .awaiting_approval,
      .verification_failed, .verified, .failed, .cancelled]
  | .running => target ∈ [FactoryWorkItemState.blocked, .awaiting_approval, .verification_failed,
      .verified, .failed, .cancelled]
  | .blocked => target ∈ [FactoryWorkItemState.running, .awaiting_approval, .verification_failed,
      .verified, .failed, .cancelled]
  | .awaiting_approval => target ∈ [FactoryWorkItemState.running, .blocked, .verification_failed,
      .verified, .failed, .cancelled]
  | .verification_failed => target ∈ [FactoryWorkItemState.blocked, .failed, .cancelled]
  | .verified => target ∈ [FactoryWorkItemState.publishing, .published, .failed, .cancelled]
  | .publishing => target ∈ [FactoryWorkItemState.verified, .published, .failed, .cancelled]
  | .published | .failed | .cancelled => false

/-- `ensure_active_factory_control`. -/
def ensure_active_factory_control (item : FactoryWorkItem) (actor_id presented_token : Uuid)
    (expected_version now : Int) : Except String Unit := do
  ensure (factory_state_is_terminal item.state = false) "conflict: factory work item is terminal"
  ensure (item.claim_owner_id = actor_id ∧ item.claim_token = presented_token)
    "conflict: stale or unauthorized factory claim token"
  ensure (item.version = expected_version) "conflict: factory work item version changed"
  ensure (now < item.lease_expires_at) "conflict: factory claim lease has expired"

/-- The operation recorded under an idempotency key. -/
def Db.factory_operation (s : Db) (corp_id : Uuid) (key : String) : Option FactoryOperation :=
  s.factory_operations.find? fun op => op.corp_id == corp_id && op.idempotency_key == key

/-- `ensure_factory_operation_matches`: a replayed key must repeat its request. -/
def ensure_factory_operation_matches (op : FactoryOperation) (actor_id work_item_id : Uuid)
    (claim_token : Uuid) (request : OperationRequest) : Except String Unit :=
  ensure (op.actor_id = actor_id ∧ op.work_item_id = work_item_id
      ∧ op.claim_token = some claim_token ∧ op.request = request)
    "conflict: factory idempotency key was reused for a different operation"

structure MaterializeInput where
  mission : CreateMissionInput
  work_item_id : Uuid
  claim_token : Uuid
  expected_version : Int
  idempotency_key : String
  request : String
  policy_allows : Bool
  deriving DecidableEq, Repr

/-- `materialize_factory_mission`. -/
def materialize_factory_mission (s : Db) (now : Int) (input : MaterializeInput) :
    Except String Db := do
  ensure (0 < input.expected_version) "expected factory work-item version must be positive"
  let _ ← normalize_factory_text input.mission.title "mission title" 240
  let idempotency_key ← normalize_factory_idempotency_key input.idempotency_key
  let corp_id := input.mission.corp_id
  let actor_id := input.mission.requested_by
  ensure (∃ a ∈ s.actors, a.id = actor_id ∧ a.corp_id = corp_id)
    "forbidden: actor does not belong to this Corp"
  match s.factory_operation corp_id idempotency_key with
  | some op => do
    ensure_factory_operation_matches op actor_id input.work_item_id input.claim_token
      (.materialize input.request)
    return s
  | none => do
    let current ← context (s.factory_work_item corp_id input.work_item_id)
      "factory work item not found"
    ensure_active_factory_control current actor_id input.claim_token input.expected_version now
    ensure (current.state = .claimed ∧ current.mission_id = none)
      "conflict: factory work item cannot materialize"
    ensure (input.policy_allows = true) "factory plan does not satisfy the persisted policy"
    let (mission_id, s) ← create_mission_tx s input.mission
    let s := s.onFactoryWorkItems (updateWhere
      (fun i => i.id == input.work_item_id && i.corp_id == corp_id)
      fun i => { i with state := .mission_created, version := i.version + 1
                        mission_id := some mission_id, failure_detail := none })
    let s := s.onFactoryOperations (· ++ [
      { corp_id, idempotency_key, work_item_id := input.work_item_id
        actor_id, resulting_version := current.version + 1
        claim_token := some input.claim_token, request := .materialize input.request }])
    append_new_event_tx s
      { id := 0, corp_id, room_id := some input.mission.room_id, actor_id := some actor_id
        type := .other "factory.mission_linked", aggregate_type := .factory_work_item
        aggregate_id := input.work_item_id, aggregate_version := current.version + 1
        correlation_id := some mission_id
        idempotency_key := .factory_mission input.work_item_id mission_id }
      "factory mission-link event unexpectedly existed"

structure TransitionInput where
  corp_id : Uuid
  actor_id : Uuid
  work_item_id : Uuid
  claim_token : Uuid
  expected_version : Int
  state : FactoryWorkItemState
  failure_detail : Option String
  idempotency_key : String
  deriving DecidableEq, Repr

/-- The failure detail of a transition, normalised. -/
def normalize_failure_detail (detail : Option String) : Except String (Option String) :=
  match detail with
  | none => pure none
  | some detail => some <$> normalize_factory_text detail "factory failure detail" 2000

/-- An item with a mission enters `verified` only when the mission is. -/
def ensure_transition_verified (s : Db) (corp_id : Uuid) (state : FactoryWorkItemState)
    (mission_id : Option Uuid) : Except String Unit :=
  match state, mission_id with
  | .verified, some mission_id => ensure_factory_mission_verified_tx s corp_id mission_id
  | _, _ => pure ()

/-- The room of the item's mission, if it has one. -/
def transition_room (s : Db) (corp_id : Uuid) (mission_id : Option Uuid) :
    Except String (Option Uuid) :=
  match mission_id with
  | none => pure none
  | some mission_id => do
    let m ← context ((s.mission? mission_id).filter fun m => m.corp_id == corp_id)
      "factory mission has no scoped room"
    return some m.room_id

/-- `transition_factory_work_item`. -/
def transition_factory_work_item (s : Db) (now : Int) (input : TransitionInput) :
    Except String Db := do
  ensure (0 < input.expected_version) "expected factory work-item version must be positive"
  ensure (input.state ∉ [.claimed, .mission_created, .publishing, .published])
    "claim, materialization, and publication states require their dedicated operations"
  let detail ← normalize_failure_detail input.failure_detail
  ensure (input.state ∈ [.blocked, .verification_failed, .failed] → detail.isSome)
    "blocked and failed factory states require a failure detail"
  let idempotency_key ← normalize_factory_idempotency_key input.idempotency_key
  ensure (∃ a ∈ s.actors, a.id = input.actor_id ∧ a.corp_id = input.corp_id)
    "forbidden: actor does not belong to this Corp"
  let request := OperationRequest.transition input.work_item_id input.expected_version input.state
    detail
  match s.factory_operation input.corp_id idempotency_key with
  | some op => do
    ensure_factory_operation_matches op input.actor_id input.work_item_id input.claim_token request
    return s
  | none => do
    let current ← context (s.factory_work_item input.corp_id input.work_item_id)
      "factory work item not found"
    ensure_active_factory_control current input.actor_id input.claim_token input.expected_version
      now
    ensure (factory_transition_allowed current.state input.state = true)
      "conflict: factory transition is not allowed"
    ensure (current.mission_id.isSome ∨ input.state ∈ [.blocked, .failed, .cancelled])
      "conflict: factory work item must link a mission first"
    ensure_transition_verified s input.corp_id input.state current.mission_id
    let s := s.onFactoryWorkItems (updateWhere
      (fun i => i.id == input.work_item_id && i.corp_id == input.corp_id)
      fun i => { i with
        state := input.state
        version := i.version + 1
        failure_detail := detail
        lease_expires_at := if i.mission_id.isNone ∧ input.state = .blocked then now - 1
          else i.lease_expires_at })
    let s := s.onFactoryOperations (· ++ [
      { corp_id := input.corp_id, idempotency_key
        work_item_id := input.work_item_id, actor_id := input.actor_id
        resulting_version := current.version + 1, claim_token := some input.claim_token, request }])
    let room_id ← transition_room s input.corp_id current.mission_id
    append_new_event_tx s
      { id := 0, corp_id := input.corp_id, room_id, actor_id := some input.actor_id
        type := .other "factory.state_changed", aggregate_type := .factory_work_item
        aggregate_id := input.work_item_id, aggregate_version := current.version + 1
        correlation_id := current.mission_id
        idempotency_key := .factory_state input.work_item_id input.state (current.version + 1) }
      "factory state-change event unexpectedly existed"

end Crony.Store
