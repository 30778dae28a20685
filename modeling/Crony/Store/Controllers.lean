/-
The Factory controllers: `factory_controller.rs`.

A controller is the durable record of one `crony factory-watch` process: its project
and repository, the generation of reconciliation it was asked for and the one it has
completed, the work item it says it is on, and the polling state that makes it wait for
the upstream service. `configure_factory_controller` registers a process,
`heartbeat_factory_controller` reports its progress, `control_factory_controller` is the
operator's pause, resume and reconcile. The two tables are read by nothing else, so the
state here is the database of the lifecycle with the two tables beside it.

The document of a request is the value it is built from: equal documents have equal
fields.
-/
import Crony.Polling
import Crony.Store.Journal
import Crony.Lib.Transition

set_option autoImplicit false

open Crony.Lib

namespace Crony.Store

/-! ## Polling -/

/-- The checks of a quota observation in `validate_polling_update`. -/
def validate_quota_observation (prior : FactoryPollingState) (quota : GithubGraphqlQuota)
    (now : Int) : Except String Unit := do
  let latest_reset ← context (quota.observed_at.checked_add_signed (TimeDelta.seconds (7 * 86400)))
    "GraphQL observation timestamp is out of range"
  let earliest_reset ← context (quota.observed_at.checked_add_signed (-TimeDelta.seconds (5 * 60)))
    "GraphQL observation timestamp is out of range"
  ensure (quota.limit ≠ 0 ∧ quota.limit ≤ 1000000000 ∧ quota.remaining ≤ quota.limit
      ∧ quota.cost ≤ 1000000000 ∧ quota.observed_at.val ≤ now + TimeDelta.seconds (5 * 60)
      ∧ quota.reset_at ≤ latest_reset ∧ earliest_reset ≤ quota.reset_at)
    "invalid GraphQL quota observation"
  ensure (∀ old ∈ prior.graphql, old.observed_at ≤ quota.observed_at)
    "GraphQL quota observations cannot move backwards"

/-- `validate_polling_update`. -/
def validate_polling_update (prior next : FactoryPollingState) (now : Int) :
    Except String Unit := do
  ensure (next.next_retry_at.isSome = next.retry_reason.isSome ∧ next.consecutive_failures ≤ 32)
    "invalid bounded factory polling state"
  -- An unexpired wait stands until it is over.
  ensure (∀ required ∈ prior.next_retry_at, now < required.val →
      ∃ proposed ∈ next.next_retry_at, required ≤ proposed)
    "factory polling update cannot shorten an outstanding retry wait"
  match next.graphql with
  | none => return ()
  | some quota => validate_quota_observation prior quota now

def quota_json (quota : GithubGraphqlQuota) : Json :=
  .obj [("limit", .int quota.limit), ("remaining", .int quota.remaining),
    ("cost", .int quota.cost), ("reset_at", .int quota.reset_at.val),
    ("observed_at", .int quota.observed_at.val)]

def polling_json (polling : FactoryPollingState) : Json :=
  .obj [("next_retry_at", (polling.next_retry_at.map fun t => Json.int t.val).getD .null),
    ("retry_reason", (polling.retry_reason.map fun r => Json.str r.as_str).getD .null),
    ("consecutive_failures", .int polling.consecutive_failures),
    ("graphql", (polling.graphql.map quota_json).getD .null)]

/-! ## The two tables -/

inductive DesiredState where
  | running | paused
  deriving DecidableEq, Repr

def DesiredState.as_str : DesiredState → String
  | .running => "running"
  | .paused => "paused"

inductive ReconcileResult where
  | succeeded | failed
  deriving DecidableEq, Repr

def ReconcileResult.as_str : ReconcileResult → String
  | .succeeded => "succeeded"
  | .failed => "failed"

/-- A row of `factory_controllers`; a `polling_state` of `none` is the default document
`{}` of the column, which reads as the default polling state. -/
structure FactoryController where
  id : Uuid
  corp_id : Uuid
  service_actor_id : Uuid
  configured_by : Uuid
  source_project_owner : String
  source_project_number : Int
  source_repository_owner : String
  source_repository_name : String
  desired_state : DesiredState := .running
  version : Int := 1
  connection_epoch : Uuid
  lease_expires_at : Int
  last_heartbeat_at : Int
  reconcile_generation : Int := 0
  completed_reconcile_generation : Int := 0
  active_work_item_id : Option Uuid := none
  reconcile_started_at : Option Int := none
  last_reconciled_at : Option Int := none
  last_reconcile_result : Option ReconcileResult := none
  last_error : Option String := none
  polling_state : Option FactoryPollingState := none
  deriving DecidableEq, Repr

/-- `serde_json::from_value(row.get("polling_state"))`. -/
def FactoryController.polling (c : FactoryController) : FactoryPollingState :=
  c.polling_state.getD {}

/-- The columns of the `UNIQUE` constraint. -/
def FactoryController.scope (c : FactoryController) : Uuid × String × Int × String × String :=
  (c.corp_id, c.source_project_owner, c.source_project_number, c.source_repository_owner,
    c.source_repository_name)

inductive ControllerStatus where
  | offline | backing_off | blocked | working | watching
  deriving DecidableEq, Repr

/-- The `status` of `map_factory_controller`, whose rows here have `false AS needs_decision`. -/
def FactoryController.status (c : FactoryController) (now : Int) : ControllerStatus :=
  if c.lease_expires_at ≤ now then .offline
  else if ∃ retry_at ∈ c.polling.next_retry_at, now < retry_at.val then .backing_off
  else if c.last_reconcile_result = some .failed ∨ c.last_error.isSome = true then .blocked
  else if c.active_work_item_id.isSome = true then .working
  else .watching

inductive ControllerAction where
  | pause | resume | reconcile
  deriving DecidableEq, Repr

def ControllerAction.as_str : ControllerAction → String
  | .pause => "pause"
  | .resume => "resume"
  | .reconcile => "reconcile"

structure ConfigureFactoryControllerInput where
  corp_id : Uuid
  actor_id : Uuid
  controller_id : Uuid
  source_project_owner : String
  source_project_number : Int
  source_repository_owner : String
  source_repository_name : String
  connection_epoch : Uuid
  lease_seconds : Int
  idempotency_key : String
  deriving DecidableEq, Repr

structure HeartbeatFactoryControllerInput where
  corp_id : Uuid
  actor_id : Uuid
  controller_id : Uuid
  connection_epoch : Uuid
  lease_seconds : Int
  active_work_item_id : Option Uuid := none
  completed_reconcile_generation : Option Int := none
  reconcile_result : Option String := none
  error : Option String := none
  polling : Option FactoryPollingState := none
  nonce : Uuid
  deriving DecidableEq, Repr

structure ControlFactoryControllerInput where
  corp_id : Uuid
  actor_id : Uuid
  controller_id : Uuid
  expected_version : Int
  action : String
  idempotency_key : String
  deriving DecidableEq, Repr

/-- The stored `request` documents. -/
inductive ControllerRequest where
  | configure (controller_id : Uuid) (source_project_owner : String)
      (source_project_number : Int) (source_repository_owner source_repository_name : String)
      (connection_epoch : Uuid) (lease_seconds : Int)
  | control (controller_id : Uuid) (expected_version : Int) (action : String)
  deriving DecidableEq, Repr

structure FactoryControllerOperation where
  corp_id : Uuid
  controller_id : Uuid
  idempotency_key : String
  actor_id : Uuid
  operation : String
  request : ControllerRequest
  resulting_version : Int
  deriving DecidableEq, Repr

/-- The database with the tables of the controllers. -/
structure Watch extends Db where
  factory_controllers : List FactoryController := []
  factory_controller_operations : List FactoryControllerOperation := []

/-- `FactoryControllerOutcome`, and the committed state. -/
structure FactoryControllerOutcome where
  controller : FactoryController
  status : ControllerStatus
  event : Option Event
  replayed : Bool
  state : Watch

/-! ## Validation -/

/-- `validate_lease_seconds`. -/
def validate_lease_seconds (value : Int) : Except String Unit :=
  ensure (10 ≤ value ∧ value ≤ 300) "factory controller lease seconds must be between 10 and 300"

/-- `validate_component`. -/
def validate_component (value label : String) : Except String Unit :=
  ensure (trim value ≠ "" ∧ byteLen value ≤ 100
      ∧ (value.toList.all fun c => c.isAlphanum || c == '-' || c == '_' || c == '.') = true)
    (label ++ " is invalid")

/-- `validate_idempotency_key`. -/
def validate_idempotency_key (value : String) : Except String Unit :=
  ensure (trim value ≠ "" ∧ byteLen value ≤ 256)
    "factory controller idempotency key is invalid"

/-- `sanitize_error`. -/
def sanitize_error (value : String) : Except String String := do
  let sanitized := String.ofList ([' '].intercalate (split_whitespace value.toList))
  ensure (byteLen sanitized ≤ 2000) "factory controller error exceeds 2000 bytes"
  return sanitized

/-- `input.error.as_deref().map(sanitize_error).transpose()`. -/
def sanitized_error : Option String → Except String (Option String)
  | none => return none
  | some error => some <$> sanitize_error error

/-- The result a heartbeat may report. -/
def reconcile_result_of : Option String → Except String (Option ReconcileResult)
  | none => return none
  | some "succeeded" => return some .succeeded
  | some "failed" => return some .failed
  | some _ => throw "factory controller reconcile result must be succeeded or failed"

/-- The action a control request may name. -/
def controller_action_of : String → Except String ControllerAction
  | "pause" => return .pause
  | "resume" => return .resume
  | "reconcile" => return .reconcile
  | _ => throw "unknown factory controller control action"

/-! ## Queries -/

/-- `controller_for_update_tx`. -/
def Watch.controller_for_update_tx (s : Watch) (corp_id controller_id : Uuid) :
    Option FactoryController :=
  s.factory_controllers.find? fun c => c.id == controller_id && c.corp_id == corp_id

/-- `replay_operation_tx`. -/
def Watch.replay_operation_tx (s : Watch) (corp_id : Uuid) (idempotency_key operation : String)
    (request : ControllerRequest) : Except String (Option FactoryController) :=
  match s.factory_controller_operations.find? fun o =>
      o.corp_id == corp_id && o.idempotency_key == idempotency_key with
  | none => return none
  | some row => do
    ensure (row.operation = operation ∧ row.request = request)
      "factory controller idempotency key was reused with another request"
    some <$> context (s.controller_for_update_tx corp_id row.controller_id)
      "factory controller operation lost its controller"

/-- The work item belongs to the Corp, project and repository: the `EXISTS` of the
heartbeat. -/
def Db.item_belongs (s : Db) (scope : Uuid × String × Int × String × String)
    (work_item_id : Uuid) : Prop :=
  ∃ item ∈ s.factory_work_items, item.id = work_item_id
    ∧ (item.corp_id, item.source.source_project_owner, item.source.source_project_number,
        item.source.source_repository_owner, item.source.source_repository_name) = scope

instance (s : Db) (scope : Uuid × String × Int × String × String) (work_item_id : Uuid) :
    Decidable (s.item_belongs scope work_item_id) :=
  inferInstanceAs (Decidable (∃ item ∈ s.factory_work_items, item.id = work_item_id
    ∧ (item.corp_id, item.source.source_project_owner, item.source.source_project_number,
        item.source.source_repository_owner, item.source.source_repository_name) = scope))

/-! ## Writes -/

/-- A write to `factory_controllers`. -/
def Watch.onControllers (s : Watch) (f : List FactoryController → List FactoryController) : Watch :=
  { s with factory_controllers := f s.factory_controllers }

/-- A write to the tables of the lifecycle. -/
def Watch.onDb (s : Watch) (db : Db) : Watch := { s with toDb := db }

/-- `record_operation_tx`. -/
def Watch.record_operation_tx (s : Watch) (operation : FactoryControllerOperation) : Watch :=
  { s with factory_controller_operations := s.factory_controller_operations ++ [operation] }

/-- `append_event_tx` of an event with an identifier of its own. -/
def Watch.append_event_tx (s : Watch) (event : Event) : Except String (Option Event × Watch) := do
  let (event, db) ← Store.append_event_tx s.toDb { event with id := s.toDb.next_event_id }
  return (event, s.onDb db)

/-- The text of a violated `UNIQUE` constraint. -/
def scope_taken : String :=
  "duplicate key value violates unique constraint on the scope of factory_controllers"

def ConfigureFactoryControllerInput.scope (input : ConfigureFactoryControllerInput) :
    Uuid × String × Int × String × String :=
  (input.corp_id, input.source_project_owner, input.source_project_number,
    input.source_repository_owner, input.source_repository_name)

def ConfigureFactoryControllerInput.request (input : ConfigureFactoryControllerInput) :
    ControllerRequest :=
  .configure input.controller_id input.source_project_owner input.source_project_number
    input.source_repository_owner input.source_repository_name input.connection_epoch
    input.lease_seconds

/-- The inserted row. -/
def ConfigureFactoryControllerInput.inserted (input : ConfigureFactoryControllerInput)
    (now : Int) : FactoryController where
  id := input.controller_id
  corp_id := input.corp_id
  service_actor_id := input.actor_id
  configured_by := input.actor_id
  source_project_owner := input.source_project_owner
  source_project_number := input.source_project_number
  source_repository_owner := input.source_repository_owner
  source_repository_name := input.source_repository_name
  connection_epoch := input.connection_epoch
  lease_expires_at := now + TimeDelta.seconds input.lease_seconds
  last_heartbeat_at := now

/-- `ON CONFLICT (id) DO UPDATE SET …`: the state, the generations, the work item and the
polling state of the row stay. -/
def ConfigureFactoryControllerInput.updated (input : ConfigureFactoryControllerInput)
    (now : Int) (c : FactoryController) : FactoryController :=
  { c with
    service_actor_id := input.actor_id
    configured_by := input.actor_id
    source_project_owner := input.source_project_owner
    source_project_number := input.source_project_number
    source_repository_owner := input.source_repository_owner
    source_repository_name := input.source_repository_name
    connection_epoch := input.connection_epoch
    lease_expires_at := now + TimeDelta.seconds input.lease_seconds
    last_heartbeat_at := now
    last_error := none
    version := c.version + 1 }

/-- The recorded operation. -/
def ConfigureFactoryControllerInput.operation (input : ConfigureFactoryControllerInput)
    (controller : FactoryController) : FactoryControllerOperation where
  corp_id := input.corp_id
  controller_id := input.controller_id
  idempotency_key := input.idempotency_key
  actor_id := input.actor_id
  operation := "configure"
  request := input.request
  resulting_version := controller.version

/-- The `factory.controller_configured` event. -/
def ConfigureFactoryControllerInput.event (input : ConfigureFactoryControllerInput)
    (controller : FactoryController) : Event where
  id := 0
  corp_id := input.corp_id
  actor_id := some input.actor_id
  type := .other "factory.controller_configured"
  aggregate_type := .factory_controller
  aggregate_id := input.controller_id
  aggregate_version := controller.version
  idempotency_key := .controller_operation input.controller_id "configure" input.idempotency_key
  payload := .obj [("desired_state", .str controller.desired_state.as_str),
    ("source_project_owner", .str controller.source_project_owner),
    ("source_project_number", .int controller.source_project_number),
    ("source_repository_owner", .str controller.source_repository_owner),
    ("source_repository_name", .str controller.source_repository_name),
    ("lease_expires_at", .int controller.lease_expires_at)]

/-- `INSERT INTO factory_controllers … ON CONFLICT (id) DO UPDATE … WHERE corp_id =
EXCLUDED.corp_id RETURNING …`, with the foreign key and the unique key of the table. -/
def Watch.upsert_controller (s : Watch) (now : Int) (input : ConfigureFactoryControllerInput) :
    Except String (FactoryController × Watch) := do
  ensure (∃ a ∈ s.actors, a.id = input.actor_id)
    "insert or update violates foreign key constraint on service_actor_id"
  ensure (∀ c ∈ s.factory_controllers, c.id ≠ input.controller_id → c.scope ≠ input.scope)
    scope_taken
  match s.factory_controllers.find? fun c => c.id == input.controller_id with
  | none => return (input.inserted now, s.onControllers (· ++ [input.inserted now]))
  | some c => do
    ensure (c.corp_id = input.corp_id) "factory controller id belongs to another Corp"
    return (input.updated now c, s.onControllers (updateWhere
      (fun d => d.id == input.controller_id && d.corp_id == input.corp_id) (input.updated now)))

/-! ## The operations -/

/-- `configure_factory_controller`. -/
def configure_factory_controller (s : Watch) (now : Int)
    (input : ConfigureFactoryControllerInput) : Except String FactoryControllerOutcome := do
  validate_lease_seconds input.lease_seconds
  validate_component input.source_project_owner "source project owner"
  validate_component input.source_repository_owner "source repository owner"
  validate_component input.source_repository_name "source repository name"
  validate_idempotency_key input.idempotency_key
  ensure (0 < input.source_project_number) "source project number must be positive"
  match ← s.replay_operation_tx input.corp_id input.idempotency_key "configure" input.request with
  | some controller =>
    return { controller, status := controller.status now, event := none, replayed := true
             state := s }
  | none => do
    let (controller, s) ← s.upsert_controller now input
    let s := s.record_operation_tx (input.operation controller)
    let (event, s) ← s.append_event_tx (input.event controller)
    return { controller, status := controller.status now, event, replayed := false, state := s }

/-- What the `UPDATE` of a heartbeat binds, besides its input. -/
structure HeartbeatColumns where
  now : Int
  next_completed : Int
  result : Option ReconcileResult
  error : Option String
  polling : FactoryPollingState

/-- `polling.next_retry_at.is_none_or(|retry| retry <= now)`. -/
def HeartbeatColumns.ready (b : HeartbeatColumns) : Bool :=
  b.polling.next_retry_at.all fun retry => decide (retry.val ≤ b.now)

/-- The `SET` clause of a heartbeat. -/
def HeartbeatFactoryControllerInput.updated (input : HeartbeatFactoryControllerInput)
    (b : HeartbeatColumns) (c : FactoryController) : FactoryController :=
  { c with
    lease_expires_at := b.now + TimeDelta.seconds input.lease_seconds
    last_heartbeat_at := b.now
    active_work_item_id := input.active_work_item_id
    completed_reconcile_generation := b.next_completed
    reconcile_started_at :=
      if b.next_completed < c.reconcile_generation ∧ c.reconcile_started_at = none
          ∧ c.desired_state = .running ∧ b.ready = true then some b.now
      else if b.next_completed = c.reconcile_generation then none
      else c.reconcile_started_at
    last_reconciled_at :=
      if c.completed_reconcile_generation < b.next_completed ∨ b.result.isSome = true then
        some b.now
      else c.last_reconciled_at
    last_reconcile_result := b.result.or c.last_reconcile_result
    last_error := b.error
    polling_state := some b.polling }

/-- The columns whose change a heartbeat reports. -/
def FactoryController.reported (c : FactoryController) :=
  (c.active_work_item_id, c.completed_reconcile_generation, c.last_reconcile_result, c.last_error,
    c.polling_state)

/-- The event of a heartbeat that changed something. -/
def Watch.report_status (s : Watch) (input : HeartbeatFactoryControllerInput)
    (current controller : FactoryController) : Except String (Option Event × Watch) :=
  if current.reported = controller.reported then return (none, s)
  else s.append_event_tx
    { id := 0, corp_id := input.corp_id, actor_id := some input.actor_id
      type := .other "factory.controller_status_changed", aggregate_type := .factory_controller
      aggregate_id := input.controller_id, aggregate_version := controller.version
      idempotency_key := .controller_status input.controller_id input.nonce
      payload := .obj [
        ("active_work_item_id", (controller.active_work_item_id.map Json.uuid).getD .null),
        ("completed_reconcile_generation", .int controller.completed_reconcile_generation),
        ("last_reconcile_result",
          (controller.last_reconcile_result.map fun r => Json.str r.as_str).getD .null),
        ("last_error", (controller.last_error.map Json.str).getD .null),
        ("polling", polling_json controller.polling)] }

/-- `heartbeat_factory_controller`. -/
def heartbeat_factory_controller (s : Watch) (now : Int)
    (input : HeartbeatFactoryControllerInput) : Except String FactoryControllerOutcome := do
  validate_lease_seconds input.lease_seconds
  let error ← sanitized_error input.error
  let result ← reconcile_result_of input.reconcile_result
  let current ← context (s.controller_for_update_tx input.corp_id input.controller_id)
    "factory controller does not exist"
  ensure (current.service_actor_id = input.actor_id)
    "factory controller heartbeat actor does not match its service identity"
  ensure (current.connection_epoch = input.connection_epoch)
    "factory controller connection epoch is stale"
  let next_completed :=
    input.completed_reconcile_generation.getD current.completed_reconcile_generation
  ensure (current.completed_reconcile_generation ≤ next_completed
      ∧ next_completed ≤ current.reconcile_generation)
    "factory controller reconciliation completion is outside the authorized generation"
  ensure (input.reconcile_result.isSome = true →
      input.completed_reconcile_generation.isSome = true)
    "factory controller reconcile result requires a completed generation"
  ensure (∀ work_item_id ∈ input.active_work_item_id,
      s.toDb.item_belongs (input.corp_id, current.scope.2) work_item_id)
    "factory controller active work item does not belong to its Corp/Project/repository"
  let polling := input.polling.getD current.polling
  validate_polling_update current.polling polling now
  let columns : HeartbeatColumns := { now, next_completed, result, error, polling }
  let s := s.onControllers (updateWhere (fun c => c.id == input.controller_id
    && c.corp_id == input.corp_id && c.connection_epoch == input.connection_epoch)
    (input.updated columns))
  let controller := input.updated columns current
  let (event, s) ← s.report_status input current controller
  return { controller, status := controller.status now, event, replayed := false, state := s }

/-- The `SET` clause of a control request. -/
def ControllerAction.updated (action : ControllerAction) (c : FactoryController) :
    FactoryController :=
  let desired_state := match action with
    | .pause => .paused
    | .resume => .running
    | .reconcile => c.desired_state
  let request_reconcile := action = .resume ∨ action = .reconcile
  { c with
    desired_state
    reconcile_generation := c.reconcile_generation + if request_reconcile then 1 else 0
    reconcile_started_at := if request_reconcile then none else c.reconcile_started_at
    last_error := if desired_state = .running then none else c.last_error
    version := c.version + 1 }

/-- `control_factory_controller`. -/
def control_factory_controller (s : Watch) (now : Int)
    (input : ControlFactoryControllerInput) : Except String FactoryControllerOutcome := do
  validate_idempotency_key input.idempotency_key
  let action ← controller_action_of input.action
  let request := .control input.controller_id input.expected_version input.action
  match ← s.replay_operation_tx input.corp_id input.idempotency_key input.action request with
  | some controller =>
    return { controller, status := controller.status now, event := none, replayed := true
             state := s }
  | none => do
    let current ← context (s.controller_for_update_tx input.corp_id input.controller_id)
      "factory controller does not exist"
    ensure (current.version = input.expected_version)
      ("factory controller version changed: expected " ++ toString input.expected_version
        ++ ", current " ++ toString current.version)
    let controller := action.updated current
    let s := s.onControllers (updateWhere (fun c => c.id == input.controller_id
      && c.corp_id == input.corp_id && c.version == input.expected_version) action.updated)
    ensure (∃ a ∈ s.actors, a.id = input.actor_id)
      "insert or update violates foreign key constraint on actor_id"
    let s := s.record_operation_tx
      { corp_id := input.corp_id, controller_id := input.controller_id
        idempotency_key := input.idempotency_key, actor_id := input.actor_id
        operation := input.action, request, resulting_version := controller.version }
    let (event, s) ← s.append_event_tx
      { id := 0, corp_id := input.corp_id, actor_id := some input.actor_id
        type := .other ("factory.controller_" ++ input.action)
        aggregate_type := .factory_controller, aggregate_id := input.controller_id
        aggregate_version := controller.version
        idempotency_key :=
          .controller_operation input.controller_id input.action input.idempotency_key
        payload := .obj [("desired_state", .str controller.desired_state.as_str),
          ("reconcile_generation", .int controller.reconcile_generation)] }
    return { controller, status := controller.status now, event, replayed := false, state := s }

/-! ## The system -/

inductive ControllerOp where
  | configure (now : Int) (input : ConfigureFactoryControllerInput)
  | heartbeat (now : Int) (input : HeartbeatFactoryControllerInput)
  | control (now : Int) (input : ControlFactoryControllerInput)
  deriving DecidableEq, Repr

/-- The clock the operation reads. -/
def ControllerOp.now : ControllerOp → Int
  | .configure now _ | .heartbeat now _ | .control now _ => now

/-- The committed state of an operation, or the error that rolled it back. -/
def Watch.exec (s : Watch) : ControllerOp → Except String Watch
  | .configure now input =>
    FactoryControllerOutcome.state <$> configure_factory_controller s now input
  | .heartbeat now input =>
    FactoryControllerOutcome.state <$> heartbeat_factory_controller s now input
  | .control now input =>
    FactoryControllerOutcome.state <$> control_factory_controller s now input

/-- No controller has been configured; the rest of the database is arbitrary. -/
structure Watch.Initial (s : Watch) : Prop where
  factory_controllers : s.factory_controllers = []
  factory_controller_operations : s.factory_controller_operations = []

/-- The transition system of the controllers. -/
def controllers : TransitionSystem Watch ControllerOp := .ofExec Watch.Initial Watch.exec

end Crony.Store
