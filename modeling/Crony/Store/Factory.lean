/-
What the run lifecycle does to Factory work items and verification recoveries.

A mission may belong to a Factory work item. Terminal and waiting runs of such a
mission are projected onto the item's state inside the same transaction, and the
projection can refuse: an item in a state it does not recognise makes the whole
transaction fail. These are `factory_run_failure.rs` and the `reconcile_*` and
`terminalize_*` functions of `lib.rs`.

`Env` holds the one function of a third-party crate that is compared with itself
only: the SHA-256 digest.
-/
import Crony.Store.Journal

set_option autoImplicit false

open Crony.Lib

namespace Crony.Store

/-- `json_sha256` is `hex::encode(Sha256::digest(serde_json::to_vec(&value)?))`. -/
structure Env where
  json_sha256 : Json → String

variable (env : Env)

/-! ## Normalising texts -/

/-- `normalize_factory_text`. -/
def normalize_factory_text (value field : String) (max_len : Nat) : Except String String := do
  let value := trim value
  ensure (value ≠ "") (field ++ " cannot be empty")
  ensure (byteLen value ≤ max_len) (field ++ " cannot exceed " ++ toString max_len ++ " bytes")
  ensure (value.toList.any is_control = false) (field ++ " cannot contain control characters")
  return value

/-- `normalize_factory_identifier`. -/
def normalize_factory_identifier (value field : String) (max_len : Nat) : Except String String := do
  let value ← normalize_factory_text value field max_len
  ensure (value.toList.any is_whitespace = false) (field ++ " cannot contain whitespace")
  return value

/-- `normalize_factory_idempotency_key`. -/
def normalize_factory_idempotency_key (value : String) : Except String String :=
  normalize_factory_identifier value "factory idempotency key" 240

/-! ## The scope of a run: `RunScope` -/

/-- `factory_work_items WHERE corp_id = $1 AND mission_id = $2`. -/
def Db.factory_item_of (s : Db) (corp_id mission_id : Uuid) : Option FactoryWorkItem :=
  s.factory_work_items.find? fun i => i.corp_id == corp_id && i.mission_id == some mission_id

/-- `factory_work_item_tx`. -/
def Db.factory_work_item (s : Db) (corp_id item_id : Uuid) : Option FactoryWorkItem :=
  s.factory_work_items.find? fun i => i.id == item_id && i.corp_id == corp_id

structure RunScope where
  mission_id : Uuid
  work_item_id : Option Uuid
  deriving DecidableEq, Repr

/-- `RunScope::read_tx`; `lock_tx` is the same read after taking the advisory locks. -/
def RunScope.read_tx (s : Db) (corp_id run_id : Uuid) : Except String RunScope := do
  let (_, _, mission) ← context (s.run_task_mission_scoped corp_id run_id)
    "run not found for Factory reconciliation"
  return {
    mission_id := mission.id
    work_item_id := (s.factory_item_of mission.corp_id mission.id).map FactoryWorkItem.id }

/-- `RunScope::validate_tx`. -/
def RunScope.validate_tx (scope : RunScope) (s : Db) (corp_id mission_id : Uuid) :
    Except String Unit :=
  ensure (scope.mission_id = mission_id
      ∧ scope.work_item_id = (s.factory_item_of corp_id mission_id).map FactoryWorkItem.id)
    "run Factory scope changed during authorization"

/-- `event_reconciles_factory`. -/
def event_reconciles_factory : EventType → Bool
  | .run_failed | .run_cancelled | .run_completed | .run_verification_failed
  | .run_verification_waiting => true
  | _ => false

/-! ## Ordinary run failures: `factory_run_failure.rs` -/

def FactoryWorkItemState.as_str : FactoryWorkItemState → String
  | .claimed => "claimed"
  | .mission_created => "mission_created"
  | .running => "running"
  | .blocked => "blocked"
  | .awaiting_approval => "awaiting_approval"
  | .verification_failed => "verification_failed"
  | .verified => "verified"
  | .publishing => "publishing"
  | .published => "published"
  | .failed => "failed"
  | .cancelled => "cancelled"

/-- `failure_authority_sha256`: lease columns are left out of the digest, source and
policy are not. -/
def failure_authority_sha256 (item : FactoryWorkItem) : String :=
  env.json_sha256 (.obj [
    ("corp_id", .uuid item.corp_id), ("work_item_id", .uuid item.id),
    ("mission_id", (item.mission_id.map Json.uuid).getD .null),
    ("source_kind", .str "github_project_issue"),
    ("source_project_owner", .str item.source.source_project_owner),
    ("source_project_number", .int item.source.source_project_number),
    ("source_project_item_id", .str item.source.source_project_item_id),
    ("source_repository_owner", .str item.source.source_repository_owner),
    ("source_repository_name", .str item.source.source_repository_name),
    ("source_issue_number", .int item.source_issue_number),
    ("source_issue_node_id", .str item.source.source_issue_node_id),
    ("source_issue_url", .str item.source.source_issue_url),
    ("source_title", .str item.source.source_title),
    ("source_revision", .str item.source_revision), ("policy", .str item.policy)])

/-- The payload of a `factory.blocked` event of an ordinary run failure. -/
def blocked_payload (item : FactoryWorkItem) (mission_id task_id run_id : Uuid)
    (detail : String) : Json :=
  .obj [("previous_state", .str (FactoryWorkItemState.as_str item.state)),
    ("state", .str "blocked"), ("mission_id", .uuid mission_id), ("task_id", .uuid task_id),
    ("run_id", .uuid run_id), ("cause", .str "ordinary_run_failure"),
    ("mission_status", .str "failed"), ("failure_detail", .str detail),
    ("failure_authority_sha256", .str (failure_authority_sha256 env item))]

/-- `reconcile_tx`. -/
def reconcile_tx (s : Db) (scope : RunScope) (corp_id room_id task_id run_id : Uuid)
    (reason : String) : Except String Db :=
  match scope.work_item_id with
  | none => return s
  | some item_id => do
    let mission ← context ((s.mission? scope.mission_id).filter fun m => m.corp_id == corp_id)
      "no rows returned"
    if mission.status ≠ .failed then return s else do
    let item ← context (s.factory_work_item corp_id item_id) "run Factory item disappeared"
    -- Verifier and publication outcomes and existing policy blocks are kept.
    if item.state ∉ [.claimed, .mission_created, .running, .awaiting_approval] then return s else do
    let detail := normalize_bounded_failure_reason reason "Runner reported failure"
    let s := s.onFactoryWorkItems (updateWhere
      (fun i => i.id == item_id && i.corp_id == corp_id && i.mission_id == some scope.mission_id)
      fun i => { i with state := .blocked, version := i.version + 1,
                        failure_detail := some detail })
    append_new_event_tx s
      { id := 0, corp_id, room_id := some room_id, type := .factory_blocked
        aggregate_type := .factory_work_item, aggregate_id := item_id
        aggregate_version := item.version + 1
        correlation_id := some scope.mission_id, causation_id := some run_id
        idempotency_key := .factory_run_failed item_id run_id
        payload := blocked_payload env item scope.mission_id task_id run_id detail }
      "Factory run-failure event unexpectedly existed"

structure FailureOrigin where
  run_id : Uuid
  version : Int
  deriving DecidableEq, Repr

/-- The latest event of the item, by version and then by sequence, that is not a lease
renewal. -/
def latest_item_event (s : Db) (item : FactoryWorkItem) : Option Event :=
  s.events.foldl (fun best e =>
    if e.corp_id == item.corp_id && e.aggregate_type == .factory_work_item
        && e.aggregate_id == item.id && decide (e.aggregate_version ≤ item.version)
        && !(e.type == .factory_claim_renewed) then
      match best with
      | none => some e
      | some b => if b.aggregate_version ≤ e.aggregate_version then some e else best
    else best) none

/-- A lease renewal by the item's owner that its own operation record confirms. -/
def is_native_renewal (s : Db) (item : FactoryWorkItem) (claim_token : Uuid) (version : Int)
    (e : Event) : Bool :=
  decide (version < e.aggregate_version) && e.type == .factory_claim_renewed
    && e.actor_id == some item.claim_owner_id
    && e.payload.text? "claim_owner_id" == some (uuid_text item.claim_owner_id)
    && e.payload.text? "state" == some "blocked"
    && s.factory_operations.any fun op =>
      op.corp_id == e.corp_id && op.work_item_id == e.aggregate_id
        && op.resulting_version == e.aggregate_version && some op.actor_id == e.actor_id
        && op.claim_token == some claim_token
        && op.request == .renew e.aggregate_id (e.aggregate_version - 1)

/-- The payload field is the JSON form of an optional text. -/
def field_is (payload : Json) (key : String) (value : Option String) : Bool :=
  match payload.get? key, value with
  | some (.str text), some value => text == value
  | some .null, none => true
  | _, _ => false

/-- `failure_origin_tx`. -/
def failure_origin_tx (s : Db) (item : FactoryWorkItem) (claim_token : Uuid) :
    Option FailureOrigin := do
  let event ← latest_item_event s item
  guard (event.type = .factory_blocked
    ∧ event.payload.text? "cause" = some "ordinary_run_failure"
    ∧ field_is event.payload "mission_id" (item.mission_id.map uuid_text)
    ∧ field_is event.payload "failure_detail" item.failure_detail
    ∧ event.payload.text? "failure_authority_sha256" = some (failure_authority_sha256 env item))
  let run_id ← (event.payload.text? "run_id").bind parse_str
  -- Every version after the failure must be exactly one native renewal.
  let chain := s.events.filter fun e =>
    e.corp_id == item.corp_id && e.aggregate_type == .factory_work_item
      && e.aggregate_id == item.id && decide (event.aggregate_version ≤ e.aggregate_version)
      && decide (e.aggregate_version ≤ item.version) && !(e.id == event.id)
  guard ((chain.length : Int) = item.version - event.aggregate_version
    ∧ ((chain.map Event.aggregate_version).dedup.length : Int)
        = item.version - event.aggregate_version
    ∧ chain.all (is_native_renewal s item claim_token event.aggregate_version))
  return { run_id, version := event.aggregate_version }

/-- `resume_tx`. -/
def resume_tx (s : Db) (scope : RunScope) (corp_id room_id source_run_id : Uuid)
    (source_status : RunStatus) (run_id actor_id : Uuid) : Except String Db :=
  match scope.work_item_id with
  | none => return s
  | some item_id => do
    let item ← context (s.factory_work_item corp_id item_id) "resume Factory item disappeared"
    ensure (item.state ∉ [.verified, .publishing, .published, .failed, .cancelled])
      ("native resume cannot reopen Factory outcome " ++ FactoryWorkItemState.as_str item.state)
    if item.state ≠ .blocked ∨ source_status ≠ .failed then return s else
    match failure_origin_tx env s item item.claim_token with
    | none => return s
    | some origin =>
      if origin.run_id ≠ source_run_id then return s else
      let s := s.onFactoryWorkItems (updateWhere
        (fun i => i.id == item_id && i.corp_id == corp_id && i.mission_id == some scope.mission_id)
        fun i => { i with state := .running, version := i.version + 1, failure_detail := none })
      append_new_event_tx s
        { id := 0, corp_id, room_id := some room_id, actor_id := some actor_id
          type := .other "factory.running"
          aggregate_type := .factory_work_item, aggregate_id := item_id
          aggregate_version := item.version + 1
          correlation_id := some scope.mission_id, causation_id := some run_id
          idempotency_key := .factory_resume item_id run_id }
        "Factory native-resume event unexpectedly existed"

/-- The failed run is the only assignment that can still own the agent's detached
review: the `EXISTS` of `release_failed_run_agent_tx`. -/
def owns_detached_review (s : Db) (corp_id agent_id run_id : Uuid) : Bool :=
  s.runs.any fun failed =>
    failed.id == run_id && failed.corp_id == corp_id && failed.agent_id == agent_id
      && failed.status == .failed
      && !(s.runs.any fun other =>
        other.corp_id == failed.corp_id && other.agent_id == failed.agent_id
          && !(other.id == failed.id)
          && (decide (failed.created_at ≤ other.created_at) || other.active))

/-- `UPDATE agents SET status = 'idle', station = NULL, current_run_id = NULL`. -/
def Agent.release (a : Agent) : Agent :=
  { a with status := .idle, station := none, current_run_id := none }

/-- `release_failed_run_agent_tx`. -/
def release_failed_run_agent_tx (s : Db) (corp_id agent_id run_id : Uuid) : Db :=
  match s.agents.find? fun a => a.id == agent_id && a.corp_id == corp_id with
  | none => s
  | some agent =>
    if agent.current_run_id ≠ some run_id
        ∧ (agent.current_run_id.isSome ∨ agent.status ≠ .reviewing
          ∨ owns_detached_review s corp_id agent_id run_id = false) then s
    else s.onAgents (updateWhere
      (fun a => a.id == agent_id && a.corp_id == corp_id
        && a.current_run_id == agent.current_run_id) Agent.release)

/-! ## Verification outcomes -/

/-- The run and its ancestors, `WITH RECURSIVE lineage`: `parent` is the join of the
recursive term. A chain without repetition is no longer than the table. -/
def lineage (parent : Run → Option Run) : Nat → Option Run → List Run
  | 0, _ => []
  | _, none => []
  | fuel + 1, some r => r :: lineage parent fuel (parent r)

/-- `status IN ('authorized', 'running')`. -/
def RecoveryStatus.is_active : RecoveryStatus → Bool
  | .authorized | .running => true
  | .completed | .failed => false

/-- The ancestors `reconcile_factory_verification_failure_tx` closes recoveries of. -/
def failure_lineage (s : Db) (corp_id run_id : Uuid) : List Run :=
  lineage (fun child => child.resumed_from_run_id.bind fun id =>
      (s.run? id).filter fun r => r.corp_id == corp_id)
    s.runs.length ((s.run? run_id).filter fun r => r.corp_id == corp_id)

/-- `reconcile_factory_verification_failure_tx`. -/
def reconcile_factory_verification_failure_tx (s : Db) (corp_id mission_id room_id run_id : Uuid)
    (actor_id : Option Uuid) (failure_detail : String) (cause : FailureCause) :
    Except String Db := do
  let failure_detail ←
    normalize_factory_text failure_detail "factory verification failure detail" 2000
  match s.factory_item_of corp_id mission_id with
  | none => return s
  | some current =>
    if current.state = .verification_failed then return s else
    -- Only explicit governed recovery may replace an existing block.
    if current.state = .blocked ∧ cause ≠ .recovery_admission then return s else do
    ensure (current.state ∈ [.mission_created, .running, .blocked, .awaiting_approval])
      ("factory verification failure cannot reconcile state "
        ++ FactoryWorkItemState.as_str current.state)
    let s := s.onFactoryWorkItems (updateWhere
      (fun i => i.id == current.id && i.corp_id == corp_id)
      fun i => { i with state := .verification_failed, version := i.version + 1
                        failure_detail := some failure_detail })
    let ids := (failure_lineage s corp_id run_id).map fun r => some r.id
    let s := s.onRecoveries (updateWhere
      (fun r => r.corp_id == corp_id && ids.contains r.replacement_run_id && r.status.is_active)
      fun r => { r with status := .failed })
    append_new_event_tx s
      { id := 0, corp_id, room_id := some room_id, actor_id
        type := .other "factory.verification_failed"
        aggregate_type := .factory_work_item, aggregate_id := current.id
        aggregate_version := current.version + 1
        correlation_id := some mission_id, causation_id := some run_id
        idempotency_key := .factory_verification_failed current.id run_id cause }
      "factory verification-failure event unexpectedly existed"

/-- `terminalize_factory_recovery_run_tx`. -/
def terminalize_factory_recovery_run_tx (s : Db) (corp_id recovery_id run_id task_id : Uuid)
    (mission_id room_id : Uuid) (summary : String) (run_status : RunStatus)
    (cause : FailureCause) : Except String Db := do
  ensure (run_status ∈ [.failed, .cancelled, .lost])
    "factory recovery terminal run status is unsupported"
  let s := s.onRuns (updateWhere (fun r => r.id == run_id) fun r =>
    { r with
      status := run_status
      verification_status := .failed
      verification_summary := some summary
      summary := some summary
      workspace_detail := if r.workspace_path.isNone ∧ run_status ≠ .lost
        then some "dispatch_not_started" else r.workspace_detail })
  let s := s.onTasks (updateWhere (fun t => t.id == task_id) fun t =>
    { t with status := .verification_failed, verification_status := .failed })
  let s := s.onMissions (updateWhere (fun m => m.id == mission_id) fun m =>
    { m with status := .failed })
  let note := "Recovery run terminated before approval: " ++ summary
  let s := s.onVerificationRequests (updateWhere
    (fun q => q.run_id == run_id && q.corp_id == corp_id && q.status == .pending)
    fun q => { q with status := .rejected
                      decision_note := some (String.ofList (note.toList.take 1000)) })
  let s := s.onRecoveries (updateWhere
    (fun r => r.id == recovery_id && r.corp_id == corp_id) fun r => { r with status := .failed })
  let s := s.onRunnerCommands (updateWhere
    (fun c => c.corp_id == corp_id && c.run_id == run_id
      && c.command_kind == .factory_verification_recovery)
    fun c => { c with status := .dispatched })
  reconcile_factory_verification_failure_tx s corp_id mission_id room_id run_id none summary cause

/-- `ensure_factory_mission_verified_tx`. -/
def ensure_factory_mission_verified_tx (s : Db) (corp_id mission_id : Uuid) :
    Except String Unit :=
  let tasks := s.tasks.filter fun t => t.mission_id == mission_id && t.corp_id == corp_id
  ensure ((∃ m ∈ s.missions, m.id = mission_id ∧ m.corp_id = corp_id ∧ m.status = .completed)
      ∧ tasks ≠ [] ∧ ∀ t ∈ tasks, t.status = .completed ∧ t.verification_status = .passed)
    "conflict: factory work item cannot enter verified before its mission and task verification pass"

/-- `reconcile_factory_verified_tx`. -/
def reconcile_factory_verified_tx (s : Db) (corp_id mission_id room_id run_id : Uuid)
    (actor_id : Option Uuid) : Except String Db :=
  match s.factory_item_of corp_id mission_id with
  | none => return s
  | some current =>
    -- A verification result is no authority to clear a source or policy block.
    if current.state = .verified ∨ current.state = .blocked then return s else do
    ensure (current.state ∈ [.mission_created, .running, .blocked, .awaiting_approval])
      ("factory verification approval cannot reconcile state "
        ++ FactoryWorkItemState.as_str current.state)
    ensure_factory_mission_verified_tx s corp_id mission_id
    let s := s.onFactoryWorkItems (updateWhere
      (fun i => i.id == current.id && i.corp_id == corp_id)
      fun i => { i with state := .verified, version := i.version + 1, failure_detail := none })
    append_new_event_tx s
      { id := 0, corp_id, room_id := some room_id, actor_id
        type := .other "factory.verified"
        aggregate_type := .factory_work_item, aggregate_id := current.id
        aggregate_version := current.version + 1
        correlation_id := some mission_id, causation_id := some run_id
        idempotency_key := .factory_verified current.id run_id }
      "factory verified event unexpectedly existed"

/-- `settle_successful_factory_recoveries_tx`. -/
def settle_successful_factory_recoveries_tx (s : Db) (corp_id run_id : Uuid) : Db :=
  let start := (s.run? run_id).filter fun run =>
    run.corp_id == corp_id && run.status == .completed && run.verification_status == .passed
      && s.tasks.any fun t => t.id == run.task_id && t.corp_id == run.corp_id
        && t.status == .completed && t.verification_status == .passed
  let settled := lineage (fun child => child.resumed_from_run_id.bind fun id =>
      (s.run? id).filter fun r => r.corp_id == corp_id && r.task_id == child.task_id
        && r.agent_id == child.agent_id && r.workspace_run_id == child.workspace_run_id)
    s.runs.length start
  s.onRecoveries (updateWhere
    (fun r => r.corp_id == corp_id && (settled.map fun l => some l.id).contains r.replacement_run_id
      && (settled.map Run.task_id).contains r.task_id && r.status.is_active)
    fun r => { r with status := .completed })

/-- `reconcile_factory_awaiting_approval_tx`. -/
def reconcile_factory_awaiting_approval_tx (s : Db) (corp_id mission_id room_id run_id : Uuid) :
    Except String Db :=
  match s.factory_item_of corp_id mission_id with
  | none => return s
  | some current =>
    if current.state = .awaiting_approval then return s else do
    let mission ← context ((s.mission? mission_id).filter fun m => m.corp_id == corp_id)
      "no rows returned"
    if mission.status ≠ .running ∨ current.state = .blocked then return s else do
    ensure (current.state ∈ [.mission_created, .running, .blocked])
      ("factory verification waiting cannot reconcile state "
        ++ FactoryWorkItemState.as_str current.state)
    let s := s.onFactoryWorkItems (updateWhere
      (fun i => i.id == current.id && i.corp_id == corp_id)
      fun i => { i with state := .awaiting_approval, version := i.version + 1
                        failure_detail := none })
    append_new_event_tx s
      { id := 0, corp_id, room_id := some room_id
        type := .other "factory.awaiting_approval"
        aggregate_type := .factory_work_item, aggregate_id := current.id
        aggregate_version := current.version + 1
        correlation_id := some mission_id, causation_id := some run_id
        idempotency_key := .factory_awaiting_approval current.id run_id }
      "factory awaiting-approval event unexpectedly existed"

end Crony.Store
