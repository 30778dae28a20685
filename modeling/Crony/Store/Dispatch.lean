/-
Runs that end without a report of their own: a dispatch that never reached the runner,
and a runner that is gone.

`fail_run_before_dispatch` may be replayed by an old callback; it re-reads the journal and
the latest run of the task before it fails anything. `mark_runner_runs_lost_tx` visits the
active runs of a runner in the order of their creation.
-/
import Crony.Store.RunnerEvents

set_option autoImplicit false

open Crony.Lib

namespace Crony.Store

/-- `UPDATE queued_messages SET status = 'queued', run_id = NULL WHERE run_id = $1 AND status =
'reserved'`. -/
def Db.requeue_messages (s : Db) (run_id : Uuid) : Db :=
  s.onQueuedMessages (updateWhere (fun m => m.run_id == some run_id && m.status == .reserved)
    fun m => { m with status := .queued, run_id := none })

/-! ## `fail_run_before_dispatch` -/

/-- The run reported a start or a session. -/
def run_has_started (s : Db) (corp_id run_id : Uuid) : Bool :=
  s.events.any fun e => e.corp_id == corp_id && e.aggregate_type == .run
    && e.aggregate_id == run_id && (e.type == .run_started || e.type == .run_session)

/-- The persisted state is that of an earlier call. -/
def is_dispatch_replay (run : Run) (task : Task) (mission : Mission) : Bool :=
  run.status == .failed && run.workspace_detail == some "dispatch_not_started"
    && task.status == .failed && mission.status == .failed

/-- The statements that fail the run, its task and its mission. -/
def fail_dispatch (s : Db) (corp_id : Uuid) (run : Run) (task : Task) (mission : Mission)
    (reason : String) : Except String Db :=
  let s := s.onRuns (updateWhere (fun r => r.id == run.id && r.corp_id == corp_id) fun r =>
    { r with status := .failed, summary := some reason
             workspace_detail := some "dispatch_not_started" })
  let s := s.onQueuedMessages (updateWhere
    (fun m => m.run_id == some run.id && m.corp_id == corp_id && m.status == .reserved) fun m =>
      { m with status := .queued, run_id := none })
  let s := s.onTasks (updateWhere (fun t => t.id == task.id && t.corp_id == corp_id) fun t =>
    { t with status := .failed })
  let s := s.onMissions (updateWhere (fun m => m.id == mission.id && m.corp_id == corp_id) fun m =>
    { m with status := .failed })
  let s := s.onAgents (updateWhere
    (fun a => a.id == run.agent_id && a.current_run_id == some run.id && a.corp_id == corp_id)
    Agent.release)
  record_event_tx s
    { id := 0, corp_id, room_id := some mission.room_id, type := .run_failed
      aggregate_type := .run, aggregate_id := run.id, correlation_id := some mission.id
      idempotency_key := .run_dispatch_failed run.id }

/-- The item of a failed dispatch, if there is one, is blocked once. -/
def block_undispatched_item (s : Db) (item : Option FactoryWorkItem) (mission : Mission)
    (run_id : Uuid) (reason : String) : Except String Db :=
  match item with
  | none => return s
  | some item =>
    if s.recorded item.corp_id (.factory_dispatch_failed item.id run_id) then return s else
    let s := s.onFactoryWorkItems (updateWhere
      (fun i => i.id == item.id && i.corp_id == item.corp_id) fun i =>
        { i with state := .blocked, version := i.version + 1, failure_detail := some reason })
    record_event_tx s
      { id := 0, corp_id := item.corp_id, room_id := some mission.room_id, type := .factory_blocked
        aggregate_type := .factory_work_item, aggregate_id := item.id
        aggregate_version := item.version + 1, correlation_id := some mission.id
        idempotency_key := .factory_dispatch_failed item.id run_id
        payload := .obj [("previous_state", .str (FactoryWorkItemState.as_str item.state)),
          ("state", .str "blocked"), ("mission_id", .uuid mission.id), ("run_id", .uuid run_id),
          ("failure_detail", .str reason), ("dispatch_not_started", .bool true)] }

/-- `fail_run_before_dispatch`. -/
def fail_run_before_dispatch (s : Db) (corp_id run_id : Uuid) (reason : String) :
    Except String Db := do
  let (run, task, mission) ← context (s.run_task_mission_scoped corp_id run_id)
    "run not found for dispatch failure"
  let replay := is_dispatch_replay run task mission
  let latest ← context (s.latest_run task.id corp_id) "no rows returned"
  if latest ≠ run_id ∨ run_has_started s corp_id run_id = true ∨ task.status = .completed
      ∨ mission.status = .completed ∨ mission.status = .cancelled
      ∨ (replay = false ∧ run.status ≠ .provisioning ∧ run.status ≠ .starting) then return s
  else do
    -- Final Factory outcomes are not downgraded by a failed resume.
    let item := (s.factory_item_of corp_id mission.id).filter fun i =>
      [FactoryWorkItemState.claimed, .mission_created, .running, .blocked, .awaiting_approval,
        .verification_failed].contains i.state
    let reason := normalize_bounded_failure_reason
      (if replay then run.summary.getD reason else reason)
      "run dispatch failed before provider start"
    let s ← if replay then .ok s else fail_dispatch s corp_id run task mission reason
    block_undispatched_item s item mission run_id reason

/-! ## `fail_factory_recovery_before_dispatch` -/

/-- `UPDATE runner_commands SET status = 'dispatched' WHERE … command_kind =
'factory_verification_recovery'`. -/
def Db.settle_recovery_command (s : Db) (corp_id run_id : Uuid) : Db :=
  s.onRunnerCommands (updateWhere
    (fun c => c.corp_id == corp_id && c.run_id == run_id
      && c.command_kind == .factory_verification_recovery) fun c =>
      { c with status := .dispatched })

/-- The status writes for an undispatched recovery run. -/
def Db.fail_recovery_run (s : Db) (corp_id : Uuid) (run : Run)
    (task_id mission_id recovery_id : Uuid)
    (reason : String) : Db :=
  { s with
    runs := updateWhere (fun r => r.id == run.id) (fun r =>
      { r with status := .failed, verification_status := .failed
               verification_summary := some reason, summary := some reason
               workspace_detail := some "dispatch_not_started" }) s.runs
    queued_messages := (s.requeue_messages run.id).queued_messages
    tasks := updateWhere (fun t => t.id == task_id) (fun t =>
      { t with status := .verification_failed, verification_status := .failed }) s.tasks
    missions := updateWhere (fun m => m.id == mission_id) (fun m =>
      { m with status := .failed }) s.missions
    agents := updateWhere (fun a => a.id == run.agent_id && a.current_run_id == some run.id)
      Agent.release s.agents
    factory_verification_recoveries := updateWhere
      (fun r => r.id == recovery_id && r.corp_id == corp_id) (fun r => { r with status := .failed })
      s.factory_verification_recoveries
    runner_commands := (s.settle_recovery_command corp_id run.id).runner_commands }

/-- The statements that fail an undispatched recovery run. -/
def fail_recovery_dispatch (s : Db) (corp_id : Uuid) (run : Run) (task : Task)
    (mission : Mission) (recovery_id : Uuid) (reason : String) : Except String Db := do
  let s := s.fail_recovery_run corp_id run task.id mission.id recovery_id reason
  let s ← append_new_event_tx s
    { id := 0, corp_id, room_id := some mission.room_id, type := .run_failed
      aggregate_type := .run, aggregate_id := run.id, correlation_id := some mission.id
      idempotency_key := .run_recovery_dispatch_failed run.id }
    "factory recovery dispatch-failure event unexpectedly existed"
  reconcile_factory_verification_failure_tx s corp_id mission.id mission.room_id run.id none reason
    .recovery_dispatch

/-- `fail_factory_recovery_before_dispatch`. -/
def fail_factory_recovery_before_dispatch (s : Db) (corp_id run_id : Uuid) (reason : String) :
    Except String Db := do
  let reason ← normalize_factory_text reason "factory recovery dispatch failure" 2000
  let (run, task, mission) ← context (s.run_task_mission corp_id run_id)
    "factory recovery run not found for dispatch failure"
  let recovery ← context (s.recovery_of corp_id run_id)
    "factory recovery run not found for dispatch failure"
  if recovery.status = .failed ∧ run.status = .failed then
    return s.settle_recovery_command corp_id run_id
  else do
    ensure (run.status = .provisioning ∨ run.status = .starting)
      "factory recovery dispatch failure cannot terminalize run state"
    fail_recovery_dispatch s corp_id run task mission recovery.id reason

/-! ## Lost runners: `mark_runner_runs_lost_tx` -/

structure LostRunner where
  runner_id : String
  excluded_run_ids : List Uuid
  created_before : Option Int
  reason : String
  deriving DecidableEq, Repr

/-- A recovery whose verifier or source correction never received its command waits for a
later dispatch. -/
def awaits_recovery_command (s : Db) (r : Run) : Bool :=
  r.workspace_path.isNone && s.runner_commands.any fun c =>
    c.run_id == r.id && c.corp_id == r.corp_id && c.runner_id == r.runner_id
      && c.command_kind == .factory_verification_recovery && c.status == .pending

/-- The runs the loss of a runner reaches, oldest first. -/
def lost_runs (s : Db) (input : LostRunner) : List Run :=
  (s.runs.filter fun r => r.runner_id == input.runner_id && r.active
      && (s.run_task_mission_scoped r.corp_id r.id).isSome
      && !input.excluded_run_ids.contains r.id
      && input.created_before.all (fun before => decide (r.created_at ≤ before))
      && !awaits_recovery_command s r).insertionSort
    fun a b => a.created_at < b.created_at ∨ (a.created_at = b.created_at ∧ a.id ≤ b.id)

/-- The `LEFT JOIN` on the recovery a run is exactly bound to. -/
def lost_recovery (s : Db) (r : Run) (mission_id : Uuid) : Option FactoryVerificationRecovery :=
  (s.recovery_of r.corp_id r.id).filter fun recovery =>
    recovery.task_id == r.task_id && recovery.mission_id == mission_id
      && recovery_mode_fits r recovery && recovery.status.is_active
      && r.resumed_from_run_id == some recovery.source_run_id
      && s.factory_work_items.any fun i => i.id == recovery.factory_work_item_id
        && i.corp_id == r.corp_id && i.mission_id == some mission_id

/-- The cause a lost recovery is reconciled with. -/
def loss_cause (mode : RecoveryMode) : FailureCause :=
  if mode = .source_correction then .source_correction_runner_lost else .verifier_runner_lost

/-- A row of the select: the run, its task and mission, and its recovery. -/
structure LostRow where
  run : Run
  task : Task
  mission : Mission
  recovery : Option FactoryVerificationRecovery
  deriving DecidableEq, Repr

def lost_rows (s : Db) (input : LostRunner) : List LostRow :=
  (lost_runs s input).filterMap fun r =>
    (s.run_task_mission r.corp_id r.id).map fun (run, task, mission) =>
      { run, task, mission, recovery := lost_recovery s r mission.id }

/-- The ordinary branch of a lost run. -/
def Db.lose_run (s : Db) (row : LostRow) (reason : String) : Db :=
  ((s.onRuns (updateWhere (fun r => r.id == row.run.id) fun r =>
    { r with status := .lost, summary := some reason })).onTasks
    (updateWhere (fun t => t.id == row.task.id) fun t =>
      { t with status := .blocked })).settle_mission row.mission.id .failed

/-- What the loss does to the run. -/
def end_lost_run (s : Db) (row : LostRow) (reason : String) : Except String Db :=
  match row.recovery with
  | some recovery =>
    terminalize_factory_recovery_run_tx s row.run.corp_id recovery.id row.run.id row.task.id
      row.mission.id row.mission.room_id reason .lost (loss_cause recovery.mode)
  | none => .ok (s.lose_run row reason)

/-- The statements for one lost run. -/
def lose_run_tx (s : Db) (row : LostRow) (reason : String) : Except String Db := do
  let s ← end_lost_run s row reason
  let s := s.requeue_messages row.run.id
  let s := s.release_agent row.run.agent_id
  record_event_tx s
    { id := 0, corp_id := row.run.corp_id, room_id := some row.mission.room_id
      type := .other "run.lost", aggregate_type := .run, aggregate_id := row.run.id
      correlation_id := some row.mission.id, idempotency_key := .run_lost row.run.id }

/-- One turn of the loop; a durable human review survives its runner. -/
def lose_row (now : Int) (reason : String) (s : Db) (row : LostRow) : Except String Db := do
  let ready ← review_ready_tx s now row.run.corp_id row.run.id
  if ready then return s else lose_run_tx s row reason

/-- `mark_runner_runs_lost_tx`. -/
def mark_runner_runs_lost_tx (s : Db) (now : Int) (input : LostRunner) : Except String Db :=
  (lost_rows s input).foldlM (lose_row now input.reason) s

end Crony.Store
