/-
Human decisions: action approvals, manual verifications, and the runner commands that
carry a decision to the runner.

An approval that is decided too late is expired instead: that is committed although the
caller gets an error. A verification decision is the second way, besides `run.completed`,
for a run to complete.
-/
import Crony.Store.RunnerEvents

set_option autoImplicit false

open Crony.Lib

namespace Crony.Store

/-! ## Action approvals -/

/-- `ON CONFLICT (corp_id, idempotency_key) DO NOTHING` of `runner_commands`. -/
def insert_runner_command_once (s : Db) (c : RunnerCommand) : Db :=
  if s.runner_commands.any fun row =>
    row.corp_id == c.corp_id && row.idempotency_key == c.idempotency_key then s
  else s.onRunnerCommands (· ++ [{ c with id := s.next_command_id }])

def expiry_reason : String := "Action approval expired before an authorized decision."

/-- The status writes of an expired approval. -/
def Db.expire_run (s : Db) (approval : ActionApproval) : Db :=
  (((s.onRuns (updateWhere
    (fun r => r.id == approval.run_id && r.status == .waiting_for_approval) fun r =>
      { r with status := .cancelled, summary := some expiry_reason })).onTasks
    (updateWhere (fun t => t.id == approval.task_id && t.status == .awaiting_approval) fun t =>
      { t with status := .cancelled })).onMissions
    (updateWhere (fun m => m.id == approval.mission_id && m.status == .running) fun m =>
      { m with status := .cancelled })).onAgents
    (updateWhere
      (fun a => a.id == approval.agent_id && a.current_run_id == some approval.run_id)
      Agent.release)

/-- `expire_action_approval`. An approval that is not there, not pending or not due is left
alone. -/
def expire_action_approval (s : Db) (now : Int) (approval_id : Uuid) : Except String Db :=
  let due : Option (ActionApproval × Run) := do
    let approval ← s.action_approvals.find? fun p => p.id == approval_id
    let run ← s.run? approval.run_id
    guard (approval.status = .pending ∧ approval.expires_at ≤ now)
    return (approval, run)
  match due with
  | none => return s
  | some (approval, run) =>
    let s := s.onActionApprovals (updateWhere (fun p => p.id == approval_id) fun p =>
      { p with status := .expired, decision_note := some expiry_reason })
    let s := s.expire_run approval
    let s := insert_runner_command_once s
      { id := 0, corp_id := approval.corp_id, runner_id := run.runner_id, run_id := run.id
        command_kind := .approval_decision
        payload := .obj [("approval_id", .uuid approval_id), ("approved", .bool false),
          ("note", .str expiry_reason)]
        idempotency_key := .approval_expired approval_id }
    append_new_event_tx s
      { id := 0, corp_id := approval.corp_id, room_id := some approval.room_id
        type := .other "run.approval_expired", aggregate_type := .run, aggregate_id := run.id
        correlation_id := some approval.mission_id
        idempotency_key := .approval_expired approval_id }
      "approval expiry event unexpectedly existed"

structure ApprovalDecision where
  corp_id : Uuid
  approval_id : Uuid
  actor_id : Uuid
  approved : Bool
  note : String
  decision_key : Uuid
  deriving DecidableEq, Repr

/-- The status a decision asks for. -/
def requested_status (approved : Bool) : ApprovalStatus := if approved then .approved else .rejected

/-- The statements of a decision in time. -/
def record_action_decision (s : Db) (input : ApprovalDecision) (approval : ActionApproval)
    (run : Run) : Except String Db := do
  assert_room_membership_tx s input.corp_id approval.room_id input.actor_id
  let actor ← context (s.actor? input.corp_id input.actor_id) "no rows returned"
  ensure (actor.kind = .human ∧ actor.role ∈ approval.required_roles)
    ("forbidden: actor role " ++ actor.role ++ " cannot decide this approval")
  ensure (∀ p ∈ s.action_approvals, p.id ≠ approval.id →
      p.decision_key ≠ some input.decision_key)
    "duplicate key value violates unique constraint action_approvals_decision_key_key"
  let s := s.onActionApprovals (updateWhere (fun p => p.id == approval.id) fun p =>
    { p with
      status := requested_status input.approved
      decided_by := some input.actor_id
      decision_note := some (trim input.note)
      decision_key := some input.decision_key })
  let s ← insert_runner_command s
    { id := 0, corp_id := input.corp_id, runner_id := run.runner_id, run_id := run.id
      command_kind := .approval_decision
      payload := .obj [("approval_id", .uuid approval.id), ("approved", .bool input.approved),
        ("note", .str (trim input.note))]
      idempotency_key := .approval_decision approval.id input.decision_key }
  record_event_tx s
    { id := 0, corp_id := input.corp_id, actor_id := some input.actor_id
      type := .other "approval.decided", aggregate_type := .approval
      aggregate_id := approval.id
      idempotency_key := .approval_decision approval.id input.decision_key }

/-- `decide_action_approval`. -/
def decide_action_approval (s : Db) (now : Int) (input : ApprovalDecision) :
    Except String (Committed String Db Unit) := do
  ensure (byteLen (trim input.note) ≤ 1000)
    "approval decision note cannot exceed 1,000 characters"
  let approval ← context
    (s.action_approvals.find? fun p => p.id == input.approval_id && p.corp_id == input.corp_id)
    "action approval not found"
  let run ← context (s.run? approval.run_id) "action approval not found"
  if approval.status ≠ .pending then do
    ensure (approval.decision_key = some input.decision_key
        ∧ approval.status = requested_status input.approved)
      "approval was already decided"
    return { result := .ok (), state := s }
  else do
    ensure_run_not_hard_blocked_tx s now input.corp_id run.id run.breaker_stage "action approval"
    if approval.expires_at ≤ now then do
      let s ← expire_action_approval s now approval.id
      return { result := .error "approval request expired", state := s }
    else do
      let s ← record_action_decision s input approval run
      return { result := .ok (), state := s }

/-! ## Manual verification: `decide_verification` -/

structure VerificationDecision where
  corp_id : Uuid
  run_id : Uuid
  actor_id : Uuid
  approved : Bool
  note : String
  decision_key : Option Uuid
  deriving DecidableEq, Repr

/-- The select of `decide_verification`. -/
structure DecisionRow where
  request : VerificationRequest
  run : Run
  task : Task
  mission : Mission
  producer : Agent
  deriving DecidableEq, Repr

def decision_row (s : Db) (corp_id run_id : Uuid) : Option DecisionRow := do
  let request ← s.verification_requests.find? fun q => q.run_id == run_id && q.corp_id == corp_id
  let run ← s.run? request.run_id
  let task ← s.task? request.task_id
  let mission ← s.mission? task.mission_id
  let producer ← s.agent? run.agent_id
  return { request, run, task, mission, producer }

/-- The gate admits the actor: a human with one of its roles and, for an independent
review, neither the producer nor an excluded requester. -/
def gate_admits (gate : ManualVerificationGate) (actor : Actor) (requester producer : Uuid) :
    Prop :=
  actor.kind = .human ∧ actor.role ∈ gate.roles
    ∧ match gate with
      | .human_approval _ => True
      | .independent_review _ exclude_requester =>
        ¬ ((exclude_requester = true ∧ actor.id = requester) ∨ actor.id = producer)

instance (gate : ManualVerificationGate) (actor : Actor) (requester producer : Uuid) :
    Decidable (gate_admits gate actor requester producer) := by
  unfold gate_admits
  cases gate <;> exact inferInstance

/-- The decided status of a request. -/
def decision_status (approved : Bool) : RequestStatus := if approved then .approved else .rejected

/-- The stored note of a decision: an empty one is `NULL`. -/
def stored_note (note : String) : Option String := if trim note = "" then none else some (trim note)

/-- The approving branch. -/
def approve_verification (s : Db) (row : DecisionRow) (actor_id : Uuid) : Except String Db :=
  let s := s.onRuns (updateWhere (fun r => r.id == row.run.id) fun r =>
    { r with status := .completed, verification_status := .passed })
  let s := s.onTasks (updateWhere (fun t => t.id == row.task.id) fun t =>
    { t with status := .completed, verification_status := .passed })
  complete_task_tx s { run := row.run, task := row.task, mission := row.mission } (some actor_id)

/-- The rejecting branch. -/
def reject_verification (s : Db) (row : DecisionRow) (actor_id : Uuid) (note : String) :
    Except String Db :=
  let rejection := if trim note = "" then "verification rejected by an authorized reviewer"
    else trim note
  let s := s.fail_verification { run := row.run, task := row.task, mission := row.mission }
    rejection
  reconcile_factory_verification_failure_tx s row.run.corp_id row.mission.id row.mission.room_id
    row.run.id (some actor_id) rejection .manual_verification

/-- What the decision does to the run. -/
def apply_decision (s : Db) (input : VerificationDecision) (row : DecisionRow) :
    Except String Db :=
  if input.approved then approve_verification s row input.actor_id
  else reject_verification s row input.actor_id input.note

/-- The statements of a decision on a pending request. -/
def record_verification_decision (s : Db) (input : VerificationDecision) (row : DecisionRow) :
    Except String Db := do
  ensure (∀ q ∈ s.verification_requests, q.run_id ≠ input.run_id → q.corp_id = input.corp_id →
      input.decision_key.isSome → q.decision_key ≠ input.decision_key)
    "duplicate key value violates unique constraint verification_requests_decision_key_idx"
  let s := s.onVerificationRequests (updateWhere (fun q => q.run_id == input.run_id) fun q =>
    { q with
      status := decision_status input.approved
      decided_by := some input.actor_id
      decision_note := stored_note input.note
      decision_key := input.decision_key })
  let s ← apply_decision s input row
  let s := s.release_agent row.run.agent_id
  append_new_event_tx s
    { id := 0, corp_id := input.corp_id, room_id := some row.mission.room_id
      actor_id := some input.actor_id
      type := .other (if input.approved then "verification.approved" else "verification.rejected")
      aggregate_type := .run, aggregate_id := input.run_id
      correlation_id := some row.mission.id
      idempotency_key := .verification_decision input.run_id (decision_status input.approved) }
    "verification decision event unexpectedly existed"

/-- `decide_verification`. -/
def decide_verification (s : Db) (now : Int) (input : VerificationDecision) : Except String Db := do
  ensure (byteLen (trim input.note) ≤ 1000)
    "verification decision note cannot exceed 1,000 characters"
  let scope ← RunScope.read_tx s input.corp_id input.run_id
  let row ← context (decision_row s input.corp_id input.run_id)
    "pending verification request not found"
  scope.validate_tx s input.corp_id row.mission.id
  assert_room_membership_tx s input.corp_id row.mission.room_id input.actor_id
  let actor ← context (s.actor? input.corp_id input.actor_id) "verification actor not found"
  ensure (gate_admits row.request.gate actor row.mission.requested_by row.producer.actor_id)
    "forbidden: actor cannot decide this verification"
  if row.request.status ≠ .pending then do
    ensure (input.decision_key.isSome ∧ row.request.decision_key = input.decision_key
        ∧ row.request.status = decision_status input.approved
        ∧ row.request.decided_by = some input.actor_id
        ∧ row.request.decision_note = stored_note input.note)
      "verification request is no longer pending"
    return s
  else do
    ensure (row.run.status = .waiting_for_approval ∧ row.task.status = .awaiting_approval)
      "verification request is no longer pending"
    ensure_run_not_hard_blocked_tx s now input.corp_id input.run_id row.run.breaker_stage
      "verification decision"
    ensure (row.mission.status ∉ [.completed, .failed, .cancelled]) "mission is already settled"
    record_verification_decision s input row

/-! ## Settling runner commands -/

/-- The message a `control_message` command carries. -/
def command_message (c : RunnerCommand) : Except String (Option Uuid) :=
  if c.command_kind = .control_message then do
    let text ← context (c.payload.text? "message_id") "control message command omitted message_id"
    some <$> context (parse_str text) "control message id is invalid"
  else return none

/-- What `acknowledge_runner_command` and `fail_runner_command` share: a pending command
of the runner gets its final status, a control message its effect, and the journal an
event. -/
def settle_runner_command (s : Db) (command_id : Uuid) (runner_id : String)
    (settle : RunnerCommand → RunnerCommand) (message : QueuedMessage → QueuedMessage)
    (event_type : String) (key : EventKey) (existed : String) : Except String Db :=
  match s.runner_commands.find? fun c =>
      c.id == command_id && c.runner_id == runner_id && c.status == .pending with
  | none => return s
  | some command => do
    let s := s.onRunnerCommands (updateWhere
      (fun c => c.id == command_id && c.runner_id == runner_id && c.status == .pending) settle)
    let message_id ← command_message command
    let s := match message_id with
      | none => s
      | some id => s.onQueuedMessages (updateWhere
        (fun m => m.command_id == some command_id && m.corp_id == command.corp_id && m.id == id)
        message)
    let (run, _, mission) ← context (s.run_task_mission command.corp_id command.run_id)
      "no rows returned"
    append_new_event_tx s
      { id := 0, corp_id := command.corp_id, room_id := some mission.room_id
        type := .other event_type, aggregate_type := .run, aggregate_id := run.id
        correlation_id := some mission.id, idempotency_key := key }
      existed

/-- `acknowledge_runner_command`; a delivered control message only gets a timestamp. -/
def acknowledge_runner_command (s : Db) (command_id : Uuid) (runner_id : String) :
    Except String Db :=
  settle_runner_command s command_id runner_id (fun c => { c with status := .dispatched }) id
    "runner.command_acknowledged" (.runner_command_ack command_id)
    "runner command acknowledgment event unexpectedly existed"

/-- `fail_runner_command`. -/
def fail_runner_command (s : Db) (command_id : Uuid) (runner_id detail : String) :
    Except String Db :=
  let words := takeBytes 1000 ([' '].intercalate (split_whitespace detail.toList))
  let detail := if words.isEmpty then "runner rejected the durable command" else String.ofList words
  settle_runner_command s command_id runner_id
    (fun c => { c with status := .failed, failure_detail := some detail })
    (fun m => { m with status := .cancelled })
    "runner.command_failed" (.runner_command_failed command_id)
    "runner command failure event unexpectedly existed"

end Crony.Store
