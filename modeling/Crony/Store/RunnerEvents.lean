/-
`apply_runner_event`: what a runner may report, and what each report does.

The method has two halves. The first finds the run by its full assignment (corp, run,
agent, runner, token), checks that the event is admissible for it, and journals the
event; a key the journal already has ends the method with nothing changed. The second
is a case split on the event type, one function per type here. A case may still fail,
which also takes the journalled event back.
-/
import Crony.Store.Breaker

set_option autoImplicit false

open Crony.Lib

namespace Crony.Store

variable (env : Env)

/-! ## The report and the row it is about -/

structure RunnerEventInput where
  event_id : Uuid
  runner_id : String
  corp_id : Uuid
  run_id : Uuid
  agent_id : Uuid
  assignment_token : Uuid
  event_type : EventType
  payload : Json

/-- The run, its task and its mission: the row the method selects. -/
structure RunnerRow where
  run : Run
  task : Task
  mission : Mission
  deriving DecidableEq, Repr

/-- The run carries the full assignment of the report. -/
def Run.assigned (r : Run) (input : RunnerEventInput) : Bool :=
  r.id == input.run_id && r.corp_id == input.corp_id && r.agent_id == input.agent_id
    && r.runner_id == input.runner_id && r.assignment_token == input.assignment_token

/-- The reports a terminal run still accepts. -/
def is_terminal_report : EventType → Bool
  | .run_workspace_preserved | .run_workspace_removed | .run_session_terminated => true
  | _ => false

/-- The select of `apply_runner_event`. -/
def runner_event_row (s : Db) (input : RunnerEventInput) : Option RunnerRow :=
  ((s.run_task_mission_scoped input.corp_id input.run_id).filter fun row =>
    row.1.assigned input
      && (row.1.active || (is_terminal_report input.event_type && row.1.status.is_terminal))).map
    fun row => { run := row.1, task := row.2.1, mission := row.2.2 }

/-! ## Checks before the journal -/

/-- The requester query of a `run.usage` report. -/
def usage_matches_active_run (s : Db) (input : RunnerEventInput) : Bool :=
  (s.run_task_mission input.corp_id input.run_id).any fun row =>
    row.1.assigned input && row.1.active

/-- The adapters of the run's journalled starts, each once. -/
def started_adapters (s : Db) (corp_id run_id : Uuid) : List (Option String) :=
  ((s.events.filter fun e => e.corp_id == corp_id && e.aggregate_id == run_id
      && e.aggregate_type == .run && e.type == .run_started).map fun e =>
    e.payload.text? "adapter").dedup

/-- `validate_termination`. -/
def validate_termination (payload : Json) (adapter : String) (execution_mode : ExecutionMode) :
    Except String Unit :=
  ensure (execution_mode = .provider
      ∧ payload.as_object.any (fun fields => fields.all fun field =>
          ["adapter", "outcome", "provider_process_alive", "message"].contains field.1) = true
      ∧ adapter ≠ ""
      ∧ payload.text? "adapter" = some adapter
      ∧ payload.bool? "provider_process_alive" = some false
      ∧ (payload.text? "outcome").any
          (["completed", "cancelled", "failed", "runtime_error"].contains ·) = true
      ∧ (∀ message ∈ payload.get? "message", message.as_str.any (fun text =>
          trim text != "" && byteLen text ≤ 1024 && !text.toList.any is_control) = true))
    "invalid native provider-termination evidence"

/-- `validate_termination_tx`. -/
def validate_termination_tx (s : Db) (row : RunnerRow) (payload : Json) : Except String Unit := do
  let adapter ← context
    (match row.task.required_adapter, started_adapters s row.run.corp_id row.run.id with
      | some adapter, [] => some adapter
      | some adapter, [some started] => if adapter = started then some adapter else none
      | none, [some started] => some started
      | _, _ => none)
    "provider-termination assignment adapter is unproven"
  validate_termination payload adapter row.run.execution_mode

/-- The durable artifact of `sanitize_verification_evidence_tx`: the run's own, or for a
verification-only run the one of the source run its recovery names. -/
def evidence_artifact (s : Db) (run : Run) : Option Artifact :=
  s.artifacts.find? fun a =>
    run.artifact_id == some a.id && a.corp_id == run.corp_id && a.task_id == run.task_id
      && a.status == .ready && a.artifact_role == .provider_evidence
      && (a.run_id == run.id
        || (run.execution_mode == .verification_only
          && s.factory_verification_recoveries.any fun r =>
            r.replacement_run_id == some run.id && r.corp_id == run.corp_id
              && r.task_id == run.task_id && r.status.is_active
              && s.runs.any fun source =>
                source.id == r.source_run_id && source.corp_id == run.corp_id
                  && source.task_id == run.task_id
                  && source.workspace_run_id == run.workspace_run_id
                  && source.artifact_id == some a.id))

/-- The evidence document that replaces the runner's own for an artifact check. -/
def artifact_evidence_payload (a : Artifact) : Json :=
  .obj [("artifact_id", .uuid a.id), ("uri", .str a.uri), ("sha256", .str a.sha256),
    ("bytes", .int a.bytes), ("media_type", .str a.media_type),
    ("producer_agent_id", .uuid a.producer_agent_id),
    ("producer_runner_id", .str a.producer_runner_id), ("verifier", .str a.verifier),
    ("retention_until", .int a.retention_until),
    ("provenance_signature", .str a.provenance_signature)]

/-- The reported digest, size and media type are those of the artifact. -/
def evidence_names_artifact (payload : Json) (a : Artifact) : Except String Unit := do
  let evidence ← context ((payload.get? "payload").bind fun v => v.as_object.map Json.obj)
    "artifact verification evidence omitted payload"
  let sha256 ← context (evidence.text? "sha256") "artifact verification evidence omitted sha256"
  let bytes ← context ((evidence.get? "bytes").bind Json.as_u64)
    "artifact verification evidence omitted bytes"
  let media_type ← context (evidence.text? "media_type")
    "artifact verification evidence omitted media_type"
  ensure (sha256 = a.sha256 ∧ (bytes : Int) = a.bytes ∧ (bytes : Int) ≤ i64_max
      ∧ media_type = a.media_type)
    "artifact verification evidence does not match durable storage"

/-- What durable storage says about an artifact check: the summary and the document. -/
def stored_evidence (s : Db) (run : Run) (payload : Json) (status : String) :
    Except String (String × Json) :=
  match evidence_artifact s run with
  | some a =>
    if status = "passed" then do
      evidence_names_artifact payload a
      return ("durable artifact " ++ uuid_text a.id ++ " has " ++ toString a.bytes
        ++ " verified bytes", artifact_evidence_payload a)
    else
      return ("durable artifact " ++ uuid_text a.id ++ " has " ++ toString a.bytes
        ++ " verified bytes", artifact_evidence_payload a)
  | none => do
    ensure (status ≠ "passed") "artifact verification evidence passed without durable storage"
    return ("durable artifact verification failed", Json.obj [("stored", .bool false)])

/-- `sanitize_verification_evidence_tx`: for an artifact check the runner's document is
replaced by what durable storage says. -/
def sanitize_verification_evidence_tx (s : Db) (run : Run) (payload : Json) :
    Except String Json :=
  if payload.text? "kind" ≠ some "artifact" then return payload
  else do
    let status ← context (payload.text? "status") "artifact verification evidence omitted status"
    let (summary, sanitized) ← stored_evidence s run payload status
    let fields ← context payload.as_object "verification evidence payload is not an object"
    return .obj (Json.insertField (Json.insertField fields "summary" (.str summary))
      "payload" sanitized)

/-- The Factory scope a reconciling event is authorised in. -/
def runner_event_scope (s : Db) (input : RunnerEventInput) : Except String (Option RunScope) :=
  if event_reconciles_factory input.event_type
  then some <$> RunScope.read_tx s input.corp_id input.run_id else pure none

def validate_runner_event_scope (s : Db) (input : RunnerEventInput) (row : RunnerRow)
    (scope : Option RunScope) : Except String Unit :=
  match scope with
  | some scope => scope.validate_tx s input.corp_id row.mission.id
  | none => pure ()

/-- The termination evidence of a `run.session_terminated` report. -/
def validate_runner_session (s : Db) (input : RunnerEventInput) (row : RunnerRow) :
    Except String Unit :=
  if input.event_type = .run_session_terminated then validate_termination_tx s row input.payload
  else pure ()

/-- The gate of the events that advance a run. -/
def ensure_runner_progress (s : Db) (now : Int) (input : RunnerEventInput) (row : RunnerRow) :
    Except String Unit :=
  if runner_event_advances_run input.event_type then do
    ensure (row.run.workspace_disposition ≠ some .quarantined)
      "quarantined workspace cannot accept run progress"
    ensure_run_not_hard_blocked_tx s now input.corp_id input.run_id row.run.breaker_stage
      ("run event " ++ input.event_type.as_str)
  else pure ()

/-- The payload that is journalled. -/
def runner_event_payload (s : Db) (input : RunnerEventInput) (row : RunnerRow) :
    Except String Json :=
  if input.event_type = .run_verification_evidence
  then sanitize_verification_evidence_tx s row.run input.payload else pure input.payload

/-- Everything `apply_runner_event` checks before it journals the event, and the payload
it journals. -/
def admit_runner_event (s : Db) (now : Int) (input : RunnerEventInput) :
    Except String (RunnerRow × Option RunScope × Json) := do
  let scope ← runner_event_scope s input
  ensure (input.event_type = .run_usage → usage_matches_active_run s input = true)
    "runner usage event does not match an active run"
  let row ← context (runner_event_row s input) "runner event does not match an active run"
  validate_runner_event_scope s input row scope
  ensure (input.event_type = .run_failed →
      s.latest_run row.task.id input.corp_id = some input.run_id
      ∧ row.task.status ≠ .completed
      ∧ row.mission.status ≠ .completed ∧ row.mission.status ≠ .cancelled)
    "runner failure targets superseded or accepted work"
  ensure (¬ (input.event_type = .run_usage ∧ row.run.execution_mode = .verification_only))
    "provider-free verification cannot report model usage"
  validate_runner_session s input row
  ensure (breaker_blocks_runner_progress row.run.breaker_stage input.event_type = false)
    ("run event " ++ input.event_type.as_str ++ " is blocked by breaker stage "
      ++ row.run.breaker_stage.as_str)
  ensure_runner_progress s now input row
  let payload ← runner_event_payload s input row
  return (row, scope, payload)

/-! ## Sessions, starts and status reports -/

/-- `run.session`. -/
def run_session (s : Db) (row : RunnerRow) (payload : Json) : Except String Db := do
  let session_id ← context (payload.text? "session_id") "run.session event omitted session_id"
  return s.onRuns (updateWhere (fun r => r.id == row.run.id) fun r =>
    { r with provider_session_id := some session_id })

/-- `run.started`. -/
def run_started (s : Db) (row : RunnerRow) (payload : Json) : Except String Db := do
  let s := s.onRuns (updateWhere (fun r => r.id == row.run.id) fun r =>
    { r with
      status := .running
      workspace_path := payload.text? "workspace"
      workspace_branch := payload.text? "workspace_branch"
      workspace_base_ref := payload.text? "workspace_base_ref"
      workspace_base_commit := payload.text? "workspace_base_commit"
      workspace_disposition := some .active
      workspace_detail := none })
  let s := s.onTasks (updateWhere (fun t => t.id == row.task.id) fun t =>
    { t with status := .running })
  let s := s.onAgents (updateWhere (fun a => a.id == row.run.agent_id) fun a =>
    { a with status := .working, station := some "terminal" })
  return s.onQueuedMessages (updateWhere
    (fun m => m.run_id == some row.run.id && m.status == .reserved) fun m =>
      { m with status := .delivered })

/-- The agent status a `run.status` text stands for. -/
def reported_agent_status (status : String) : AgentStatus :=
  if status = "blocked" then .blocked
  else if status = "reviewing" then .reviewing
  else if status = "idle" then .idle
  else .working

/-- `run.status`. A report of work resumes a waiting run unless an action approval is
pending; a pending manual verification is not looked at. -/
def run_status (s : Db) (row : RunnerRow) (payload : Json) : Except String Db := do
  let status := (payload.text? "status").getD "working"
  let station := (payload.text? "station").getD "terminal"
  let s := s.onAgents (updateWhere (fun a => a.id == row.run.agent_id) fun a =>
    { a with status := reported_agent_status status, station := some station })
  if status ≠ "working" then return s else
  let run_pending := s.action_approvals.any fun p => p.run_id == row.run.id && p.status == .pending
  let task_pending := s.action_approvals.any fun p =>
    p.task_id == row.task.id && p.status == .pending
  let s := s.onRuns (updateWhere
    (fun r => r.id == row.run.id
      && (r.status == .waiting_for_input || r.status == .waiting_for_approval) && !run_pending)
    fun r => { r with status := .running })
  return s.onTasks (updateWhere
    (fun t => t.id == row.task.id && t.status == .awaiting_approval && !task_pending)
    fun t => { t with status := .running })

/-- The fields of an approval request, as far as the payload decides them. -/
structure ApprovalRequest where
  approval_id : Uuid
  action_key : String
  action : String
  risk : String
  rationale : String
  required_roles : List String
  expires_in_seconds : Int
  deriving DecidableEq, Repr

/-- The decoding and validation of a `run.approval_requested` payload. -/
def approval_request (payload : Json) : Except String ApprovalRequest := do
  let text ← context (payload.text? "approval_id") "approval request omitted approval_id"
  let approval_id ← context (parse_str text) "approval id is invalid"
  let action_key ← context (payload.text? "action_key") "approval request omitted action_key"
  let action ← context (payload.text? "action") "approval request omitted action"
  let risk ← context (payload.text? "risk") "approval request omitted risk"
  let rationale ← context (payload.text? "rationale") "approval request omitted rationale"
  let roles ← context ((payload.get? "required_roles").bind Json.as_array)
    "approval request omitted required_roles"
  let required_roles ← context (roles.mapM Json.as_str) "approval role is not a string"
  ensure (action_key ≠ "" ∧ byteLen action_key ≤ 128 ∧ action ≠ "" ∧ byteLen action ≤ 2000
      ∧ rationale ≠ "" ∧ byteLen rationale ≤ 4000
      ∧ risk ∈ ["low", "medium", "high", "critical"]
      ∧ required_roles ≠ []
      ∧ ∀ role ∈ required_roles,
          role ∈ ["owner", "admin", "manager", "member", "guest", "spectator"])
    "approval request is invalid"
  return { approval_id, action_key, action, risk, rationale, required_roles
           expires_in_seconds := max 1 (min 3600 ((payload.i64? "expires_in_seconds").getD 300)) }

/-- `INSERT INTO action_approvals`, with its primary key and `UNIQUE (run_id,
action_key)`. -/
def insert_action_approval (s : Db) (row : ActionApproval) : Except String Db := do
  ensure (∀ a ∈ s.action_approvals,
      a.id ≠ row.id ∧ ¬ (a.run_id = row.run_id ∧ a.action_key = row.action_key))
    "duplicate key value violates unique constraint action_approvals_run_id_action_key_key"
  return s.onActionApprovals (· ++ [row])

/-- `run.approval_requested`. -/
def run_approval_requested (s : Db) (now : Int) (row : RunnerRow) (payload : Json) :
    Except String Db := do
  let q ← approval_request payload
  let s ← insert_action_approval s
    { id := q.approval_id, corp_id := row.run.corp_id, room_id := row.mission.room_id
      mission_id := row.mission.id, task_id := row.task.id, run_id := row.run.id
      agent_id := row.run.agent_id, action_key := q.action_key, action := q.action
      risk := q.risk, rationale := q.rationale, required_roles := q.required_roles
      expires_at := now + q.expires_in_seconds }
  let s := s.onRuns (updateWhere (fun r => r.id == row.run.id) fun r =>
    { r with status := .waiting_for_approval })
  let s := s.onTasks (updateWhere (fun t => t.id == row.task.id) fun t =>
    { t with status := .awaiting_approval })
  return s.onAgents (updateWhere (fun a => a.id == row.run.agent_id) fun a =>
    { a with status := .blocked, station := some "approval" })

/-- `run.tool_activity`. -/
def run_tool_activity (s : Db) (row : RunnerRow) (payload : Json) : Except String Db := do
  if (payload.bool? "human_conversation").getD false then return s else
  let signature := (payload.text? "signature").getD "unknown"
  if (payload.bool? "progressed").getD false then
    return s.onRuns (updateWhere (fun r => r.id == row.run.id) fun r =>
      { r with no_progress_events := 0, repeated_tool_count := 0
               last_tool_signature := some signature })
  else do
    let repeated := if row.run.last_tool_signature = some signature
      then row.run.repeated_tool_count + 1 else 1
    ensure (fitsInteger (row.run.no_progress_events + 1) = true ∧ fitsInteger repeated = true)
      "integer out of range"
    return s.onRuns (updateWhere (fun r => r.id == row.run.id) fun r =>
      { r with
        no_progress_events := r.no_progress_events + 1
        repeated_tool_count := if r.last_tool_signature = some signature
          then r.repeated_tool_count + 1 else 1
        last_tool_signature := some signature })

/-- The non-negative part of a reported counter, zero when it is missing or no `i64`. -/
def reported_usage (payload : Json) (key : String) : Int := max 0 ((payload.i64? key).getD 0)

/-- `run.usage`. -/
def run_usage (s : Db) (row : RunnerRow) (payload : Json) : Except String Db := do
  ensure (fitsBigint (row.run.input_tokens + reported_usage payload "input_tokens") = true
      ∧ fitsBigint (row.run.output_tokens + reported_usage payload "output_tokens") = true
      ∧ fitsBigint (row.run.cost_microusd + reported_usage payload "cost_microusd") = true)
    "bigint out of range"
  return s.onRuns (updateWhere (fun r => r.id == row.run.id) fun r =>
    { r with
      input_tokens := r.input_tokens + reported_usage payload "input_tokens"
      output_tokens := r.output_tokens + reported_usage payload "output_tokens"
      cost_microusd := r.cost_microusd + reported_usage payload "cost_microusd" })

/-! ## Verification -/

/-- `run.verification_started`. -/
def run_verification_started (s : Db) (row : RunnerRow) : Except String Db := do
  let s := s.onRuns (updateWhere (fun r => r.id == row.run.id) fun r =>
    { r with status := .verifying, verification_status := .running
             verification_summary := none })
  let s := s.onTasks (updateWhere (fun t => t.id == row.task.id) fun t =>
    { t with status := .review, verification_status := .running })
  return s.onAgents (updateWhere (fun a => a.id == row.run.agent_id) fun a =>
    { a with status := .reviewing, station := some "review" })

/-- `INSERT INTO verification_evidence`, with its primary key and `UNIQUE (run_id,
check_index)`. -/
def insert_verification_evidence (s : Db) (row : VerificationEvidence) : Except String Db := do
  ensure (∀ e ∈ s.verification_evidence,
      e.id ≠ row.id ∧ ¬ (e.run_id = row.run_id ∧ e.check_index = row.check_index))
    "duplicate key value violates unique constraint verification_evidence_run_id_check_index_key"
  return s.onVerificationEvidence (· ++ [row])

/-- The status texts of an evidence row. -/
def evidence_status : String → Option EvidenceStatus
  | "passed" => some .passed
  | "failed" => some .failed
  | _ => none

/-- `run.verification_evidence`, on the sanitised payload. -/
def run_verification_evidence (s : Db) (row : RunnerRow) (payload : Json) : Except String Db := do
  let text ← context (payload.text? "evidence_id") "verification evidence omitted evidence_id"
  let evidence_id ← context (parse_str text) "verification evidence id is invalid"
  let check_index ← context (payload.i64? "check_index") "verification evidence omitted check_index"
  ensure (fitsInteger check_index = true) "verification check index is out of range"
  -- A negative index is a huge `usize`.
  let expected ← context
    (if 0 ≤ check_index then row.task.verification_policy.checks[check_index.toNat]? else none)
    "verification evidence references an unknown check"
  let kind ← context (payload.text? "kind") "verification evidence omitted kind"
  ensure (kind = expected.kind)
    ("verification evidence kind " ++ kind ++ " does not match policy " ++ expected.kind)
  let status ← context (payload.text? "status") "verification evidence omitted status"
  let status ← context (evidence_status status) "verification evidence status is invalid"
  let summary ← context (payload.text? "summary") "verification evidence omitted summary"
  ensure (byteLen summary ≤ 4000) "verification evidence summary is too long"
  insert_verification_evidence s
    { id := evidence_id, corp_id := row.run.corp_id, task_id := row.task.id
      run_id := row.run.id, check_index := check_index.toNat, kind, status, summary
      payload := (payload.get? "payload").getD (.obj []) }

/-- `SELECT … FROM verification_evidence WHERE run_id = $1 ORDER BY check_index`. -/
def Db.evidence_rows (s : Db) (run_id : Uuid) : List VerificationEvidence :=
  (s.verification_evidence.filter fun e => e.run_id == run_id).insertionSort
    fun a b => a.check_index ≤ b.check_index

/-- The loop of `run.verification_passed` over the evidence rows. -/
def evidence_satisfies : Nat → List VerificationEvidence → List VerifierCheck → Bool
  | _, [], _ => true
  | index, e :: rows, check :: checks =>
    e.check_index == index && e.kind == check.kind && e.status == .passed
      && evidence_satisfies (index + 1) rows checks
  | _, _ :: _, [] => false

/-- A ready source deliverable with exactly this pair of digests is linked to the run. -/
def deliverable_linked (s : Db) (run_id : Uuid) (verification_sha256 deliverable_sha256 : String) :
    Bool :=
  s.source_deliverables.any fun d =>
    d.run_id == run_id && d.verification_sha256 == verification_sha256
      && s.artifacts.any fun a =>
        a.id == d.artifact_id && a.sha256 == deliverable_sha256 && a.status == .ready
          && a.artifact_role == .source_deliverable

/-- The digests a `run.verification_passed` report stores: the pair it names when the
contract declares a deliverable, none otherwise. -/
def passed_digests (s : Db) (row : RunnerRow) (payload : Json) :
    Except String (Option String × Option String) :=
  if row.task.contract.deliverable.isSome then do
    let verification_sha256 ← context (payload.text? "verification_sha256")
      "verification passed event omitted verification digest"
    let deliverable_sha256 ← context (payload.text? "deliverable_sha256")
      "verification passed event omitted deliverable digest"
    ensure (deliverable_linked s row.run.id verification_sha256 deliverable_sha256 = true)
      "verification passed without an exact ready deliverable linkage"
    return (some verification_sha256, some deliverable_sha256)
  else return (none, none)

/-- `run.verification_passed`. -/
def run_verification_passed (s : Db) (row : RunnerRow) (payload : Json) : Except String Db := do
  let (verification_sha256, deliverable_sha256) ← passed_digests s row payload
  let checks := row.task.verification_policy.checks
  ensure (checks.any VerifierCheck.is_artifact = true → row.run.artifact_id.isSome)
    "artifact verification passed before durable artifact storage"
  let rows := s.evidence_rows row.run.id
  ensure (rows.length = checks.length)
    ("verification passed without complete evidence: expected " ++ toString checks.length
      ++ ", found " ++ toString rows.length)
  ensure (evidence_satisfies 0 rows checks = true) "verification evidence does not satisfy policy"
  let summary := (payload.text? "summary").getD "all verifier checks passed"
  let s := s.onRuns (updateWhere (fun r => r.id == row.run.id) fun r =>
    { r with
      verification_status := .passed
      verification_summary := some summary
      verification_sha256 := verification_sha256
      deliverable_sha256 := deliverable_sha256 })
  return s.onTasks (updateWhere (fun t => t.id == row.task.id) fun t =>
    { t with verification_status := .passed })

/-- `INSERT INTO verification_requests`, whose primary key is the run. -/
def insert_verification_request (s : Db) (row : VerificationRequest) : Except String Db := do
  ensure (∀ q ∈ s.verification_requests, q.run_id ≠ row.run_id)
    "duplicate key value violates unique constraint verification_requests_pkey"
  return s.onVerificationRequests (· ++ [row])

/-- `run.verification_waiting`. -/
def run_verification_waiting (s : Db) (row : RunnerRow) (payload : Json) : Except String Db := do
  ensure (row.run.verification_status = .passed)
    "manual verification gate requested before automated checks passed"
  let gate ← context (payload.get? "gate") "verification waiting event omitted gate"
  let gate ← context (ManualVerificationGate.from_value gate) "decode manual verification gate"
  ensure (row.task.verification_policy.manual_gate = some gate)
    "manual verification gate does not match task policy"
  let gate_type ← context (payload.text? "gate_type")
    "verification waiting event omitted gate_type"
  ensure (gate.kind = gate_type) "manual verification gate type mismatch"
  let s ← insert_verification_request s
    { run_id := row.run.id, corp_id := row.run.corp_id, task_id := row.task.id
      gate_type, gate }
  let s := s.onRuns (updateWhere (fun r => r.id == row.run.id) fun r =>
    { r with
      status := .waiting_for_approval
      verification_status := .waiting_for_approval
      verification_summary :=
        some ((payload.text? "verification_summary").getD "automated verification passed")
      summary :=
        some ((payload.text? "completion_summary").getD "Agent completed pending approval") })
  let s := s.onTasks (updateWhere (fun t => t.id == row.task.id) fun t =>
    { t with status := .awaiting_approval, verification_status := .waiting_for_approval })
  let s := s.onAgents (updateWhere (fun a => a.id == row.run.agent_id) fun a =>
    { a with status := .reviewing, station := some "review" })
  reconcile_factory_awaiting_approval_tx s row.run.corp_id row.mission.id row.mission.room_id
    row.run.id

/-- `UPDATE missions SET status = $1 WHERE id = $2 AND status IN ('ready', 'running')`. -/
def Db.settle_mission (s : Db) (mission_id : Uuid) (status : MissionStatus) : Db :=
  s.onMissions (updateWhere (fun m => m.id == mission_id && m.status.is_open) fun m =>
    { m with status })

/-- `UPDATE agents SET status = 'idle', station = NULL, current_run_id = NULL WHERE id =
$1`. -/
def Db.release_agent (s : Db) (agent_id : Uuid) : Db :=
  s.onAgents (updateWhere (fun a => a.id == agent_id) Agent.release)

/-- A run, its task and an open mission fail verification. -/
def Db.fail_verification (s : Db) (row : RunnerRow) (summary : String) : Db :=
  ((s.onRuns (updateWhere (fun r => r.id == row.run.id) fun r =>
    { r with status := .failed, verification_status := .failed
             verification_summary := some summary, summary := some summary })).onTasks
    (updateWhere (fun t => t.id == row.task.id) fun t =>
      { t with status := .verification_failed, verification_status := .failed })).settle_mission
    row.mission.id .failed

/-- `run.verification_failed`. -/
def run_verification_failed (s : Db) (row : RunnerRow) (payload : Json) : Except String Db := do
  let rows := s.evidence_rows row.run.id
  ensure (rows.length = row.task.verification_policy.checks.length
      ∧ rows.any (fun e => e.status == .failed) = true)
    "verification failure does not have complete failing evidence"
  let summary := (payload.text? "error").getD "verification policy failed"
  let s := (s.fail_verification row summary).release_agent row.run.agent_id
  reconcile_factory_verification_failure_tx s row.run.corp_id row.mission.id row.mission.room_id
    row.run.id none summary .automated_verification

/-! ## Workspaces -/

/-- `run.teardown_uncertain`. -/
def run_teardown_uncertain (s : Db) (row : RunnerRow) (payload : Json) : Except String Db := do
  ensure (payload.text? "provider_process_state" = some "unverified")
    "teardown uncertainty must report an unverified provider process state"
  let detail ← context (payload.text? "detail") "teardown uncertainty omitted detail"
  return s.onRuns (updateWhere (fun r => r.id == row.run.id) fun r =>
    { r with
      workspace_disposition := if r.workspace_disposition = some .quarantined
        then some .quarantined else some .preserved
      workspace_detail := some detail })

/-- `retained_workspace_disposition`. -/
def retained_workspace_disposition (existing : Option WorkspaceDisposition)
    (event_type : EventType) (payload : Json) : Except String WorkspaceDisposition := do
  let quarantined ← match payload.get? "workspace_quarantined" with
    | none => pure false
    | some v => context v.as_bool "workspace quarantine flag must be a boolean"
  return if existing = some .quarantined ∨ quarantined = true then .quarantined
    else if event_type = .run_workspace_removed then .removed else .preserved

/-- The metadata a lost source correction takes over from the run its recovery
started from, when its own never arrived. -/
def recovered_metadata (s : Db) (run : Run) : Option Run := do
  let r ← s.recovery_of run.corp_id run.id
  let previous ← s.run? r.source_run_id
  guard (run.status = .lost ∧ run.execution_mode = .provider ∧ r.mode = .source_correction
    ∧ r.status = .failed ∧ previous.corp_id = r.corp_id
    ∧ run.resumed_from_run_id = some previous.id
    ∧ previous.task_id = run.task_id ∧ previous.agent_id = run.agent_id
    ∧ previous.runner_id = run.runner_id ∧ previous.workspace_run_id = run.workspace_run_id
    ∧ same_source_identity run previous
    ∧ sqlEq previous.workspace_fingerprint r.expected_workspace_fingerprint
    ∧ previous.workspace_disposition = some .preserved
    ∧ previous.workspace_path.any (fun p => !p.isEmpty) = true)
  return previous

/-- The verifier's own report of a preserved workspace must match its authorisation. -/
def validate_verifier_report (s : Db) (now : Int) (row : RunnerRow) (payload : Json)
    (fingerprint : String) : Except String Unit := do
  let checkpoint ← source_workspace_checkpoint_tx s now row.run.corp_id row.run.id
  let reported_head ← match payload.get? "head_commit" with
    | none => pure none
    | some .null => pure none
    | some v => some <$> context v.as_str "workspace checkpoint head must be a string"
  checkpoint.validate_report fingerprint reported_head

/-- The fingerprint a retained workspace is reported with, and what it must satisfy. -/
def retained_fingerprint (s : Db) (now : Int) (row : RunnerRow) (payload : Json)
    (disposition : WorkspaceDisposition) : Except String (Option String) := do
  let fingerprint := if disposition = .quarantined then none
    else payload.text? "workspace_fingerprint"
  ensure (∀ f ∈ fingerprint, valid_sha256 f = true) "workspace fingerprint is invalid"
  match fingerprint with
  | some f =>
    if row.run.execution_mode = .verification_only ∧ disposition = .preserved
    then validate_verifier_report s now row payload f else pure ()
  | none => pure ()
  ensure (row.run.workspace_fingerprint.isNone ∨ fingerprint.isNone
      ∨ row.run.workspace_fingerprint = fingerprint)
    "workspace fingerprint cannot change after it is recorded"
  return fingerprint

/-- `run.workspace_preserved` and `run.workspace_removed`. -/
def run_workspace_retained (s : Db) (now : Int) (row : RunnerRow) (event_type : EventType)
    (payload : Json) : Except String Db := do
  let disposition ← retained_workspace_disposition row.run.workspace_disposition event_type payload
  let detail := (payload.text? "detail").getD "runner did not provide cleanup detail"
  let fingerprint ← retained_fingerprint s now row payload disposition
  let s := s.onRuns (updateWhere (fun r => r.id == row.run.id) fun r =>
    { r with
      workspace_disposition := some disposition
      workspace_detail := some detail
      workspace_fingerprint := fingerprint.or r.workspace_fingerprint })
  if row.run.status = .lost ∧ row.run.execution_mode = .provider ∧ disposition = .preserved
      ∧ fingerprint.isSome then do
    let checkpoint ← source_workspace_checkpoint_tx s now row.run.corp_id row.run.id
    match checkpoint.source_correction_recovery, recovered_metadata s row.run with
    | true, some previous =>
      return s.onRuns (updateWhere (fun r => r.id == row.run.id) fun r =>
        { r with
          workspace_path := r.workspace_path.or previous.workspace_path
          workspace_branch := r.workspace_branch.or previous.workspace_branch
          workspace_base_ref := r.workspace_base_ref.or previous.workspace_base_ref
          workspace_base_commit := r.workspace_base_commit.or previous.workspace_base_commit })
    | _, _ => return s
  else return s

/-! ## Terminal reports -/

/-- `UPDATE tasks child SET status = 'ready'`: a pending task whose dependencies are all
completed becomes ready. -/
def Db.ready_children (s : Db) (mission_id : Uuid) : Db :=
  s.onTasks (updateWhere
    (fun child => child.mission_id == mission_id && child.status == .pending
      && !(s.task_dependencies.any fun d => d.task_id == child.id
        && s.tasks.any fun parent =>
          parent.id == d.depends_on_task_id && !(parent.status == .completed)))
    fun child => { child with status := .ready })

/-- `NOT EXISTS(SELECT 1 FROM tasks WHERE mission_id = $1 AND status <> 'completed')`. -/
def Db.mission_complete (s : Db) (mission_id : Uuid) : Bool :=
  !(s.tasks.any fun t => t.mission_id == mission_id && !(t.status == .completed))

/-- What both ways of completing a run do once the run and its task are completed: the
task's recoveries settle, its children become ready, and a mission with nothing left
completes together with its Factory item. -/
def complete_task_tx (s : Db) (row : RunnerRow) (actor_id : Option Uuid) : Except String Db :=
  let s := settle_successful_factory_recoveries_tx s row.run.corp_id row.run.id
  let s := s.ready_children row.mission.id
  let complete := s.mission_complete row.mission.id
  let s := s.settle_mission row.mission.id (if complete then .completed else .running)
  if complete then
    reconcile_factory_verified_tx s row.run.corp_id row.mission.id row.mission.room_id row.run.id
      actor_id
  else return s

/-- `run.completed`. -/
def run_completed (s : Db) (row : RunnerRow) (payload : Json) : Except String Db := do
  ensure (row.run.verification_status = .passed) "run cannot complete before verification passes"
  ensure (row.task.verification_policy.manual_gate = none)
    "run cannot complete before its manual verification gate"
  let summary := (payload.text? "summary").getD "Mission artifact completed"
  let s := s.onRuns (updateWhere (fun r => r.id == row.run.id) fun r =>
    { r with status := .completed, summary := some summary })
  let s := s.onTasks (updateWhere (fun t => t.id == row.task.id) fun t =>
    { t with status := .completed, verification_status := .passed })
  let s ← complete_task_tx s row none
  return s.release_agent row.run.agent_id

/-- `SELECT id FROM factory_verification_recoveries WHERE corp_id = $1 AND
replacement_run_id = $2`. -/
def Db.recovery_id_of (s : Db) (corp_id run_id : Uuid) : Option Uuid :=
  (s.recovery_of corp_id run_id).map FactoryVerificationRecovery.id

/-- The ordinary branch of `run.failed`: an attempt that may be retried puts the task
back to `ready`, the last one fails task and mission and blocks the Factory item. -/
def fail_run_tx (s : Db) (row : RunnerRow) (scope : Option RunScope) (summary : String) :
    Except String Db :=
  let s := s.onRuns (updateWhere (fun r => r.id == row.run.id) fun r =>
    { r with status := .failed, summary := some summary })
  let retry := should_retry_runner_failure row.run.breaker_stage row.task.attempt_count
    row.task.max_attempts
  let s := s.onTasks (updateWhere (fun t => t.id == row.task.id) fun t =>
    { t with status := if retry then .ready else .failed })
  let s := s.settle_mission row.mission.id (if retry then .running else .failed)
  match scope with
  | some scope =>
    if retry then .ok s
    else reconcile_tx env s scope row.run.corp_id row.mission.room_id row.task.id row.run.id summary
  | none => .ok s

/-- What a `run.failed` report does to the run: the replacement run of a recovery is
terminalised, any other fails. -/
def end_failed_run (s : Db) (row : RunnerRow) (scope : Option RunScope) (summary : String) :
    Except String Db :=
  match s.recovery_id_of row.run.corp_id row.run.id with
  | some recovery_id =>
    terminalize_factory_recovery_run_tx s row.run.corp_id recovery_id row.run.id row.task.id
      row.mission.id row.mission.room_id summary .failed .recovery_run_failure
  | none => fail_run_tx env s row scope summary

/-- `run.failed`. -/
def run_failed (s : Db) (row : RunnerRow) (scope : Option RunScope) (payload : Json) :
    Except String Db := do
  let summary := (payload.text? "error").getD "Runner reported failure"
  let s ← end_failed_run env s row scope summary
  return release_failed_run_agent_tx s row.run.corp_id row.run.agent_id row.run.id

/-- The ordinary branch of `run.cancelled`: the mission is cancelled whatever its
state. -/
def Db.cancel_run (s : Db) (row : RunnerRow) (summary : String) : Db :=
  ((s.onRuns (updateWhere (fun r => r.id == row.run.id) fun r =>
    { r with status := .cancelled, summary := some summary })).onTasks
    (updateWhere (fun t => t.id == row.task.id) fun t =>
      { t with status := .cancelled })).onMissions
    (updateWhere (fun m => m.id == row.mission.id) fun m => { m with status := .cancelled })

/-- What a `run.cancelled` report does to the run. -/
def end_cancelled_run (s : Db) (row : RunnerRow) (summary : String) : Except String Db :=
  match s.recovery_id_of row.run.corp_id row.run.id with
  | some recovery_id =>
    terminalize_factory_recovery_run_tx s row.run.corp_id recovery_id row.run.id row.task.id
      row.mission.id row.mission.room_id summary .cancelled .recovery_run_cancelled
  | none => .ok (s.cancel_run row summary)

/-- `run.cancelled`. -/
def run_cancelled (s : Db) (row : RunnerRow) (payload : Json) : Except String Db := do
  let summary := (payload.text? "reason").getD "Run cancelled by an authorized operator"
  let s ← end_cancelled_run s row summary
  return s.release_agent row.run.agent_id

/-! ## The method -/

/-- The case split on the event type. -/
def runner_event_effect (s : Db) (now : Int) (row : RunnerRow) (scope : Option RunScope)
    (event_type : EventType) (payload : Json) : Except String Db :=
  match event_type with
  | .run_session => run_session s row payload
  | .run_started => run_started s row payload
  | .run_status => run_status s row payload
  | .run_approval_requested => run_approval_requested s now row payload
  | .run_tool_activity => run_tool_activity s row payload
  | .run_artifact | .run_artifact_upload | .run_deliverable | .run_deliverable_upload =>
    .error "artifact events must pass through server-side object storage verification"
  | .run_usage => run_usage s row payload
  | .run_verification_started => run_verification_started s row
  | .run_verification_evidence => run_verification_evidence s row payload
  | .run_verification_passed => run_verification_passed s row payload
  | .run_verification_waiting => run_verification_waiting s row payload
  | .run_verification_failed => run_verification_failed s row payload
  | .run_teardown_uncertain => run_teardown_uncertain s row payload
  | .run_workspace_preserved | .run_workspace_removed =>
    run_workspace_retained s now row event_type payload
  | .run_completed => run_completed s row payload
  | .run_failed => run_failed env s row scope payload
  | .run_cancelled => run_cancelled s row payload
  | .run_session_terminated | .run_breaker_transition | .factory_blocked
  | .factory_claim_renewed | .other _ => return s

/-- The journal row of a report. -/
def runner_event (input : RunnerEventInput) (row : RunnerRow) (payload : Json) : Event :=
  { id := input.event_id, corp_id := input.corp_id, room_id := some row.mission.room_id
    type := input.event_type, aggregate_type := .run, aggregate_id := input.run_id
    correlation_id := some row.mission.id
    idempotency_key := .runner_event input.runner_id input.event_id, payload }

/-- `apply_runner_event`: the outcome's event is absent when the report was a
redelivery. -/
def apply_runner_event (s : Db) (now : Int) (input : RunnerEventInput) :
    Except String (Option Event × Db) := do
  let (row, scope, payload) ← admit_runner_event s now input
  let (event, s') ← append_event_tx s (runner_event input row payload)
  match event with
  | none => return (none, s)
  | some event => do
    let s' ← runner_event_effect env s' now row scope input.event_type payload
    return (some event, s')

end Crony.Store
