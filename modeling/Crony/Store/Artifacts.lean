/-
Artifact uploads: staging, finalisation and rejection.

Bytes reach object storage outside any transaction; the store only sees the staged row
appear and, later and from a callback of its own, the row become ready or rejected. A
finalisation writes the run it belongs to whatever that run has become meanwhile.

Uploads of retained provider receipts are checked by `retained_provider_receipt.rs`, which
reads only; `ReceiptVerdict` is its answer. A refusal at finalisation rejects the staged
row and commits that, although the method returns the refusal as its error.
-/
import Crony.Store.RunnerEvents

set_option autoImplicit false

open Crony.Lib

namespace Crony.Store

/-! ## Staging: `prepare_artifact_upload` -/

/-- The role an upload event stands for. -/
def upload_role : EventType → Option ArtifactRole
  | .run_artifact_upload => some .provider_evidence
  | .run_deliverable_upload => some .source_deliverable
  | _ => none

/-- `ensure_artifact_upload_matches`. -/
def ensure_artifact_upload_matches (existing candidate : Artifact) (require_event_id : Bool) :
    Except String Unit :=
  ensure ((require_event_id = true → existing.id = candidate.id)
      ∧ existing.corp_id = candidate.corp_id ∧ existing.task_id = candidate.task_id
      ∧ existing.run_id = candidate.run_id
      ∧ existing.producer_agent_id = candidate.producer_agent_id
      ∧ existing.producer_runner_id = candidate.producer_runner_id
      ∧ existing.verifier = candidate.verifier ∧ existing.sha256 = candidate.sha256
      ∧ existing.media_type = candidate.media_type ∧ existing.bytes = candidate.bytes
      ∧ existing.artifact_role = candidate.artifact_role
      ∧ existing.file_name = candidate.file_name
      ∧ Json.beq existing.metadata candidate.metadata = true)
    "duplicate artifact upload conflicts with persisted metadata"

/-- The `CHECK` constraints of an artifact row. -/
def valid_artifact (a : Artifact) (now : Int) : Bool :=
  valid_sha256 a.sha256 && decide (3 ≤ a.media_type.length) && decide (a.media_type.length ≤ 255)
    && decide (0 ≤ a.bytes) && decide (now < a.retention_until)
    && valid_sha256 a.provenance_signature

/-- `INSERT INTO artifacts`, with its primary key, the unique digest of a run and role,
and the one source deliverable of a run that is not rejected. -/
def insert_artifact (s : Db) (now : Int) (row : Artifact) : Except String Db := do
  ensure (valid_artifact row now = true) "new row violates check constraint artifacts_check"
  ensure (∀ a ∈ s.artifacts, a.id ≠ row.id
      ∧ ¬ (a.run_id = row.run_id ∧ a.artifact_role = row.artifact_role ∧ a.sha256 = row.sha256)
      ∧ ¬ (a.run_id = row.run_id ∧ a.artifact_role = .source_deliverable
        ∧ row.artifact_role = .source_deliverable ∧ a.status ≠ .rejected))
    "duplicate key value violates unique constraint artifacts_one_source_deliverable_per_run_idx"
  return s.onArtifacts (· ++ [row])

/-- `prepare_artifact_upload`; an upload that is already there changes nothing. -/
def prepare_artifact_upload (s : Db) (now : Int) (input : RunnerEventInput) (artifact : Artifact)
    (staging_key : String) (receipt_allows : Bool) : Except String Db := do
  let role ← context (upload_role input.event_type) "unsupported artifact upload event"
  ensure (artifact.artifact_role = role ∧ artifact.id = input.event_id
      ∧ artifact.corp_id = input.corp_id ∧ artifact.run_id = input.run_id
      ∧ artifact.producer_agent_id = input.agent_id
      ∧ artifact.producer_runner_id = input.runner_id)
    "artifact metadata does not match the runner event"
  ensure (staging_key = "staging/corps/" ++ uuid_text input.corp_id ++ "/"
    ++ uuid_text input.event_id)
    "artifact staging key does not match the runner event"
  ensure (receipt_allows = true) "retained provider receipt upload is denied"
  let (run, task, _) ← context
    ((s.run_task_mission input.corp_id input.run_id).filter fun row =>
      row.1.assigned input && row.1.active && !breaker_is_hard row.1.breaker_stage)
    "artifact upload does not match an active run"
  ensure_run_not_hard_blocked_tx s now input.corp_id input.run_id run.breaker_stage
    "artifact upload"
  ensure (artifact.task_id = task.id) "artifact task does not match the active run"
  match s.artifacts.find? fun a => a.corp_id == input.corp_id && a.id == artifact.id with
  | some existing => do
    ensure_artifact_upload_matches existing artifact true
    return s
  | none =>
    match s.artifacts.find? fun a => a.corp_id == input.corp_id && a.run_id == input.run_id
        && a.artifact_role == role && a.sha256 == artifact.sha256 with
    | some existing => do
      ensure_artifact_upload_matches existing artifact false
      return s
    | none =>
      let row := { artifact with
        status := .staged, staging_key := some staging_key, rejection_reason := none }
      insert_artifact s now row

/-! ## Finalisation: `finalize_artifact_upload` -/

/-- The answer of `fence_artifact_tx` or `validate_artifact_tx`. -/
inductive ReceiptVerdict where
  | allows
  | refuses (reason : String)
  | database_error (reason : String)
  deriving DecidableEq, Repr

/-- `normalize_artifact_rejection_reason`. -/
def normalize_artifact_rejection_reason (reason : String) : String :=
  normalize_bounded_failure_reason reason "artifact finalization failed permanently"

/-- `UPDATE artifacts SET status = 'rejected', rejection_reason = $1 WHERE id = $2 AND
corp_id = $3 AND status = 'staged'`. -/
def Db.reject_artifact (s : Db) (corp_id artifact_id : Uuid) (reason : String) : Db :=
  s.onArtifacts (updateWhere
    (fun a => a.id == artifact_id && a.corp_id == corp_id && a.status == .staged) fun a =>
      { a with status := .rejected
               rejection_reason := some (normalize_artifact_rejection_reason reason) })

/-- Lower-case hexadecimal digits, 40 to 64 of them. -/
def valid_commit_column (value : String) : Bool :=
  decide (40 ≤ value.length) && decide (value.length ≤ 64)
    && value.toList.all fun c => ('0' ≤ c && c ≤ '9') || ('a' ≤ c && c ≤ 'f')

/-- The `CHECK` constraints of a source deliverable row. -/
def valid_source_deliverable (d : SourceDeliverable) : Bool :=
  ["commit_branch", "patch", "archive", "typed_artifact_set", "review_only_report"].contains d.form
    && decide (1 ≤ d.file_name.length) && decide (d.file_name.length ≤ 255)
    && valid_sha256 d.verification_sha256 && valid_commit_column d.base_commit
    && d.head_commit.all valid_commit_column
    && decide (1 ≤ d.branch.length) && decide (d.branch.length ≤ 512)
    && ["not_applicable", "ready_for_review", "published", "integrated"].contains
      d.integration_state

/-- The source deliverable row of an artifact's metadata. -/
def source_deliverable_row (a : Artifact) : Except String SourceDeliverable := do
  let form ← context (a.metadata.text? "form") "source deliverable omitted form"
  let verification_sha256 ← context (a.metadata.text? "verification_sha256")
    "source deliverable omitted verification digest"
  let base_commit ← context (a.metadata.text? "base_commit")
    "source deliverable omitted base commit"
  let branch ← context (a.metadata.text? "branch") "source deliverable omitted branch"
  let integration_state ← context (a.metadata.text? "integration_state")
    "source deliverable omitted integration state"
  return { id := a.id, corp_id := a.corp_id, task_id := a.task_id, run_id := a.run_id
           artifact_id := a.id, form, file_name := a.file_name, verification_sha256, base_commit
           head_commit := a.metadata.text? "head_commit", branch, integration_state }

/-- `INSERT INTO source_deliverables … ON CONFLICT (run_id) DO NOTHING`. -/
def insert_source_deliverable (s : Db) (row : SourceDeliverable) : Except String Db := do
  ensure (valid_source_deliverable row = true)
    "new row violates check constraint source_deliverables_check"
  if s.source_deliverables.any fun d => d.run_id == row.run_id then return s else do
  ensure (∀ d ∈ s.source_deliverables, d.id ≠ row.id ∧ d.artifact_id ≠ row.artifact_id)
    "duplicate key value violates unique constraint source_deliverables_artifact_id_key"
  return s.onSourceDeliverables (· ++ [row])

/-- What the run records of an artifact that became ready. -/
def record_ready_artifact (s : Db) (a : Artifact) : Except String Db :=
  match a.artifact_role with
  | .source_deliverable => do
    let row ← source_deliverable_row a
    let s ← insert_source_deliverable s row
    return s.onRuns (updateWhere (fun r => r.id == a.run_id) fun r =>
      { r with deliverable_sha256 := some a.sha256 })
  | .provider_evidence =>
    return s.onRuns (updateWhere (fun r => r.id == a.run_id) fun r =>
      { r with
        artifact_id := some a.id
        artifact_uri := some a.uri
        artifact_media_type := some a.media_type
        artifact_signature := some a.provenance_signature
        artifact_sha256 := some a.sha256 })

/-- An active run moves on to verification; its agent is detached. -/
def Db.review_run (s : Db) (run : Run) (task_id : Uuid) : Db :=
  ((s.onRuns (updateWhere (fun r => r.id == run.id) fun r =>
    { r with status := .verifying })).onTasks
    (updateWhere (fun t => t.id == task_id) fun t => { t with status := .review })).onAgents
    (updateWhere (fun a => a.id == run.agent_id) fun a =>
      { a with status := .reviewing, station := some "review", current_run_id := none })

/-- The select of `finalize_artifact_upload`: the artifact with its run, task and
mission. -/
def finalize_row (s : Db) (corp_id artifact_id : Uuid) :
    Option (Artifact × Run × Task × Mission) := do
  let a ← s.artifacts.find? fun a => a.id == artifact_id && a.corp_id == corp_id
  let run ← (s.run? a.run_id).filter fun r => r.corp_id == corp_id
  let task ← s.task? a.task_id
  let mission ← s.mission? task.mission_id
  return (a, run, task, mission)

/-- The statements of a finalisation, once nothing refuses it. -/
def finalize_artifact_tx (s : Db) (a : Artifact) (run : Run) (task : Task) (mission : Mission) :
    Except String Db := do
  let s ← append_new_event_tx s
    { id := 0, corp_id := a.corp_id, room_id := some mission.room_id
      type := if a.artifact_role = .source_deliverable then .run_deliverable else .run_artifact
      aggregate_type := .run, aggregate_id := a.run_id, correlation_id := some mission.id
      idempotency_key := .artifact_ready a.id }
    "artifact finalization event unexpectedly existed"
  let s := s.onArtifacts (updateWhere (fun b => b.id == a.id && b.status == .staged) fun b =>
    { b with status := .ready, rejection_reason := none })
  let s ← record_ready_artifact s a
  return if run.active then s.review_run run task.id else s

/-- `finalize_artifact_upload`. -/
def finalize_artifact_upload (s : Db) (corp_id artifact_id : Uuid)
    (fence authority : ReceiptVerdict) : Except String (Committed String Db Unit) := do
  let _ ← context (s.artifacts.find? fun a => a.id == artifact_id && a.corp_id == corp_id)
    "staged artifact not found"
  match fence with
  | .database_error e => .error e
  | .refuses e => return { result := .error e, state := s.reject_artifact corp_id artifact_id e }
  | .allows => do
    let (a, run, task, mission) ← context (finalize_row s corp_id artifact_id)
      "staged artifact not found"
    ensure (a.status = .staged ∨ a.status = .ready) "artifact cannot finalize from status rejected"
    match authority with
    | .database_error e => .error e
    | .refuses e => return { result := .error e, state := s.reject_artifact corp_id artifact_id e }
    | .allows =>
      if a.status = .ready then return { result := .ok (), state := s } else do
      let s ← finalize_artifact_tx s a run task mission
      return { result := .ok (), state := s }

/-! ## Rejection and cleanup -/

/-- `reject_staged_artifact`; a staged row always has its staging key. -/
def reject_staged_artifact (s : Db) (corp_id artifact_id : Uuid) (reason : String) : Db :=
  s.reject_artifact corp_id artifact_id reason

/-- `abandon_staged_artifact`. -/
def abandon_staged_artifact (s : Db) (corp_id artifact_id : Uuid) : Db :=
  s.onArtifacts (List.filter fun a =>
    !(a.id == artifact_id && a.corp_id == corp_id && a.status == .staged))

/-- `clear_artifact_staging_key`. -/
def clear_artifact_staging_key (s : Db) (corp_id artifact_id : Uuid) (staging_key : String) : Db :=
  s.onArtifacts (updateWhere
    (fun a => a.id == artifact_id && a.corp_id == corp_id && a.staging_key == some staging_key
      && !(a.status == .staged)) fun a => { a with staging_key := none })

end Crony.Store
