/-
What a run's workspace is bound to.

A verification-only run works on the preserved workspace of an earlier run, under a
recovery that names the fingerprint and head it was authorised for. The queries here
re-derive that binding from the tables: `source_workspace_checkpoint_tx`, the exported
head of a checkpoint verification, the zero-provider allocation that is exempt from
the budget breaker, and the human review that survives the loss of its runner. None of
them writes.
-/
import Mathlib.Data.List.Sort
import Crony.Store.Factory

set_option autoImplicit false

open Crony.Lib

namespace Crony.Store

/-- SQL `=` on nullable columns: `NULL` is equal to nothing. -/
def sqlEq (a b : Option String) : Bool := a.isSome && a == b

/-- `valid_sha256`. -/
def valid_sha256 (value : String) : Bool :=
  byteLen value == 64
    && value.toList.all fun c => ('0' ≤ c && c ≤ '9') || ('a' ≤ c && c ≤ 'f')

/-- A full Git object id. -/
def valid_base_commit (value : String) : Bool :=
  (byteLen value == 40 || byteLen value == 64)
    && value.toList.all fun c => (hexValue? c).isSome

/-- `validate_factory_base_commit`. -/
def validate_factory_base_commit (value : String) : Except String Unit :=
  ensure (valid_base_commit value = true)
    "factory source_base_commit must be a full 40- or 64-character hexadecimal Git object id"

def DeliverableForm.as_str : DeliverableForm → String
  | .commit_branch => "commit_branch"
  | .patch => "patch"
  | .archive => "archive"
  | .typed_artifact_set => "typed_artifact_set"
  | .review_only_report => "review_only_report"

/-! ## Recoveries and lineages of a run -/

/-- The recovery a run replaces a source run for; `replacement_run_id` is unique. -/
def Db.recovery_of (s : Db) (corp_id run_id : Uuid) : Option FactoryVerificationRecovery :=
  s.factory_verification_recoveries.find? fun r =>
    r.corp_id == corp_id && r.replacement_run_id == some run_id

/-- The recovery is bound to the run's task and to the item of its mission. -/
def recovery_bound (s : Db) (run : Run) (task : Task) (r : FactoryVerificationRecovery) : Bool :=
  r.task_id == run.task_id && r.mission_id == task.mission_id
    && s.factory_work_items.any fun i =>
      i.id == r.factory_work_item_id && i.corp_id == run.corp_id
        && i.mission_id == some task.mission_id

/-- The recovery's mode fits how the run executes. -/
def recovery_mode_fits (run : Run) (r : FactoryVerificationRecovery) : Bool :=
  match r.mode with
  | .verifier_only | .checkpoint_verification => run.execution_mode == .verification_only
  | .source_correction => run.execution_mode == .provider

/-- `source` is the run the recovery started from, in the same assignment, workspace and
source identity. -/
def same_assignment (run source : Run) : Bool :=
  run.resumed_from_run_id == some source.id && source.corp_id == run.corp_id
    && source.task_id == run.task_id && source.agent_id == run.agent_id
    && source.runner_id == run.runner_id && source.workspace_run_id == run.workspace_run_id

def same_source_identity (run source : Run) : Bool :=
  source.source_repository == run.source_repository
    && source.source_base_ref == run.source_base_ref
    && source.source_base_commit == run.source_base_commit

/-- `workspace_lineage_tx`, latest first. -/
def Db.workspace_lineage (s : Db) (corp_id workspace_run_id : Uuid) : List Run :=
  (s.runs.filter fun r => r.corp_id == corp_id
    && r.workspace_run_id == workspace_run_id).insertionSort
    fun a b => b.created_at < a.created_at ∨ (b.created_at = a.created_at ∧ b.id ≤ a.id)

/-- `lineage_run_is_pre_dispatch_failure`. -/
def lineage_run_is_pre_dispatch_failure (r : Run) : Bool :=
  r.status == .failed && r.workspace_path.isNone && r.workspace_disposition.isNone
    && r.workspace_detail == some "dispatch_not_started"

/-- `latest_workspace_source_id`. -/
def latest_workspace_source_id (lineage : List Run) : Except String Uuid := do
  let run ← context (lineage.find? fun r => !lineage_run_is_pre_dispatch_failure r)
    "workspace lineage has no resumable source"
  return run.id

/-! ## The exported head of a checkpoint verification -/

/-- The columns an exported deliverable, its artifact and the task contract must agree
on before its head counts. -/
def export_matches (run : Run) (task : Task) (d : SourceDeliverable) (a : Artifact)
    (now : Int) : Bool :=
  a.id == d.artifact_id && a.corp_id == run.corp_id && a.run_id == run.id
    && a.task_id == run.task_id && a.producer_agent_id == run.agent_id
    && a.producer_runner_id == run.runner_id && a.artifact_role == .source_deliverable
    && a.status == .ready
    && sqlEq (some a.sha256) run.deliverable_sha256
    && sqlEq (some d.verification_sha256) run.verification_sha256
    && sqlEq (a.metadata.text? "verification_sha256") (some d.verification_sha256)
    && sqlEq (a.metadata.text? "head_commit") d.head_commit
    && sqlEq (a.metadata.text? "base_commit") (some d.base_commit)
    && sqlEq (a.metadata.text? "branch") (some d.branch)
    && sqlEq (a.metadata.text? "form") (some d.form)
    && sqlEq (some d.base_commit) run.source_base_commit
    && sqlEq (some d.base_commit) run.workspace_base_commit
    && sqlEq (some d.branch) run.workspace_branch
    && sqlEq (some d.form)
      (task.contract.deliverable.map fun spec => DeliverableForm.as_str spec.form)
    && (d.form == "commit_branch"
      || task.contract.deliverable.any DeliverableSpec.commit_after_verification)
    && sqlEq task.contract.source_repository run.source_repository
    && sqlEq task.contract.source_base_ref run.source_base_ref
    && sqlEq task.contract.source_base_commit run.source_base_commit
    && decide (now < a.retention_until)

/-- The recovery re-verifies an unchanged policy on the fingerprint its authority
names. -/
def checkpoint_authority_fits (task : Task) (r : FactoryVerificationRecovery) : Bool :=
  r.contract_revision_id.isNone
    && r.previous_verification_policy == r.replacement_verification_policy
    && r.replacement_verification_policy == task.verification_policy
    && r.checkpoint_authority.any fun authority =>
      sqlEq r.expected_workspace_fingerprint authority.workspace_fingerprint

/-- No provider took part in the run. -/
def provider_free (run : Run) : Bool :=
  run.execution_mode == .verification_only && run.provider_session_id.isNone
    && run.model.isNone && run.reasoning_effort.isNone
    && !(run.workspace_disposition == some .quarantined)

/-- `exported_head_tx`. A run has at most one source deliverable row and a deliverable
one artifact, so the "ambiguous provenance" error of the source cannot arise. -/
def exported_head_tx (s : Db) (now : Int) (corp_id run_id : Uuid) :
    Except String (Option String) :=
  let head : Option String := do
    let (run, task, _) ← s.run_task_mission corp_id run_id
    let r ← s.recovery_of corp_id run_id
    let source ← s.run? r.source_run_id
    guard (task.corp_id = run.corp_id ∧ provider_free run ∧ r.mode = .checkpoint_verification
      ∧ recovery_bound s run task r ∧ checkpoint_authority_fits task r
      ∧ same_assignment run source
      ∧ sqlEq source.workspace_branch run.workspace_branch
      ∧ sqlEq source.workspace_base_commit run.workspace_base_commit
      ∧ sqlEq source.source_repository run.source_repository
      ∧ sqlEq source.source_base_ref run.source_base_ref
      ∧ sqlEq source.source_base_commit run.source_base_commit
      ∧ source.workspace_disposition = some .preserved
      ∧ sqlEq source.workspace_fingerprint r.expected_workspace_fingerprint)
    let d ← s.source_deliverables.find? fun d =>
      d.run_id == run.id && d.task_id == run.task_id && d.corp_id == run.corp_id
    guard (s.artifacts.any fun a => export_matches run task d a now)
    d.head_commit
  match head with
  | none => return none
  | some head => do
    validate_factory_base_commit head
    return some head

/-! ## `SourceWorkspaceCheckpoint` -/

structure SourceWorkspaceCheckpoint where
  status : RunStatus
  execution_mode : ExecutionMode
  source_correction_recovery : Bool
  verification_status : VerificationStatus
  workspace_path : Option String
  disposition : Option WorkspaceDisposition
  fingerprint : Option String
  expected_verifier_fingerprint : Option String
  expected_head_commit : Option String
  deriving DecidableEq, Repr

namespace SourceWorkspaceCheckpoint

/-- `SourceWorkspaceCheckpoint::validate_report`. -/
def validate_report (c : SourceWorkspaceCheckpoint) (fingerprint : String)
    (reported_head : Option String) : Except String Unit := do
  ensure (∀ expected ∈ c.expected_verifier_fingerprint, expected = fingerprint)
    "verifier workspace fingerprint does not match its authorization"
  match reported_head with
  | none => return ()
  | some head => do
    validate_factory_base_commit head
    ensure (∀ expected ∈ c.expected_head_commit, expected = head)
      "verifier workspace head does not match its authorization"

/-- `SourceWorkspaceCheckpoint::ensure_factory_terminal`. -/
def ensure_factory_terminal (c : SourceWorkspaceCheckpoint) : Except String Unit :=
  ensure ((c.status = .failed ∨ c.status = .cancelled
        ∨ (c.status = .lost ∧ c.execution_mode = .verification_only)
        ∨ (c.status = .lost ∧ c.source_correction_recovery = true))
      ∧ c.verification_status = .failed)
    "factory recovery requires failed verification on a terminal source or an exactly bound lost recovery"

/-- `SourceWorkspaceCheckpoint::ensure_preserved`. -/
def ensure_preserved (c : SourceWorkspaceCheckpoint) : Except String Unit := do
  ensure (c.disposition = some .preserved ∧ c.workspace_path.any (fun p => !p.isEmpty) = true)
    "source run has no confirmed preserved workspace checkpoint"
  if c.expected_verifier_fingerprint.isSome then
    let fingerprint ← context c.fingerprint
      "verifier-only source has no confirmed workspace fingerprint"
    c.validate_report fingerprint none
  else pure ()
  ensure (¬ (c.status = .lost ∧ c.source_correction_recovery = true ∧ c.fingerprint.isNone))
    "lost source-correction recovery requires a runner-confirmed workspace fingerprint"

end SourceWorkspaceCheckpoint

/-- `checkpoint_head_commit`. -/
def checkpoint_head_commit (deliverable_head authorized_head : Option String) :
    Except String (Option String) := do
  ensure (deliverable_head.isNone ∨ authorized_head.isNone ∨ deliverable_head = authorized_head)
    "verifier source head conflicts with its authorized checkpoint"
  return authorized_head.or deliverable_head

/-- `source_workspace_checkpoint_tx`. -/
def source_workspace_checkpoint_tx (s : Db) (now : Int) (corp_id run_id : Uuid) :
    Except String SourceWorkspaceCheckpoint := do
  let run ← context ((s.run? run_id).filter fun r => r.corp_id == corp_id)
    "source workspace checkpoint was not found"
  let task ← context ((s.task? run.task_id).filter fun t => t.corp_id == run.corp_id)
    "source workspace checkpoint was not found"
  let deliverable := s.source_deliverables.find? fun d =>
    d.run_id == run.id && d.task_id == run.task_id && d.corp_id == run.corp_id
  let recovery := (s.recovery_of corp_id run_id).filter fun r =>
    recovery_bound s run task r && recovery_mode_fits run r
  let previous := recovery.bind fun r => (s.run? r.source_run_id).filter fun previous =>
    same_assignment run previous && same_source_identity run previous
      && sqlEq previous.workspace_fingerprint r.expected_workspace_fingerprint
  let head := deliverable.bind SourceDeliverable.head_commit
  let source_correction_recovery := run.execution_mode == .provider
    && recovery.any (fun r => r.mode == .source_correction && r.status == .failed)
    && previous.isSome
  let (head, expected_verifier_fingerprint) ←
    if run.execution_mode = .verification_only then do
      ensure (recovery.isSome ∧ previous.isSome
          ∧ (run.status = .lost → recovery.any (fun r => r.status == .failed) = true))
        "verifier source checkpoint has no matching recovery lineage"
      let fingerprint ← context
        ((recovery.bind FactoryVerificationRecovery.expected_workspace_fingerprint).filter
          valid_sha256)
        "verifier source checkpoint omitted its authorized fingerprint"
      let exported_head ← exported_head_tx s now corp_id run_id
      let expects_commit := task.contract.deliverable.any fun spec =>
        spec.form == .commit_branch || spec.commit_after_verification
      ensure (¬ (recovery.any (fun r => r.mode == .checkpoint_verification) = true
          ∧ expects_commit = true ∧ run.deliverable_sha256.isSome ∧ exported_head.isNone))
        "checkpoint export head has no exact ready artifact binding"
      let authorized_head := recovery.bind FactoryVerificationRecovery.expected_head_commit
      let head ← if exported_head.isSome ∧ head = exported_head then pure exported_head
        else checkpoint_head_commit head authorized_head
      pure (head, some fingerprint)
    else pure (head, none)
  match head with
  | none => pure ()
  | some head => validate_factory_base_commit head
  return {
    status := run.status
    execution_mode := run.execution_mode
    source_correction_recovery
    verification_status := run.verification_status
    workspace_path := run.workspace_path
    disposition := run.workspace_disposition
    fingerprint := run.workspace_fingerprint
    expected_verifier_fingerprint
    expected_head_commit := head }

/-! ## Zero-provider allocations and durable reviews -/

/-- The query of `zero_provider_allocation_tx`: the recovery with the source run and the
origin of its checkpoint authority. -/
def zero_provider_rows (s : Db) (corp_id run_id : Uuid) :
    Option (FactoryVerificationRecovery × Run × Run) := do
  let (run, task, _) ← s.run_task_mission corp_id run_id
  let r ← s.recovery_of corp_id run_id
  let source ← s.run? r.source_run_id
  let authority ← r.checkpoint_authority
  let origin ← s.run? authority.run_id
  guard (task.corp_id = run.corp_id ∧ provider_free run
    ∧ run.budget_tokens_limit = 0 ∧ run.budget_cost_microusd_limit = 0
    ∧ run.input_tokens = 0 ∧ run.output_tokens = 0 ∧ run.cost_microusd = 0
    ∧ r.mode = .checkpoint_verification ∧ r.status ≠ .failed
    ∧ recovery_bound s run task r ∧ checkpoint_authority_fits task r
    ∧ same_assignment run source ∧ same_source_identity run source
    ∧ sqlEq r.expected_workspace_fingerprint source.workspace_fingerprint
    ∧ source.workspace_disposition = some .preserved
    ∧ origin.corp_id = run.corp_id ∧ origin.task_id = run.task_id
    ∧ origin.agent_id = run.agent_id ∧ origin.runner_id = run.runner_id
    ∧ origin.workspace_run_id = run.workspace_run_id
    ∧ origin.workspace_disposition = some .preserved ∧ origin.execution_mode = .provider
    ∧ (origin.breaker_stage = .suspend ∨ origin.breaker_stage = .stop))
  guard (∀ l ∈ s.runs, l.corp_id = run.corp_id → l.workspace_run_id = run.workspace_run_id →
    ∀ e ∈ s.events, ¬ (e.corp_id = l.corp_id ∧ e.aggregate_id = l.id ∧ e.aggregate_type = .run
      ∧ e.type = .other "run.stop_requested"))
  return (r, source, origin)

/-- `zero_provider_allocation_tx`. -/
def zero_provider_allocation_tx (s : Db) (now : Int) (corp_id run_id : Uuid) :
    Except String Bool :=
  match zero_provider_rows s corp_id run_id with
  | none => return false
  | some (r, source, origin) => do
    let checkpoint ← source_workspace_checkpoint_tx s now corp_id source.id
    let expected_head := match checkpoint.execution_mode with
      | .provider =>
        if source.id = origin.id
        then r.checkpoint_authority.bind CheckpointAuthority.head_commit else none
      | .verification_only => checkpoint.expected_head_commit
    return expected_head.isSome && expected_head == r.expected_head_commit

/-- `review_ready_tx`. -/
def review_ready_tx (s : Db) (now : Int) (corp_id run_id : Uuid) : Except String Bool :=
  let waiting : Option Unit := do
    let (run, task, mission) ← s.run_task_mission_scoped corp_id run_id
    let request ← s.verification_requests.find? fun q =>
      q.run_id == run_id && q.corp_id == corp_id
    let r ← s.recovery_of corp_id run_id
    guard (run.status = .waiting_for_approval
      ∧ run.verification_status = .waiting_for_approval ∧ request.status = .pending
      ∧ task.status = .awaiting_approval ∧ task.verification_status = .waiting_for_approval
      ∧ mission.status = .running ∧ r.task_id = run.task_id ∧ r.mission_id = task.mission_id
      ∧ r.mode = .checkpoint_verification ∧ r.status = .running
      ∧ s.factory_work_items.any (fun i => i.id == r.factory_work_item_id
          && i.corp_id == run.corp_id && i.mission_id == some mission.id
          && i.state == .awaiting_approval) = true)
  match waiting with
  | none => return false
  | some () => do
    let head ← exported_head_tx s now corp_id run_id
    if head.isNone then return false else
    zero_provider_allocation_tx s now corp_id run_id

end Crony.Store
