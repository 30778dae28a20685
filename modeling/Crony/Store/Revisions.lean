/-
Revisions of what a task demands and of what a mission may spend:
`contract_revision.rs` and `budget_revision.rs`.

A contract revision replaces the contract of one task while no run of the mission is
active. Before the first run (`redispatch`) it may say anything the mission can pay for;
afterwards (`resume`) it may only narrow what the task was allowed. A budget revision is
proposed by one call and decided by another; an approval raises the mission's limits and
may bring a finish scope, a smaller contract for the suspended task. The budget revisions
are in `Store.Budgets`.

Both kinds are idempotent by a key of the client: a call that finds its key compares the
stored request and changes nothing. A stored request is the record of its normalised
fields.
-/
import Crony.Server.Planning
import Crony.Store.Admission

set_option autoImplicit false

open Crony.Lib

namespace Crony.Store

/-! ## Tables -/

inductive MissionContractRevisionAction where
  | redispatch | resume
  deriving DecidableEq, Repr

/-- The stored `request` of a contract revision. -/
structure ContractRevisionRequest where
  mission_id : Uuid
  task_id : Uuid
  expected_contract_version : Int
  next_action : MissionContractRevisionAction
  source_run_id : Option Uuid
  reason : String
  description : String
  contract : ContractDocument
  verification_policy : VerificationPolicy
  deriving DecidableEq, Repr

structure MissionContractRevision where
  id : Uuid
  corp_id : Uuid
  mission_id : Uuid
  task_id : Uuid
  version : Int
  revised_by : Uuid
  next_action : MissionContractRevisionAction
  source_run_id : Option Uuid
  reason : String
  previous_description : String
  replacement_description : String
  previous_contract : ContractDocument
  replacement_contract : ContractDocument
  previous_verification_policy : VerificationPolicy
  replacement_verification_policy : VerificationPolicy
  idempotency_key : Uuid
  request : ContractRevisionRequest
  deriving DecidableEq, Repr

structure MissionFinishScopeInput where
  task_id : Uuid
  objective : String
  expected_output : String
  acceptance_tests : List String
  write_scope : List String
  budget_tokens : Int
  budget_cost_microusd : Int
  verification_policy : VerificationPolicy
  deriving DecidableEq, Repr

/-- The stored `proposal_request`: `proposal_request` of the normalised proposal. -/
structure ProposalRequest where
  mission_id : Uuid
  expected_budget_tokens : Int
  expected_budget_cost_microusd : Int
  proposed_budget_tokens : Int
  proposed_budget_cost_microusd : Int
  rationale : String
  finish_scope : Option MissionFinishScopeInput
  deriving DecidableEq, Repr

/-- The stored `decision_request`. -/
structure DecisionRequest where
  revision_id : Uuid
  expected_version : Int
  approved : Bool
  note : String
  deriving DecidableEq, Repr

/-- The five columns of a finish scope; a check makes them all `NULL` or all set. -/
structure Replacement where
  task_id : Uuid
  previous_contract : ContractDocument
  replacement_contract : ContractDocument
  previous_verification_policy : VerificationPolicy
  replacement_verification_policy : VerificationPolicy
  deriving DecidableEq, Repr

structure MissionBudgetRevision where
  id : Uuid
  corp_id : Uuid
  mission_id : Uuid
  proposed_by : Uuid
  status : RequestStatus
  version : Int
  current_budget_tokens : Int
  current_budget_cost_microusd : Int
  proposed_budget_tokens : Int
  proposed_budget_cost_microusd : Int
  consumed_tokens_at_proposal : Int
  consumed_cost_microusd_at_proposal : Int
  rationale : String
  replacement : Option Replacement
  idempotency_key : Uuid
  proposal_request : ProposalRequest
  decided_by : Option Uuid := none
  decision_note : Option String := none
  decision_key : Option Uuid := none
  decision_request : Option DecisionRequest := none
  deriving DecidableEq, Repr

/-- The database with the two tables of revisions. -/
structure Archive extends Db where
  mission_contract_revisions : List MissionContractRevision := []
  mission_budget_revisions : List MissionBudgetRevision := []

/-- A write to the tables of the run lifecycle. -/
def Archive.onDb (s : Archive) (db : Db) : Archive := { s with toDb := db }

@[simp] theorem Archive.onDb_toDb (s : Archive) (db : Db) : (s.onDb db).toDb = db := rfl

@[simp] theorem Archive.onDb_contract (s : Archive) (db : Db) :
    (s.onDb db).mission_contract_revisions = s.mission_contract_revisions := rfl

@[simp] theorem Archive.onDb_budget (s : Archive) (db : Db) :
    (s.onDb db).mission_budget_revisions = s.mission_budget_revisions := rfl

/-- The text of a revision's status. -/
def RequestStatus.as_str : RequestStatus → String
  | .pending => "pending"
  | .approved => "approved"
  | .rejected => "rejected"

/-- What a revision call returns. -/
structure RevisionOutcome (ρ : Type) where
  revision : ρ
  replayed : Bool
  state : Archive

/-! ## Shared checks -/

/-- `assert_actor_scope_tx`. -/
def assert_actor_scope_tx (s : Db) (corp_id actor_id : Uuid) : Except String Unit :=
  ensure (∃ a ∈ s.actors, a.id = actor_id ∧ a.corp_id = corp_id)
    "actor does not belong to the requested Corp"

/-- `ensure_no_active_mission_run_tx` of both modules, which differ in the error text. -/
def ensure_no_active_mission_run_tx (s : Db) (corp_id mission_id : Uuid) (active : String) :
    Except String Unit :=
  ensure ((s.mission_runs mission_id).any (fun r => r.corp_id == corp_id && r.active) = false)
    active

/-! ## Contract revisions -/

structure CreateMissionContractRevisionInput where
  corp_id : Uuid
  mission_id : Uuid
  task_id : Uuid
  actor_id : Uuid
  expected_contract_version : Int
  next_action : MissionContractRevisionAction
  source_run_id : Option Uuid
  reason : String
  description : String
  contract : ContractDocument
  verification_policy : VerificationPolicy
  idempotency_key : Uuid
  deriving DecidableEq, Repr

/-- One check of `validate_mission_verification_policy`. -/
def validate_mission_check : VerifierCheck → Except String Unit
  | .artifact min_bytes => ensure (min_bytes ≠ 0) "artifact verifier requires a byte floor"
  | .file path min_bytes | .screenshot path min_bytes =>
    ensure (repository_relative_path_is_valid path = true ∧ min_bytes ≠ 0)
      "file verifier is invalid"
  | .json_schema path required_keys =>
    ensure (repository_relative_path_is_valid path = true ∧ required_keys ≠ []
        ∧ required_keys.length ≤ 32 ∧ ∀ key ∈ required_keys, trim key ≠ "" ∧ byteLen key ≤ 128)
      "JSON schema verifier is invalid"
  | .command program args timeout_ms | .test program args timeout_ms =>
    ensure (trim program ≠ "" ∧ byteLen program ≤ 256 ∧ starts_with program "-" = false
        ∧ args.length ≤ 32 ∧ (∀ arg ∈ args, byteLen arg ≤ 2000)
        ∧ 100 ≤ timeout_ms ∧ timeout_ms ≤ 60000)
      "command verifier is invalid"

/-- The manual gate a policy may have. -/
def validate_manual_gate : Option ManualVerificationGate → Except String Unit
  | none => pure ()
  | some gate =>
    ensure (gate.roles ≠ [] ∧ gate.roles.length ≤ 16
        ∧ ∀ role ∈ gate.roles, role ∈ ["owner", "admin", "manager", "member"])
      "manual verification gate is invalid"

/-- `validate_mission_verification_policy`. -/
def validate_mission_verification_policy (policy : VerificationPolicy) : Except String Unit := do
  ensure (policy.checks ≠ [] ∧ policy.checks.length ≤ 16)
    "mission contract revision verifier must contain between 1 and 16 checks"
  policy.checks.forM validate_mission_check
  validate_manual_gate policy.manual_gate

/-- The source identity of a revised contract. -/
def validate_revised_source (repository base_ref base_commit : Option String) :
    Except String Unit :=
  match repository, base_ref, base_commit with
  | some repository, some base_ref, some base_commit =>
    let parts := split repository '/'
    ensure (Server.valid_component (parts.getD 0 "") = true
        ∧ Server.valid_component (parts.getD 1 "") = true
        ∧ parts.length ≤ 2 ∧ base_ref ≠ "" ∧ byteLen base_ref ≤ 240
        ∧ starts_with base_ref "-" = false ∧ starts_with base_ref "/" = false
        ∧ ends_with base_ref "/" = false ∧ ends_with base_ref "." = false
        ∧ contains base_ref ".." = false ∧ contains base_ref "@\x7b" = false
        ∧ base_ref.toList.any (fun c => c == '\\' || c == ' ' || c == '~' || c == '^' || c == ':'
          || c == '?' || c == '*' || c == '[') = false
        ∧ (byteLen base_commit = 40 ∨ byteLen base_commit = 64)
        ∧ base_commit.toList.all is_ascii_hexdigit = true)
      "mission contract revision has an invalid source repository requirement"
  | _, _, _ =>
    ensure (repository = none ∧ base_ref = none ∧ base_commit = none)
      "mission contract revision must preserve a complete source identity"

/-- The loop over the secrets of a revised contract. -/
def validate_revised_secrets : List TaskSecretReference → List String → Except String Unit
  | [], _ => pure ()
  | secret :: rest, environment_names => do
    ensure (Server.valid_env_name secret.env_name = true ∧ secret.env_name ∉ environment_names
        ∧ trim secret.tool ≠ "" ∧ byteLen secret.tool ≤ 64 ∧ trim secret.resource ≠ ""
        ∧ byteLen secret.resource ≤ 512)
      "mission contract revision has an invalid secret reference"
    validate_revised_secrets rest (secret.env_name :: environment_names)

/-- `validate_revised_contract`. -/
def validate_revised_contract (contract : ContractDocument)
    (verification_policy : VerificationPolicy) : Except String Unit := do
  ensure (trim contract.objective ≠ "" ∧ byteLen contract.objective ≤ 100000
      ∧ trim contract.expected_output ≠ "" ∧ byteLen contract.expected_output ≤ 10000
      ∧ trim contract.escalation ≠ "" ∧ byteLen contract.escalation ≤ 2000
      ∧ contract.acceptance_tests ≠ [] ∧ contract.allowed_tools ≠ []
      ∧ contract.prohibited_actions ≠ [] ∧ contract.write_scope ≠ []
      ∧ 0 < contract.budget_tokens ∧ contract.budget_tokens ≤ 2000000
      ∧ 0 < contract.budget_cost_microusd ∧ contract.budget_cost_microusd ≤ 10000000)
    "mission contract revision is incomplete or out of bounds"
  ensure (∀ values ∈ [contract.acceptance_tests, contract.allowed_tools,
        contract.prohibited_actions, contract.references, contract.write_scope],
      values.length ≤ 64 ∧ ∀ value ∈ values, trim value ≠ "" ∧ byteLen value ≤ 500)
    "mission contract revision contains invalid list entries"
  ensure (∀ scope ∈ contract.write_scope, write_scope_is_valid scope = true)
    "mission contract revision contains an invalid write scope"
  validate_revised_source contract.source_repository contract.source_base_ref
    contract.source_base_commit
  ensure (∀ model ∈ contract.model, trim model ≠ "" ∧ byteLen model ≤ 128)
    "mission contract revision has an invalid model"
  ensure (∀ effort ∈ contract.reasoning_effort,
      effort ∈ ["none", "minimal", "low", "medium", "high", "xhigh", "max"])
    "mission contract revision has an invalid reasoning effort"
  ensure (∀ deliverable ∈ contract.deliverable, deliverable.paths.length ≤ 128
      ∧ ∀ path ∈ deliverable.paths, repository_relative_path_is_valid path = true)
    "mission contract revision has invalid deliverable paths"
  validate_revised_secrets contract.secret_refs []
  validate_mission_verification_policy verification_policy

/-- The text between a description and what a task adds to it. -/
def OBJECTIVE_SEPARATOR : String := "\n\nTASK-SPECIFIC OBJECTIVE:\n"

/-- `compose_revised_task_objective`. -/
def compose_revised_task_objective (previous_description replacement_description
    requested_objective : String) : String :=
  let previous := trim (String.ofList (unix_newlines previous_description.toList))
  let requested := trim requested_objective
  let task_objective :=
    if previous ≠ "" ∧ requested = previous then ""
    else if previous ≠ "" then
      ((strip_prefix_str requested previous).bind fun remainder =>
        strip_prefix_str remainder OBJECTIVE_SEPARATOR).getD requested
    else requested
  if replacement_description = "" then task_objective
  else if task_objective = "" then replacement_description
  else if byteLen replacement_description + byteLen OBJECTIVE_SEPARATOR + byteLen task_objective
      ≤ 100000 then
    replacement_description ++ OBJECTIVE_SEPARATOR ++ task_objective
  else replacement_description

/-- `ensure_resume_contract_is_narrow`. -/
def ensure_resume_contract_is_narrow (current replacement : ContractDocument)
    (required_adapter : Option String) : Except String Unit := do
  ensure (replacement.budget_tokens = current.budget_tokens
      ∧ replacement.budget_cost_microusd = current.budget_cost_microusd
      ∧ replacement.source_repository = current.source_repository
      ∧ replacement.source_base_ref = current.source_base_ref
      ∧ replacement.source_base_commit = current.source_base_commit
      ∧ replacement.secret_refs = current.secret_refs
      ∧ replacement.model = current.model
      ∧ replacement.reasoning_effort = current.reasoning_effort
      ∧ replacement.deliverable = current.deliverable)
    ("resume contract revisions cannot change budget, source, secrets, model, reasoning, or "
      ++ "deliverable authority")
  ensure (∀ tool ∈ replacement.allowed_tools, tool ∈ current.allowed_tools)
    "resume contract revisions cannot widen allowed tools"
  ensure (∀ action ∈ current.prohibited_actions, action ∈ replacement.prohibited_actions)
    "resume contract revisions cannot remove prohibited actions"
  ensure (∀ candidate ∈ replacement.write_scope, ∃ authorized ∈ current.write_scope,
      write_scope_allows_path authorized candidate = true)
    "resume contract revisions cannot widen the task write scope"
  ensure (¬ (required_adapter = some "fake-process"
      ∧ (replacement.model.isSome = true ∨ replacement.reasoning_effort.isSome = true)))
    "fake-process contract revisions cannot select a model or reasoning effort"

/-- `ensure_resumable_contract_revision_source_tx`. -/
def ensure_resumable_contract_revision_source_tx (s : Db) (now : Int) (corp_id task_id
    source_run_id : Uuid) : Except String Unit := do
  let source ← context ((s.run? source_run_id).filter fun r => r.corp_id == corp_id)
    "contract revision source run was not found"
  ensure (source.task_id = task_id) "contract revision source run belongs to another task"
  ensure ((recovery_provider_session s source).isSome = true
      ∧ source.workspace_disposition = some .preserved
      ∧ (source.status = .failed ∨ source.status = .cancelled ∨ source.status = .lost))
    "resume contract revisions require a terminal preserved provider session"
  ensure (source.breaker_stage ≠ .stop) "stop-stage provider work cannot be revised for resume"
  let checkpoint ← source_workspace_checkpoint_tx s now corp_id source_run_id
  checkpoint.ensure_preserved
  let lineage := s.workspace_lineage corp_id source.workspace_run_id
  ensure (lineage.any (fun r => r.breaker_stage == .stop
      || r.workspace_disposition == some .quarantined) = false)
    "provider workspace lineage reached stop or quarantine and cannot be revised for resume"
  let latest ← latest_workspace_source_id lineage
  ensure (latest = source_run_id)
    "contract revision source run is not the latest resumable lineage checkpoint"

/-- `ensure_factory_recovery_verification_policy_not_weakened`. -/
def ensure_factory_recovery_verification_policy_not_weakened
    (previous replacement : VerificationPolicy) : Except String Unit := do
  ensure (previous.manual_gate = replacement.manual_gate)
    "factory recovery cannot remove or change the persisted manual verification gate"
  ensure (previous.checks.map VerifierCheck.kind = replacement.checks.map VerifierCheck.kind)
    "factory recovery verifier revisions must preserve check count and kinds"

/-- `SUM` of a column over the mission's other tasks, as a `BIGINT`, plus the new value. -/
def budget_with (s : Db) (corp_id mission_id task_id : Uuid) (column : Task → Int) (value : Int)
    (overflow : String) : Except String Int := do
  let others ← bigint ((s.tasks.filter fun t => t.corp_id == corp_id && t.mission_id == mission_id
    && t.id != task_id).map column).sum
  ensure (fitsBigint (others + value) = true) overflow
  return others + value

/-- `ensure_revised_task_budget_fits_mission_tx`. -/
def ensure_revised_task_budget_fits_mission_tx (s : Db) (corp_id mission_id task_id : Uuid)
    (mission_budget_tokens mission_budget_cost_microusd : Int) (contract : ContractDocument) :
    Except String Unit := do
  let total_tokens ← budget_with s corp_id mission_id task_id (fun t => t.contract.budget_tokens)
    contract.budget_tokens "revised task token budget overflow"
  let total_cost ← budget_with s corp_id mission_id task_id
    (fun t => t.contract.budget_cost_microusd) contract.budget_cost_microusd
    "revised task cost budget overflow"
  ensure (total_tokens ≤ mission_budget_tokens ∧ total_cost ≤ mission_budget_cost_microusd)
    "revised task contract exceeds the mission budget"

/-- `ensure_contract_revision_operator_tx`. -/
def ensure_contract_revision_operator_tx (s : Db) (corp_id actor_id requester : Uuid) :
    Except String Unit :=
  ensure (actor_id = requester ∨ ∃ a ∈ s.actors, a.id = actor_id ∧ a.corp_id = corp_id
      ∧ a.kind = .human ∧ a.role ∈ ["owner", "admin", "manager"])
    "forbidden: only the mission requester, owner, admin, or manager can revise its contract"

/-- The select of `create_mission_contract_revision`. -/
def contract_revision_row (s : Db) (corp_id mission_id task_id : Uuid) :
    Option (Mission × Task) := do
  let mission ← (s.mission? mission_id).filter fun m => m.corp_id == corp_id
  let task ← (s.task? task_id).filter fun t =>
    t.mission_id == mission.id && t.corp_id == mission.corp_id
  return (mission, task)

/-- What the next action asks of the task and its runs. -/
def ensure_next_action (s : Db) (now : Int) (input : CreateMissionContractRevisionInput)
    (mission : Mission) (task : Task) (replacement : ContractDocument) : Except String Unit :=
  match input.next_action with
  | .redispatch => do
    ensure (input.source_run_id = none)
      "redispatch contract revisions cannot name a source run"
    ensure (mission.status = .ready)
      "redispatch contract revisions require a ready mission with no prior run"
    ensure (s.runs.any (fun r => r.corp_id == input.corp_id && r.task_id == input.task_id) = false)
      "redispatch contract revisions are only allowed before the first run"
  | .resume => do
    let source_run_id ← context input.source_run_id
      "resume contract revisions require a source run"
    ensure_resumable_contract_revision_source_tx s now input.corp_id input.task_id source_run_id
    ensure_resume_contract_is_narrow task.contract replacement task.required_adapter
    if (s.factory_item_of input.corp_id input.mission_id).isSome then
      ensure_factory_recovery_verification_policy_not_weakened task.verification_policy
        input.verification_policy
    else pure ()

/-- The statements of an accepted contract revision. -/
def accept_contract_revision (s : Archive) (input : CreateMissionContractRevisionInput)
    (request : ContractRevisionRequest) (mission : Mission) (task : Task)
    (replacement : ContractDocument) :
    Except String (RevisionOutcome MissionContractRevision) := do
  let next_version := max mission.specification_version task.contract_version + 1
  let db := s.toDb.onMissions (updateWhere
    (fun m => m.id == input.mission_id && m.corp_id == input.corp_id)
    fun m => { m with description := request.description, specification_version := next_version })
  let db := db.onTasks (updateWhere
    (fun t => t.id == input.task_id && t.mission_id == input.mission_id
      && t.corp_id == input.corp_id)
    fun t => { t with contract := replacement, contract_version := next_version
                      verification_policy := input.verification_policy
                      verification_status := .pending })
  let revision : MissionContractRevision :=
    { id := s.new_v4 (s.mission_contract_revisions.map MissionContractRevision.id)
      corp_id := input.corp_id, mission_id := input.mission_id, task_id := input.task_id
      version := next_version, revised_by := input.actor_id, next_action := input.next_action
      source_run_id := input.source_run_id, reason := request.reason
      previous_description := mission.description
      replacement_description := request.description
      previous_contract := task.contract, replacement_contract := replacement
      previous_verification_policy := task.verification_policy
      replacement_verification_policy := input.verification_policy
      idempotency_key := input.idempotency_key, request }
  ensure (∀ r ∈ s.mission_contract_revisions,
    ¬ (r.task_id = input.task_id ∧ r.version = next_version))
    "duplicate key value violates unique constraint mission_contract_revisions_task_id_version_key"
  let db ← append_new_event_tx db
    { id := 0, corp_id := input.corp_id, room_id := some mission.room_id
      actor_id := some input.actor_id, type := .other "mission.contract_revised"
      aggregate_type := .mission_contract_revision, aggregate_id := revision.id
      aggregate_version := next_version, correlation_id := some input.mission_id
      idempotency_key := .mission_contract_revision revision.id }
    "mission contract revision event unexpectedly existed"
  return { revision, replayed := false
           state := { s.onDb db with
             mission_contract_revisions := s.mission_contract_revisions ++ [revision] } }

/-- The checks of a contract revision whose key is new. -/
def fresh_contract_revision (s : Archive) (now : Int) (input : CreateMissionContractRevisionInput)
    (request : ContractRevisionRequest) (mission : Mission) (task : Task) :
    Except String (RevisionOutcome MissionContractRevision) := do
  ensure_no_active_mission_run_tx s.toDb input.corp_id input.mission_id
    "mission contract cannot be revised while a run is active"
  ensure (task.contract_version = input.expected_contract_version)
    s!"task contract version is {task.contract_version}, not {input.expected_contract_version}"
  let replacement := { input.contract with
    objective := compose_revised_task_objective mission.description request.description
      input.contract.objective }
  validate_revised_contract replacement input.verification_policy
  ensure (task.status ≠ .completed ∧ mission.status ≠ .completed)
    "completed mission work cannot be revised; create a new mission"
  ensure_next_action s.toDb now input mission task replacement
  ensure (¬ (task.required_adapter = some "fake-process"
      ∧ (replacement.model.isSome = true ∨ replacement.reasoning_effort.isSome = true)))
    "fake-process contract revisions cannot select a model or reasoning effort"
  ensure_revised_task_budget_fits_mission_tx s.toDb input.corp_id input.mission_id input.task_id
    mission.budget_tokens mission.budget_cost_microusd replacement
  accept_contract_revision s input request mission task replacement

/-- `create_mission_contract_revision`. -/
def create_mission_contract_revision (s : Archive) (now : Int)
    (input : CreateMissionContractRevisionInput) :
    Except String (RevisionOutcome MissionContractRevision) := do
  ensure (0 < input.expected_contract_version) "expected task contract version must be positive"
  let reason ← normalize_factory_text input.reason "contract revision reason" 4000
  let description ← normalize_mission_description input.description
  validate_revised_contract input.contract input.verification_policy
  let request : ContractRevisionRequest :=
    { mission_id := input.mission_id, task_id := input.task_id
      expected_contract_version := input.expected_contract_version
      next_action := input.next_action, source_run_id := input.source_run_id, reason, description
      contract := input.contract, verification_policy := input.verification_policy }
  assert_actor_scope_tx s.toDb input.corp_id input.actor_id
  let (mission, task) ← context
    (contract_revision_row s.toDb input.corp_id input.mission_id input.task_id)
    "mission task was not found for contract revision"
  assert_room_membership_tx s.toDb input.corp_id mission.room_id input.actor_id
  ensure_contract_revision_operator_tx s.toDb input.corp_id input.actor_id mission.requested_by
  match s.mission_contract_revisions.find? fun r =>
      r.corp_id == input.corp_id && r.idempotency_key == input.idempotency_key with
  | some row => do
    ensure (row.mission_id = input.mission_id ∧ row.task_id = input.task_id
        ∧ row.revised_by = input.actor_id ∧ row.request = request)
      "mission contract revision idempotency key was reused with a different request"
    return { revision := row, replayed := true, state := s }
  | none => fresh_contract_revision s now input request mission task

end Crony.Store
