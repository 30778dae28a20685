/-
Budget revisions: `propose_mission_budget_revision` and `decide_mission_budget_revision`.

A proposal records the mission's limits as it saw them, what has been consumed, and the
contract it would leave the suspended task with. The decision is another transaction: it
compares everything it recorded with what the tables hold by then, and only then raises the
limits.
-/
import Crony.Store.Revisions

set_option autoImplicit false

open Crony.Lib

namespace Crony.Store

def MAX_MISSION_BUDGET_TOKENS : Int := 20000000
def MAX_MISSION_BUDGET_COST_MICROUSD : Int := 100000000
def MAX_TASK_BUDGET_TOKENS : Int := 2000000
def MAX_TASK_BUDGET_COST_MICROUSD : Int := 10000000

/-! ## Normal forms -/

/-- `normalize_text` of `budget_revision.rs`. -/
def normalize_text (value field : String) (max_len : Nat) : Except String String :=
  normalize_factory_text value field max_len

/-- `normalize_write_scope`. -/
def normalize_write_scope (value : String) : Except String String := do
  let value ← normalize_text value "finish-scope write scope" 500
  if value = "**" then return value
  else
    ensure (starts_with value "/" = false ∧ starts_with value "\\" = false
        ∧ contains value "\\" = false ∧ contains value ":" = false ∧ contains value "//" = false)
      "finish-scope write scope must be a normalized relative path"
    let path := (strip_suffix value "/**").getD value
    ensure (path ≠ "" ∧ path.toList.any (· == '*') = false
        ∧ (split path '/').all (fun component =>
          component != "" && component != "." && component != "..") = true)
      "finish-scope write scope must be an exact relative path or end in /**"
    return value

/-- `normalize_finish_scope`. -/
def normalize_finish_scope (input : MissionFinishScopeInput) :
    Except String MissionFinishScopeInput := do
  ensure (1 ≤ input.budget_tokens ∧ input.budget_tokens ≤ MAX_TASK_BUDGET_TOKENS)
    "finish-scope token budget is out of range"
  ensure (1 ≤ input.budget_cost_microusd
    ∧ input.budget_cost_microusd ≤ MAX_TASK_BUDGET_COST_MICROUSD)
    "finish-scope cost budget is out of range"
  ensure (input.acceptance_tests ≠ [] ∧ input.acceptance_tests.length ≤ 64)
    "finish scope must contain between 1 and 64 acceptance tests"
  ensure (input.write_scope ≠ [] ∧ input.write_scope.length ≤ 64)
    "finish scope must contain between 1 and 64 write-scope entries"
  let write_scope ← input.write_scope.mapM normalize_write_scope
  let objective ← normalize_text input.objective "finish-scope objective" 100000
  let expected_output ← normalize_text input.expected_output "finish-scope expected output" 10000
  let acceptance_tests ← input.acceptance_tests.mapM fun value =>
    normalize_text value "finish-scope acceptance test" 500
  return { input with objective, expected_output, acceptance_tests, write_scope }

structure ProposeMissionBudgetRevisionInput where
  corp_id : Uuid
  mission_id : Uuid
  actor_id : Uuid
  expected_budget_tokens : Int
  expected_budget_cost_microusd : Int
  proposed_budget_tokens : Int
  proposed_budget_cost_microusd : Int
  rationale : String
  idempotency_key : Uuid
  finish_scope : Option MissionFinishScopeInput
  deriving DecidableEq, Repr

/-- The finish scope a proposal may bring. -/
def normalize_optional_finish_scope :
    Option MissionFinishScopeInput → Except String (Option MissionFinishScopeInput)
  | none => pure none
  | some scope => do return some (← normalize_finish_scope scope)

/-- `normalize_proposal`. -/
def normalize_proposal (input : ProposeMissionBudgetRevisionInput) :
    Except String ProposeMissionBudgetRevisionInput := do
  [("expected mission token budget", input.expected_budget_tokens, MAX_MISSION_BUDGET_TOKENS),
    ("proposed mission token budget", input.proposed_budget_tokens, MAX_MISSION_BUDGET_TOKENS),
    ("expected mission cost budget", input.expected_budget_cost_microusd,
      MAX_MISSION_BUDGET_COST_MICROUSD),
    ("proposed mission cost budget", input.proposed_budget_cost_microusd,
      MAX_MISSION_BUDGET_COST_MICROUSD)].forM fun (field, value, maximum) =>
    ensure (1 ≤ value ∧ value ≤ maximum) (field ++ " is out of range")
  ensure (¬ (input.proposed_budget_tokens < input.expected_budget_tokens
      ∨ input.proposed_budget_cost_microusd < input.expected_budget_cost_microusd
      ∨ (input.proposed_budget_tokens = input.expected_budget_tokens
        ∧ input.proposed_budget_cost_microusd = input.expected_budget_cost_microusd)))
    ("mission budget revision must increase at least one current limit without reducing "
      ++ "another")
  let finish_scope ← normalize_optional_finish_scope input.finish_scope
  let rationale ← normalize_text input.rationale "budget revision rationale" 4000
  return { input with finish_scope, rationale }

/-- `proposal_request`. -/
def proposal_request (input : ProposeMissionBudgetRevisionInput) : ProposalRequest :=
  { mission_id := input.mission_id
    expected_budget_tokens := input.expected_budget_tokens
    expected_budget_cost_microusd := input.expected_budget_cost_microusd
    proposed_budget_tokens := input.proposed_budget_tokens
    proposed_budget_cost_microusd := input.proposed_budget_cost_microusd
    rationale := input.rationale, finish_scope := input.finish_scope }

/-! ## Queries -/

/-- `ensure_budget_manager_tx`. -/
def ensure_budget_manager_tx (s : Db) (corp_id actor_id : Uuid) : Except String Unit :=
  ensure (∃ a ∈ s.actor? corp_id actor_id, a.role = "owner" ∨ a.role = "admin")
    "mission budget revisions require an owner or admin"

/-- `assert_mission_room_membership_tx`. -/
def assert_mission_room_membership_tx (s : Db) (corp_id mission_id actor_id : Uuid) :
    Except String Unit := do
  let mission ← context ((s.mission? mission_id).filter fun m => m.corp_id == corp_id)
    "mission not found for budget revision"
  assert_room_membership_tx s corp_id mission.room_id actor_id

/-- `runs JOIN tasks … ORDER BY run.created_at DESC, run.id DESC LIMIT 1`. -/
def Db.latest_mission_run (s : Db) (corp_id mission_id : Uuid) : Option Run :=
  (((s.mission_runs mission_id).filter fun r => r.corp_id == corp_id).insertionSort
    fun a b => b.created_at < a.created_at ∨ (b.created_at = a.created_at ∧ b.id ≤ a.id)).head?

/-- `ensure_latest_run_is_resumable_suspension_tx`. -/
def ensure_latest_run_is_resumable_suspension_tx (s : Db) (corp_id mission_id : Uuid) :
    Except String Uuid := do
  let run ← context (s.latest_mission_run corp_id mission_id) "mission has no run to recover"
  ensure (run.breaker_stage = .suspend ∧ run.workspace_disposition = some .preserved
      ∧ run.provider_session_id.isSome = true ∧ (run.status = .failed ∨ run.status = .cancelled))
    "latest mission run is not a terminated, preserved budget suspension"
  return run.task_id

/-- `write_scope_contains`. -/
def write_scope_contains (authorized candidate : String) : Bool :=
  if authorized = "**" ∨ authorized = candidate then true
  else
    match strip_suffix authorized "/**" with
    | none => false
    | some stem =>
      candidate == stem || (strip_prefix_str candidate stem).any fun rest => starts_with rest "/"

/-- `ensure_finish_scope_targets_suspension`. -/
def ensure_finish_scope_targets_suspension (finish_task_id suspended_task_id : Uuid) :
    Except String Unit :=
  ensure (finish_task_id = suspended_task_id)
    "finish scope must target the task from the latest budget suspension"

/-- `tasks WHERE id = $1 AND mission_id = $2 AND corp_id = $3`. -/
def Db.mission_task (s : Db) (corp_id mission_id task_id : Uuid) : Option Task :=
  (s.task? task_id).filter fun t => t.mission_id == mission_id && t.corp_id == corp_id

/-! ## Proposals -/

/-- The contract a finish scope leaves the task with. -/
def finish_contract (previous : ContractDocument) (scope : MissionFinishScopeInput) :
    ContractDocument :=
  { previous with
    objective := scope.objective
    expected_output := scope.expected_output
    acceptance_tests := scope.acceptance_tests
    write_scope := scope.write_scope
    budget_tokens := scope.budget_tokens
    budget_cost_microusd := scope.budget_cost_microusd }

/-- The branch of a proposal that brings a finish scope. -/
def propose_finish_scope (s : Db) (input : ProposeMissionBudgetRevisionInput)
    (suspended_task_id : Uuid) (consumed_tokens consumed_cost_microusd : Int)
    (scope : MissionFinishScopeInput) : Except String Replacement := do
  ensure_finish_scope_targets_suspension scope.task_id suspended_task_id
  let task ← context (s.mission_task input.corp_id input.mission_id scope.task_id)
    "finish-scope task does not belong to the mission"
  ensure (task.status ≠ .completed) "finish-scope task cannot be revised from status completed"
  ensure (scope.verification_policy = task.verification_policy)
    ("budget finish scope cannot widen or replace the verifier policy; use a separately "
      ++ "authorized contract revision")
  ensure (scope.budget_tokens ≤ input.proposed_budget_tokens - consumed_tokens
      ∧ scope.budget_cost_microusd ≤ input.proposed_budget_cost_microusd - consumed_cost_microusd)
    "finish-scope budget exceeds the budget remaining after already consumed usage"
  ensure (scope.budget_tokens ≤ task.contract.budget_tokens
      ∧ scope.budget_cost_microusd ≤ task.contract.budget_cost_microusd)
    "finish scope may reduce but cannot increase the task budget"
  ensure (∀ candidate ∈ scope.write_scope, ∃ authorized ∈ task.contract.write_scope,
      write_scope_contains authorized candidate = true)
    "finish scope cannot widen the task write boundary"
  return { task_id := scope.task_id, previous_contract := task.contract
           replacement_contract := finish_contract task.contract scope
           previous_verification_policy := task.verification_policy
           replacement_verification_policy := task.verification_policy }

/-- The replacement a proposal records. -/
def propose_replacement (s : Db) (input : ProposeMissionBudgetRevisionInput)
    (suspended_task_id : Uuid) (consumed_tokens consumed_cost_microusd : Int) :
    Except String (Option Replacement) :=
  match input.finish_scope with
  | none => pure none
  | some scope => some <$> propose_finish_scope s input suspended_task_id consumed_tokens
      consumed_cost_microusd scope

/-- A proposal whose key is new. -/
def fresh_budget_proposal (s : Archive) (input : ProposeMissionBudgetRevisionInput) :
    Except String (RevisionOutcome MissionBudgetRevision) := do
  let mission ← context ((s.mission? input.mission_id).filter fun m => m.corp_id == input.corp_id)
    "mission not found for budget revision"
  ensure (mission.status ≠ .completed)
    "mission budget cannot be revised after the mission is completed"
  ensure (mission.budget_tokens = input.expected_budget_tokens
      ∧ mission.budget_cost_microusd = input.expected_budget_cost_microusd)
    (s!"mission budget changed: current token/cost limits are {mission.budget_tokens}/"
      ++ s!"{mission.budget_cost_microusd}")
  ensure_no_active_mission_run_tx s.toDb input.corp_id input.mission_id
    "mission budget cannot be revised while a run is active"
  let suspended_task_id ← ensure_latest_run_is_resumable_suspension_tx s.toDb input.corp_id
    input.mission_id
  ensure (s.mission_budget_revisions.any (fun r => r.corp_id == input.corp_id
      && r.mission_id == input.mission_id && r.status == .pending) = false)
    "mission already has a pending budget revision"
  let (consumed_tokens, consumed_cost) ← mission_usage_tx s.toDb input.corp_id input.mission_id
  ensure (consumed_tokens < input.proposed_budget_tokens)
    (s!"proposed mission token budget must exceed the {consumed_tokens} tokens already "
      ++ "consumed")
  ensure (consumed_cost < input.proposed_budget_cost_microusd)
    (s!"proposed mission cost budget must exceed the {consumed_cost} microusd already "
      ++ "consumed")
  let replacement ← propose_replacement s.toDb input suspended_task_id consumed_tokens consumed_cost
  let revision : MissionBudgetRevision :=
    { id := s.new_v4 (s.mission_budget_revisions.map MissionBudgetRevision.id)
      corp_id := input.corp_id, mission_id := input.mission_id, proposed_by := input.actor_id
      status := .pending, version := 1
      current_budget_tokens := mission.budget_tokens
      current_budget_cost_microusd := mission.budget_cost_microusd
      proposed_budget_tokens := input.proposed_budget_tokens
      proposed_budget_cost_microusd := input.proposed_budget_cost_microusd
      consumed_tokens_at_proposal := consumed_tokens
      consumed_cost_microusd_at_proposal := consumed_cost
      rationale := input.rationale, replacement, idempotency_key := input.idempotency_key
      proposal_request := proposal_request input }
  let db ← append_new_event_tx s.toDb
    { id := 0, corp_id := input.corp_id, room_id := some mission.room_id
      actor_id := some input.actor_id, type := .other "mission.budget_revision_proposed"
      aggregate_type := .mission_budget_revision, aggregate_id := revision.id
      aggregate_version := 1, correlation_id := some input.mission_id
      idempotency_key := .mission_budget_revision revision.id .pending }
    "mission budget proposal event unexpectedly existed"
  return { revision, replayed := false
           state := { s.onDb db with
             mission_budget_revisions := s.mission_budget_revisions ++ [revision] } }

/-- `propose_mission_budget_revision`. -/
def propose_mission_budget_revision (s : Archive) (input : ProposeMissionBudgetRevisionInput) :
    Except String (RevisionOutcome MissionBudgetRevision) := do
  let input ← normalize_proposal input
  assert_actor_scope_tx s.toDb input.corp_id input.actor_id
  ensure_budget_manager_tx s.toDb input.corp_id input.actor_id
  assert_mission_room_membership_tx s.toDb input.corp_id input.mission_id input.actor_id
  match s.mission_budget_revisions.find? fun r =>
      r.corp_id == input.corp_id && r.idempotency_key == input.idempotency_key with
  | some row => do
    ensure (row.mission_id = input.mission_id ∧ row.proposed_by = input.actor_id
        ∧ row.proposal_request = proposal_request input)
      "mission budget proposal idempotency key was reused with a different request"
    return { revision := row, replayed := true, state := s }
  | none => fresh_budget_proposal s input

/-! ## Decisions -/

structure DecideMissionBudgetRevisionInput where
  corp_id : Uuid
  mission_id : Uuid
  revision_id : Uuid
  actor_id : Uuid
  expected_version : Int
  approved : Bool
  note : String
  decision_key : Uuid
  deriving DecidableEq, Repr

/-- The finish scope of an approved revision replaces the contract of its task. -/
def apply_replacement (s : Db) (input : DecideMissionBudgetRevisionInput)
    (suspended_task_id : Uuid) : Option Replacement → Except String Db
  | none => pure s
  | some scope => do
    ensure_finish_scope_targets_suspension scope.task_id suspended_task_id
    let task ← context (s.mission_task input.corp_id input.mission_id scope.task_id)
      "finish-scope task no longer belongs to the mission"
    ensure (task.status ≠ .completed)
      "finish-scope task cannot be approved from status completed"
    ensure (task.contract = scope.previous_contract
        ∧ task.verification_policy = scope.previous_verification_policy)
      "conflict: finish-scope task contract or verifier policy changed after proposal"
    return s.onTasks (updateWhere
      (fun t => t.id == scope.task_id && t.mission_id == input.mission_id
        && t.corp_id == input.corp_id)
      fun t => { t with contract := scope.replacement_contract
                        verification_policy := scope.replacement_verification_policy
                        verification_status := .pending })

/-- What an approval checks and writes beside the revision itself. -/
def approve_budget_revision (s : Db) (input : DecideMissionBudgetRevisionInput)
    (revision : MissionBudgetRevision) (mission : Mission) : Except String Db := do
  ensure (mission.budget_tokens = revision.current_budget_tokens
      ∧ mission.budget_cost_microusd = revision.current_budget_cost_microusd)
    "mission budget changed after the revision was proposed"
  ensure_no_active_mission_run_tx s input.corp_id input.mission_id
    "mission budget cannot be revised while a run is active"
  let suspended_task_id ← ensure_latest_run_is_resumable_suspension_tx s input.corp_id
    input.mission_id
  let (consumed_tokens, consumed_cost) ← mission_usage_tx s input.corp_id input.mission_id
  ensure (consumed_tokens < revision.proposed_budget_tokens
      ∧ consumed_cost < revision.proposed_budget_cost_microusd)
    "mission consumed budget beyond the proposed revision before approval"
  let s := s.onMissions (updateWhere
    (fun m => m.id == input.mission_id && m.corp_id == input.corp_id)
    fun m => { m with budget_tokens := revision.proposed_budget_tokens
                      budget_cost_microusd := revision.proposed_budget_cost_microusd })
  apply_replacement s input suspended_task_id revision.replacement

/-- A rejection leaves the mission as it is. -/
def decide_outcome (s : Db) (input : DecideMissionBudgetRevisionInput)
    (revision : MissionBudgetRevision) (mission : Mission) : Except String Db :=
  if input.approved then approve_budget_revision s input revision mission else pure s

/-- The row of a decided revision. -/
def MissionBudgetRevision.decided (r : MissionBudgetRevision)
    (input : DecideMissionBudgetRevisionInput) (note : String) (request : DecisionRequest) :
    MissionBudgetRevision :=
  { r with status := if input.approved then .approved else .rejected
           version := r.version + 1, decided_by := some input.actor_id
           decision_note := some note, decision_key := some input.decision_key
           decision_request := some request }

/-- A decision whose key is new. -/
def fresh_budget_decision (s : Archive) (input : DecideMissionBudgetRevisionInput)
    (note : String) (request : DecisionRequest) :
    Except String (RevisionOutcome MissionBudgetRevision) := do
  let revision ← context (s.mission_budget_revisions.find? fun r =>
      r.id == input.revision_id && r.corp_id == input.corp_id && r.mission_id == input.mission_id)
    "mission budget revision not found"
  let mission ← context (s.mission? revision.mission_id) "mission budget revision not found"
  ensure (revision.status = .pending)
    s!"mission budget revision was already {revision.status.as_str}"
  ensure (revision.version = input.expected_version)
    s!"mission budget revision version is {revision.version}, not {input.expected_version}"
  ensure (mission.status ≠ .completed)
    "mission budget cannot be decided after the mission is completed"
  let db ← decide_outcome s.toDb input revision mission
  let db ← append_new_event_tx db
    { id := 0, corp_id := input.corp_id, room_id := some mission.room_id
      actor_id := some input.actor_id
      type := .other (if input.approved then "mission.budget_revision_approved"
        else "mission.budget_revision_rejected")
      aggregate_type := .mission_budget_revision, aggregate_id := revision.id
      aggregate_version := revision.version + 1, correlation_id := some input.mission_id
      idempotency_key := .mission_budget_revision revision.id
        (if input.approved then .approved else .rejected) }
    "mission budget decision event unexpectedly existed"
  return { revision := revision.decided input note request, replayed := false
           state := { s.onDb db with
             mission_budget_revisions := updateWhere
               (fun r => r.id == input.revision_id && r.corp_id == input.corp_id)
               (fun r => r.decided input note request) s.mission_budget_revisions } }

/-- `decide_mission_budget_revision`. -/
def decide_mission_budget_revision (s : Archive) (input : DecideMissionBudgetRevisionInput) :
    Except String (RevisionOutcome MissionBudgetRevision) := do
  ensure (0 < input.expected_version) "expected budget revision version must be positive"
  let note ← normalize_text input.note "budget revision decision note" 4000
  let request : DecisionRequest :=
    { revision_id := input.revision_id, expected_version := input.expected_version
      approved := input.approved, note }
  assert_actor_scope_tx s.toDb input.corp_id input.actor_id
  ensure_budget_manager_tx s.toDb input.corp_id input.actor_id
  assert_mission_room_membership_tx s.toDb input.corp_id input.mission_id input.actor_id
  match s.mission_budget_revisions.find? fun r =>
      r.corp_id == input.corp_id && r.decision_key == some input.decision_key with
  | some row => do
    ensure (row.id = input.revision_id ∧ row.mission_id = input.mission_id
        ∧ row.decided_by = some input.actor_id ∧ row.decision_request = some request)
      "mission budget decision key was reused with a different request"
    return { revision := row, replayed := true, state := s }
  | none => fresh_budget_decision s input note request

end Crony.Store
