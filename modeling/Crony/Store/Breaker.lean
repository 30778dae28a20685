/-
The circuit breaker.

Two pieces of code decide whether a run has used up a limit. After usage and tool
reports `evaluate_circuit_breaker` turns ten (used, limit) pairs into basis points and
raises the run's stage; before every progressing step `hard_breaker_reached_tx` asks
the database directly whether some limit is reached. Both are embedded here as the
source writes them, together with the gates built on the stage.

`BIGINT` arithmetic raises on overflow and rolls the transaction back; `bigint` is that
check.
-/
import Crony.Store.Checkpoint

set_option autoImplicit false

open Crony.Lib

namespace Crony.Store

/-! ## Stages -/

/-- `breaker_rank`. -/
def breaker_rank : BreakerStage → Nat
  | .healthy => 0
  | .steer => 1
  | .constrain => 2
  | .suspend => 3
  | .stop => 4

/-- `breaker_is_hard`. -/
def breaker_is_hard : BreakerStage → Bool
  | .suspend | .stop => true
  | .healthy | .steer | .constrain => false

/-- `should_retry_runner_failure`. -/
def should_retry_runner_failure (stage : BreakerStage) (attempt_count max_attempts : Int) : Bool :=
  decide (attempt_count < max_attempts) && !breaker_is_hard stage

/-- `ensure_breaker_allows_human_progress`. -/
def ensure_breaker_allows_human_progress (stage : BreakerStage) (action : String) :
    Except String Unit :=
  ensure (breaker_is_hard stage = false)
    (action ++ " is blocked by circuit breaker stage " ++ stage.as_str)

/-- `runner_event_advances_run`. -/
def runner_event_advances_run : EventType → Bool
  | .run_started | .run_status | .run_approval_requested | .run_artifact_upload
  | .run_deliverable_upload | .run_verification_started | .run_verification_evidence
  | .run_verification_passed | .run_verification_waiting | .run_completed => true
  | _ => false

/-- `breaker_blocks_runner_progress`. -/
def breaker_blocks_runner_progress (stage : BreakerStage) (event_type : EventType) : Bool :=
  breaker_is_hard stage && runner_event_advances_run event_type

/-! ## Basis points: `strongest_breaker_stage` -/

/-- The stage of one metric. -/
def stage_of_basis_points (basis_points : Int) : Option BreakerStage :=
  if 11000 ≤ basis_points then some .stop
  else if 10000 ≤ basis_points then some .suspend
  else if 9000 ≤ basis_points then some .constrain
  else if 7500 ≤ basis_points then some .steer
  else none

/-- One turn of the loop of `strongest_breaker_stage`; `used / limit` is Rust's division
of `i64`, which truncates. -/
def breaker_step (selected : Option (BreakerStage × String × Int × Int))
    (input : String × Int × Int) : Option (BreakerStage × String × Int × Int) :=
  let (name, used, limit) := input
  if limit ≤ 0 then selected
  else match stage_of_basis_points ((saturating_mul used 10000).tdiv limit) with
    | none => selected
    | some stage =>
      match selected with
      | none => some (stage, name, used, limit)
      | some current =>
        if breaker_rank current.1 < breaker_rank stage then some (stage, name, used, limit)
        else selected

/-- `strongest_breaker_stage`. -/
def strongest_breaker_stage (inputs : List (String × Int × Int)) :
    Option (BreakerStage × String × Int × Int) :=
  inputs.foldl breaker_step none

/-! ## Usage -/

/-- A `BIGINT` result, or the overflow error. -/
def bigint (n : Int) : Except String Int := do
  ensure (fitsBigint n = true) "bigint out of range"
  return n

/-- `run.input_tokens + run.output_tokens`. -/
def run_tokens (r : Run) : Except String Int := bigint (r.input_tokens + r.output_tokens)

/-- `COALESCE(SUM(run.input_tokens + run.output_tokens), 0)::BIGINT`. -/
def sum_tokens (runs : List Run) : Except String Int := do
  let tokens ← runs.mapM run_tokens
  bigint tokens.sum

/-- `COALESCE(SUM(run.cost_microusd), 0)::BIGINT`. -/
def sum_cost (runs : List Run) : Except String Int := bigint (runs.map Run.cost_microusd).sum

/-- `runs JOIN tasks WHERE task.mission_id = $1`. -/
def Db.mission_runs (s : Db) (mission_id : Uuid) : List Run :=
  s.runs.filter fun r => (s.task? r.task_id).any fun t => t.mission_id == mission_id

/-- The runs of the last 24 hours of the missions an actor requested. -/
def Db.actor_runs (s : Db) (now : Int) (corp_id requester : Uuid) : List Run :=
  s.runs.filter fun r =>
    ((s.task? r.task_id).bind fun t => s.mission? t.mission_id).any (fun m =>
      m.corp_id == corp_id && m.requested_by == requester)
      && decide (now - 86400 ≤ r.created_at)

/-- The runs of the last 24 hours of a corp. -/
def Db.corp_runs (s : Db) (now : Int) (corp_id : Uuid) : List Run :=
  s.runs.filter fun r => r.corp_id == corp_id && decide (now - 86400 ≤ r.created_at)

/-- `LEFT JOIN corp_budget_policies` with the `COALESCE` defaults. -/
def Db.budget_policy (s : Db) (corp_id : Uuid) : CorpBudgetPolicy :=
  (s.corp_budget_policies.find? fun p => p.corp_id == corp_id).getD
    { corp_id
      actor_tokens_per_24h := 4000000
      actor_cost_microusd_per_24h := 10000000
      corp_tokens_per_24h := 20000000
      corp_cost_microusd_per_24h := 100000000
      no_progress_event_limit := 8
      repeated_tool_limit := 5 }

/-- The sums both breaker queries compute for a run. -/
structure Usage where
  run_tokens : Int
  mission_tokens : Int
  mission_cost : Int
  actor_tokens : Int
  actor_cost : Int
  corp_tokens : Int
  corp_cost : Int
  deriving DecidableEq, Repr

def usage_tx (s : Db) (now : Int) (run : Run) (mission : Mission) : Except String Usage := do
  let run_tokens ← run_tokens run
  let mission_tokens ← sum_tokens (s.mission_runs mission.id)
  let mission_cost ← sum_cost (s.mission_runs mission.id)
  let actor_tokens ← sum_tokens (s.actor_runs now run.corp_id mission.requested_by)
  let actor_cost ← sum_cost (s.actor_runs now run.corp_id mission.requested_by)
  let corp_tokens ← sum_tokens (s.corp_runs now run.corp_id)
  let corp_cost ← sum_cost (s.corp_runs now run.corp_id)
  return { run_tokens, mission_tokens, mission_cost, actor_tokens, actor_cost, corp_tokens,
           corp_cost }

/-- The array `inputs` of `evaluate_circuit_breaker`. -/
def breaker_inputs (run : Run) (mission : Mission) (policy : CorpBudgetPolicy) (u : Usage) :
    List (String × Int × Int) :=
  [("run_tokens", u.run_tokens, run.budget_tokens_limit),
   ("run_cost", run.cost_microusd, run.budget_cost_microusd_limit),
   ("mission_tokens", u.mission_tokens, mission.budget_tokens),
   ("mission_cost", u.mission_cost, mission.budget_cost_microusd),
   ("actor_tokens_24h", u.actor_tokens, policy.actor_tokens_per_24h),
   ("actor_cost_24h", u.actor_cost, policy.actor_cost_microusd_per_24h),
   ("corp_tokens_24h", u.corp_tokens, policy.corp_tokens_per_24h),
   ("corp_cost_24h", u.corp_cost, policy.corp_cost_microusd_per_24h),
   ("no_progress", run.no_progress_events, policy.no_progress_event_limit),
   ("repeated_tool", run.repeated_tool_count, policy.repeated_tool_limit)]

/-! ## The direct question: `hard_breaker_reached_tx` -/

/-- `limit > 0 AND used >= limit`. -/
def limit_reached (used limit : Int) : Bool := decide (0 < limit) && decide (limit ≤ used)

/-- The boolean the query selects. -/
def hard_limit_reached (zero_provider : Bool) (run : Run) (mission : Mission)
    (policy : CorpBudgetPolicy) (u : Usage) : Bool :=
  (!zero_provider
      && (limit_reached u.run_tokens run.budget_tokens_limit
        || limit_reached run.cost_microusd run.budget_cost_microusd_limit
        || limit_reached u.mission_tokens mission.budget_tokens
        || limit_reached u.mission_cost mission.budget_cost_microusd
        || limit_reached u.actor_tokens policy.actor_tokens_per_24h
        || limit_reached u.actor_cost policy.actor_cost_microusd_per_24h
        || limit_reached u.corp_tokens policy.corp_tokens_per_24h
        || limit_reached u.corp_cost policy.corp_cost_microusd_per_24h))
    || limit_reached run.no_progress_events policy.no_progress_event_limit
    || limit_reached run.repeated_tool_count policy.repeated_tool_limit

/-- `hard_breaker_reached_tx`. -/
def hard_breaker_reached_tx (s : Db) (now : Int) (corp_id run_id : Uuid) : Except String Bool := do
  let zero_provider ← zero_provider_allocation_tx s now corp_id run_id
  let (run, _, mission) ← context (s.run_task_mission corp_id run_id) "no rows returned"
  let u ← usage_tx s now run mission
  return hard_limit_reached zero_provider run mission (s.budget_policy run.corp_id) u

/-- `ensure_run_not_hard_blocked_tx`. -/
def ensure_run_not_hard_blocked_tx (s : Db) (now : Int) (corp_id run_id : Uuid)
    (stage : BreakerStage) (action : String) : Except String Unit := do
  ensure_breaker_allows_human_progress stage action
  let reached ← hard_breaker_reached_tx s now corp_id run_id
  ensure (reached = false)
    (action ++ " is blocked because current budget or loop metrics require a hard breaker")

/-! ## Inserting commands and incidents -/

def Db.next_command_id (s : Db) : Uuid := s.new_v4 (s.runner_commands.map RunnerCommand.id)

/-- `INSERT INTO runner_commands`, with `UNIQUE (corp_id, idempotency_key)`. -/
def insert_runner_command (s : Db) (c : RunnerCommand) : Except String Db := do
  ensure (∀ row ∈ s.runner_commands,
      ¬ (row.corp_id = c.corp_id ∧ row.idempotency_key = c.idempotency_key))
    "duplicate key value violates unique constraint runner_commands_corp_id_idempotency_key_key"
  return s.onRunnerCommands (· ++ [{ c with id := s.next_command_id }])

/-- `INSERT INTO circuit_breaker_incidents`, with `UNIQUE (run_id, stage)`. -/
def insert_incident (s : Db) (i : CircuitBreakerIncident) : Except String Db := do
  ensure (∀ row ∈ s.circuit_breaker_incidents, ¬ (row.run_id = i.run_id ∧ row.stage = i.stage))
    "duplicate key value violates unique constraint circuit_breaker_incidents_run_id_stage_key"
  return s.onIncidents (· ++ [{ i with
    id := s.new_v4 (s.circuit_breaker_incidents.map CircuitBreakerIncident.id) }])

/-! ## The two methods -/

structure BudgetPolicyInput where
  corp_id : Uuid
  actor_id : Uuid
  actor_tokens_per_24h : Int
  actor_cost_microusd_per_24h : Int
  corp_tokens_per_24h : Int
  corp_cost_microusd_per_24h : Int
  no_progress_event_limit : Int
  repeated_tool_limit : Int
  nonce : Uuid
  deriving DecidableEq, Repr

/-- `set_budget_policy`. -/
def set_budget_policy (s : Db) (input : BudgetPolicyInput) : Except String Db := do
  ensure (∃ a ∈ s.actors, a.id = input.actor_id ∧ a.corp_id = input.corp_id ∧ a.kind = .human
      ∧ a.role ∈ ["owner", "admin"])
    "forbidden: only a Corp owner or admin can change budget policy"
  ensure (0 < input.actor_tokens_per_24h ∧ 0 < input.actor_cost_microusd_per_24h
      ∧ 0 < input.corp_tokens_per_24h ∧ 0 < input.corp_cost_microusd_per_24h
      ∧ 2 ≤ input.no_progress_event_limit ∧ input.no_progress_event_limit ≤ 100
      ∧ 2 ≤ input.repeated_tool_limit ∧ input.repeated_tool_limit ≤ 100)
    "budget policy values are out of range"
  let row : CorpBudgetPolicy :=
    { corp_id := input.corp_id
      actor_tokens_per_24h := input.actor_tokens_per_24h
      actor_cost_microusd_per_24h := input.actor_cost_microusd_per_24h
      corp_tokens_per_24h := input.corp_tokens_per_24h
      corp_cost_microusd_per_24h := input.corp_cost_microusd_per_24h
      no_progress_event_limit := input.no_progress_event_limit
      repeated_tool_limit := input.repeated_tool_limit }
  let s := s.onBudgetPolicies fun rows =>
    if rows.any fun p => p.corp_id == input.corp_id
    then updateWhere (fun p => p.corp_id == input.corp_id) (fun _ => row) rows
    else rows ++ [row]
  append_new_event_tx s
    { id := 0, corp_id := input.corp_id, actor_id := some input.actor_id
      type := .other "budget.policy_updated", aggregate_type := .corp, aggregate_id := input.corp_id
      idempotency_key := .budget_policy_updated input.nonce }
    "budget policy event unexpectedly existed"

/-- The statements that raise a run to a stage; `reason` is the metric's text. -/
def raise_breaker_stage (s : Db) (corp_id : Uuid) (run : Run) (task : Task) (mission : Mission)
    (stage : BreakerStage) (reason : String) : Except String Db := do
  let s := s.onRuns (updateWhere (fun r => r.id == run.id) fun r =>
    { r with breaker_stage := stage })
  let s := if stage = .suspend then
      (s.onRuns (updateWhere (fun r => r.id == run.id && r.status == .running) fun r =>
        { r with status := .waiting_for_input })).onTasks
          (updateWhere (fun t => t.id == task.id && t.status == .running) fun t =>
            { t with status := .blocked })
    else s
  let s ← insert_incident s
    { id := 0, corp_id, mission_id := mission.id, task_id := task.id, run_id := run.id
      stage, reason }
  let s ← insert_runner_command s
    { id := 0, corp_id, runner_id := run.runner_id, run_id := run.id
      command_kind := .circuit_breaker, payload :=
        .obj [("stage", .str stage.as_str), ("reason", .str reason)]
      idempotency_key := .breaker run.id stage }
  record_event_tx s
    { id := 0, corp_id, room_id := some mission.room_id, type := .run_breaker_transition
      aggregate_type := .run, aggregate_id := run.id, correlation_id := some mission.id
      idempotency_key := .breaker_event run.id stage }

/-- `evaluate_circuit_breaker`. A run that is not there, not past provisioning or
already terminal, and metrics that do not raise the stage, leave the state alone. -/
def evaluate_circuit_breaker (s : Db) (now : Int) (corp_id run_id : Uuid) : Except String Db :=
  match (s.run_task_mission corp_id run_id).filter fun row =>
      row.1.active && !(row.1.status == .provisioning) with
  | none => return s
  | some (run, task, mission) => do
    let u ← usage_tx s now run mission
    match strongest_breaker_stage (breaker_inputs run mission (s.budget_policy run.corp_id) u) with
    | none => return s
    | some (stage, metric, used, limit) =>
      let reason := metric ++ " reached " ++ toString used ++ " of " ++ toString limit
      if breaker_rank stage ≤ breaker_rank run.breaker_stage then return s
      else raise_breaker_stage s corp_id run task mission stage reason

end Crony.Store
