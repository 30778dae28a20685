/-
Factory policies: the part of `crony-store/src/lib.rs` that holds a plan against one.

A policy is a JSON snapshot that is normalised when an issue is claimed and never changes after
that. A plan for the issue gets the repository, the base ref and the base commit of the claim,
and then has to pass the policy: once before the claim, and again when the mission is made.
-/
import Crony.Encoding
import Crony.Server.Outcomes
import Crony.Store.Checkpoint
import Crony.Store.Revisions

set_option autoImplicit false

open Crony.Lib

namespace Crony.Store

/-- The error there is, if there is one. -/
def reject {ε : Type} : Option ε → Except ε Unit
  | some e => .error e
  | none => .ok ()

@[simp] theorem reject_eq_ok {ε : Type} {o : Option ε} {u : Unit} :
    reject o = .ok u ↔ o = none := by
  cases o <;> simp [reject]

/-! ## Reading a policy -/

/-- `factory_policy_string_list`. -/
def factory_policy_string_list (policy : Json) (key : String) (allow_empty : Bool) :
    Except String (List String) := do
  let values ← context ((policy.get? key).bind Json.as_array)
    s!"factory policy {key} must be an array"
  ensure (¬ ((allow_empty = false ∧ values.length = 0) ∨ 64 < values.length))
    s!"factory policy {key} must contain between 1 and 64 entries"
  values.mapM fun value =>
    context (value.as_str.filter fun text => trim text != "" && decide (byteLen text ≤ 500))
      s!"factory policy {key} contains an invalid entry"

/-- `factory_policy_string_array`. -/
def factory_policy_string_array (policy : Json) (key : String) : Except String (List String) :=
  factory_policy_string_list policy key false

/-- `factory_policy_optional_string`. -/
def factory_policy_optional_string (policy : Json) (key : String) : Except String (Option String) :=
  match policy.get? key with
  | some .null => pure none
  | some (.str value) => do
    ensure (trim value ≠ "" ∧ byteLen value ≤ 128)
      s!"factory policy {key} must be null or a non-empty string"
    return some value
  | _ => .error s!"factory policy {key} must be null or a non-empty string"

/-- `factory_policy_required_string`. -/
def factory_policy_required_string (policy : Json) (key : String) (max_len : Nat) :
    Except String String :=
  context ((policy.text? key).filter fun value => trim value != ""
    && decide (byteLen value ≤ max_len))
    s!"factory policy {key} must be a non-empty string"

/-- `factory_policy_positive_i64`. -/
def factory_policy_positive_i64 (policy : Json) (key : String) : Except String Int :=
  context ((policy.i64? key).filter fun value => decide (0 < value))
    s!"factory policy {key} must be a positive integer"

/-- `factory_workspace_connection_id`. -/
def factory_workspace_connection_id (policy : Json) : Except String (Option Uuid) := do
  ensure (policy.as_object.isSome = true) "factory policy snapshot must be a JSON object"
  match policy.get? "workspace_connection_id" with
  | none => return none
  | some .null => return none
  | some (.str value) =>
    let id ← context ((parse_str value).filter (· != 0))
      "factory workspace_connection_id must be a non-nil UUID"
    return some id
  | some _ => .error "factory workspace_connection_id must be a UUID or null"

/-- `factory_max_task_attempts`. -/
def factory_max_task_attempts (policy : Json) : Except String (Option Int) := do
  ensure (policy.as_object.isSome = true) "factory policy snapshot must be a JSON object"
  match policy.get? "max_task_attempts" with
  | none => return none
  | some .null => return none
  | some value =>
    let attempts ← context
      (value.as_i64.filter fun n => decide (1 ≤ n ∧ n ≤ Server.MAX_TASK_ATTEMPTS))
      s!"factory max_task_attempts must be an integer between 1 and {Server.MAX_TASK_ATTEMPTS}"
    return some attempts

/-! ## `factory_attempt_policy` -/

/-- `validate_request`. -/
def validate_request (policy request : Json) : Except String Unit := do
  let allowed ← factory_max_task_attempts policy
  let requested ← factory_max_task_attempts request
  ensure (allowed = requested)
    "factory max_task_attempts must match the immutable claimed planning policy"

/-- `validate_plan`. -/
def validate_attempts (policy : Json) (plan : Server.TaskGraphPlan) : Except String Unit := do
  let allowed ← factory_max_task_attempts policy
  -- an old claim without an allowance does not grant a third attempt
  let ceiling := allowed.getD 2
  reject ((plan.tasks.find? fun task =>
      !decide (1 ≤ task.max_attempts ∧ task.max_attempts ≤ Server.MAX_TASK_ATTEMPTS)
        || decide (ceiling < task.max_attempts) || allowed.any fun expected =>
          task.max_attempts != expected).map
    fun task => s!"factory task {task.key} must preserve the claimed task-attempt allowance")

/-! ## Refs -/

/-- `validate_factory_base_ref`. -/
def validate_factory_base_ref (value : String) : Except String Unit :=
  ensure (starts_with value "-" = false ∧ starts_with value "/" = false
    ∧ ends_with value "/" = false
      ∧ ends_with value "." = false ∧ contains value ".." = false ∧ contains value "@\x7b" = false
      ∧ value.toList.any is_control = false
      ∧ (value.toList.any fun c => c == '\\' || c == ' ' || c == '~' || c == '^' || c == ':'
        || c == '?'
        || c == '*' || c == '[') = false)
    "factory source_base_ref is not a safe Git ref"

/-- `validate_factory_branch_ref`. -/
def validate_factory_branch_ref (value : String) : Except String Unit := do
  validate_factory_base_ref value
  ensure (value ≠ "HEAD" ∧ contains value "//" = false
      ∧ ((split value '/').any fun component => starts_with component "."
        || ends_with component ".lock") = false)
    "publication branch is not a valid Git branch name"

/-- `validate_factory_publication_base_ref`. -/
def validate_factory_publication_base_ref (value : String) : Except String Unit := do
  validate_factory_base_ref value
  if value = "HEAD" then pure ()
  else
    match strip_prefix_str value "refs/heads/" with
    | some branch => do
      ensure (branch ≠ "") "factory publication base ref must be HEAD or a branch ref"
      validate_factory_branch_ref branch
    | none => do
      ensure (starts_with value "refs/" = false)
        "factory publication base ref must be HEAD or a branch ref"
      validate_factory_branch_ref value

/-- `normalize_github_component`. -/
def normalize_github_component (value field : String) (max_len : Nat) : Except String String := do
  let value ← normalize_factory_text value field max_len
  ensure ((value.toList.all fun c => c.isAlphanum || c == '-' || c == '_' || c == '.') = true)
    (field ++ " may contain only ASCII letters, numbers, hyphen, underscore, or period")
  return to_ascii_lowercase value

/-! ## Holding a plan against a policy -/

/-- The model and the reasoning effort of a task are the policy's, or the provider's default where
the policy names none. -/
def preserve_setting (plan : Server.TaskGraphPlan) (setting : Server.PlannedTask → Option String)
    (allowed : Option String) (noun override : String) : Except String Unit :=
  match allowed with
  | some allowed =>
    reject ((plan.tasks.find? fun task => setting task != some allowed).map fun task =>
      "factory task " ++ task.key ++ " must preserve policy " ++ noun ++ " " ++ allowed ++ "; got "
        ++ (setting task).getD "provider default")
  | none =>
    reject ((plan.tasks.find? fun task => (setting task).isSome).map fun task =>
      "factory policy does not allow a " ++ override ++ " override for task " ++ task.key)

section

/- `serde_json::from_value::<VerificationPolicy>`, and the length of `serde_json::to_vec`. -/
variable (from_value : Json → Option VerificationPolicy) (to_vec_len : Json → Nat)

/-- The terminal tasks keep the verification policy the factory policy persists. -/
def preserve_verification (policy : Json) (plan : Server.TaskGraphPlan) : Except String Unit :=
  match (policy.get? "verification_policy").filter fun value => !value.isNull with
  | some value => do
    let expected ← context (from_value value) "decode factory policy verification policy"
    let outcomes := plan.terminal_task_keys
    reject ((plan.tasks.find? fun task =>
        decide (task.key ∈ outcomes) && decide (task.verification_policy ≠ expected)).map
          fun task =>
      s!"factory task {task.key} does not preserve the persisted delivery verification policy")
  | none => pure ()

/-- `validate_factory_plan_against_policy_parts`. -/
def validate_factory_plan_against_policy_parts
    (source_repository_owner source_repository_name : String)
    (policy : Json) (plan : Server.TaskGraphPlan) : Except String Unit := do
  validate_attempts policy plan
  let connection_id ← factory_workspace_connection_id policy
  reject ((plan.tasks.find? fun task => task.contract.workspace_connection_id != connection_id).map
    fun task =>
    s!"factory task {task.key} must preserve the claimed workspace connection")
  ensure (policy.as_object.isSome = true) "factory policy snapshot must be a JSON object"
  ensure (policy.i64? "schema_version" = some 1) "factory policy schema_version must be 1"
  ensure (policy.text? "source_of_truth" = some "github_project")
    "factory policy source_of_truth must be github_project"
  ensure (policy.bool? "auto_merge" = some false)
    "factory policy must explicitly disable auto_merge"
  let repositories ← factory_policy_string_array policy "repository_allowlist"
  let source_repository := source_repository_owner ++ "/" ++ source_repository_name
  ensure (source_repository ∈ repositories)
    s!"factory policy does not allow source repository {source_repository}"
  let source_base_ref ← factory_policy_required_string policy "source_base_ref" 240
  let source_base_commit ← factory_policy_required_string policy "source_base_commit" 64
  let source_base_commit := to_ascii_lowercase source_base_commit
  validate_factory_base_commit source_base_commit
  reject ((plan.tasks.find? fun task =>
      task.contract.source_repository != some source_repository
        || task.contract.source_base_ref != some source_base_ref
        || task.contract.source_base_commit != some source_base_commit).map fun task =>
    s!"factory task {task.key} does not preserve the claimed repository, base ref, and immutable base commit")
  let adapters ← factory_policy_string_array policy "adapter_allowlist"
  reject ((plan.tasks.find? fun task => decide (task.required_adapter ∉ adapters)).map fun task =>
    s!"factory policy does not allow adapter {task.required_adapter} for task {task.key}")
  let strategies ← factory_policy_string_array policy "strategy_allowlist"
  ensure (plan.strategy ∈ strategies) s!"factory policy does not allow strategy {plan.strategy}"
  let allowed_model ← factory_policy_optional_string policy "model"
  preserve_setting plan (fun task => task.contract.model) allowed_model "model" "model"
  let allowed_reasoning ← factory_policy_optional_string policy "reasoning_effort"
  preserve_setting plan (fun task => task.contract.reasoning_effort) allowed_reasoning
    "reasoning effort" "reasoning"
  let write_scope ← factory_policy_string_array policy "write_scope"
  reject (plan.tasks.findSome? fun task =>
    (task.contract.write_scope.find? fun scope =>
      !write_scope.any (write_scope_is_subset scope)).map fun scope =>
      s!"factory policy does not allow write scope {scope} for task {task.key}")
  let allowed_tools ← factory_policy_string_array policy "allowed_tools"
  reject (plan.tasks.findSome? fun task =>
    (task.contract.allowed_tools.find? fun tool => decide (tool ∉ allowed_tools)).map fun tool =>
      s!"factory policy does not allow tool {tool} for task {task.key}")
  let required_prohibitions ← factory_policy_string_array policy "prohibited_actions"
  reject (plan.tasks.findSome? fun task =>
    (required_prohibitions.find? fun action =>
      decide (action ∉ task.contract.prohibited_actions)).map fun action =>
      s!"factory task {task.key} omits policy prohibition {action}")
  let allowed_secret_ids ← factory_policy_string_list policy "secret_ids" true
  reject (plan.tasks.findSome? fun task =>
    ((task.contract.secret_refs.map fun secret => uuid_text secret.secret_id).find? fun secret_id =>
      decide (secret_id ∉ allowed_secret_ids)).map fun secret_id =>
        s!"factory policy does not allow secret {secret_id} for task {task.key}")
  preserve_verification from_value policy plan
  ensure (policy.bool? "verification_required" = some true ∧ ∀ task ∈ plan.tasks,
    task.verification_policy.checks ≠ [])
    "factory policy requires a non-empty verification policy for every task"
  let reviewed_outcomes := plan.provider_backed_outcome_keys
  reject ((plan.tasks.find? fun task =>
      decide (task.key ∈ reviewed_outcomes) && task.verification_policy.manual_gate.isNone).map
        fun task =>
    s!"factory task {task.key} requires a manual verification gate for a provider-backed outcome")
  let budget_tokens ← factory_policy_positive_i64 policy "budget_tokens"
  ensure (plan.budget_tokens ≤ budget_tokens)
    s!"factory plan token budget {plan.budget_tokens} exceeds policy {budget_tokens}"
  let budget_cost_microusd ← factory_policy_positive_i64 policy "budget_cost_microusd"
  ensure (plan.budget_cost_microusd ≤ budget_cost_microusd)
    s!"factory plan cost budget {plan.budget_cost_microusd} exceeds policy {budget_cost_microusd}"

/-! ## Normalising a policy -/

/-- The publication part of a policy names a branch to publish to, where publishing is allowed. -/
def validate_publication (policy : Json) : Except String Unit :=
  match policy.get? "publication" with
  | none => pure ()
  | some publication => do
    ensure (publication.as_object.isSome = true) "factory publication policy must be a JSON object"
    if publication.bool? "allowed" = some true then
      let base_ref ← factory_policy_required_string publication "base_ref" 240
      validate_factory_publication_base_ref base_ref
    else pure ()

/-- The verification policy of a policy is one a mission may have. -/
def validate_delivery_verification (policy : Json) : Except String Unit :=
  match (policy.get? "verification_policy").filter fun value => !value.isNull with
  | none => pure ()
  | some value => do
    let verification_policy ← context (from_value value) "factory verification policy is invalid"
    -- the context hides which check of the verification policy failed
    (validate_mission_verification_policy verification_policy).mapError fun _ =>
      "factory verification policy is invalid"

/-- The write scopes of a policy are valid. -/
def validate_policy_write_scope (policy : Json) : Except String Unit :=
  if (policy.get? "write_scope").isSome then do
    let write_scope ← factory_policy_string_array policy "write_scope"
    reject ((write_scope.find? fun scope => !write_scope_is_valid scope).map fun scope =>
      s!"factory policy contains invalid write scope {scope}")
  else pure ()

/-- `source_commit_upgrade_required`. -/
def source_commit_upgrade_required (policy : Json) : Except String Bool :=
  match policy.get? "source_commit_upgrade_required" with
  | none => pure false
  | some (.bool value) => pure value
  | some _ => .error "factory source_commit_upgrade_required must be a boolean"

/-- The base commit is written in lower case, and a policy that has one needs no upgrade. -/
def pin_source_base_commit (fields : List (String × Json)) (upgrade_required : Bool) :
    Except String (List (String × Json)) :=
  let unpinned := .error "factory policy source_base_commit must be a non-empty string"
  match (Json.obj fields).get? "source_base_commit" with
  | some (.str source_base_commit) =>
    if trim source_base_commit = "" then unpinned
    else do
      ensure (upgrade_required = false)
        "factory source policy cannot be pinned and require a legacy upgrade"
      let source_base_commit := to_ascii_lowercase source_base_commit
      validate_factory_base_commit source_base_commit
      let fields := Json.insertField fields "source_base_commit" (.str source_base_commit)
      return Json.insertField fields "source_commit_upgrade_required" (.bool false)
  | none => if upgrade_required then pure fields else unpinned
  | some _ => unpinned

/-- The connection of a policy in its canonical spelling. -/
def insert_workspace_connection (fields : List (String × Json)) : Option Uuid → List (String × Json)
  | some connection_id => Json.insertField fields "workspace_connection_id" (.uuid connection_id)
  | none => fields

/-- `normalize_factory_policy`. -/
def normalize_factory_policy (policy : Json) : Except String Json := do
  let policy := if policy.isNull then .obj [] else policy
  let fields ← context policy.as_object "factory policy snapshot must be a JSON object"
  let connection_id ← factory_workspace_connection_id policy
  let _ ← factory_max_task_attempts policy
  let fields := insert_workspace_connection fields connection_id
  let policy := Json.obj fields
  let source_base_ref ← factory_policy_required_string policy "source_base_ref" 240
  validate_factory_base_ref source_base_ref
  validate_publication policy
  validate_delivery_verification from_value policy
  validate_policy_write_scope policy
  let upgrade_required ← source_commit_upgrade_required policy
  let fields ← pin_source_base_commit fields upgrade_required
  let policy := Json.obj fields
  ensure (to_vec_len policy ≤ 65536) "factory policy snapshot cannot exceed 65536 bytes"
  return policy

/-! ## Before the claim, and after it -/

/-- The source of the claim in the contract of a task. -/
def with_source (source_repository source_base_ref source_base_commit : String)
    (task : Server.PlannedTask) : Server.PlannedTask :=
  { task with contract := { task.contract with
      source_repository := some source_repository
      source_base_ref := some source_base_ref
      source_base_commit := some source_base_commit } }

/-- `apply_factory_source_constraints_parts`. -/
def apply_factory_source_constraints_parts (source_repository_owner source_repository_name : String)
    (policy : Json) (plan : Server.TaskGraphPlan) : Except String Server.TaskGraphPlan := do
  ensure (policy.as_object.isSome = true) "factory policy snapshot must be a JSON object"
  let source_repository := source_repository_owner ++ "/" ++ source_repository_name
  let source_base_ref ← factory_policy_required_string policy "source_base_ref" 240
  validate_factory_base_ref source_base_ref
  let source_base_commit ← factory_policy_required_string policy "source_base_commit" 64
  let source_base_commit := to_ascii_lowercase source_base_commit
  validate_factory_base_commit source_base_commit
  return { plan with
    tasks := plan.tasks.map (with_source source_repository source_base_ref source_base_commit) }

/-- The plan with the source of the claim, where it passes the policy. -/
def constrain_plan (source_repository_owner source_repository_name : String) (policy : Json)
    (plan : Server.TaskGraphPlan) : Except String Server.TaskGraphPlan := do
  let constrained_plan ← apply_factory_source_constraints_parts source_repository_owner
    source_repository_name policy plan
  validate_factory_plan_against_policy_parts from_value source_repository_owner
    source_repository_name policy constrained_plan
  return constrained_plan

/-- `preflight_factory_plan`. -/
def preflight_factory_plan (source_repository_owner source_repository_name : String) (policy : Json)
    (plan : Server.TaskGraphPlan) : Except String Server.TaskGraphPlan := do
  let source_repository_owner ←
    normalize_github_component source_repository_owner "source repository owner" 100
  let source_repository_name ←
    normalize_github_component source_repository_name "source repository name" 100
  let policy ← normalize_factory_policy from_value to_vec_len policy
  constrain_plan from_value source_repository_owner source_repository_name policy plan

/-- The plan `preflight_factory_mission` returns for a request: the raw policy has to name the
attempts of the request, and the plan has to pass the normalised one. -/
def preflight_plan (source_repository_owner source_repository_name : String) (policy request : Json)
    (plan : Server.TaskGraphPlan) : Except String Server.TaskGraphPlan := do
  validate_request policy request
  preflight_factory_plan from_value to_vec_len source_repository_owner source_repository_name policy
    plan

/-- The plan `materialize_factory_mission` makes a mission of: the same checks against the source
and the policy in the row of the claimed work item. -/
def materialize_plan (source_repository_owner source_repository_name : String)
    (policy request : Json)
    (plan : Server.TaskGraphPlan) : Except String Server.TaskGraphPlan := do
  validate_request policy request
  constrain_plan from_value source_repository_owner source_repository_name policy plan

end

end Crony.Store
