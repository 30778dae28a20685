/-
`crony-server/src/planning.rs`: the validation of a task graph plan.

Every plan, whether a strategy produced it or a client sent it, passes `validate_plan`
before the store sees it. The first loop checks the tasks one by one and records where each
key stands; the sums of the budgets follow; the last loop computes the depth of every task
by a depth-first search that is shared between the roots: `depths` remembers what is known,
`visiting` holds the tasks on the way down.

The recursion of `compute_depth` is not structural. The model takes a number of nested calls
it may make, and `none` says that they did not suffice; how many always do is proved in
`Properties.Planning`. A hash map is a list of pairs with the newest first, a hash set a
list.
-/
import Crony.Contract
import Crony.Lib.Guard
import Crony.Store.Missions

set_option autoImplicit false

open Crony.Lib

namespace Crony.Server

/-! ## Plans -/

structure PlannedTask where
  key : String
  title : String
  contract : ContractDocument
  assigned_agent_id : Uuid
  required_adapter : String
  depends_on : List String
  depth : Int
  max_attempts : Int
  verification_policy : VerificationPolicy
  deriving DecidableEq, Repr

structure TaskGraphPlan where
  strategy : String
  max_nodes : Int
  max_depth : Int
  budget_tokens : Int
  budget_cost_microusd : Int
  staffing : List Store.PlannedAgent := []
  tasks : List PlannedTask
  deriving DecidableEq, Repr

/-- What the store keeps of a planned task. -/
def PlannedTask.stored (t : PlannedTask) : Store.PlannedTask :=
  { key := t.key, assigned_agent_id := t.assigned_agent_id, required_adapter := t.required_adapter
    depends_on := t.depends_on, depth := t.depth, max_attempts := t.max_attempts
    contract := t.contract, verification_policy := t.verification_policy }

/-- The plan as the store takes it. -/
def TaskGraphPlan.stored (plan : TaskGraphPlan) : Store.TaskGraphPlan :=
  { max_nodes := plan.max_nodes, max_depth := plan.max_depth, budget_tokens := plan.budget_tokens
    budget_cost_microusd := plan.budget_cost_microusd, staffing := plan.staffing
    tasks := plan.tasks.map PlannedTask.stored }

def MAX_GRAPH_NODES : Nat := 8
def MAX_GRAPH_DEPTH : Int := 4
def MAX_TASK_BUDGET_TOKENS : Int := 2000000
def MAX_GRAPH_BUDGET_TOKENS : Int := 2000000
def MAX_TASK_ATTEMPTS : Int := 3

/-- `i32::MAX`. -/
def i32_max : Int := 2 ^ 31 - 1

/-! ## Errors -/

/-- What `validate_plan` can complain about; the errors about the shape of the graph are
told apart, every other one is its message. -/
inductive PlanError where
  /-- The plan's own depth limit is out of range. -/
  | depth_limit_invalid
  | cycle (key : String)
  | unknown_task (key : String)
  | unknown_dependency (key dependency : String)
  | depth_overflow
  | declared_depth (key : String) (declared depth : Int)
  | depth_limit (key : String)
  | invalid (message : String)
  deriving DecidableEq, Repr

/-- The text of an error. -/
def PlanError.message : PlanError → String
  | depth_limit_invalid => "task graph depth limit is invalid"
  | cycle key => s!"task graph contains a dependency cycle at {key}"
  | unknown_task key => s!"unknown task dependency {key}"
  | unknown_dependency key dependency => s!"task {key} depends on unknown task {dependency}"
  | depth_overflow => "task depth overflow"
  | declared_depth key declared depth =>
    s!"task {key} declared depth {declared} but dependency depth is {depth}"
  | depth_limit key => s!"task {key} exceeds graph depth limit"
  | invalid message => message

/-- The errors of the last loop: a cycle, or a depth that is wrong, too large or not to be
computed. -/
def PlanError.of_graph : PlanError → Bool
  | cycle _ | unknown_task _ | unknown_dependency _ _ | depth_overflow | declared_depth _ _ _
  | depth_limit _ => true
  | depth_limit_invalid | invalid _ => false

/-! ## Contracts and policies -/

/-- `validate_source_requirement`'s test of an owner or repository name. -/
def valid_component (value : String) : Bool :=
  value != "" && decide (byteLen value ≤ 100)
    && value.toList.all fun c => c.isAlphanum || c == '-' || c == '_' || c == '.'

/-- `validate_source_requirement`. -/
def validate_source_requirement (task_key : String)
    (repository base_ref base_commit : Option String) :
    Except PlanError Unit :=
  match repository, base_ref, base_commit with
  | some repository, some base_ref, some base_commit =>
    let parts := split repository '/'
    ensure (valid_component (parts.getD 0 "") = true ∧ valid_component (parts.getD 1 "") = true
        ∧ parts.length ≤ 2 ∧ base_ref ≠ "" ∧ byteLen base_ref ≤ 240
        ∧ starts_with base_ref "-" = false ∧ starts_with base_ref "/" = false
        ∧ ends_with base_ref "/" = false ∧ ends_with base_ref "." = false
        ∧ contains base_ref ".." = false ∧ contains base_ref "@\x7b" = false
        ∧ base_ref.toList.any (fun c => c == '\\' || c == ' ' || c == '~' || c == '^' || c == ':'
          || c == '?' || c == '*' || c == '[') = false
        ∧ (byteLen base_commit = 40 ∨ byteLen base_commit = 64)
        ∧ base_commit.toList.all is_ascii_hexdigit = true)
      (.invalid s!"task {task_key} contains an invalid source repository requirement")
  | _, _, _ =>
    ensure (repository = none ∧ base_ref = none ∧ base_commit = none)
      (.invalid (s!"task {task_key} must specify source repository, base ref, and immutable "
        ++ "base commit together"))

/-- `validate_deliverable`. -/
def validate_deliverable (task_key : String) (deliverable : DeliverableSpec) :
    Except PlanError Unit := do
  ensure (deliverable.paths.length ≤ 128)
    (.invalid s!"task {task_key} deliverable cannot contain more than 128 paths")
  ensure (∀ path ∈ deliverable.paths, repository_relative_path_is_valid path = true)
    (.invalid s!"task {task_key} deliverable path must be a literal repository-relative path")

/-- The deliverable a contract may declare. -/
def validate_declared_deliverable (task_key : String) :
    Option DeliverableSpec → Except PlanError Unit
  | some deliverable => validate_deliverable task_key deliverable
  | none => pure ()

/-- The first write scope outside the grammar. -/
def validate_write_scope (task_key : String) (write_scope : List String) : Except PlanError Unit :=
  match write_scope.find? fun scope => !write_scope_is_valid scope with
  | some scope => .error (.invalid s!"task {task_key} contains invalid write scope {scope}")
  | none => pure ()

/-- The environment name of a secret. -/
def valid_env_name (name : String) : Bool :=
  name != "" && decide (byteLen name ≤ 128)
    && (name.toList.all fun c => c.isUpper || c.isDigit || c == '_')
    && !name.toList.head?.any Char.isDigit

/-- The loop over a contract's secrets. -/
def validate_secrets (task_key : String) :
    List TaskSecretReference → List String → Except PlanError Unit
  | [], _ => pure ()
  | secret :: rest, environment_names => do
    ensure (valid_env_name secret.env_name = true)
      (.invalid s!"task {task_key} secret environment name is invalid")
    ensure (secret.env_name ∉ environment_names)
      (.invalid s!"task {task_key} repeats secret environment name {secret.env_name}")
    ensure (trim secret.tool ≠ "" ∧ byteLen secret.tool ≤ 64 ∧ trim secret.resource ≠ ""
        ∧ byteLen secret.resource ≤ 512)
      (.invalid s!"task {task_key} secret scope is invalid")
    validate_secrets task_key rest (secret.env_name :: environment_names)

/-- `validate_contract`. -/
def validate_contract (task_key : String) (contract : ContractDocument) :
    Except PlanError Unit := do
  ensure (trim contract.objective ≠ "" ∧ trim contract.expected_output ≠ ""
      ∧ trim contract.escalation ≠ "")
    (.invalid s!"task {task_key} has an incomplete contract")
  ensure (contract.acceptance_tests ≠ [] ∧ contract.allowed_tools ≠ []
      ∧ contract.prohibited_actions ≠ [] ∧ contract.write_scope ≠ [])
    (.invalid s!"task {task_key} omits required contract lists")
  ensure (1 ≤ contract.budget_tokens ∧ contract.budget_tokens ≤ MAX_TASK_BUDGET_TOKENS)
    (.invalid s!"task {task_key} budget is invalid")
  ensure (1 ≤ contract.budget_cost_microusd ∧ contract.budget_cost_microusd ≤ 10000000)
    (.invalid s!"task {task_key} cost budget is invalid")
  validate_source_requirement task_key contract.source_repository contract.source_base_ref
    contract.source_base_commit
  validate_declared_deliverable task_key contract.deliverable
  ensure (∀ model ∈ contract.model, trim model ≠ "" ∧ byteLen model ≤ 128)
    (.invalid s!"task {task_key} model is invalid")
  ensure (∀ effort ∈ contract.reasoning_effort,
      effort ∈ ["none", "minimal", "low", "medium", "high", "xhigh", "max"])
    (.invalid s!"task {task_key} reasoning effort is invalid")
  ensure (∀ value ∈ contract.acceptance_tests ++ contract.allowed_tools
      ++ contract.prohibited_actions ++ contract.references ++ contract.write_scope,
      trim value ≠ "" ∧ byteLen value ≤ 500)
    (.invalid s!"task {task_key} contains an invalid contract entry")
  validate_write_scope task_key contract.write_scope
  validate_secrets task_key contract.secret_refs []

/-- One check of a verification policy. -/
def validate_check (task_key : String) (check : VerifierCheck) : Except PlanError Unit :=
  let relative (path : String) : Except PlanError Unit :=
    ensure (repository_relative_path_is_valid path = true)
      (.invalid s!"task {task_key} verifier path must stay inside the worktree")
  let file (path : String) (min_bytes : Nat) : Except PlanError Unit := do
    relative path
    ensure (min_bytes ≠ 0) (.invalid s!"task {task_key} file check has no byte floor")
  let command (program : String) (args : List String) (timeout_ms : Nat) : Except PlanError Unit :=
    ensure (trim program ≠ "" ∧ byteLen program ≤ 256 ∧ starts_with program "-" = false
        ∧ args.length ≤ 32 ∧ (∀ arg ∈ args, byteLen arg ≤ 2000)
        ∧ 100 ≤ timeout_ms ∧ timeout_ms ≤ 60000)
      (.invalid s!"task {task_key} command verifier is invalid")
  match check with
  | .artifact min_bytes =>
    ensure (min_bytes ≠ 0) (.invalid s!"task {task_key} artifact check has no byte floor")
  | .file path min_bytes => file path min_bytes
  | .screenshot path min_bytes => file path min_bytes
  | .json_schema path required_keys => do
    relative path
    ensure (required_keys ≠ [] ∧ required_keys.length ≤ 32
        ∧ ∀ key ∈ required_keys, trim key ≠ "" ∧ byteLen key ≤ 128)
      (.invalid s!"task {task_key} JSON schema check is invalid")
  | .command program args timeout_ms => command program args timeout_ms
  | .test program args timeout_ms => command program args timeout_ms

/-- `validate_verification_policy`. -/
def validate_verification_policy (task_key : String) (policy : VerificationPolicy) :
    Except PlanError Unit := do
  ensure (policy.checks ≠ [] ∧ policy.checks.length ≤ 16)
    (.invalid s!"task {task_key} verifier must contain between 1 and 16 checks")
  policy.checks.forM (validate_check task_key)
  match policy.manual_gate with
  | none => pure ()
  | some gate =>
    ensure (gate.roles ≠ [] ∧ gate.roles.length ≤ 16
        ∧ ∀ role ∈ gate.roles, role ∈ ["owner", "admin", "manager", "member"])
      (.invalid s!"task {task_key} manual verification gate is invalid")

/-! ## Depth -/

/-- The two maps the search threads through its calls. -/
structure Visit where
  visiting : List String := []
  depths : List (String × Int) := []
  deriving DecidableEq, Repr

/-- `none`: the nested calls did not suffice. -/
abbrev Outcome (α : Type) := Option (Except PlanError α)

/-- `keys.get(key).and_then(|index| tasks.get(*index))`. -/
def task_of (tasks : List PlannedTask) (keys : List (String × Nat)) (key : String) :
    Option PlannedTask :=
  (keys.lookup key).bind fun index => tasks[index]?

/-- The loop of `compute_depth` over the dependencies of a task. -/
def visit_dependencies (visit : String → Visit → Outcome (Int × Visit)) (keys : List (String × Nat))
    (task_key : String) : List String → Int → Visit → Outcome (Int × Visit)
  | [], depth, state => some (.ok (depth, state))
  | dependency :: rest, depth, state =>
    if (keys.lookup dependency).isNone then
      some (.error (.unknown_dependency task_key dependency))
    else
      match visit dependency state with
      | none => none
      | some (.error e) => some (.error e)
      | some (.ok (below, state)) =>
        -- `checked_add(1)`
        if below + 1 ≤ i32_max then
          visit_dependencies visit keys task_key rest (max depth (below + 1)) state
        else some (.error .depth_overflow)

/-- `compute_depth`. -/
def compute_depth (tasks : List PlannedTask) (keys : List (String × Nat)) :
    Nat → String → Visit → Outcome (Int × Visit)
  | 0, _, _ => none
  | calls + 1, key, state =>
    match state.depths.lookup key with
    | some depth => some (.ok (depth, state))
    | none =>
      if key ∈ state.visiting then some (.error (.cycle key))
      else
        match task_of tasks keys key with
        | none => some (.error (.unknown_task key))
        | some task =>
          match visit_dependencies (compute_depth tasks keys calls) keys task.key task.depends_on 0
              { state with visiting := key :: state.visiting } with
          | none => none
          | some (.error e) => some (.error e)
          | some (.ok (depth, state)) =>
            some (.ok (depth,
              { visiting := state.visiting.filter (· ≠ key)
                depths := (key, depth) :: state.depths }))

/-! ## `validate_plan` -/

/-- The key of a task. -/
def valid_key (key : String) : Bool :=
  key != "" && decide (byteLen key ≤ 64)
    && key.toList.all fun c => c.isAlphanum || c == '.' || c == '_' || c == '-'

/-- The roster as a map: of several agents with one identifier the last one counts. -/
def roster_agent (agents : List Store.Agent) (id : Uuid) : Option Store.Agent :=
  agents.reverse.find? fun a => a.id == id

/-- The body of the first loop. -/
def validate_task (agents : List Store.Agent) (keys : List (String × Nat)) (task : PlannedTask) :
    Except PlanError Unit := do
  ensure (valid_key task.key = true) (.invalid s!"task key is invalid: {task.key}")
  ensure (keys.lookup task.key = none) (.invalid s!"duplicate task key {task.key}")
  let agent ← context (roster_agent agents task.assigned_agent_id)
    (.invalid s!"task {task.key} references an unknown agent")
  ensure (agent.adapter = task.required_adapter)
    (.invalid (s!"task {task.key} requires adapter {task.required_adapter} but assigned agent "
      ++ s!"uses {agent.adapter}"))
  ensure (¬ (task.required_adapter = "fake-process"
      ∧ (task.contract.model.isSome = true ∨ task.contract.reasoning_effort.isSome = true)))
    (.invalid (s!"task {task.key} uses fake-process and cannot require a model or reasoning "
      ++ "effort"))
  ensure (1 ≤ task.max_attempts ∧ task.max_attempts ≤ MAX_TASK_ATTEMPTS)
    (.invalid s!"task {task.key} retry limit is invalid")
  validate_contract task.key task.contract
  validate_verification_policy task.key task.verification_policy

/-- The first loop: every task is valid by itself; the result says where each key stands. -/
def validate_tasks (agents : List Store.Agent) :
    List PlannedTask → Nat → List (String × Nat) → Except PlanError (List (String × Nat))
  | [], _, keys => pure keys
  | task :: rest, index, keys => do
    validate_task agents keys task
    validate_tasks agents rest (index + 1) ((task.key, index) :: keys)

/-- `try_fold(0, checked_add)`. -/
def checked_sum (overflow : PlanError) : List Int → Int → Except PlanError Int
  | [], total => pure total
  | n :: rest, total => do
    ensure (fitsBigint (total + n) = true) overflow
    checked_sum overflow rest (total + n)

/-- The checks before the last loop. -/
def validate_shape (plan : TaskGraphPlan) (agents : List Store.Agent) :
    Except PlanError (List (String × Nat)) := do
  ensure (plan.tasks ≠ [] ∧ plan.tasks.length ≤ MAX_GRAPH_NODES)
    (.invalid "task graph must contain between 1 and 8 nodes")
  ensure ((plan.tasks.length : Int) ≤ plan.max_nodes ∧ plan.max_nodes ≤ MAX_GRAPH_NODES)
    (.invalid "task graph node limit is invalid")
  ensure (0 ≤ plan.max_depth ∧ plan.max_depth ≤ MAX_GRAPH_DEPTH) .depth_limit_invalid
  ensure (1 ≤ plan.budget_tokens ∧ plan.budget_tokens ≤ MAX_GRAPH_BUDGET_TOKENS)
    (.invalid "task graph budget is invalid")
  ensure (1 ≤ plan.budget_cost_microusd ∧ plan.budget_cost_microusd ≤ 50000000)
    (.invalid "task graph cost budget is invalid")
  let keys ← validate_tasks agents plan.tasks 0 []
  let total_budget ← checked_sum (.invalid "task graph budget overflow")
    (plan.tasks.map fun t => t.contract.budget_tokens) 0
  ensure (total_budget ≤ plan.budget_tokens)
    (.invalid s!"task budgets total {total_budget}, above mission budget {plan.budget_tokens}")
  let total_cost_budget ← checked_sum (.invalid "task graph cost budget overflow")
    (plan.tasks.map fun t => t.contract.budget_cost_microusd) 0
  ensure (total_cost_budget ≤ plan.budget_cost_microusd)
    (.invalid (s!"task cost budgets total {total_cost_budget}, above mission cost budget "
      ++ s!"{plan.budget_cost_microusd}"))
  return keys

/-- The last loop. -/
def validate_depths (calls : Nat) (plan : TaskGraphPlan) (keys : List (String × Nat)) :
    List PlannedTask → Visit → Outcome Unit
  | [], _ => some (.ok ())
  | task :: rest, state =>
    match compute_depth plan.tasks keys calls task.key state with
    | none => none
    | some (.error e) => some (.error e)
    | some (.ok (depth, state)) =>
      if depth ≠ task.depth then some (.error (.declared_depth task.key task.depth depth))
      else if depth > plan.max_depth ∨ depth > MAX_GRAPH_DEPTH then
        some (.error (.depth_limit task.key))
      else validate_depths calls plan keys rest state

/-- `validate_plan`. -/
def validate_plan (calls : Nat) (plan : TaskGraphPlan) (agents : List Store.Agent) : Outcome Unit :=
  match validate_shape plan agents with
  | .error e => some (.error e)
  | .ok keys => validate_depths calls plan keys plan.tasks {}

/-- Every task of a plan that got through the first loop is valid by itself. -/
theorem validate_tasks_each {agents : List Store.Agent} {tasks : List PlannedTask} {index : Nat}
    {keys keys' : List (String × Nat)} (h : validate_tasks agents tasks index keys = .ok keys') :
    ∀ task ∈ tasks, ∃ seen, validate_task agents seen task = .ok () := by
  induction tasks generalizing index keys with
  | nil =>
    intro task htask
    exact absurd htask List.not_mem_nil
  | cons head tasks ih =>
    simp only [validate_tasks, bind_eq_ok] at h
    obtain ⟨_, hhead, hrest⟩ := h
    intro task htask
    rcases List.mem_cons.mp htask with rfl | htask
    · exact ⟨keys, hhead⟩
    · exact ih hrest task htask

theorem validate_plan_each {agents : List Store.Agent} {plan : TaskGraphPlan} {calls : Nat}
    (h : validate_plan calls plan agents = some (.ok ())) :
    ∀ task ∈ plan.tasks, ∃ seen, validate_task agents seen task = .ok () := by
  unfold validate_plan at h
  split at h
  · cases h
  · rename_i keys hshape
    simp only [validate_shape, bind_eq_ok, ensure_eq_ok] at hshape
    obtain ⟨_, -, _, -, _, -, _, -, _, -, _, htasks, -⟩ := hshape
    exact validate_tasks_each htasks

end Crony.Server
