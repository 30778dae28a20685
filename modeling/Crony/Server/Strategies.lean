/-
`crony-server/src/planning.rs`: the manager strategies.

A strategy turns a request and the roster into a task graph plan. Every strategy looks at the
roster through `ordered_candidates`: the agents that are neither offline nor retired, the idle
ones first, then managers, then the deterministic adapter, then by adapter, name and
identifier. The registry finds the strategy by its identifier, puts the requested number of
attempts into every task, and validates the plan.

Budgets are `i64`; a product that overflows wraps, as in a release build.
-/
import Mathlib.Data.Prod.Lex
import Mathlib.Data.String.Basic
import Crony.Lib.Sort
import Crony.Server.DependencySource
import Crony.Server.Planning

set_option autoImplicit false

open Crony.Lib

namespace Crony.Server

/-! ## Requests and rosters -/

structure PlanningRequest where
  mission_title : String
  preferred_adapter : Option String := none
  preferred_model : Option String := none
  reasoning_effort : Option String := none
  secret_refs : List TaskSecretReference := []
  budget_tokens : Option Int := none
  budget_cost_microusd : Option Int := none
  max_task_attempts : Option Int := none
  deliverable : Option DeliverableSpec := none
  handoff_root : Option String := none
  deriving DecidableEq, Repr

/-- An agent with what the planner reads of its actor. -/
structure Agent extends Store.Agent where
  name : String
  role : String
  deriving DecidableEq, Repr

/-- The key `ordered_candidates` sorts by. -/
def candidate_key (agent : Agent) : Bool ×ₗ Bool ×ₗ Bool ×ₗ String ×ₗ String ×ₗ Uuid :=
  toLex (decide (agent.status ≠ .idle), toLex (decide (agent.role ≠ "manager"),
    toLex (decide (agent.adapter ≠ "fake-process"),
      toLex (agent.adapter, toLex (agent.name, agent.id)))))

/-- `ordered_candidates`. -/
def ordered_candidates (agents : List Agent) : List Agent :=
  sort_by_key candidate_key
    (agents.filter fun agent => decide (agent.status ≠ .offline) && agent.retired_at.isNone)

/-! ## Shared parts -/

def DEFAULT_SINGLE_TASK_BUDGET_TOKENS : Int := 1000000

/-- An `i64` operation that does not check for overflow. -/
def wrapping_i64 (n : Int) : Int := n.bmod (2 ^ 64)

/-- `provider_settings`. -/
def provider_settings (request : PlanningRequest) (adapter : String) :
    Option String × Option String :=
  if request.preferred_adapter = some adapter then
    (request.preferred_model, request.reasoning_effort)
  else (none, none)

/-- `artifact_policy`. -/
def artifact_policy : VerificationPolicy := { checks := [.artifact 1], manual_gate := none }

/-- `contract`. -/
def contract (objective expected_output : String) (budget_tokens : Int) : ContractDocument :=
  { objective, expected_output, budget_tokens
    source_repository := none, source_base_ref := none, source_base_commit := none
    acceptance_tests := ["the declared artifact exists",
      "the task reports concrete verification evidence"]
    allowed_tools := ["filesystem", "shell"]
    prohibited_actions := ["modify files outside the assigned worktree",
      "use undeclared long-lived credentials"]
    references := [], write_scope := ["**"], budget_cost_microusd := 1000000
    escalation := "ask the current human controller or mission owner"
    model := none, reasoning_effort := none, deliverable := none }

/-- `TaskContract::normalize_for_adapter`. -/
def normalize_for_adapter (contract : ContractDocument) (adapter : String) : ContractDocument :=
  if adapter = "fake-process" then { contract with model := none, reasoning_effort := none }
  else contract

/-! ## One task -/

/-- `SingleTaskStrategy::plan`. -/
def SingleTaskStrategy.plan (request : PlanningRequest) (agents : List Agent) :
    Except PlanError TaskGraphPlan := do
  let agent ← context ((ordered_candidates agents).find? fun agent =>
      decide (agent.role ≠ "manager")
        && request.preferred_adapter.all fun adapter => agent.adapter == adapter)
    (.invalid "no worker agent satisfies the requested adapter")
  let budget_tokens := request.budget_tokens.getD DEFAULT_SINGLE_TASK_BUDGET_TOKENS
  let budget_cost_microusd := request.budget_cost_microusd.getD 1000000
  return {
    strategy := "single", max_nodes := 1, max_depth := 0, budget_tokens, budget_cost_microusd
    tasks := [
      { key := "deliver", title := "Produce the mission outcome"
        contract :=
          { contract ("Complete the mission outcome: " ++ request.mission_title)
              "A source-backed, verified mission artifact" budget_tokens with
            budget_cost_microusd, secret_refs := request.secret_refs
            model := request.preferred_model, reasoning_effort := request.reasoning_effort
            deliverable := request.deliverable }
        assigned_agent_id := agent.id, required_adapter := agent.adapter, depends_on := []
        depth := 0, max_attempts := 2, verification_policy := artifact_policy }] }

/-! ## Two specialists and a synthesis -/

/-- `workers.swap(0, position)`. -/
def swap_first {α : Type} (l : List α) (position : Nat) : List α :=
  match l[0]?, l[position]? with
  | some first, some other => (l.set 0 other).set position first
  | _, _ => l

/-- The preferred adapter's worker comes first. -/
def prefer (request : PlanningRequest) (workers : List Agent) : Except PlanError (List Agent) :=
  match request.preferred_adapter with
  | none => pure workers
  | some preferred => do
    let position ← context (workers.findIdx? fun agent => agent.adapter == preferred)
      (.invalid s!"parallel-specialists has no worker for preferred adapter {preferred}")
    return swap_first workers position

/-- `(total * 2 / 7).max(1)` and `(total - 2 * specialist).max(1)`. -/
def specialist_budget_split (total : Int) : Int × Int :=
  let specialist := max ((wrapping_i64 (total * 2)).tdiv 7) 1
  (specialist, max (wrapping_i64 (total - specialist * 2)) 1)

/-- One of the two specialist tasks. -/
def specialist_pass (request : PlanningRequest) (agent : Agent)
    (key objective expected_output : String)
    (budget_tokens budget_cost_microusd : Int) : PlannedTask :=
  { key, title := agent.name ++ " specialist pass"
    contract :=
      { contract (objective ++ request.mission_title) expected_output budget_tokens with
        budget_cost_microusd, model := (provider_settings request agent.adapter).1
        reasoning_effort := (provider_settings request agent.adapter).2 }
    assigned_agent_id := agent.id, required_adapter := agent.adapter, depends_on := [], depth := 0
    max_attempts := 2, verification_policy := artifact_policy }

/-- `ParallelSpecialistsStrategy::plan`. -/
def ParallelSpecialistsStrategy.plan (request : PlanningRequest) (agents : List Agent) :
    Except PlanError TaskGraphPlan := do
  let workers ← prefer request
    ((ordered_candidates agents).filter fun agent => decide (agent.role ≠ "manager"))
  let first ← context workers[0]?
    (.invalid "parallel-specialists requires at least two non-manager agents")
  let second ← context workers[1]?
    (.invalid "parallel-specialists requires at least two non-manager agents")
  let synthesizer :=
    ((ordered_candidates agents).find? fun agent => agent.role == "manager").getD first
  let total_budget := request.budget_tokens.getD 280000
  let total_cost_budget := request.budget_cost_microusd.getD 3000000
  let (specialist_budget, synthesis_budget) := specialist_budget_split total_budget
  let (specialist_cost_budget, synthesis_cost_budget) := specialist_budget_split total_cost_budget
  return {
    strategy := "parallel-specialists", max_nodes := 3, max_depth := 1
    budget_tokens := total_budget, budget_cost_microusd := total_cost_budget
    tasks := [
      specialist_pass request first "specialist-a"
        "Independently produce one concrete approach for this mission: "
        "A concrete specialist artifact with assumptions and verification"
        specialist_budget specialist_cost_budget,
      specialist_pass request second "specialist-b"
        "Independently produce a distinct approach for this mission: "
        "A second specialist artifact with tradeoffs and verification"
        specialist_budget specialist_cost_budget,
      { key := "synthesis", title := "Synthesize the specialist results"
        contract :=
          { contract
              ("Produce the final bounded outcome for this mission after both specialist tasks "
                ++ "finish: " ++ request.mission_title)
              "A final synthesis artifact that addresses the mission and acceptance tests"
              synthesis_budget with
            budget_cost_microusd := synthesis_cost_budget
            model := (provider_settings request synthesizer.adapter).1
            reasoning_effort := (provider_settings request synthesizer.adapter).2
            deliverable := request.deliverable
            references := ["task:specialist-a", "task:specialist-b"] }
        assigned_agent_id := synthesizer.id, required_adapter := synthesizer.adapter
        depends_on := ["specialist-a", "specialist-b"], depth := 1, max_attempts := 2
        verification_policy := artifact_policy }] }

/-! ## The studio -/

/-- `studio_budget_split`: the remainder of the division goes to the integration. -/
def studio_budget_split (total : Int) : Except PlanError (Int × Int) := do
  ensure (4 ≤ total) (.invalid "studio-swarm budget must fund all four tasks")
  ensure (fitsBigint (total * 3) = true) (.invalid "studio-swarm budget overflow")
  let specialist := max ((total * 3).tdiv 20) 1
  return (specialist, total - specialist * 3)

/-- A component that `studio_handoff_path` refuses in the root. -/
def unsafe_root_component (component : String) : Bool :=
  let stem := to_ascii_uppercase ((split component '.').headD "")
  to_ascii_lowercase component == ".git" || ends_with component " " || ends_with component "."
    || (component.toList.any fun c => c == '<' || c == '>' || c == '|' || c == '"')
    || decide (stem ∈ ["CON", "PRN", "AUX", "NUL", "CONIN$", "CONOUT$"])
    || ((strip_prefix_str stem "COM").or (strip_prefix_str stem "LPT")).any fun suffix =>
      decide (suffix ∈ ["1", "2", "3", "4", "5", "6", "7", "8", "9", "¹", "²", "³"])

/-- `studio_handoff_path`. -/
def studio_handoff_path (root role : String) : Except PlanError String := do
  let path := root ++ "/" ++ role ++ ".md"
  ensure (validate_typed_source_paths [path] = .ok ())
    (.invalid "studio-swarm handoff root cannot be decoded safely")
  ensure (repository_relative_path_is_valid root = true ∧ write_scope_is_valid path = true
      ∧ (split root '/').any unsafe_root_component = false)
    (.invalid "studio-swarm handoff root must be a safe literal repository-relative directory")
  return path

/-- One of the three specialist roles. -/
structure StudioRole where
  key : String
  focus : String
  expected_output : String
  acceptance : String
  deriving DecidableEq, Repr

def studio_roles : List StudioRole :=
  [{ key := "visual-direction", focus := "visual and interaction direction"
     expected_output := "Visual hierarchy, interaction states, accessibility, and responsive "
       ++ "layout decisions"
     acceptance := "Specify concrete visual tokens, interaction states, keyboard/focus behavior, "
       ++ "and responsive layouts that integration can implement." },
   { key := "gameplay-systems", focus := "gameplay and systems architecture"
     expected_output := "Deterministic mechanics, state transitions, data contracts, and module "
       ++ "boundaries"
     acceptance := "Specify deterministic rules, state transitions, module interfaces, and edge "
       ++ "cases with enough detail for implementation without further design work." },
   { key := "quality-verification", focus := "quality and verification design"
     expected_output := "Executable test cases, browser acceptance checks, accessibility, and "
       ++ "performance criteria"
     acceptance := "Specify reproducible test inputs and expected results, browser acceptance "
       ++ "steps, accessibility checks, performance limits, and failure cases; distinguish "
       ++ "proposed checks from observed evidence." }]

/-- `filter(|agent| identities.insert(agent.id))`: the first agent of every identity. -/
def distinct_identities : List Agent → List Uuid → List Agent
  | [], _ => []
  | agent :: rest, identities =>
    if agent.id ∈ identities then distinct_identities rest identities
    else agent :: distinct_identities rest (agent.id :: identities)

/-- The loop that gives every unmatched role the first candidate that is still free. -/
def fill_roles (candidates : List Agent) : List (Option Agent) → List Uuid → List (Option Agent)
  | [], _ => []
  | some worker :: rest, assigned => some worker :: fill_roles candidates rest assigned
  | none :: rest, assigned =>
    match candidates.find? fun agent => decide (agent.id ∉ assigned) with
    | some worker => some worker :: fill_roles candidates rest (worker.id :: assigned)
    | none => none :: fill_roles candidates rest assigned

/-- The candidates of the studio. -/
def studio_candidates (agents : List Agent) : List Agent :=
  distinct_identities ((ordered_candidates agents).filter fun agent =>
    decide (agent.role ≠ "manager" ∧ agent.adapter = "github-copilot")) []

/-- Explicit roles are reserved before a generic worker fills an unmatched one. -/
def studio_workers (candidates : List Agent) : List (Option Agent) :=
  let workers := studio_roles.map fun role => candidates.find? fun agent => agent.role == role.key
  fill_roles candidates workers ((workers.filterMap id).map fun agent => agent.id)

/-- The objective of a specialist's handoff. -/
def handoff_objective (focus mission_title path : String) : String :=
  "Produce only the " ++ focus ++ " technical handoff for this mission: " ++ mission_title
    ++ "\nWrite exactly one concise UTF-8 Markdown handoff at " ++ path ++ ", at most 12 KiB "
    ++ "(12288 bytes). For a small mission, aim for 350-600 words of concrete "
    ++ "decisions, interfaces, edge cases, and acceptance checks. The size ceiling "
    ++ "is not a target: omit exhaustive background, duplicated requirements, and "
    ++ "implementation listings. Read only what is needed to make those decisions, "
    ++ "then write the handoff and finish. Do not repeatedly reread the whole "
    ++ "handoff merely to estimate its byte count. If a known problem needs a "
    ++ "correction, make a focused edit rather than restarting the design pass. "
    ++ "The runner checks UTF-8, byte length, and the artifact using the persisted "
    ++ "verifier after you finish; report those checks as delegated, not already "
    ++ "passed. Use only Copilot native file tools to read relevant files and "
    ++ "create or edit the handoff, including scoped directory creation if needed. "
    ++ "No shell commands are needed or allowed. Do not inspect unrelated repository "
    ++ "files, implement the final product, modify other files, or create commits. "
    ++ "The integration task receives the verified handoff contents, not your "
    ++ "conversational context or access to your worktree."

/-- The program that checks a handoff's encoding and length. -/
def handoff_check : String :=
  "const b=require('node:fs').readFileSync(process.argv[1]);new TextDecoder('utf-8',"
    ++ "\x7bfatal:true\x7d).decode(b);if(b.length>12288)process.exit(1)"

/-- The task of one specialist. -/
def handoff_task (request : PlanningRequest) (handoff_root : String)
    (specialist_budget specialist_cost_budget : Int) (role : StudioRole) (agent : Agent) :
    Except PlanError PlannedTask := do
  let path ← studio_handoff_path handoff_root role.key
  let base := contract (handoff_objective role.focus request.mission_title path)
    (path ++ ": " ++ role.expected_output ++ "; a self-contained technical Markdown handoff")
    specialist_budget
  return {
    key := role.key, title := agent.name ++ " " ++ role.focus ++ " pass"
    contract :=
      { base with
        budget_cost_microusd := specialist_cost_budget
        model := request.preferred_model, reasoning_effort := request.reasoning_effort
        allowed_tools := ["filesystem"]
        prohibited_actions := base.prohibited_actions ++ [
          "execute shell commands",
          "modify files outside the exact handoff write scope",
          "implement the final deliverable before integration",
          "create commits, publish, merge, or deploy"]
        write_scope := [path]
        acceptance_tests := base.acceptance_tests ++ [
          role.acceptance,
          "The handoff is non-empty UTF-8 Markdown, at most 12 KiB (12288 bytes), with concrete "
            ++ "decisions, constraints, and verification guidance rather than a transcript.",
          "Only the exact declared handoff file is changed and exported; no implementation files "
            ++ "or commits are produced."]
        deliverable := some
          { form := .typed_artifact_set, commit_after_verification := false, paths := [path] } }
    assigned_agent_id := agent.id, required_adapter := agent.adapter, depends_on := [], depth := 0
    max_attempts := 2
    verification_policy :=
      { checks := [.file path 1, .artifact 1, .command "node" ["-e", handoff_check, path] 5000]
        manual_gate := none } }

/-- The task that joins the three handoffs. -/
def integration_task (request : PlanningRequest) (tasks : List PlannedTask) (gameplay : Agent)
    (integration_budget integration_cost_budget : Int) : PlannedTask :=
  let base := contract
    ("After all three studio specialist tasks complete, consume every verified handoff "
      ++ "and integrate the final repository deliverable for this mission: "
        ++ request.mission_title
      ++ "\nApply the visual-direction, gameplay-systems, and quality-verification decisions "
      ++ "and acceptance checks. If any verified handoff content is missing or unusable, "
      ++ "escalate rather than guessing from task names or reading sibling worktrees.")
    ("The requested final repository deliverable, incorporating all three technical handoffs and "
      ++ "concrete verification evidence")
    integration_budget
  { key := "studio-integration", title := gameplay.name ++ " studio integration"
    contract :=
      { base with
        budget_cost_microusd := integration_cost_budget
        model := request.preferred_model, reasoning_effort := request.reasoning_effort
        references := tasks.map fun task => "task:" ++ task.key
        acceptance_tests := base.acceptance_tests ++ [
          "Consume all three verified handoffs and explain how their decisions and acceptance "
            ++ "checks are reflected in the final deliverable.",
          "Produce the requested final deliverable and report concrete verification results, "
            ++ "including any unresolved limitations."]
        deliverable := request.deliverable }
    assigned_agent_id := gameplay.id, required_adapter := gameplay.adapter
    depends_on := tasks.map fun task => task.key, depth := 1, max_attempts := 2
    verification_policy := artifact_policy }

/-- The plan for three workers. -/
def studio_plan (request : PlanningRequest) (visual gameplay quality : Agent) :
    Except PlanError TaskGraphPlan := do
  let handoff_root := request.handoff_root.getD "handoffs"
  let total_budget := request.budget_tokens.getD 2000000
  let total_cost_budget := request.budget_cost_microusd.getD 6000000
  let (specialist_budget, integration_budget) ← studio_budget_split total_budget
  let (specialist_cost_budget, integration_cost_budget) ← studio_budget_split total_cost_budget
  let tasks ← (studio_roles.zip [visual, gameplay, quality]).mapM fun (role, agent) =>
    handoff_task request handoff_root specialist_budget specialist_cost_budget role agent
  return {
    strategy := "studio-swarm", max_nodes := 4, max_depth := 1, budget_tokens := total_budget
    budget_cost_microusd := total_cost_budget
    tasks := tasks ++ [integration_task request tasks gameplay integration_budget
      integration_cost_budget] }

/-- `StudioSwarmStrategy::plan`. -/
def StudioSwarmStrategy.plan (request : PlanningRequest) (agents : List Agent) :
    Except PlanError TaskGraphPlan := do
  ensure (∀ adapter ∈ request.preferred_adapter, adapter = "github-copilot")
    (.invalid "studio-swarm requires github-copilot or an omitted requested adapter")
  match studio_workers (studio_candidates agents) with
  | [some visual, some gameplay, some quality] => studio_plan request visual gameplay quality
  | _ => .error (.invalid
      "studio-swarm requires three distinct non-retired github-copilot workers")

/-! ## Verifier fixtures -/

/-- `verification_plan`. -/
def verification_plan (strategy : String) (request : PlanningRequest) (agents : List Agent)
    (instruction : String) (verification_policy : VerificationPolicy) :
    Except PlanError TaskGraphPlan := do
  let agent ← context ((ordered_candidates agents).find? fun agent =>
      decide (agent.role ≠ "manager") && agent.adapter == "fake-process")
    (.invalid "verification strategy requires a fake-process worker")
  let budget_tokens := request.budget_tokens.getD 50000
  let budget_cost_microusd := request.budget_cost_microusd.getD 500000
  let base := contract (instruction ++ "\nMission: " ++ request.mission_title)
    "An artifact and every file required by the verifier policy" budget_tokens
  return {
    strategy, max_nodes := 1, max_depth := 0, budget_tokens, budget_cost_microusd
    tasks := [
      { key := "verify", title := "Produce verifier evidence"
        contract :=
          { normalize_for_adapter { base with budget_cost_microusd } agent.adapter with
            deliverable := request.deliverable }
        assigned_agent_id := agent.id, required_adapter := agent.adapter, depends_on := []
        depth := 0, max_attempts := 1, verification_policy }] }

/-- `VerificationMatrixStrategy::plan`. -/
def VerificationMatrixStrategy.plan (request : PlanningRequest) (agents : List Agent) :
    Except PlanError TaskGraphPlan :=
  verification_plan "verification-matrix" request agents
    "[verification-matrix] Produce every automated verification fixture."
    { checks := [
        .artifact 1,
        .file "verify.txt" 9,
        .command "node"
          ["-e", "const fs=require('fs');process.exit(fs.existsSync('verify.txt')?0:1)"] 5000,
        .test "node"
          ["-e", "const fs=require('fs');process.exit(fs.readFileSync('verify.txt','utf8').trim()"
            ++ "==='VERIFIED'?0:1)"] 5000,
        .json_schema "schema.json" ["status", "count"],
        .screenshot "screenshot.png" 16]
      manual_gate := none }

/-- `VerificationFailureStrategy::plan`. -/
def VerificationFailureStrategy.plan (request : PlanningRequest) (agents : List Agent) :
    Except PlanError TaskGraphPlan :=
  verification_plan "verification-failure" request agents
    "Produce an artifact that intentionally lacks missing-required.txt."
    { checks := [.artifact 1, .file "missing-required.txt" 1], manual_gate := none }

/-- `HumanApprovalStrategy::plan`. -/
def HumanApprovalStrategy.plan (request : PlanningRequest) (agents : List Agent) :
    Except PlanError TaskGraphPlan :=
  verification_plan "human-approval" request agents
    "Produce an artifact and wait for an authorized human approval."
    { checks := [.artifact 1], manual_gate := some (.human_approval ["owner", "admin", "manager"]) }

/-- `IndependentReviewStrategy::plan`. -/
def IndependentReviewStrategy.plan (request : PlanningRequest) (agents : List Agent) :
    Except PlanError TaskGraphPlan :=
  verification_plan "independent-review" request agents
    "Produce an artifact and wait for an independent reviewer."
    { checks := [.artifact 1]
      manual_gate := some (.independent_review ["member", "owner", "admin"] true) }

/-! ## The registry -/

/-- The strategies `StrategyRegistry::new` registers, under their identifiers. -/
def StrategyRegistry.strategies :
    List (String × (PlanningRequest → List Agent → Except PlanError TaskGraphPlan)) :=
  [("single", SingleTaskStrategy.plan), ("parallel-specialists", ParallelSpecialistsStrategy.plan),
    ("studio-swarm", StudioSwarmStrategy.plan),
    ("verification-matrix", VerificationMatrixStrategy.plan),
    ("verification-failure", VerificationFailureStrategy.plan),
    ("human-approval", HumanApprovalStrategy.plan),
    ("independent-review", IndependentReviewStrategy.plan)]

/-- The number of attempts the request asks for, in every task. -/
def with_max_attempts (max_task_attempts : Option Int) (plan : TaskGraphPlan) : TaskGraphPlan :=
  match max_task_attempts with
  | some max_attempts =>
    { plan with tasks := plan.tasks.map fun task => { task with max_attempts := max_attempts } }
  | none => plan

/-- The plan before it is validated. -/
def StrategyRegistry.draft (strategy_id : String) (request : PlanningRequest)
    (agents : List Agent) :
    Except PlanError TaskGraphPlan := do
  let strategy ← context (strategies.lookup strategy_id)
    (.invalid s!"unknown manager strategy {strategy_id}")
  let plan ← strategy request agents
  return with_max_attempts request.max_task_attempts plan

/-- `StrategyRegistry::plan`; the depth search gets one nested call more than there are
tasks. -/
def StrategyRegistry.plan (strategy_id : String) (request : PlanningRequest) (agents : List Agent) :
    Outcome TaskGraphPlan :=
  match draft strategy_id request agents with
  | .error e => some (.error e)
  | .ok plan =>
    (validate_plan (plan.tasks.length + 1) plan (agents.map Agent.toAgent)).map
      (Except.map fun _ => plan)

end Crony.Server
