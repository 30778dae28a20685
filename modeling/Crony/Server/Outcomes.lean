/-
`crony-domain/src/lib.rs`: the outcomes of a task graph plan.

The outcomes are the tasks that no task depends on. An outcome that rests on a provider's work,
its own or that of a task below it, has to be reviewed by a person. The plan has not been
validated here: keys may occur twice, be unknown or run in circles.
-/
import Crony.Lib.Worklist
import Crony.Server.Planning

set_option autoImplicit false

open Crony.Lib

namespace Crony.Server

/-- `TaskGraphPlan::terminal_task_keys`. -/
def TaskGraphPlan.terminal_task_keys (plan : TaskGraphPlan) : Finset String :=
  let internal := plan.tasks.flatMap PlannedTask.depends_on
  ((plan.tasks.filter fun task => decide (task.key ∉ internal)).map PlannedTask.key).toFinset

/-- `self.tasks.iter().find(|task| task.key == key)`. -/
def TaskGraphPlan.first_task (plan : TaskGraphPlan) (key : String) : Option PlannedTask :=
  plan.tasks.find? fun task => task.key == key

theorem TaskGraphPlan.first_task_key {plan : TaskGraphPlan} {key : String} {task : PlannedTask}
    (h : plan.first_task key = some task) : key ∈ plan.tasks.map PlannedTask.key := by
  have hkey : task.key = key := by simpa using List.find?_some h
  rw [← hkey]
  exact List.mem_map_of_mem (List.mem_of_find?_eq_some h)

/-- The tasks with the dependencies as edges. -/
def TaskGraphPlan.dependency_graph (plan : TaskGraphPlan) : Lib.Graph String PlannedTask where
  keys := plan.tasks.map PlannedTask.key
  node := plan.first_task
  next := PlannedTask.depends_on
  node_mem := fun _ _ h => first_task_key h

/-- `task.required_adapter != "fake-process"`. -/
def PlannedTask.provider_backed (task : PlannedTask) : Bool :=
  task.required_adapter != "fake-process"

/-- `TaskGraphPlan::provider_backed_outcome_keys`; the worklist of each outcome starts with its
key. -/
def TaskGraphPlan.provider_backed_outcome_keys (plan : TaskGraphPlan) : Finset String :=
  let outcomes := plan.terminal_task_keys
  (((plan.tasks.filter fun task => decide (task.key ∈ outcomes)).filter fun outcome =>
    plan.dependency_graph.search PlannedTask.provider_backed [outcome.key] []).map
      PlannedTask.key).toFinset

end Crony.Server
