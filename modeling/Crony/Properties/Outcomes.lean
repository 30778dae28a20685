/-
The outcomes that have to be reviewed.

The worklist of `Lib.Worklist` is exact for every graph, so the outcomes are exactly the terminal
tasks from which a provider's task can be reached, whatever the plan looks like.
-/
import Crony.Server.Outcomes

set_option autoImplicit false

open Crony.Lib

namespace Crony.Server

/-- The first task with the key depends on the other key. -/
def TaskGraphPlan.DependsOn (plan : TaskGraphPlan) (key dependency : String) : Prop :=
  ∃ task, plan.first_task key = some task ∧ dependency ∈ task.depends_on

theorem mem_terminal_task_keys {plan : TaskGraphPlan} {key : String} :
    key ∈ plan.terminal_task_keys
      ↔ key ∈ plan.tasks.map PlannedTask.key ∧ ∀ task ∈ plan.tasks, key ∉ task.depends_on := by
  rw [TaskGraphPlan.terminal_task_keys, List.mem_toFinset, List.mem_map, List.mem_map]
  constructor
  · rintro ⟨task, htask, rfl⟩
    obtain ⟨hmem, hterminal⟩ := List.mem_filter.mp htask
    rw [decide_eq_true_eq, List.mem_flatMap] at hterminal
    exact ⟨⟨task, hmem, rfl⟩, fun other hother hdepends => hterminal ⟨other, hother, hdepends⟩⟩
  · rintro ⟨⟨task, hmem, rfl⟩, hterminal⟩
    refine ⟨task, List.mem_filter.mpr ⟨hmem, ?_⟩, rfl⟩
    rw [decide_eq_true_eq, List.mem_flatMap]
    rintro ⟨other, hother, hdepends⟩
    exact hterminal other hother hdepends

/-- The search below an outcome finds a provider's task exactly when one is reached. -/
theorem search_provider_backed_iff {plan : TaskGraphPlan} {key : String} :
    plan.dependency_graph.search PlannedTask.provider_backed [key] [] = true
      ↔ ∃ reached task, Relation.ReflTransGen plan.DependsOn key reached
        ∧ plan.first_task reached = some task ∧ task.required_adapter ≠ "fake-process" := by
  rw [plan.dependency_graph.search_iff]
  have hgoal : ∀ task : PlannedTask, task.provider_backed = true
      ↔ task.required_adapter ≠ "fake-process" := fun task => bne_iff_ne
  constructor
  · rintro ⟨reached, task, hpath, htask, hprovider⟩
    exact ⟨reached, task, hpath, htask, (hgoal task).mp hprovider⟩
  · rintro ⟨reached, task, hpath, htask, hprovider⟩
    exact ⟨reached, task, hpath, htask, (hgoal task).mpr hprovider⟩

theorem mem_provider_backed_iff {plan : TaskGraphPlan} {key : String} :
    key ∈ plan.provider_backed_outcome_keys
      ↔ key ∈ plan.terminal_task_keys
        ∧ ∃ reached task, Relation.ReflTransGen plan.DependsOn key reached
          ∧ plan.first_task reached = some task ∧ task.required_adapter ≠ "fake-process" := by
  rw [← search_provider_backed_iff, TaskGraphPlan.provider_backed_outcome_keys, List.mem_toFinset,
    List.mem_map]
  constructor
  · rintro ⟨task, htask, rfl⟩
    obtain ⟨htask, hfound⟩ := List.mem_filter.mp htask
    exact ⟨by simpa using (List.mem_filter.mp htask).2, hfound⟩
  · rintro ⟨hterminal, hfound⟩
    obtain ⟨task, htask, rfl⟩ := List.mem_map.mp (mem_terminal_task_keys.mp hterminal).1
    refine ⟨task, List.mem_filter.mpr ⟨List.mem_filter.mpr ⟨htask, ?_⟩, hfound⟩, rfl⟩
    rw [decide_eq_true_eq]
    exact hterminal

/-- **Provider-backed outcomes, exactly.** They are the keys of the tasks no task depends on from
which a task with a provider's adapter is reached along the dependencies. -/
theorem mem_provider_backed_outcome_keys (plan : TaskGraphPlan) (key : String) :
    key ∈ plan.provider_backed_outcome_keys
      ↔ (∃ task ∈ plan.tasks, task.key = key) ∧ (∀ task ∈ plan.tasks, key ∉ task.depends_on)
        ∧ ∃ reached task, Relation.ReflTransGen plan.DependsOn key reached
          ∧ plan.first_task reached = some task ∧ task.required_adapter ≠ "fake-process" := by
  rw [mem_provider_backed_iff, mem_terminal_task_keys, List.mem_map, and_assoc]

end Crony.Server
