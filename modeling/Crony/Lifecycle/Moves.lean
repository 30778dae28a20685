/-
The abstract lifecycle.

What the store is for, seen from far: runs are admitted for a task and an agent, work,
and come to an end; tasks and missions follow them; agents are held and released. `Move`
says this in seven cases that name no method, no event and no column beyond statuses,
attempts and assignments. Every committed transaction is a sequence of moves (the
refinement is proved method by method in the modules that follow), so whatever all moves
keep holds in every reachable state.
-/
import Crony.Lifecycle.Rows

set_option autoImplicit false

open Crony.Lib

namespace Crony.Store

/-! ## Columns no transaction rewrites -/

/-- The assignment of a run is fixed when it is admitted. -/
structure Run.Kept (r r' : Run) : Prop where
  id : r'.id = r.id
  corp_id : r'.corp_id = r.corp_id
  task_id : r'.task_id = r.task_id
  agent_id : r'.agent_id = r.agent_id
  runner_id : r'.runner_id = r.runner_id
  assignment_token : r'.assignment_token = r.assignment_token
  created_at : r'.created_at = r.created_at
  resumed_from_run_id : r'.resumed_from_run_id = r.resumed_from_run_id
  execution_mode : r'.execution_mode = r.execution_mode
  workspace_run_id : r'.workspace_run_id = r.workspace_run_id

/-- The columns `Run.Kept` keeps. A write of other columns keeps them by reflexivity. -/
def Run.identity (r : Run) :=
  (r.id, r.corp_id, r.task_id, r.agent_id, r.runner_id, r.assignment_token, r.created_at,
    r.resumed_from_run_id, r.execution_mode, r.workspace_run_id)

theorem Run.Kept.of_identity {r r' : Run} (h : r'.identity = r.identity) : r.Kept r' := by
  simp only [Run.identity, Prod.mk.injEq] at h
  obtain ⟨h1, h2, h3, h4, h5, h6, h7, h8, h9, h10⟩ := h
  exact ⟨h1, h2, h3, h4, h5, h6, h7, h8, h9, h10⟩

/-- What a task demands is fixed when it is planned. -/
structure Task.Kept (t t' : Task) : Prop where
  id : t'.id = t.id
  corp_id : t'.corp_id = t.corp_id
  mission_id : t'.mission_id = t.mission_id
  contract : t'.contract = t.contract
  verification_policy : t'.verification_policy = t.verification_policy
  assigned_agent_id : t'.assigned_agent_id = t.assigned_agent_id
  max_attempts : t'.max_attempts = t.max_attempts
  contract_version : t'.contract_version = t.contract_version

structure Mission.Kept (m m' : Mission) : Prop where
  id : m'.id = m.id
  corp_id : m'.corp_id = m.corp_id
  room_id : m'.room_id = m.room_id
  requested_by : m'.requested_by = m.requested_by
  budget_tokens : m'.budget_tokens = m.budget_tokens
  budget_cost_microusd : m'.budget_cost_microusd = m.budget_cost_microusd
  description : m'.description = m.description
  specification_version : m'.specification_version = m.specification_version

structure Agent.Kept (a a' : Agent) : Prop where
  id : a'.id = a.id
  corp_id : a'.corp_id = a.corp_id
  actor_id : a'.actor_id = a.actor_id

theorem Run.Kept.refl (r : Run) : r.Kept r := Run.Kept.of_identity rfl

theorem Run.Kept.trans {a b c : Run} (h : a.Kept b) (h' : b.Kept c) : a.Kept c :=
  ⟨h'.id.trans h.id, h'.corp_id.trans h.corp_id, h'.task_id.trans h.task_id,
    h'.agent_id.trans h.agent_id, h'.runner_id.trans h.runner_id,
    h'.assignment_token.trans h.assignment_token, h'.created_at.trans h.created_at,
    h'.resumed_from_run_id.trans h.resumed_from_run_id, h'.execution_mode.trans h.execution_mode,
    h'.workspace_run_id.trans h.workspace_run_id⟩

theorem Task.Kept.refl (t : Task) : t.Kept t := ⟨rfl, rfl, rfl, rfl, rfl, rfl, rfl, rfl⟩

theorem Task.Kept.trans {a b c : Task} (h : a.Kept b) (h' : b.Kept c) : a.Kept c :=
  ⟨h'.id.trans h.id, h'.corp_id.trans h.corp_id, h'.mission_id.trans h.mission_id,
    h'.contract.trans h.contract, h'.verification_policy.trans h.verification_policy,
    h'.assigned_agent_id.trans h.assigned_agent_id, h'.max_attempts.trans h.max_attempts,
    h'.contract_version.trans h.contract_version⟩

theorem Mission.Kept.refl (m : Mission) : m.Kept m := ⟨rfl, rfl, rfl, rfl, rfl, rfl, rfl, rfl⟩

theorem Agent.Kept.refl (a : Agent) : a.Kept a := ⟨rfl, rfl, rfl⟩

/-- A run past the two statuses it can be in before its runner reports anything. -/
def Run.started (r : Run) : Bool :=
  match r.status with
  | .provisioning | .starting => false
  | _ => true

/-! ## Moves -/

section Moves

variable (s t : Db)

/-- No status, attempt or assignment changes. -/
structure Quiet : Prop where
  runs : Updated (fun x x' => x.Kept x' ∧ x'.status = x.status) s.runs t.runs
  tasks : Updated (fun x x' => x.Kept x' ∧ x'.attempt_count = x.attempt_count
    ∧ x'.status = x.status) s.tasks t.tasks
  missions : t.missions = s.missions
  agents : t.agents = s.agents
  task_dependencies : t.task_dependencies = s.task_dependencies

/-- The active run `r` reports or is examined: it stays active, its task stays open, its
agent is shown differently and, once the run has started, may be detached from it. -/
structure Work (r : Run) : Prop where
  mem : r ∈ s.runs
  active : r.active = true
  runs : Updated (fun x x' => x.Kept x' ∧ (x'.status = x.status
    ∨ (x.id = r.id ∧ x'.active = true ∧ x'.started = true))) s.runs t.runs
  tasks : Updated (fun x x' => x.Kept x' ∧ x'.attempt_count = x.attempt_count
    ∧ (x'.status = x.status ∨ (x.id = r.task_id ∧ x'.status ≠ .completed
      ∧ (x.status = .claimed → ∀ y ∈ t.runs, y.id = r.id → y.started = true)))) s.tasks t.tasks
  missions : t.missions = s.missions
  agents : Updated (fun a a' => a.Kept a' ∧ (a' = a ∨ (a.id = r.agent_id
    ∧ (a'.current_run_id = a.current_run_id ∨ (a'.current_run_id = none
      ∧ ∀ x ∈ t.runs, x.id = r.id → x.started = true))))) s.agents t.agents
  task_dependencies : t.task_dependencies = s.task_dependencies

/-- The active run `r` completes together with its task; tasks that waited become ready,
the mission completes if nothing is left, the agent is free. -/
structure Complete (r : Run) : Prop where
  mem : r ∈ s.runs
  active : r.active = true
  runs : Updated (fun x x' => x.Kept x' ∧ (x.id = r.id → x'.status = .completed)
    ∧ (x.id ≠ r.id → x'.status = x.status)) s.runs t.runs
  tasks : Updated (fun x x' => x.Kept x' ∧ x'.attempt_count = x.attempt_count
    ∧ (x.id = r.task_id → x'.status = .completed)
    ∧ (x.id ≠ r.task_id → x'.status = x.status ∨ (x.status = .pending ∧ x'.status = .ready)))
    s.tasks t.tasks
  missions : Updated (fun m m' => m.Kept m' ∧ (m'.status = m.status ∨ m'.status = .running
    ∨ (m'.status = .completed ∧ ∀ x ∈ t.tasks, x.mission_id = m.id → x.status = .completed)))
    s.missions t.missions
  agents : Updated (fun a a' => (a.id = r.agent_id → a' = a.release)
    ∧ (a.id ≠ r.agent_id → a' = a)) s.agents t.agents
  task_dependencies : t.task_dependencies = s.task_dependencies

/-- The active run `r` ends without completing; an agent that holds it is released. -/
structure Stop (r : Run) : Prop where
  mem : r ∈ s.runs
  active : r.active = true
  runs : Updated (fun x x' => x.Kept x'
    ∧ (x.id = r.id → x'.active = false ∧ x'.status ≠ .completed)
    ∧ (x.id ≠ r.id → x'.status = x.status)) s.runs t.runs
  tasks : Updated (fun x x' => x.Kept x' ∧ x'.attempt_count = x.attempt_count
    ∧ (x'.status = x.status ∨ (x.id = r.task_id ∧ x'.status ≠ .completed))) s.tasks t.tasks
  missions : Updated (fun m m' => m.Kept m' ∧ (m'.status = m.status ∨ m'.status ≠ .completed))
    s.missions t.missions
  agents : Updated (fun a a' => (a' = a ∨ (a.id = r.agent_id ∧ a' = a.release))
    ∧ (a.current_run_id = some r.id → a.id = r.agent_id → a' = a.release)) s.agents t.agents
  task_dependencies : t.task_dependencies = s.task_dependencies

/-- The approval of a run that went on without it expires. -/
structure Lapse (r : Run) : Prop where
  mem : r ∈ s.runs
  started : r.started = true
  runs : t.runs = s.runs
  tasks : Updated (fun x x' => x.Kept x' ∧ x'.attempt_count = x.attempt_count
    ∧ (x'.status = x.status ∨ (x.status = .awaiting_approval ∧ x'.status = .cancelled)))
    s.tasks t.tasks
  missions : Updated (fun m m' => m.Kept m' ∧ (m'.status = m.status ∨ m'.status ≠ .completed))
    s.missions t.missions
  agents : Updated (fun a a' => a' = a ∨ (a.current_run_id = some r.id ∧ a' = a.release))
    s.agents t.agents
  task_dependencies : t.task_dependencies = s.task_dependencies

/-- The run `r` is admitted for a task and an agent that have no active run. The task's
dependencies are completed, or it had a run before. -/
structure Admit (r : Run) (task : Task) : Prop where
  fresh : ∀ x ∈ s.runs, x.id ≠ r.id
  runs : t.runs = s.runs ++ [r]
  status : r.status = .starting
  task_mem : task ∈ s.tasks
  task_id : task.id = r.task_id
  task_corp : task.corp_id = r.corp_id
  agent : ∃ a ∈ s.agents, a.id = r.agent_id ∧ a.corp_id = r.corp_id
  task_idle : ∀ x ∈ s.runs, x.task_id = r.task_id → x.active = false
  agent_idle : ∀ x ∈ s.runs, x.agent_id = r.agent_id → x.active = false
  ready : (∀ d ∈ s.task_dependencies, d.task_id = r.task_id →
      ∀ p ∈ s.tasks, p.id = d.depends_on_task_id → p.status = .completed)
    ∨ ∃ x ∈ s.runs, x.task_id = r.task_id
  origin : ∀ id, r.resumed_from_run_id = some id → ∃ x ∈ s.runs, x.id = id ∧ x.task_id = r.task_id
  tasks : Updated (fun x x' => x.Kept x' ∧ x.attempt_count ≤ x'.attempt_count
    ∧ (x.id = r.task_id → x'.status = .claimed) ∧ (x.id ≠ r.task_id → x' = x)) s.tasks t.tasks
  missions : Updated (fun m m' => m.Kept m' ∧ (m'.status = m.status ∨ m'.status = .running)
    ∧ (m.id = task.mission_id → m'.status = .running)) s.missions t.missions
  agents : Updated (fun a a' => a.Kept a' ∧ (a.id = r.agent_id → a'.current_run_id = some r.id)
    ∧ (a.id ≠ r.agent_id → a' = a)) s.agents t.agents
  task_dependencies : t.task_dependencies = s.task_dependencies

/-- A mission is planned: new tasks, and new agents nobody holds. -/
structure Plan (mission : Mission) (tasks : List Task) (agents : List Agent)
    (dependencies : List TaskDependency) : Prop where
  runs : t.runs = s.runs
  missions : t.missions = s.missions ++ [mission]
  tasks_eq : t.tasks = s.tasks ++ tasks
  agents_eq : t.agents = s.agents ++ agents
  dependencies_eq : t.task_dependencies = s.task_dependencies ++ dependencies
  mission_fresh : ∀ m ∈ s.missions, m.id ≠ mission.id
  mission_open : mission.status ≠ .completed
  tasks_keyed : Keyed Task.id tasks
  tasks_fresh : ∀ x ∈ s.tasks, ∀ y ∈ tasks, x.id ≠ y.id
  tasks_new : ∀ y ∈ tasks, y.mission_id = mission.id ∧ y.corp_id = mission.corp_id
    ∧ y.status ≠ .completed
    ∧ ∀ agent_id, y.assigned_agent_id = some agent_id →
        ∃ a ∈ s.agents ++ agents, a.id = agent_id ∧ a.corp_id = y.corp_id
  agents_keyed : Keyed Agent.id agents
  agents_fresh : ∀ x ∈ s.agents, ∀ y ∈ agents, x.id ≠ y.id
  agents_new : ∀ y ∈ agents, y.current_run_id = none
  dependencies_new : ∀ d ∈ dependencies, (∃ y ∈ tasks, y.id = d.task_id)
    ∧ ∃ y ∈ tasks, y.id = d.depends_on_task_id

/-- One step of the lifecycle that plans nothing. -/
inductive Turnover : Prop where
  | quiet (h : Quiet s t)
  | work (r : Run) (h : Work s t r)
  | complete (r : Run) (h : Complete s t r)
  | stop (r : Run) (h : Stop s t r)
  | lapse (r : Run) (h : Lapse s t r)
  | admission (r : Run) (task : Task) (h : Admit s t r task)

/-- One step of the lifecycle. -/
inductive Move : Prop where
  | turnover (h : Turnover s t)
  | plan (mission : Mission) (tasks : List Task) (agents : List Agent)
      (dependencies : List TaskDependency) (h : Plan s t mission tasks agents dependencies)

end Moves

/-- Any number of steps. -/
def Moves : Db → Db → Prop := Relation.ReflTransGen Move

/-- Any number of steps that plan nothing. -/
def Turnovers : Db → Db → Prop := Relation.ReflTransGen Turnover

theorem Turnovers.moves {s t : Db} (h : Turnovers s t) : Moves s t :=
  Relation.ReflTransGen.mono (fun _ _ hst => Move.turnover hst) _ _ h

/-! ## What every move keeps -/

/-- Keys and references between runs, tasks, missions and agents. -/
structure WellFormed (s : Db) : Prop where
  runs_keyed : Keyed Run.id s.runs
  tasks_keyed : Keyed Task.id s.tasks
  missions_keyed : Keyed Mission.id s.missions
  agents_keyed : Keyed Agent.id s.agents
  run_task : ∀ r ∈ s.runs, ∃ t ∈ s.tasks, t.id = r.task_id ∧ t.corp_id = r.corp_id
  run_agent : ∀ r ∈ s.runs, ∃ a ∈ s.agents, a.id = r.agent_id ∧ a.corp_id = r.corp_id
  task_mission : ∀ t ∈ s.tasks, ∃ m ∈ s.missions, m.id = t.mission_id ∧ m.corp_id = t.corp_id
  task_agent : ∀ t ∈ s.tasks, ∀ agent_id, t.assigned_agent_id = some agent_id →
    ∃ a ∈ s.agents, a.id = agent_id ∧ a.corp_id = t.corp_id
  dependency_tasks : ∀ d ∈ s.task_dependencies, (∃ t ∈ s.tasks, t.id = d.task_id)
    ∧ ∃ t ∈ s.tasks, t.id = d.depends_on_task_id

/-- The lifecycle invariant. -/
structure Life (s : Db) : Prop extends WellFormed s where
  /-- A task has at most one active run. -/
  task_exclusive : UniqueWhere Run.active Run.task_id s.runs
  /-- An agent has at most one active run. -/
  agent_exclusive : UniqueWhere Run.active Run.agent_id s.runs
  /-- No run of a completed task is active. -/
  task_settled : ∀ t ∈ s.tasks, t.status = .completed → ∀ r ∈ s.runs, r.task_id = t.id →
    r.active = false
  /-- A completed task has a completed run. -/
  task_earned : ∀ t ∈ s.tasks, t.status = .completed → ∃ r ∈ s.runs, r.task_id = t.id
    ∧ r.status = .completed
  /-- All tasks of a completed mission are completed. -/
  mission_settled : ∀ m ∈ s.missions, m.status = .completed → ∀ t ∈ s.tasks,
    t.mission_id = m.id → t.status = .completed
  /-- The run an agent holds is an active run of that agent. -/
  agent_holds : ∀ a ∈ s.agents, ∀ id, a.current_run_id = some id → ∃ r ∈ s.runs, r.id = id
    ∧ r.agent_id = a.id ∧ r.active = true
  /-- A run that has not started is held by its agent. -/
  run_held : ∀ r ∈ s.runs, r.started = false → ∀ a ∈ s.agents, a.id = r.agent_id →
    a.current_run_id = some r.id
  /-- The dependencies of a task that has runs were completed by runs of their own. -/
  run_ready : ∀ r ∈ s.runs, ∀ d ∈ s.task_dependencies, d.task_id = r.task_id →
    ∃ x ∈ s.runs, x.task_id = d.depends_on_task_id ∧ x.status = .completed
  /-- The task of a run that has not started is claimed. -/
  run_claimed : ∀ r ∈ s.runs, r.started = false → ∀ t ∈ s.tasks, t.id = r.task_id →
    t.status = .claimed
  /-- A run continues a run of its own task. -/
  run_origin : ∀ r ∈ s.runs, ∀ id, r.resumed_from_run_id = some id →
    ∃ x ∈ s.runs, x.id = id ∧ x.task_id = r.task_id

end Crony.Store
