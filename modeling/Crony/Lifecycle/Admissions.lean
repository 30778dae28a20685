/-
The control plane moves: breaker, planning and admissions.

Besides runner reports, the store evaluates the breaker, plans missions and admits runs.
Each method is taken apart once; from its writes follow the move it makes and what it
leaves alone.
-/
import Crony.Lifecycle.Reports
import Crony.Lifecycle.Calm

set_option autoImplicit false

open Crony.Lib

namespace Crony.Store

variable {env : Env} {s t : Db}

/-! ## The breaker -/

/-- A run raised to a stage; only a suspension interrupts it. -/
def Run.raised (stage : BreakerStage) (r : Run) : Run :=
  { r with
    breaker_stage := stage
    status := if stage = .suspend ∧ r.status = .running then .waiting_for_input else r.status }

/-- What raising a run to a stage writes. -/
structure Raising (s t : Db) (corp_id : Uuid) (run : Run) (task : Task) (mission : Mission)
    (stage : BreakerStage) (incident : CircuitBreakerIncident) (command : RunnerCommand)
    (event : Event) : Prop where
  incident_new : ∀ i ∈ s.circuit_breaker_incidents, ¬ (i.run_id = run.id ∧ i.stage = stage)
  incident_run : incident.run_id = run.id
  incident_stage : incident.stage = stage
  command_new : ∀ c ∈ s.runner_commands,
    ¬ (c.corp_id = corp_id ∧ c.idempotency_key = .breaker run.id stage)
  command_id : command.id = s.next_command_id
  command_corp : command.corp_id = corp_id
  command_run : command.run_id = run.id
  command_kind : command.command_kind = .circuit_breaker
  command_status : command.status = .pending
  command_key : command.idempotency_key = .breaker run.id stage
  event_corp : event.corp_id = corp_id
  event_type : event.type = .run_breaker_transition
  event_run : event.aggregate_id = run.id
  event_key : event.idempotency_key = .breaker_event run.id stage
  state : t = { s with
    runs := updateWhere (fun r => r.id == run.id) (Run.raised stage) s.runs
    tasks := updateWhere (fun t => t.id == task.id && t.status == .running && stage == .suspend)
      (fun t => { t with status := .blocked }) s.tasks
    circuit_breaker_incidents := s.circuit_breaker_incidents ++ [incident]
    runner_commands := s.runner_commands ++ [command]
    events := if s.recorded corp_id (.breaker_event run.id stage) then s.events
      else s.events ++ [event] }

/-- The run table after the two statements of a suspension. -/
theorem updateWhere_raised (l : List Run) (run_id : Uuid) :
    updateWhere (fun r => r.id == run_id && r.status == .running)
        (fun r => { r with status := .waiting_for_input })
        (updateWhere (fun r => r.id == run_id) (fun r => { r with breaker_stage := .suspend }) l)
      = updateWhere (fun r => r.id == run_id) (Run.raised .suspend) l := by
  unfold updateWhere
  rw [List.map_map]
  refine List.map_congr_left fun r _ => ?_
  by_cases hid : r.id = run_id <;> by_cases hst : r.status = .running <;>
    simp [Run.raised, hid, hst]

theorem raise_breaker_stage_ok {corp_id : Uuid} {run : Run} {task : Task} {mission : Mission}
    {stage : BreakerStage} {reason : String}
    (h : raise_breaker_stage s corp_id run task mission stage reason = .ok t) :
    ∃ incident command event, Raising s t corp_id run task mission stage incident command
      event := by
  unfold raise_breaker_stage insert_incident insert_runner_command at h
  by_cases hst : stage = .suspend
  · subst hst
    simp only [if_true, bind_eq_ok, ensure_eq_ok, pure_eq_ok, record_event_tx_ok] at h
    obtain ⟨_, ⟨_, hinc, rfl⟩, _, ⟨_, hcmd, rfl⟩, rfl⟩ := h
    refine ⟨{ id := s.new_v4 (s.circuit_breaker_incidents.map CircuitBreakerIncident.id), corp_id
              mission_id := mission.id, task_id := task.id, run_id := run.id, stage := .suspend
              reason },
      { id := s.next_command_id, corp_id, runner_id := run.runner_id, run_id := run.id
        command_kind := .circuit_breaker
        payload := .obj [("stage", .str (BreakerStage.as_str .suspend)), ("reason", .str reason)]
        idempotency_key := .breaker run.id .suspend },
      { id := s.next_event_id, corp_id, room_id := some mission.room_id
        type := .run_breaker_transition, aggregate_type := .run, aggregate_id := run.id
        correlation_id := some mission.id, idempotency_key := .breaker_event run.id .suspend },
      hinc, rfl, rfl, hcmd, rfl, rfl, rfl, rfl, rfl, rfl, rfl, rfl, rfl, rfl, ?_⟩
    have hruns := updateWhere_raised s.runs run.id
    by_cases hrec : s.recorded corp_id (.breaker_event run.id .suspend) = true
    · refine (if_pos hrec).trans ?_
      simp only [hrec, if_true, ← hruns, beq_self_eq_true, Bool.and_true]
      rfl
    · refine (if_neg hrec).trans ?_
      simp only [hrec, ← hruns, beq_self_eq_true, Bool.and_true]
      rfl
  · simp only [hst, if_false, bind_eq_ok, ensure_eq_ok, pure_eq_ok, record_event_tx_ok] at h
    obtain ⟨_, ⟨_, hinc, rfl⟩, _, ⟨_, hcmd, rfl⟩, rfl⟩ := h
    refine ⟨{ id := s.new_v4 (s.circuit_breaker_incidents.map CircuitBreakerIncident.id), corp_id
              mission_id := mission.id, task_id := task.id, run_id := run.id, stage := stage
              reason },
      { id := s.next_command_id, corp_id, runner_id := run.runner_id, run_id := run.id
        command_kind := .circuit_breaker
        payload := .obj [("stage", .str (BreakerStage.as_str stage)), ("reason", .str reason)]
        idempotency_key := .breaker run.id stage },
      { id := s.next_event_id, corp_id, room_id := some mission.room_id
        type := .run_breaker_transition, aggregate_type := .run, aggregate_id := run.id
        correlation_id := some mission.id, idempotency_key := .breaker_event run.id stage },
      hinc, rfl, rfl, hcmd, rfl, rfl, rfl, rfl, rfl, rfl, rfl, rfl, rfl, rfl, ?_⟩
    have htasks :
        updateWhere (fun t => t.id == task.id && t.status == .running && stage == .suspend)
        (fun t => { t with status := .blocked }) s.tasks = s.tasks :=
      updateWhere_of_none fun x _ => by simp [hst]
    have hraised : Run.raised stage = fun r => { r with breaker_stage := stage } := by
      funext r
      simp [Run.raised, hst]
    by_cases hrec : s.recorded corp_id (.breaker_event run.id stage) = true
    · refine (if_pos hrec).trans ?_
      simp only [hrec, if_true, htasks, hraised]
      rfl
    · refine (if_neg hrec).trans ?_
      simp only [hrec, htasks, hraised]
      rfl

/-- The evaluation changes nothing, or raises an active run to a higher stage. -/
theorem evaluate_circuit_breaker_ok {now : Int} {corp_id run_id : Uuid}
    (h : evaluate_circuit_breaker s now corp_id run_id = .ok t) :
    t = s ∨ ∃ run task mission stage incident command event,
      Joined s corp_id run_id run task mission ∧ run.active = true
      ∧ run.status ≠ .provisioning ∧ breaker_rank run.breaker_stage < breaker_rank stage
      ∧ Raising s t corp_id run task mission stage incident command event := by
  unfold evaluate_circuit_breaker at h
  split at h
  · rw [pure_eq_ok] at h
    exact Or.inl h.symm
  · rename_i run task mission hrow
    obtain ⟨hjoin, hcond⟩ := Option.filter_eq_some_iff.mp hrow
    simp only [Bool.and_eq_true, Bool.not_eq_true', beq_eq_false_iff_ne] at hcond
    obtain ⟨u, -, h⟩ := bind_eq_ok.mp h
    split at h
    · rw [pure_eq_ok] at h
      exact Or.inl h.symm
    · rename_i stage metric used limit hstage
      dsimp only at h
      split at h
      · rw [pure_eq_ok] at h
        exact Or.inl h.symm
      · rename_i hrank
        obtain ⟨incident, command, event, hraise⟩ := raise_breaker_stage_ok h
        exact Or.inr ⟨run, task, mission, stage, incident, command, event,
          Db.run_task_mission_eq_some hjoin, hcond.1, hcond.2, by omega, hraise⟩

theorem Raising.work {corp_id run_id : Uuid} {run : Run} {task : Task} {mission : Mission}
    {stage : BreakerStage} {incident : CircuitBreakerIncident} {command : RunnerCommand}
    {event : Event} (hj : Joined s corp_id run_id run task mission) (hactive : run.active = true)
    (h : Raising s t corp_id run task mission stage incident command event) : Work s t run where
  mem := hj.run_mem
  active := hactive
  runs := by
    rw [h.state]
    refine Updated.of_updateWhere ?_ fun x _ _ => ⟨Run.Kept.refl x, Or.inl rfl⟩
    intro x _ hx
    refine ⟨Run.Kept.of_identity rfl, ?_⟩
    by_cases hs : stage = .suspend ∧ x.status = .running
    · refine Or.inr ⟨by simpa using hx, ?_, ?_⟩
      · simp [Run.active, Run.raised, hs.1, hs.2, RunStatus.is_active]
      · simp [Run.started, Run.raised, hs.1, hs.2]
    · exact Or.inl (if_neg hs)
  tasks := by
    rw [h.state]
    refine Updated.of_updateWhere ?_ fun x _ _ => ⟨Task.Kept.refl x, rfl, Or.inl rfl⟩
    intro x _ hx
    simp only [Bool.and_eq_true, beq_iff_eq] at hx
    refine ⟨⟨rfl, rfl, rfl, rfl, rfl, rfl, rfl, rfl⟩, rfl,
      Or.inr ⟨by rw [hx.1.1, hj.task_id], by simp, ?_⟩⟩
    -- only a running task is suspended
    intro hclaim
    simp [hclaim] at hx
  missions := by
    rw [h.state]
  agents := by
    rw [h.state]
    exact Updated.refl fun a _ => ⟨Agent.Kept.refl a, Or.inl rfl⟩
  task_dependencies := by
    rw [h.state]

theorem evaluate_circuit_breaker_move {now : Int} {corp_id run_id : Uuid}
    (h : evaluate_circuit_breaker s now corp_id run_id = .ok t) : Turnover s t := by
  rcases evaluate_circuit_breaker_ok h with
    rfl | ⟨run, task, mission, stage, i, c, e, hj, hactive, -, -, hraise⟩
  · exact .quiet (Quiet.of_same rfl rfl rfl rfl rfl)
  · exact .work run (hraise.work hj hactive)

/-! ## Policies and Factory items -/

/-- The tables a transaction of the control plane may write. -/
theorem set_budget_policy_ok {input : BudgetPolicyInput} (h : set_budget_policy s input = .ok t) :
    ∃ policies evs, t = { s with corp_budget_policies := policies, events := evs }
      ∧ Appends Event.Routine s.events evs := by
  unfold set_budget_policy at h
  simp only [bind_eq_ok, ensure_eq_ok, append_new_event_tx_ok] at h
  obtain ⟨_, -, _, -, -, rfl⟩ := h
  exact ⟨_, _, rfl, Appends.one ⟨rfl, rfl⟩⟩

theorem transition_factory_work_item_ok {now : Int} {input : TransitionInput}
    (h : transition_factory_work_item s now input = .ok t) :
    ∃ items ops evs, t = { s with
        factory_work_items := items, factory_operations := ops, events := evs }
      ∧ Appends Event.Routine s.events evs ∧ Bindings s t := by
  unfold transition_factory_work_item at h
  simp only [bind_eq_ok, ensure_eq_ok] at h
  obtain ⟨_, -, _, -, detail, -, _, -, _, -, _, -, h⟩ := h
  split at h
  · simp only [bind_eq_ok, pure_eq_ok] at h
    obtain ⟨_, -, rfl⟩ := h
    exact ⟨_, _, _, rfl, Appends.refl, Bindings.refl⟩
  · simp only [bind_eq_ok, ensure_eq_ok, context_eq_ok, append_new_event_tx_ok] at h
    obtain ⟨current, -, _, -, _, -, _, -, _, -, room_id, -, -, rfl⟩ := h
    exact ⟨_, _, _, rfl, Appends.one ⟨rfl, rfl⟩, Bindings.of_items rfl rfl fun _ => ⟨rfl, rfl, rfl⟩⟩

/-! ## Planning -/

/-- A loop that only journals. -/
theorem foldlM_journal {α : Type} {P : Event → Prop} {f : Db → α → Except String Db}
    (hf : ∀ s t a, f s a = .ok t → ∃ evs, t = { s with events := evs } ∧ Appends P s.events evs)
    (l : List α) {s t : Db} (h : l.foldlM f s = .ok t) :
    ∃ evs, t = { s with events := evs } ∧ Appends P s.events evs := by
  induction l generalizing s with
  | nil =>
    simp only [List.foldlM_nil, pure_eq_ok] at h
    subst h
    exact ⟨_, rfl, Appends.refl⟩
  | cons a l ih =>
    simp only [List.foldlM_cons, bind_eq_ok] at h
    obtain ⟨u, hu, h⟩ := h
    obtain ⟨evs, rfl, hevs⟩ := hf s u a hu
    obtain ⟨evs', rfl, hevs'⟩ := ih h
    exact ⟨evs', rfl, hevs.trans hevs'⟩

theorem persist_staffing_tx_ok {input : CreateMissionInput} {mission_id : Uuid}
    (h : persist_staffing_tx s input mission_id = .ok t) :
    (∀ p ∈ input.plan.staffing, ∀ a ∈ s.agents, a.id ≠ p.id)
      ∧ ∃ actors memberships evs agents, t = { s with
          actors := actors
          room_memberships := memberships
          agents := s.agents ++ agents
          events := evs }
        ∧ agents.map Agent.id = input.plan.staffing.map PlannedAgent.id
        ∧ (∀ a ∈ agents, a.current_run_id = none ∧ a.status = .idle)
        ∧ Appends Event.Routine s.events evs := by
  unfold persist_staffing_tx at h
  simp only [bind_eq_ok, ensure_eq_ok] at h
  obtain ⟨_, hnew, h⟩ := h
  obtain ⟨evs, rfl, hevs⟩ := foldlM_journal (P := Event.Routine) (fun u v p hp => by
    obtain ⟨evs, hv, hevs⟩ := record_event_tx_appends hp (P := Event.Routine) ⟨rfl, rfl⟩
    exact ⟨evs, hv, hevs⟩) _ h
  refine ⟨hnew, _, _, evs, _, rfl, ?_, ?_, hevs⟩
  · rw [List.map_map]
    have hfun : (Agent.id ∘ fun x : PlannedAgent × Nat =>
        ({ id := x.1.id, corp_id := input.corp_id
           actor_id := s.uuids.draw (s.actors.map Actor.id) x.2, adapter := x.1.adapter
           mission_id := some mission_id } : Agent)) = PlannedAgent.id ∘ Prod.fst := rfl
    refine (congrArg (fun g => List.map g _) hfun).trans ?_
    rw [← List.map_map, List.zipIdx_map_fst]
  · intro a ha
    obtain ⟨x, -, rfl⟩ := List.mem_map.mp ha
    exact ⟨rfl, rfl⟩

/-- Planned tasks have new and pairwise different identifiers. -/
theorem planned_task_id_fresh (s : Db) (index : Nat) :
    ∀ x ∈ s.tasks, x.id ≠ s.planned_task_id index := by
  intro x hx he
  exact s.uuids.fresh _ index (he ▸ List.mem_map_of_mem (f := Task.id) hx)

theorem planned_tasks_keyed (s : Db) (input : CreateMissionInput) (mission_id : Uuid) :
    Keyed Task.id (input.plan.tasks.zipIdx.map fun (x, index) =>
      planned_task_row s input mission_id x index) := by
  rw [Keyed, List.map_map]
  have hfun : (Task.id ∘ fun x : PlannedTask × Nat =>
      planned_task_row s input mission_id x.1 x.2) = s.planned_task_id ∘ Prod.snd := rfl
  refine (congrArg (fun g => (List.map g _).Nodup) hfun).mpr ?_
  rw [← List.map_map, List.zipIdx_map_snd]
  exact List.Nodup.map (s.uuids.apart _) (List.nodup_range' 1)

/-- A planned dependency is between planned tasks. -/
theorem planned_dependencies_mem {plan : TaskGraphPlan} {rows : List TaskDependency}
    (h : planned_dependencies s plan = some rows) {d : TaskDependency} (hd : d ∈ rows) :
    (∃ x ∈ plan.tasks.zipIdx, s.planned_task_id x.2 = d.task_id)
      ∧ ∃ x ∈ plan.tasks.zipIdx, s.planned_task_id x.2 = d.depends_on_task_id := by
  unfold planned_dependencies at h
  simp only [Option.bind_eq_bind, Option.bind_eq_some_iff, Option.pure_def, Option.some.injEq] at h
  obtain ⟨groups, hgroups, rfl⟩ := h
  obtain ⟨group, hgroup, hd⟩ := List.mem_flatten.mp hd
  obtain ⟨x, hx, hxg⟩ := mem_of_mapM_eq_some hgroups hgroup
  obtain ⟨key, -, hkey⟩ := mem_of_mapM_eq_some hxg hd
  simp only [Option.bind_eq_some_iff, Option.some.injEq] at hkey
  obtain ⟨parent, hparent, rfl⟩ := hkey
  refine ⟨⟨x, hx, rfl⟩, ?_⟩
  obtain ⟨index, hindex, rfl⟩ := Option.map_eq_some_iff.mp hparent
  obtain ⟨hlt, -⟩ := List.findIdx?_eq_some_iff_getElem.mp hindex
  refine ⟨(plan.tasks[index], index), ?_, rfl⟩
  exact List.mem_zipIdx_iff_getElem?.mpr (List.getElem?_eq_getElem hlt)

theorem validate_staffing_nodup {plan : TaskGraphPlan} {x : Unit}
    (h : validate_staffing plan = .ok x) : (plan.staffing.map PlannedAgent.id).Nodup := by
  unfold validate_staffing at h
  simp only [bind_eq_ok, ensure_eq_ok] at h
  obtain ⟨_, -, _, hids, -⟩ := h
  exact hids.1

/-- What planning a mission writes. -/
theorem create_mission_tx_ok {input : CreateMissionInput} {mission_id : Uuid}
    (h : create_mission_tx s input = .ok (mission_id, t)) :
    ∃ mission tasks agents dependencies actors memberships evs,
      Plan s t mission tasks agents dependencies
      ∧ t = { s with
          actors := actors
          room_memberships := memberships
          missions := s.missions ++ [mission]
          tasks := s.tasks ++ tasks
          agents := s.agents ++ agents
          task_dependencies := s.task_dependencies ++ dependencies
          events := evs }
      ∧ mission.id = mission_id
      ∧ (∀ a ∈ agents, a.status = .idle)
      ∧ Appends Event.Routine s.events evs := by
  unfold create_mission_tx at h
  simp only [bind_eq_ok, ensure_eq_ok, context_eq_ok, append_new_event_tx_ok, pure_eq_ok,
    Prod.mk.injEq] at h
  obtain ⟨_, -, _, -, _, -, _, hstaff, _, -, _, -, _, ⟨-, rfl⟩, u, hu, _, hassigned, _, -, v, hv,
    dependencies, hdeps, _, -, w, ⟨-, rfl⟩, rfl, rfl⟩ := h
  obtain ⟨hnew, actors, memberships, evs, agents, rfl, hids, hfree, hevs⟩ :=
    persist_staffing_tx_ok hu
  obtain ⟨evs', rfl, hevs'⟩ := foldlM_journal (P := Event.Routine) (fun u v p hp => by
    rw [append_new_event_tx_ok] at hp
    exact ⟨_, hp.2, Appends.one ⟨rfl, rfl⟩⟩) _ hv
  have hkeyed : Keyed Agent.id agents := by
    rw [Keyed, hids]
    exact validate_staffing_nodup hstaff
  refine ⟨_, _, agents, dependencies, actors, memberships, _, ?_, rfl, rfl,
    fun a ha => (hfree a ha).2, ((Appends.one ⟨rfl, rfl⟩).trans hevs).trans
      (hevs'.trans (Appends.one ⟨rfl, rfl⟩))⟩
  refine ⟨rfl, rfl, rfl, rfl, rfl, ?_, by simp, planned_tasks_keyed s input _, ?_, ?_, hkeyed, ?_,
    fun a ha => (hfree a ha).1, ?_⟩
  · intro m hm he
    exact s.new_v4_notMem _ (he ▸ List.mem_map_of_mem (f := Mission.id) hm)
  · intro x hx y hy
    obtain ⟨z, -, rfl⟩ := List.mem_map.mp hy
    exact planned_task_id_fresh s z.2 x hx
  · intro y hy
    obtain ⟨z, hz, rfl⟩ := List.mem_map.mp hy
    refine ⟨rfl, rfl, ?_, ?_⟩
    · change (if z.1.depends_on.isEmpty then TaskStatus.ready else .pending) ≠ .completed
      split <;> simp
    · intro agent_id hagent
      obtain ⟨a, ha, hid, hok, -⟩ := hassigned z.1 (List.fst_mem_of_mem_zipIdx hz)
      simp only [agent_assignable, Bool.and_eq_true, beq_iff_eq] at hok
      exact ⟨a, ha, hid.trans (Option.some.inj hagent), hok.1.1.1⟩
  · intro a ha b hb he
    have hb' : b.id ∈ input.plan.staffing.map PlannedAgent.id := hids ▸ List.mem_map_of_mem hb
    obtain ⟨p, hp, hpb⟩ := List.mem_map.mp hb'
    exact hnew p hp a ha (he.trans hpb.symm)
  · intro d hd
    obtain ⟨⟨x, hx, hxd⟩, ⟨y, hy, hyd⟩⟩ := planned_dependencies_mem hdeps hd
    exact ⟨⟨_, List.mem_map_of_mem hx, hxd⟩, ⟨_, List.mem_map_of_mem hy, hyd⟩⟩

theorem create_mission_ok {input : CreateMissionInput} (h : create_mission s input = .ok t) :
    ∃ mission_id, create_mission_tx s input = .ok (mission_id, t) := by
  unfold create_mission at h
  simp only [bind_eq_ok, pure_eq_ok] at h
  obtain ⟨⟨mission_id, u⟩, hu, rfl⟩ := h
  exact ⟨mission_id, hu⟩

/-- A materialised item is replayed, or its mission is planned and linked. -/
theorem materialize_factory_mission_ok {now : Int} {input : MaterializeInput}
    (h : materialize_factory_mission s now input = .ok t) :
    t = s ∨ ∃ mission_id u items ops evs, create_mission_tx s input.mission = .ok (mission_id, u)
      ∧ t = { u with factory_work_items := items, factory_operations := ops, events := evs }
      ∧ Appends Event.Routine u.events evs := by
  unfold materialize_factory_mission at h
  simp only [bind_eq_ok, ensure_eq_ok] at h
  obtain ⟨_, -, _, -, _, -, _, -, h⟩ := h
  split at h
  · simp only [bind_eq_ok, pure_eq_ok] at h
    obtain ⟨_, -, rfl⟩ := h
    exact Or.inl rfl
  · simp only [bind_eq_ok, ensure_eq_ok, context_eq_ok, append_new_event_tx_ok] at h
    obtain ⟨current, -, _, -, _, -, _, -, ⟨mission_id, u⟩, hu, -, rfl⟩ := h
    exact Or.inr ⟨mission_id, u, _, _, _, hu, rfl, Appends.one ⟨rfl, rfl⟩⟩

/-! ## Admissions

An admission inserts a run whose task and agent have no active run. -/

/-- The writes every admission makes. -/
theorem Admit.of_writes {r : Run} {task : Task} {k : Mission → Bool} {g : Task → Task}
    {h : Agent → Agent} (hs : Life s) (hfresh : ∀ x ∈ s.runs, x.id ≠ r.id)
    (hstatus : r.status = .starting) (htask : task ∈ s.tasks) (htask_id : task.id = r.task_id)
    (htask_corp : task.corp_id = r.corp_id)
    (hagent : ∃ a ∈ s.agents, a.id = r.agent_id ∧ a.corp_id = r.corp_id)
    (htask_idle : ∀ x ∈ s.runs, x.task_id = r.task_id → x.active = false)
    (hagent_idle : ∀ x ∈ s.runs, x.agent_id = r.agent_id → x.active = false)
    (hready : (∀ d ∈ s.task_dependencies, d.task_id = r.task_id →
        ∀ p ∈ s.tasks, p.id = d.depends_on_task_id → p.status = .completed)
      ∨ ∃ x ∈ s.runs, x.task_id = r.task_id)
    (horigin : ∀ id, r.resumed_from_run_id = some id →
      ∃ x ∈ s.runs, x.id = id ∧ x.task_id = r.task_id)
    (hruns : t.runs = s.runs ++ [r])
    (htasks : t.tasks = updateWhere (fun x => x.id == task.id) g s.tasks)
    (hmissions : t.missions = updateWhere k (fun m => { m with status := .running }) s.missions)
    (hagents : t.agents = updateWhere (fun a => a.id == r.agent_id) h s.agents)
    (hdeps : t.task_dependencies = s.task_dependencies)
    (hg : ∀ x, x.id = task.id → x.Kept (g x) ∧ (g x).status = .claimed)
    (hattempt : task.attempt_count ≤ (g task).attempt_count)
    (hk : ∀ m, k m = true → m.id = task.mission_id)
    (hk' : ∀ m ∈ s.missions, m.id = task.mission_id → k m = true)
    (hh : ∀ a, a.Kept (h a) ∧ (h a).current_run_id = some r.id) : Admit s t r task where
  fresh := hfresh
  runs := hruns
  status := hstatus
  task_mem := htask
  task_id := htask_id
  task_corp := htask_corp
  agent := hagent
  task_idle := htask_idle
  agent_idle := hagent_idle
  ready := hready
  origin := horigin
  tasks := by
    rw [htasks, ← htask_id]
    refine Updated.of_updateWhere ?_ ?_
    · intro x hx hid
      rw [beq_iff_eq] at hid
      obtain rfl := hs.tasks_keyed.eq_of_mem hx htask hid
      exact ⟨(hg x rfl).1, hattempt, fun _ => (hg x rfl).2, fun hne => absurd rfl hne⟩
    · intro x _ hid
      rw [beq_eq_false_iff_ne] at hid
      exact ⟨Task.Kept.refl x, le_refl _, fun he => absurd he hid, fun _ => rfl⟩
  missions := by
    rw [hmissions]
    refine Updated.of_updateWhere ?_ ?_
    · intro m _ hm
      exact ⟨⟨rfl, rfl, rfl, rfl, rfl, rfl, rfl, rfl⟩, Or.inr rfl, fun _ => rfl⟩
    · intro m hm hnot
      refine ⟨Mission.Kept.refl m, Or.inl rfl, fun hid => ?_⟩
      rw [hk' m hm hid] at hnot
      cases hnot
  agents := by
    rw [hagents]
    refine Updated.of_updateWhere ?_ ?_
    · intro a _ ha
      rw [beq_iff_eq] at ha
      exact ⟨(hh a).1, fun _ => (hh a).2, fun hne => absurd ha hne⟩
    · intro a _ ha
      rw [beq_eq_false_iff_ne] at ha
      exact ⟨Agent.Kept.refl a, fun he => absurd he ha, fun _ => rfl⟩
  task_dependencies := hdeps

theorem Db.task_active_eq_false {task_id : Uuid} (h : s.task_active task_id = false) :
    ∀ x ∈ s.runs, x.task_id = task_id → x.active = false := by
  intro x hx hid
  have := List.any_eq_false.mp h x hx
  simpa [hid] using this

theorem Db.agent_active_eq_false {agent_id : Uuid} (h : s.agent_active agent_id = false) :
    ∀ x ∈ s.runs, x.agent_id = agent_id → x.active = false := by
  intro x hx hid
  have := List.any_eq_false.mp h x hx
  simpa [hid] using this

theorem Db.dependencies_ready_eq_true {task_id : Uuid} (h : s.dependencies_ready task_id = true) :
    ∀ d ∈ s.task_dependencies, d.task_id = task_id →
      ∀ p ∈ s.tasks, p.id = d.depends_on_task_id → p.status = .completed := by
  intro d hd hid p hp hpid
  unfold Db.dependencies_ready at h
  rw [Bool.not_eq_true', List.any_eq_false] at h
  have hd' := h d hd
  simp only [hid, beq_self_eq_true, Bool.true_and, List.any_eq_true, not_exists, not_and] at hd'
  have := hd' p hp
  simpa [hpid] using this

theorem task_run_row_eq_some {input : TaskRunInput} {mission : Mission} {task : Task}
    {agent : Agent} (h : task_run_row s input = some (mission, task, agent)) :
    mission ∈ s.missions ∧ mission.id = input.mission_id ∧ mission.corp_id = input.corp_id
      ∧ task ∈ s.tasks ∧ task.id = input.task_id ∧ task.mission_id = mission.id
      ∧ task.assigned_agent_id = some agent.id ∧ agent ∈ s.agents := by
  unfold task_run_row at h
  simp only [Option.bind_eq_bind, Option.bind_eq_some_iff, Option.pure_def, Option.some.injEq,
    Prod.mk.injEq] at h
  obtain ⟨m, hm, x, hx, agent_id, hassigned, a, ha, rfl, rfl, rfl⟩ := h
  obtain ⟨hm, hcorp⟩ := Option.filter_eq_some_iff.mp hm
  obtain ⟨hx, hmission⟩ := Option.filter_eq_some_iff.mp hx
  obtain ⟨hm, hmid⟩ := Db.mission?_eq_some hm
  obtain ⟨hx, hxid⟩ := Db.task?_eq_some hx
  obtain ⟨ha, haid⟩ := Db.agent?_eq_some ha
  exact ⟨hm, hmid, by simpa using hcorp, hx, hxid, by simpa using hmission,
    by rw [hassigned, haid], ha⟩

/-- A task, its mission and its agent are of one corp. -/
theorem WellFormed.task_corp (hs : WellFormed s) {task : Task} {mission : Mission}
    (ht : task ∈ s.tasks) (hm : mission ∈ s.missions) (hid : task.mission_id = mission.id) :
    task.corp_id = mission.corp_id := by
  obtain ⟨m, hm', hmid, hcorp⟩ := hs.task_mission task ht
  rw [← hcorp, hs.missions_keyed.eq_of_mem hm' hm (hmid.trans hid)]

/-- What `create_task_run` checks and writes. -/
theorem create_task_run_ok {now : Int} {input : TaskRunInput}
    (h : create_task_run s now input = .ok t) :
    ∃ mission task agent r msgs evs,
      task_run_row s input = some (mission, task, agent)
      ∧ mission.status.is_open = true
      ∧ (task.status = .pending ∨ task.status = .ready)
      ∧ s.dependencies_ready task.id = true
      ∧ s.task_active task.id = false ∧ s.agent_active agent.id = false
      ∧ task.attempt_count < task.max_attempts
      ∧ FreshRun s r ∧ r.id = input.run_id ∧ r.corp_id = input.corp_id ∧ r.task_id = task.id
      ∧ r.agent_id = agent.id
      ∧ t = { s with
          runs := s.runs ++ [r]
          queued_messages := msgs
          missions := updateWhere (fun m => m.id == mission.id && m.status.is_open)
            (fun m => { m with status := .running }) s.missions
          tasks := updateWhere (fun t => t.id == task.id) (fun t =>
            { t with status := .claimed, attempt_count := task.attempt_count + 1
                     verification_status := .pending }) s.tasks
          agents := updateWhere (fun a => a.id == agent.id) (fun a =>
            { a with status := .starting, station := some "dispatch"
                     current_run_id := some input.run_id, retired_at := none }) s.agents
          events := evs }
      ∧ Appends Event.Routine s.events evs := by
  unfold create_task_run insert_run at h
  simp only [bind_eq_ok, ensure_eq_ok, context_eq_ok, pure_eq_ok, append_new_event_tx_ok] at h
  obtain ⟨_, -, ⟨mission, task, agent⟩, hrow, _, -, _, hopen, _, -, _, hsched, _, -, _, hready, _,
    htask, _, hagent, _, hattempt, u, ⟨_, hfresh, rfl⟩, -, rfl⟩ := h
  refine ⟨mission, task, agent, _, _, _, hrow, ?_, hsched, hready, htask, hagent, hattempt,
    ⟨hfresh, rfl, rfl, rfl, rfl, rfl, rfl, rfl, Or.inl ⟨rfl, rfl⟩, fun _ hid => by cases hid⟩, rfl,
    rfl, rfl, rfl, rfl, Appends.one ⟨rfl, rfl⟩⟩
  unfold mission_allows_dispatch at hopen
  cases hst : mission.status <;> simp_all [MissionStatus.is_open]

theorem create_task_run_admit (hs : Life s) {now : Int} {input : TaskRunInput}
    (h : create_task_run s now input = .ok t) : ∃ r task, Admit s t r task ∧ Admitting r s t := by
  obtain ⟨mission, task, agent, r, msgs, evs, hrow, hopen, -, hready, htask, hagent, -, hfresh,
    hrid, hrcorp, hrtask, hragent, rfl, hevs⟩ := create_task_run_ok h
  obtain ⟨hm, hmid, hmcorp, ht, htid, htm, hassigned, ha⟩ := task_run_row_eq_some hrow
  have htcorp : task.corp_id = r.corp_id := by
    rw [hs.task_corp ht hm htm, hmcorp, hrcorp]
  obtain ⟨a, ha', haid, hacorp⟩ := hs.task_agent task ht agent.id hassigned
  refine ⟨r, task, ?_, ⟨Aside.of_tables rfl hevs, rfl, hfresh⟩⟩
  refine Admit.of_writes hs hfresh.fresh hfresh.status ht hrtask.symm htcorp
    ⟨a, ha', haid.trans hragent.symm, hacorp.trans htcorp⟩
    (hrtask ▸ Db.task_active_eq_false htask) (hragent ▸ Db.agent_active_eq_false hagent)
    (Or.inl (hrtask ▸ Db.dependencies_ready_eq_true hready)) hfresh.origin rfl rfl rfl
    (by rw [hragent]) rfl
    ?_ ?_ ?_ ?_ ?_
  · intro x _
    exact ⟨⟨rfl, rfl, rfl, rfl, rfl, rfl, rfl, rfl⟩, rfl⟩
  · change task.attempt_count ≤ task.attempt_count + 1
    omega
  · intro m hk
    simp only [Bool.and_eq_true, beq_iff_eq] at hk
    rw [hk.1, htm]
  · intro m hm' hid
    rw [htm] at hid
    obtain rfl := hs.missions_keyed.eq_of_mem hm' hm hid
    simp [hopen]
  · intro x
    exact ⟨⟨rfl, rfl, rfl⟩, by rw [hrid]⟩

/-- What `create_resume_run` checks and writes. -/
theorem create_resume_run_ok {now : Int} {input : ResumeInput}
    (h : create_resume_run env s now input = .ok t) :
    ∃ source task mission r msgs items recs evs,
      Joined s input.corp_id input.source_run_id source task mission
      ∧ s.task_active task.id = false ∧ s.agent_active source.agent_id = false
      ∧ FreshRun s r ∧ r.id = input.run_id ∧ r.corp_id = input.corp_id ∧ r.task_id = task.id
      ∧ r.agent_id = source.agent_id
      ∧ t = { s with
          runs := s.runs ++ [r]
          queued_messages := msgs
          missions := updateWhere (fun m => m.id == mission.id)
            (fun m => { m with status := .running }) s.missions
          tasks := updateWhere (fun t => t.id == task.id) (fun t =>
            { t with status := .claimed, verification_status := .pending }) s.tasks
          agents := updateWhere (fun a => a.id == source.agent_id) (fun a =>
            { a with status := .starting, station := some "dispatch"
                     current_run_id := some input.run_id, retired_at := none }) s.agents
          factory_work_items := items
          factory_verification_recoveries := recs
          events := evs }
      ∧ Appends Event.Routine s.events evs
      ∧ Bindings s t := by
  unfold create_resume_run insert_run at h
  simp only [bind_eq_ok, ensure_eq_ok, context_eq_ok, pure_eq_ok, append_new_event_tx_ok] at h
  obtain ⟨⟨source, task, mission⟩, hrow, scope, -, agent, hagent, _, -, session, -, _, -, _,
    ⟨htask, hidle⟩, _, -, _, -, _, -, budget, -, u, ⟨_, hfresh, rfl⟩, v, hv, -, rfl⟩ := h
  obtain ⟨-, haid⟩ := Db.agent?_eq_some hagent
  rw [haid] at hidle hv
  obtain ⟨items, recs, evs, rfl, hevs, hkept⟩ := resume_tx_frame hv
  dsimp only at hidle htask hfresh hrow
  have hj := Db.run_task_mission_eq_some hrow
  refine ⟨source, task, mission, _, _, items, recs, _, hj, htask, hidle, ?_, ?_, ?_, ?_, ?_, rfl,
    hevs.trans (Appends.one ?_), ⟨hkept.items, hkept.recoveries⟩⟩
  · refine ⟨hfresh, rfl, rfl, rfl, rfl, rfl, rfl, rfl, Or.inl ⟨rfl, rfl⟩, ?_⟩
    intro id hid
    exact ⟨source, hj.run_mem, Option.some.inj hid, hj.task_id.symm⟩
  · rfl
  · rfl
  · rfl
  · rfl
  · exact ⟨rfl, rfl⟩

/-- A run that continues another one for the same task and agent. -/
theorem Admit.of_continuation {r source : Run} {task : Task} {mission : Mission}
    {corp_id source_id : Uuid} {g : Task → Task} {h : Agent → Agent} (hs : Life s)
    (hj : Joined s corp_id source_id source task mission) (hfresh : FreshRun s r)
    (hcorp : r.corp_id = corp_id) (htask : r.task_id = task.id)
    (hagent : r.agent_id = source.agent_id)
    (htask_idle : ∀ x ∈ s.runs, x.task_id = task.id → x.active = false)
    (hagent_idle : ∀ x ∈ s.runs, x.agent_id = source.agent_id → x.active = false)
    (hruns : t.runs = s.runs ++ [r])
    (htasks : t.tasks = updateWhere (fun x => x.id == task.id) g s.tasks)
    (hmissions : t.missions = updateWhere (fun m => m.id == mission.id)
      (fun m => { m with status := .running }) s.missions)
    (hagents : t.agents = updateWhere (fun a => a.id == source.agent_id) h s.agents)
    (hdeps : t.task_dependencies = s.task_dependencies)
    (hg : ∀ x, x.id = task.id → x.Kept (g x) ∧ (g x).status = .claimed)
    (hattempt : task.attempt_count ≤ (g task).attempt_count)
    (hh : ∀ a, a.Kept (h a) ∧ (h a).current_run_id = some r.id) : Admit s t r task := by
  obtain ⟨x, hx, hxid, hxcorp⟩ := hs.run_task source hj.run_mem
  have hxt : x = task := hs.tasks_keyed.eq_of_mem hx hj.task_mem (hxid.trans hj.task_id.symm)
  subst hxt
  obtain ⟨a, ha, haid, hacorp⟩ := hs.run_agent source hj.run_mem
  have hsource : source.corp_id = r.corp_id := hj.corp_id.trans hcorp.symm
  refine Admit.of_writes hs hfresh.fresh hfresh.status hx htask.symm (hxcorp.trans hsource)
    ⟨a, ha, haid.trans hagent.symm, hacorp.trans hsource⟩ (htask ▸ htask_idle)
    (hagent ▸ hagent_idle) (Or.inr ⟨source, hj.run_mem, by rw [htask, hj.task_id]⟩) hfresh.origin
    hruns htasks hmissions (by rw [hagents, hagent]) hdeps hg hattempt ?_ ?_ hh
  · intro m hm
    rw [beq_iff_eq] at hm
    rw [hm, hj.mission_id]
  · intro m _ hid
    rw [beq_iff_eq, hid, hj.mission_id]

theorem create_resume_run_admit (hs : Life s) {now : Int} {input : ResumeInput}
    (h : create_resume_run env s now input = .ok t) :
    ∃ r task, Admit s t r task ∧ Admitting r s t := by
  obtain ⟨source, task, mission, r, msgs, items, recs, evs, hj, htask, hagent, hfresh, hrid, hrcorp,
    hrtask, hragent, rfl, hevs, -⟩ := create_resume_run_ok h
  refine ⟨r, task, ?_, ⟨Aside.of_tables rfl hevs, rfl, hfresh⟩⟩
  refine Admit.of_continuation hs hj hfresh hrcorp hrtask hragent (Db.task_active_eq_false htask)
    (Db.agent_active_eq_false hagent) rfl rfl rfl rfl rfl ?_ (le_refl _) ?_
  · intro x _
    exact ⟨⟨rfl, rfl, rfl, rfl, rfl, rfl, rfl, rfl⟩, rfl⟩
  · intro a
    exact ⟨⟨rfl, rfl, rfl⟩, by rw [hrid]⟩

/-! ### Governed recovery -/

/-- A checkpoint verification replaces no accepted work. -/
theorem recovery_checkpoint_status {now : Int} {input : RecoveryInput} {revision : String}
    {item : FactoryWorkItem} {task : Task} {mission : Mission}
    {c : SourceWorkspaceCheckpoint × Option CheckpointAuthority}
    (h : recovery_checkpoint env s now input revision item task mission = .ok c)
    (hmode : input.mode = .checkpoint_verification) : task.status ≠ .completed := by
  unfold recovery_checkpoint at h
  simp only [hmode, if_true, bind_eq_ok, ensure_eq_ok] at h
  obtain ⟨_, -, _, -, _, ⟨hstatus, -⟩, -⟩ := h
  intro hc
  simp [hc] at hstatus

/-- Any other recovery starts from a failed verification. -/
theorem recovery_failure_status {input : RecoveryInput} {item : FactoryWorkItem} {source : Run}
    {task : Task} {mission : Mission}
    (h : recovery_failure s input item source task mission = .ok t)
    (hmode : input.mode ≠ .checkpoint_verification) : task.status ≠ .completed := by
  unfold recovery_failure at h
  simp only [hmode, if_false, bind_eq_ok, ensure_eq_ok] at h
  obtain ⟨_, ⟨hstatus, -⟩, -⟩ := h
  intro hc
  rw [hc] at hstatus
  cases hstatus

theorem recovery_failure_frame {input : RecoveryInput} {item : FactoryWorkItem} {source : Run}
    {task : Task} {mission : Mission}
    (h : recovery_failure s input item source task mission = .ok t) :
    FactoryOnly Event.Routine s t := by
  unfold recovery_failure at h
  split at h
  · exact FactoryOnly.of_pure h
  · simp only [bind_eq_ok, ensure_eq_ok] at h
    obtain ⟨_, -, _, -, h⟩ := h
    split at h
    · exact FactoryOnly.of_pure h
    · simp only [bind_eq_ok, ensure_eq_ok] at h
      obtain ⟨_, -, h⟩ := h
      refine (reconcile_factory_verification_failure_tx_frame h).mono ?_
      rintro e ⟨⟨item, hkey⟩, htype⟩
      exact ⟨by rw [hkey]; rfl, htype⟩

/-- What admitting a recovery establishes: the run it starts, and the attempt it counts as. -/
theorem admit_recovery_ok {now : Int} {input : RecoveryInput} {revision : String}
    {item : FactoryWorkItem} {source : Run} {task : Task} {mission : Mission} {agent : Agent}
    {u : Db} {run : Run} {attempt : Int} {authority : Option CheckpointAuthority}
    {policies : VerificationPolicy × VerificationPolicy}
    (h : admit_recovery env s now input revision item source task mission agent
      = .ok (u, run, attempt, authority, policies)) :
    FactoryOnly Event.Routine s u
      ∧ (∃ session budget, run = recovery_run now input source task session budget)
      ∧ (attempt = task.attempt_count ∨ attempt = task.attempt_count + 1)
      ∧ task.status ≠ .completed
      ∧ ∀ r ∈ u.runs, ¬ ((r.task_id = task.id ∨ r.agent_id = source.agent_id)
          ∧ r.corp_id = input.corp_id ∧ r.active = true) := by
  unfold admit_recovery at h
  simp only [bind_eq_ok, ensure_eq_ok, pure_eq_ok, Prod.mk.injEq] at h
  obtain ⟨c, hc, v, hv, _, -, _, -, _, -, _, -, _, hidle, _, -, _, -, _, -, _, -, _, -, _, -,
    budget, -, _, -, _, -, _, -, _, -, rfl, rfl, rfl, -, -⟩ := h
  refine ⟨recovery_failure_frame hv, ⟨_, _, rfl⟩, ?_, ?_, hidle⟩
  · split
    · exact Or.inl rfl
    · exact Or.inr rfl
  · by_cases hmode : input.mode = .checkpoint_verification
    · exact recovery_checkpoint_status hc hmode
    · exact recovery_failure_status hv hmode

theorem reserve_recovery_messages_eq (s : Db) (input : RecoveryInput) (run : Run) :
    ∃ msgs, reserve_recovery_messages s input run = { s with queued_messages := msgs } := by
  unfold reserve_recovery_messages
  split
  · exact ⟨_, rfl⟩
  · exact ⟨s.queued_messages, rfl⟩

/-- What starting a recovery writes. -/
theorem start_recovery_ok {input : RecoveryInput} {reason : String} {run : Run} {task : Task}
    {mission : Mission} {attempt : Int} {authority : Option CheckpointAuthority}
    {policies : VerificationPolicy × VerificationPolicy} (htask : run.task_id = task.id)
    (hcorp : run.corp_id = input.corp_id)
    (h : start_recovery s input reason run task mission attempt authority policies = .ok t) :
    (∀ r ∈ s.runs, r.id ≠ run.id)
      ∧ (∃ msgs station items recs, t = { s with
        runs := s.runs ++ [run]
        queued_messages := msgs
        missions := updateWhere (fun m => m.id == mission.id)
          (fun m => { m with status := .running }) s.missions
        tasks := updateWhere (fun t => t.id == task.id) (fun t =>
          { t with status := .claimed, attempt_count := attempt
                   verification_status := .pending }) s.tasks
        agents := updateWhere (fun a => a.id == run.agent_id) (fun a =>
          { a with status := .starting, station := some station, current_run_id := some run.id
                   retired_at := none }) s.agents
        factory_work_items := items
        factory_verification_recoveries := recs })
      ∧ ∃ recovery, Authorizes s t run recovery := by
  unfold start_recovery insert_run insert_recovery at h
  simp only [bind_eq_ok, ensure_eq_ok, pure_eq_ok] at h
  obtain ⟨_, ⟨_, hfresh, rfl⟩, _, huniq, rfl⟩ := h
  obtain ⟨msgs, hmsgs⟩ := reserve_recovery_messages_eq (s.onRuns (· ++ [run])) input run
  simp only [hmsgs] at huniq ⊢
  refine ⟨hfresh, ⟨msgs, _, _, _, rfl⟩, _, ⟨?_, ⟨_, rfl, ?_, ?_⟩, rfl, htask.symm, hcorp.symm⟩⟩
  · exact Updated.of_updateWhere (fun i _ _ => ⟨rfl, rfl, rfl⟩)
      fun i _ _ => FactoryWorkItem.Kept.refl i
  · exact Bindings.refl.recoveries
  · intro x hx
    have hnew := huniq x hx
    exact ⟨hnew.1, hnew.2.1⟩

/-- Announcing a recovery inserts one command and journals. -/
theorem announce_recovery_ok {input : RecoveryInput} {recovery_id : Uuid} {run : Run}
    {mission : Mission} (h : announce_recovery s input recovery_id run mission = .ok t) :
    ∃ (c : RunnerCommand) (evs : List Event), c.command_kind = .factory_verification_recovery
      ∧ t = { s with runner_commands := s.runner_commands ++ [c], events := evs }
      ∧ Appends Event.Routine s.events evs := by
  unfold announce_recovery insert_runner_command at h
  simp only [bind_eq_ok, ensure_eq_ok, context_eq_ok, pure_eq_ok, append_new_event_tx_ok] at h
  obtain ⟨_, ⟨_, -, rfl⟩, _, ⟨-, rfl⟩, _, ⟨-, rfl⟩, item, -, -, rfl⟩ := h
  exact ⟨_, _, rfl, rfl, ((Appends.one ⟨rfl, rfl⟩).trans (Appends.one ⟨rfl, rfl⟩)).trans
    (Appends.one ⟨rfl, rfl⟩)⟩

theorem recovery_row_eq_some {corp_id mission_id source_run_id : Uuid} {source : Run} {task : Task}
    {mission : Mission} {agent : Agent}
    (h : recovery_row s corp_id mission_id source_run_id = some (source, task, mission, agent)) :
    Joined s corp_id source_run_id source task mission := by
  unfold recovery_row at h
  simp only [Option.bind_eq_bind, Option.bind_eq_some_iff, Option.pure_def, Option.some.injEq,
    Prod.mk.injEq] at h
  obtain ⟨⟨r, x, m⟩, hrow, _, -, a, -, rfl, rfl, rfl, -⟩ := h
  exact Db.run_task_mission_eq_some hrow

/-- The replacement run works on the source's artifact or on none. -/
theorem recovery_run_fresh {now : Int} {input : RecoveryInput} {source : Run} {task : Task}
    {session : Option String} {budget : Int × Int} (hsource : source ∈ s.runs)
    (htask : task.id = source.task_id) (hfresh : ∀ r ∈ s.runs, r.id ≠ input.run_id) :
    FreshRun s (recovery_run now input source task session budget) := by
  refine ⟨hfresh, rfl, rfl, rfl, rfl, rfl, rfl, rfl, ?_,
    fun id hid => ⟨source, hsource, Option.some.inj hid, htask.symm⟩⟩
  cases hmode : input.mode.is_verifier_only with
  | true =>
    refine Or.inr ⟨source, hsource, ?_, ?_⟩
    · simp [recovery_run, hmode]
    · simp [recovery_run, hmode]
  | false =>
    refine Or.inl ⟨?_, ?_⟩
    · simp [recovery_run, hmode]
    · simp [recovery_run, hmode]

/-- What `create_factory_verification_recovery` checks and writes. -/
theorem create_factory_verification_recovery_ok {now : Int} {input : RecoveryInput}
    (h : create_factory_verification_recovery env s now input = .ok t) :
    t = s ∨ ∃ source task mission r attempt msgs station items recs c evs,
      Joined s input.corp_id input.source_run_id source task mission
      ∧ (∀ x ∈ s.runs, ¬ ((x.task_id = task.id ∨ x.agent_id = source.agent_id)
          ∧ x.corp_id = input.corp_id ∧ x.active = true))
      ∧ (attempt = task.attempt_count ∨ attempt = task.attempt_count + 1)
      ∧ task.status ≠ .completed
      ∧ FreshRun s r ∧ r.corp_id = input.corp_id ∧ r.task_id = task.id
      ∧ r.agent_id = source.agent_id
      ∧ c.command_kind = .factory_verification_recovery
      ∧ t = { s with
          runs := s.runs ++ [r]
          queued_messages := msgs
          missions := updateWhere (fun m => m.id == mission.id)
            (fun m => { m with status := .running }) s.missions
          tasks := updateWhere (fun t => t.id == task.id) (fun t =>
            { t with status := .claimed, attempt_count := attempt
                     verification_status := .pending }) s.tasks
          agents := updateWhere (fun a => a.id == source.agent_id) (fun a =>
            { a with status := .starting, station := some station, current_run_id := some r.id
                     retired_at := none }) s.agents
          factory_work_items := items
          factory_verification_recoveries := recs
          runner_commands := s.runner_commands ++ [c]
          events := evs }
      ∧ Appends Event.Routine s.events evs
      ∧ ∃ recovery, Authorizes s t r recovery := by
  unfold create_factory_verification_recovery at h
  simp only [bind_eq_ok, ensure_eq_ok] at h
  obtain ⟨⟨reason, revision⟩, -, _, -, _, -, h⟩ := h
  split at h
  · unfold replay_recovery at h
    simp only [bind_eq_ok, pure_eq_ok] at h
    obtain ⟨_, -, _, -, rfl⟩ := h
    exact Or.inl rfl
  · simp only [bind_eq_ok, context_eq_ok] at h
    obtain ⟨item, -, _, -, mission_id, -, ⟨source, task, mission, agent⟩, hrow, _, -,
      ⟨u, run, attempt, authority, policies⟩, hadm, v, hstart, hann⟩ := h
    have hj := recovery_row_eq_some hrow
    obtain ⟨⟨items, recs, evs, rfl, hevs, hkept⟩, ⟨session, budget, rfl⟩, hattempt, hopen, hidle⟩ :=
      admit_recovery_ok hadm
    obtain ⟨hfresh, ⟨msgs, station, items', recs', rfl⟩, recovery, hauth⟩ :=
      start_recovery_ok rfl rfl hstart
    obtain ⟨c, evs', hc, rfl, hevs'⟩ := announce_recovery_ok hann
    obtain ⟨olds, hrecs, holds, hnew⟩ := hauth.recoveries
    refine Or.inr ⟨source, task, mission, _, attempt, msgs, station, items', recs', c, evs', hj,
      hidle, hattempt, hopen, recovery_run_fresh hj.run_mem hj.task_id hfresh, rfl, rfl, rfl, hc,
        rfl,
      hevs.trans hevs', recovery, ?_, ⟨olds, hrecs, ?_, hnew⟩, hauth.replacement, hauth.task_id,
      hauth.corp_id⟩
    · exact hkept.items.trans hauth.items fun _ _ _ _ hi hi' => hi.trans hi'
    · exact hkept.recoveries.trans holds fun _ _ _ _ hr hr' => hr.trans hr'

theorem create_factory_verification_recovery_admit (hs : Life s) {now : Int} {input : RecoveryInput}
    (h : create_factory_verification_recovery env s now input = .ok t) :
    t = s ∨ ∃ r task, Admit s t r task ∧ task.status ≠ .completed ∧ Admitting r s t := by
  rcases create_factory_verification_recovery_ok h with rfl | ⟨source, task, mission, r, attempt,
    msgs, station, items, recs, c, evs, hj, hidle, hattempt, hopen, hfresh, hcorp, htask, hagent,
      hc, rfl,
    hevs, -⟩
  · exact Or.inl rfl
  · refine Or.inr ⟨r, task, ?_, hopen, ?_⟩
    swap
    · exact ⟨⟨rfl, requests_kept _, approvals_kept _, rfl, rfl, rfl,
        breaker_keys_of_append rfl (by simp [hc]), hevs⟩, rfl, hfresh⟩
    -- The check is restricted to the corp, which a task and an agent determine.
    have hcorp_task : ∀ x ∈ s.runs, x.task_id = task.id → x.corp_id = input.corp_id := by
      intro x hx hid
      obtain ⟨y, hy, hyid, hycorp⟩ := hs.run_task x hx
      obtain ⟨z, hz, hzid, hzcorp⟩ := hs.run_task source hj.run_mem
      have hyz : y = z := hs.tasks_keyed.eq_of_mem hy hz (by rw [hyid, hid, hj.task_id, hzid])
      rw [← hycorp, hyz, hzcorp, hj.corp_id]
    have hcorp_agent : ∀ x ∈ s.runs, x.agent_id = source.agent_id → x.corp_id = input.corp_id := by
      intro x hx hid
      obtain ⟨a, ha, haid, hacorp⟩ := hs.run_agent source hj.run_mem
      rw [← hs.agent_corp hx ha (haid.trans hid.symm), hacorp, hj.corp_id]
    refine Admit.of_continuation hs hj hfresh hcorp htask hagent ?_ ?_ rfl rfl rfl rfl rfl ?_ ?_ ?_
    · intro x hx hid
      by_contra hact
      exact hidle x hx ⟨Or.inl hid, hcorp_task x hx hid, by simpa using hact⟩
    · intro x hx hid
      by_contra hact
      exact hidle x hx ⟨Or.inr hid, hcorp_agent x hx hid, by simpa using hact⟩
    · intro x _
      exact ⟨⟨rfl, rfl, rfl, rfl, rfl, rfl, rfl, rfl⟩, rfl⟩
    · change task.attempt_count ≤ attempt
      omega
    · intro a
      exact ⟨⟨rfl, rfl, rfl⟩, rfl⟩

end Crony.Store
