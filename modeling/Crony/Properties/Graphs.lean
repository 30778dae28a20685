/-
From the plan to the rows.

A plan that the server accepts names its dependencies by the keys of its tasks; the store turns
every entry of every `depends_on` list into a row of `task_dependencies`, whose primary key is
the pair. The validation bounds the tasks more tightly than the table does, and finds every
dependency, but it does not look for an entry that occurs twice: such a plan is accepted, and
its insertion violates the primary key.
-/
import Crony.Lifecycle.Admissions
import Crony.Properties.Planning

set_option autoImplicit false

open Crony.Lib

namespace Crony.Store

/-! ## The rows of the dependencies -/

/-- Where the task with a key stands in the plan. -/
def position (plan : TaskGraphPlan) (key : String) : Nat := plan.tasks.findIdx fun t => t.key == key

/-- One row for every entry of every `depends_on` list. -/
def dependency_rows (s : Db) (plan : TaskGraphPlan) : List TaskDependency :=
  plan.tasks.zipIdx.flatMap fun entry => entry.1.depends_on.map fun key =>
    { task_id := s.planned_task_id entry.2,
      depends_on_task_id := s.planned_task_id (position plan key) }

/-- A traversal whose results are all there is a map. -/
theorem mapM_eq_some_map {α β : Type} {f : α → Option β} {g : α → β} {l : List α}
    (h : ∀ a ∈ l, f a = some (g a)) : l.mapM f = some (l.map g) := by
  induction l with
  | nil => rfl
  | cons a l ih =>
    rw [List.mapM_cons, h a List.mem_cons_self, ih fun b hb => h b (List.mem_cons_of_mem a hb)]
    rfl

section

variable {s : Db} {plan : TaskGraphPlan}
  (hexist : ∀ t ∈ plan.tasks, ∀ key ∈ t.depends_on, ∃ u ∈ plan.tasks, u.key = key)

/-- A key of the plan is found, and the task there has it. -/
theorem position_spec {key : String} (h : ∃ u ∈ plan.tasks, u.key = key) :
    ∃ u, plan.tasks[position plan key]? = some u ∧ u.key = key := by
  obtain ⟨u, hu, hkey⟩ := h
  have hlt : position plan key < plan.tasks.length :=
    List.findIdx_lt_length_of_exists ⟨u, hu, by simpa using hkey⟩
  refine ⟨plan.tasks[position plan key], List.getElem?_eq_getElem hlt, ?_⟩
  exact beq_iff_eq.mp (List.findIdx_getElem (w := hlt))

/-- **The relation that is persisted** is the relation of the plan. -/
theorem mem_dependency_rows {d : TaskDependency} :
    d ∈ dependency_rows s plan ↔ ∃ i task key, plan.tasks[i]? = some task ∧ key ∈ task.depends_on
      ∧ d = { task_id := s.planned_task_id i
              depends_on_task_id := s.planned_task_id (position plan key) } := by
  rw [dependency_rows, List.mem_flatMap]
  constructor
  · rintro ⟨⟨task, i⟩, hentry, hd⟩
    obtain ⟨key, hkey, rfl⟩ := List.mem_map.mp hd
    rw [List.mem_zipIdx_iff_getElem?] at hentry
    exact ⟨i, task, key, hentry, hkey, rfl⟩
  · rintro ⟨i, task, key, htask, hkey, rfl⟩
    exact ⟨(task, i), List.mem_zipIdx_iff_getElem?.mpr htask, List.mem_map.mpr ⟨key, hkey, rfl⟩⟩

/-- No row leads from a task to itself, if no task of the plan does. -/
theorem dependency_rows_irreflexive (hself : ∀ t ∈ plan.tasks, t.key ∉ t.depends_on)
    (hexist : ∀ t ∈ plan.tasks, ∀ key ∈ t.depends_on, ∃ u ∈ plan.tasks, u.key = key) :
    ∀ d ∈ dependency_rows s plan, d.task_id ≠ d.depends_on_task_id := by
  intro d hd hsame
  obtain ⟨i, task, key, htask, hkey, rfl⟩ := mem_dependency_rows.mp hd
  have hmem := List.mem_of_getElem? htask
  obtain ⟨u, hu, hukey⟩ := position_spec (hexist task hmem key hkey)
  rw [Db.planned_task_id, Db.planned_task_id, (s.uuids.apart _).eq_iff] at hsame
  rw [← hsame, htask] at hu
  apply hself task hmem
  rw [Option.some_inj.mp hu, hukey, ← Option.some_inj.mp hu]
  exact hkey

include hexist

/-- **The rows the store writes.** -/
theorem planned_dependencies_eq : planned_dependencies s plan = some (dependency_rows s plan) := by
  have hkey : ∀ t ∈ plan.tasks, ∀ key ∈ t.depends_on,
      s.planned_task_of_key plan key = some (s.planned_task_id (position plan key)) := by
    intro t ht key hkey
    obtain ⟨u, hu, hukey⟩ := hexist t ht key hkey
    have hlt : position plan key < plan.tasks.length :=
      List.findIdx_lt_length_of_exists ⟨u, hu, by simpa using hukey⟩
    rw [Db.planned_task_of_key, List.findIdx?_eq_some_of_exists ⟨u, hu, by simpa using hukey⟩]
    rfl
  have hrows : (plan.tasks.zipIdx.mapM fun entry => entry.1.depends_on.mapM fun key => do
        let parent ← s.planned_task_of_key plan key
        return ({ task_id := s.planned_task_id entry.2, depends_on_task_id := parent } :
          TaskDependency))
      = some (plan.tasks.zipIdx.map fun entry => entry.1.depends_on.map fun key =>
        { task_id := s.planned_task_id entry.2
          depends_on_task_id := s.planned_task_id (position plan key) }) := by
    apply mapM_eq_some_map
    intro entry hentry
    apply mapM_eq_some_map
    intro key hmem
    rw [hkey entry.1 (List.fst_mem_of_mem_zipIdx hentry) key hmem]
    rfl
  rw [planned_dependencies, dependency_rows, List.flatMap_def]
  exact congrArg (fun o => o.bind fun rows => some rows.flatten) hrows

/-- **The primary key** holds exactly when no list has an entry twice: rows of different tasks
differ in the task, and entries of one list lead to different tasks. -/
theorem dependency_rows_nodup :
    (dependency_rows s plan).Nodup ↔ ∀ t ∈ plan.tasks, t.depends_on.Nodup := by
  have hlist : ∀ t ∈ plan.tasks, ∀ i,
      ((t.depends_on.map fun key => TaskDependency.mk (s.planned_task_id i)
          (s.planned_task_id (position plan key))).Nodup ↔ t.depends_on.Nodup) := by
    intro t ht i
    refine ⟨List.Nodup.of_map _, fun hnodup => List.Nodup.map_on ?_ hnodup⟩
    intro key hkey other hother hsame
    simp only [TaskDependency.mk.injEq, Db.planned_task_id, (s.uuids.apart _).eq_iff, true_and]
      at hsame
    obtain ⟨u, hu, hukey⟩ := position_spec (hexist t ht key hkey)
    obtain ⟨v, hv, hvkey⟩ := position_spec (hexist t ht other hother)
    rw [hsame, hv] at hu
    rw [← hukey, ← hvkey, Option.some_inj.mp hu]
  rw [dependency_rows, List.nodup_flatMap]
  constructor
  · rintro ⟨hrows, -⟩ t ht
    obtain ⟨i, hi, rfl⟩ := List.mem_iff_getElem.mp ht
    have hentry : (plan.tasks[i], i) ∈ plan.tasks.zipIdx :=
      List.mem_zipIdx_iff_getElem?.mpr (List.getElem?_eq_getElem hi)
    exact (hlist plan.tasks[i] ht i).mp (hrows _ hentry)
  · intro hnodup
    refine ⟨fun entry hentry => ?_, ?_⟩
    · have ht := List.fst_mem_of_mem_zipIdx hentry
      exact (hlist entry.1 ht entry.2).mpr (hnodup entry.1 ht)
    · have hindices : plan.tasks.zipIdx.Pairwise fun a b => a.2 ≠ b.2 := by
        have hnodup : (plan.tasks.zipIdx.map Prod.snd).Nodup := by
          rw [List.zipIdx_map_snd]
          exact List.nodup_range' 1
        exact List.pairwise_map.mp hnodup
      refine hindices.imp ?_
      intro a b hab d hda hdb
      obtain ⟨_, -, rfl⟩ := List.mem_map.mp hda
      obtain ⟨_, -, hsame⟩ := List.mem_map.mp hdb
      simp only [TaskDependency.mk.injEq, Db.planned_task_id, (s.uuids.apart _).eq_iff] at hsame
      exact hab hsame.1.symm

end

/-! ## The transaction without the dependencies -/

/-- A task without its dependencies. -/
def PlannedTask.bare (t : PlannedTask) : PlannedTask := { t with depends_on := [] }

/-- The same mission with nothing depending on anything. -/
def CreateMissionInput.bare (input : CreateMissionInput) : CreateMissionInput :=
  { input with plan := { input.plan with tasks := input.plan.tasks.map PlannedTask.bare } }

/-- The journal with one event more, if its key is new. -/
def journaled (uuids : UuidSource) (events : List Event) (event : Event) : Option (List Event) :=
  if events.any fun e => e.corp_id == event.corp_id && e.idempotency_key == event.idempotency_key
    then none
  else some (events ++ [{ event with id := uuids.draw (events.map Event.id) 0 }])

theorem append_new_event_tx_journaled {s t : Db} {event : Event} {existed : String} :
    append_new_event_tx s event existed = .ok t
      ↔ ∃ evs, journaled s.uuids s.events event = some evs ∧ t = { s with events := evs } := by
  rw [append_new_event_tx_ok, journaled, Db.recorded]
  split
  · rename_i hrecorded
    rw [hrecorded]
    simp
  · rename_i hrecorded
    rw [Bool.not_eq_true] at hrecorded
    rw [hrecorded]
    constructor
    · rintro ⟨-, rfl⟩
      exact ⟨_, rfl, rfl⟩
    · rintro ⟨_, hevs, rfl⟩
      injection hevs with hevs
      subst hevs
      exact ⟨rfl, rfl⟩

/-- A loop of new events reads and writes the journal only. By induction on the loop. -/
theorem foldlM_journaled {α : Type} (event : α → Event) (existed : String) (l : List α) {s t : Db} :
    l.foldlM (fun s a => append_new_event_tx s (event a) existed) s = .ok t
      ↔ ∃ evs, l.foldlM (fun evs a => journaled s.uuids evs (event a)) s.events = some evs
        ∧ t = { s with events := evs } := by
  induction l generalizing s with
  | nil =>
    rw [List.foldlM_nil, List.foldlM_nil]
    constructor
    · intro h
      injection h with h
      exact ⟨s.events, rfl, h.symm⟩
    · rintro ⟨_, hevs, rfl⟩
      injection hevs with hevs
      rw [← hevs]
      rfl
  | cons a l ih =>
    rw [List.foldlM_cons, List.foldlM_cons, bind_eq_ok]
    constructor
    · rintro ⟨u, hu, h⟩
      obtain ⟨evs, hevs, rfl⟩ := append_new_event_tx_journaled.mp hu
      obtain ⟨evs', hevs', rfl⟩ := ih.mp h
      refine ⟨evs', ?_, rfl⟩
      rw [hevs]
      exact hevs'
    · rintro ⟨evs', h, rfl⟩
      obtain ⟨evs, hevs, hevs'⟩ := Option.bind_eq_some_iff.mp h
      exact ⟨{ s with events := evs }, append_new_event_tx_journaled.mpr ⟨evs, hevs, rfl⟩,
        ih.mpr ⟨evs', hevs', rfl⟩⟩

theorem validate_staffing_bare (input : CreateMissionInput) {u : Unit} :
    validate_staffing input.bare.plan = .ok u ↔ validate_staffing input.plan = .ok u := by
  have htasks : input.bare.plan.tasks = input.plan.tasks.map PlannedTask.bare := rfl
  have hstaffing : input.bare.plan.staffing = input.plan.staffing := rfl
  have hused : ∀ p : PlannedTask → Prop,
      (∃ t ∈ input.plan.tasks.map PlannedTask.bare, p t) ↔ ∃ t ∈ input.plan.tasks, p t.bare := by
    intro p
    simp only [List.mem_map, exists_exists_and_eq_and]
  rw [validate_staffing, validate_staffing]
  simp only [bind_eq_ok, ensure_eq_ok, htasks, hstaffing, List.length_map, hused,
    List.forall_mem_map]
  rfl

/-- The event of a planned task. -/
def task_created (s : Db) (input : CreateMissionInput) (index : Nat) : Event :=
  { id := 0, corp_id := input.corp_id, room_id := some input.room_id
    actor_id := some input.requested_by, type := .other "task.created"
    aggregate_type := .task, aggregate_id := s.planned_task_id index
    correlation_id := some s.next_mission_id
    idempotency_key := .task_created (s.planned_task_id index) }

/-- The loop over the planned tasks journals the same with and without the dependencies. -/
theorem task_loop_bare {s : Db} {input : CreateMissionInput} {uuids : UuidSource}
    {evs : List Event} :
    input.bare.plan.tasks.zipIdx.foldlM
        (fun evs x => journaled uuids evs (task_created s input.bare x.2)) evs
      = input.plan.tasks.zipIdx.foldlM
        (fun evs x => journaled uuids evs (task_created s input x.2)) evs := by
  have htasks : input.bare.plan.tasks.zipIdx
      = input.plan.tasks.zipIdx.map (Prod.map PlannedTask.bare id) := List.zipIdx_map
  rw [htasks, List.foldlM_map]
  rfl

theorem planned_dependencies_bare (s : Db) (input : CreateMissionInput) :
    planned_dependencies s input.bare.plan = some [] := by
  have hbare : ∀ t ∈ input.bare.plan.tasks, t.depends_on = [] := by
    intro t ht
    obtain ⟨x, -, rfl⟩ := List.mem_map.mp ht
    rfl
  rw [planned_dependencies_eq fun t ht key hkey => by rw [hbare t ht] at hkey; cases hkey]
  congr 1
  rw [List.eq_nil_iff_forall_not_mem]
  intro d hd
  obtain ⟨i, task, key, htask, hkey, -⟩ := mem_dependency_rows.mp hd
  rw [hbare task (List.mem_of_getElem? htask)] at hkey
  cases hkey

/-- **What a mission needs**: what it needs without its dependencies, and rows for them. -/
theorem create_mission_tx_iff {s : Db} {input : CreateMissionInput} :
    (∃ m t, create_mission_tx s input = .ok (m, t))
      ↔ (∃ m t, create_mission_tx s input.bare = .ok (m, t))
        ∧ ∃ rows, planned_dependencies s input.plan = some rows ∧ rows.Nodup
          ∧ ∀ d ∈ rows, d.task_id ≠ d.depends_on_task_id := by
  have hassignable : ∀ (u : Db) (m : Uuid),
      (∀ t ∈ input.bare.plan.tasks, ∃ a ∈ u.agents, a.id = t.assigned_agent_id
          ∧ agent_assignable u input.bare m a = true ∧ a.adapter = t.required_adapter)
        ↔ ∀ t ∈ input.plan.tasks, ∃ a ∈ u.agents, a.id = t.assigned_agent_id
          ∧ agent_assignable u input m a = true ∧ a.adapter = t.required_adapter :=
    fun u m => List.forall_mem_map
  have hlimited : ((input.bare.plan.tasks.map PlannedTask.key).Nodup
        ∧ ∀ t ∈ input.bare.plan.tasks, 0 ≤ t.depth ∧ t.depth ≤ 8 ∧ 1 ≤ t.max_attempts
          ∧ t.max_attempts ≤ 5)
      ↔ (input.plan.tasks.map PlannedTask.key).Nodup
        ∧ ∀ t ∈ input.plan.tasks, 0 ≤ t.depth ∧ t.depth ≤ 8 ∧ 1 ≤ t.max_attempts
          ∧ t.max_attempts ≤ 5 := by
    have hkeys : input.bare.plan.tasks.map PlannedTask.key = input.plan.tasks.map PlannedTask.key :=
      List.map_map
    rw [hkeys]
    exact and_congr_right fun _ => List.forall_mem_map
  constructor
  · rintro ⟨m, t, h⟩
    unfold create_mission_tx at h
    simp only [bind_eq_ok, ensure_eq_ok, context_eq_ok, append_new_event_tx_ok, pure_eq_ok,
      Prod.mk.injEq] at h
    obtain ⟨title, htitle, description, hdescription, _, hoperator, _, hstaff, _, hroom, _, hlimits,
      _, ⟨hcreated, rfl⟩, u, hu, _, hassigned, _, htasks, v, hv, rows, hrows, _, hok, w,
      ⟨hplanned, rfl⟩, rfl, rfl⟩ := h
    refine ⟨?_, rows, hrows, hok⟩
    obtain ⟨evs, hevs, rfl⟩ :=
      (foldlM_journaled (fun x : PlannedTask × Nat => task_created s input x.2)
      "task created event unexpectedly existed" _).mp hv
    apply Exists.intro
    apply Exists.intro
    unfold create_mission_tx
    simp only [bind_eq_ok, ensure_eq_ok, context_eq_ok, append_new_event_tx_ok, pure_eq_ok,
      Prod.mk.injEq]
    refine ⟨title, htitle, description, hdescription, _, hoperator, _,
      (validate_staffing_bare input).mpr hstaff, _, hroom, (), hlimits, _, ⟨hcreated, rfl⟩, u, hu,
        (), (hassignable u _).mpr hassigned, (),
      hlimited.mpr htasks, _,
        (foldlM_journaled (fun x : PlannedTask × Nat => task_created s input.bare x.2)
      "task created event unexpectedly existed" _).mpr ⟨evs, task_loop_bare.trans hevs, rfl⟩, [],
      planned_dependencies_bare s input, (), ⟨List.nodup_nil, by simp⟩, _, ⟨hplanned, rfl⟩, rfl,
        rfl⟩
  · rintro ⟨⟨m, t, h⟩, rows, hrows, hok⟩
    unfold create_mission_tx at h
    simp only [bind_eq_ok, ensure_eq_ok, context_eq_ok, append_new_event_tx_ok, pure_eq_ok,
      Prod.mk.injEq] at h
    obtain ⟨title, htitle, description, hdescription, _, hoperator, _, hstaff, _, hroom, _, hlimits,
      _, ⟨hcreated, rfl⟩, u, hu, _, hassigned, _, htasks, v, hv, _, -, _, -, w,
      ⟨hplanned, rfl⟩, rfl, rfl⟩ := h
    obtain ⟨evs, hevs, rfl⟩ :=
      (foldlM_journaled (fun x : PlannedTask × Nat => task_created s input.bare x.2)
      "task created event unexpectedly existed" _).mp hv
    apply Exists.intro
    apply Exists.intro
    unfold create_mission_tx
    simp only [bind_eq_ok, ensure_eq_ok, context_eq_ok, append_new_event_tx_ok, pure_eq_ok,
      Prod.mk.injEq]
    refine ⟨title, htitle, description, hdescription, _, hoperator, _,
      (validate_staffing_bare input).mp hstaff, _, hroom, (), hlimits, _, ⟨hcreated, rfl⟩, u, hu,
        (), (hassignable u _).mp hassigned, (),
      hlimited.mp htasks, _,
        (foldlM_journaled (fun x : PlannedTask × Nat => task_created s input x.2)
      "task created event unexpectedly existed" _).mpr ⟨evs, task_loop_bare.symm.trans hevs, rfl⟩,
        rows,
      hrows, (), hok, _, ⟨hplanned, rfl⟩, rfl, rfl⟩

/-- What a mission that was created consists of. -/
theorem create_mission_tx_rows {s t : Db} {input : CreateMissionInput} {m : Uuid}
    (h : create_mission_tx s input = .ok (m, t)) :
    ∃ rows, planned_dependencies s input.plan = some rows ∧ rows.Nodup
      ∧ t.task_dependencies = s.task_dependencies ++ rows
      ∧ t.tasks = s.tasks ++ input.plan.tasks.zipIdx.map fun x =>
        planned_task_row s input s.next_mission_id x.1 x.2 := by
  unfold create_mission_tx at h
  simp only [bind_eq_ok, ensure_eq_ok, context_eq_ok, append_new_event_tx_ok, pure_eq_ok,
    Prod.mk.injEq] at h
  obtain ⟨_, -, _, -, _, -, _, -, _, -, _, -, _, ⟨-, rfl⟩, u, hu, _, -, _, -, v, hv, rows, hrows, _,
    hok, w, ⟨-, rfl⟩, rfl, rfl⟩ := h
  obtain ⟨evs, -, rfl⟩ := (foldlM_journaled (fun x : PlannedTask × Nat => task_created s input x.2)
    "task created event unexpectedly existed" _).mp hv
  obtain ⟨-, actors, memberships, evs', agents, rfl, -⟩ := persist_staffing_tx_ok hu
  exact ⟨rows, hrows, hok.1, rfl, rfl⟩

end Crony.Store

namespace Crony.Server

/-! ## What the validation says about a single task -/

variable {plan : TaskGraphPlan} {agents : List Store.Agent} {calls : Nat}

/-- An accepted task satisfies the checks of the table. -/
theorem accepted_task_limits (h : validate_plan calls plan agents = some (.ok ())) :
    ∀ task ∈ plan.tasks, 0 ≤ task.depth ∧ task.depth ≤ 8 ∧ 1 ≤ task.max_attempts
      ∧ task.max_attempts ≤ 5 := by
  have haccepted := validate_plan_accepted h
  intro task htask
  obtain ⟨n, hdepth, -⟩ := haccepted.longest_chain task htask
  have hlimit := haccepted.depth_limit task htask
  have hattempts : 1 ≤ task.max_attempts ∧ task.max_attempts ≤ MAX_TASK_ATTEMPTS := by
    obtain ⟨seen, hvalid⟩ := validate_plan_each h task htask
    simp only [validate_task, bind_eq_ok, ensure_eq_ok, context_eq_ok] at hvalid
    obtain ⟨_, -, _, -, _, -, _, -, _, -, _, hattempts, -⟩ := hvalid
    exact hattempts
  rw [MAX_GRAPH_DEPTH] at hlimit
  rw [MAX_TASK_ATTEMPTS] at hattempts
  omega

/-- **The graph is in the database**: a row for every task, and the dependency rows are the
relation of the plan, each once. -/
structure PersistedGraph (s t : Store.Db) (input : Store.CreateMissionInput)
    (plan : TaskGraphPlan) :
    Prop where
  tasks : t.tasks = s.tasks ++ plan.stored.tasks.zipIdx.map fun x =>
    Store.planned_task_row s input s.next_mission_id x.1 x.2
  dependencies : ∃ rows, t.task_dependencies = s.task_dependencies ++ rows ∧ rows.Nodup
    ∧ ∀ d, d ∈ rows ↔ ∃ i j task parent, plan.tasks[i]? = some task ∧ plan.tasks[j]? = some parent
      ∧ parent.key ∈ task.depends_on
      ∧ d = { task_id := s.planned_task_id i, depends_on_task_id := s.planned_task_id j }

/-- The dependencies of an accepted plan exist, for the store too. -/
theorem Accepted.stored_exist (h : Accepted plan) :
    ∀ t ∈ plan.stored.tasks, ∀ key ∈ t.depends_on, ∃ u ∈ plan.stored.tasks, u.key = key := by
  intro t ht key hkey
  obtain ⟨task, htask, rfl⟩ := List.mem_map.mp ht
  obtain ⟨parent, hparent, hparent_key⟩ := h.dependencies_exist task htask key hkey
  exact ⟨parent.stored, List.mem_map_of_mem hparent, hparent_key⟩

/-- No task of an accepted plan depends on itself. -/
theorem Accepted.stored_irreflexive (h : Accepted plan) :
    ∀ t ∈ plan.stored.tasks, t.key ∉ t.depends_on := by
  intro t ht hself
  obtain ⟨task, htask, rfl⟩ := List.mem_map.mp ht
  exact h.acyclic task.key (Relation.TransGen.single ⟨task, htask, rfl, hself⟩)

/-- The place of a task is that of its key. -/
theorem Accepted.position (h : Accepted plan) {j : Nat} {parent : PlannedTask}
    (hparent : plan.tasks[j]? = some parent) : Store.position plan.stored parent.key = j := by
  have hmem : ∃ u ∈ plan.stored.tasks, u.key = parent.key :=
    ⟨parent.stored, List.mem_map_of_mem (List.mem_of_getElem? hparent), rfl⟩
  obtain ⟨u, hu, hkey⟩ := Store.position_spec hmem
  have hkeys : (plan.tasks.map PlannedTask.key)[Store.position plan.stored parent.key]?
      = (plan.tasks.map PlannedTask.key)[j]? := by
    have hstored : plan.tasks.map PlannedTask.key = plan.stored.tasks.map
        Store.PlannedTask.key := by
      rw [TaskGraphPlan.stored, List.map_map]
      rfl
    have hj : (plan.tasks.map PlannedTask.key)[j]? = some parent.key := by
      rw [List.getElem?_map, hparent, Option.map_some]
    rw [hj, hstored, List.getElem?_map, hu, Option.map_some, hkey]
  have hlt : j < (plan.tasks.map PlannedTask.key).length := by
    rw [List.length_map]
    exact (List.getElem?_eq_some_iff.mp hparent).1
  exact (List.getElem?_inj hlt h.keys_distinct).mp hkeys.symm |>.symm

/-- **The dependency rows are the relation of the plan**, in the places of the tasks. -/
theorem Accepted.mem_rows (h : Accepted plan) {s : Store.Db} {d : Store.TaskDependency} :
    d ∈ Store.dependency_rows s plan.stored
      ↔ ∃ i j task parent, plan.tasks[i]? = some task ∧ plan.tasks[j]? = some parent
        ∧ parent.key ∈ task.depends_on
        ∧ d = { task_id := s.planned_task_id i, depends_on_task_id := s.planned_task_id j } := by
  have hstored : ∀ i : Nat, plan.stored.tasks[i]? = plan.tasks[i]?.map PlannedTask.stored :=
    fun i => List.getElem?_map
  rw [Store.mem_dependency_rows]
  constructor
  · rintro ⟨i, row, key, hrow, hkey, rfl⟩
    rw [hstored, Option.map_eq_some_iff] at hrow
    obtain ⟨task, htask, rfl⟩ := hrow
    obtain ⟨parent, hparent, rfl⟩ := h.dependencies_exist task (List.mem_of_getElem? htask) key hkey
    obtain ⟨j, hj⟩ := List.mem_iff_getElem?.mp hparent
    exact ⟨i, j, task, parent, htask, hj, hkey, by rw [h.position hj]⟩
  · rintro ⟨i, j, task, parent, htask, hparent, hkey, rfl⟩
    refine ⟨i, task.stored, parent.key, ?_, hkey, ?_⟩
    · rw [hstored, htask, Option.map_some]
    · rw [h.position hparent]

/-- What was created of an accepted plan is its graph. -/
theorem Accepted.persisted (h : Accepted plan) {s t : Store.Db} {input : Store.CreateMissionInput}
    {m : Uuid} (hplan : input.plan = plan.stored)
    (hok : Store.create_mission_tx s input = .ok (m, t)) :
    PersistedGraph s t input plan := by
  obtain ⟨rows, hrows, hnodup, hdependencies, htasks⟩ := Store.create_mission_tx_rows hok
  rw [hplan] at hrows htasks
  rw [Store.planned_dependencies_eq h.stored_exist, Option.some_inj] at hrows
  subst hrows
  exact ⟨htasks, _, hdependencies, hnodup, fun d => h.mem_rows⟩

/-- **A plan that was accepted is persisted exactly when no list of dependencies has an entry
twice.** Whatever the database and the mission, the transaction succeeds and writes the graph of
the plan if it does so for the same tasks without their dependencies, and no `depends_on` list
repeats a key. The other constraints of the two tables are never in the way. -/
theorem accepted_plan_persisted {s : Store.Db} {input : Store.CreateMissionInput}
    (h : validate_plan calls plan agents = some (.ok ())) (hplan : input.plan = plan.stored) :
    ((∃ m t, Store.create_mission_tx s input = .ok (m, t) ∧ PersistedGraph s t input plan)
      ↔ (∃ m t, Store.create_mission_tx s input.bare = .ok (m, t))
        ∧ ∀ task ∈ plan.tasks, task.depends_on.Nodup)
    ∧ (∀ m t, Store.create_mission_tx s input = .ok (m, t) → PersistedGraph s t input plan)
    ∧ (plan.tasks.map PlannedTask.key).Nodup
    ∧ ∀ task ∈ plan.tasks, 0 ≤ task.depth ∧ task.depth ≤ 8 ∧ 1 ≤ task.max_attempts
      ∧ task.max_attempts ≤ 5 := by
  have haccepted := validate_plan_accepted h
  have hexist := haccepted.stored_exist
  have hpersisted : ∀ m t, Store.create_mission_tx s input = .ok (m, t) →
      PersistedGraph s t input plan :=
    fun m t hok => haccepted.persisted hplan hok
  have hlists : (∀ t ∈ plan.stored.tasks, t.depends_on.Nodup) ↔ ∀ t ∈ plan.tasks,
      t.depends_on.Nodup :=
    List.forall_mem_map
  refine ⟨?_, hpersisted, haccepted.keys_distinct, accepted_task_limits h⟩
  constructor
  · rintro ⟨m, t, hok, -⟩
    obtain ⟨hbare, rows, hrows, hnodup, -⟩ := Store.create_mission_tx_iff.mp ⟨m, t, hok⟩
    rw [hplan, Store.planned_dependencies_eq hexist, Option.some_inj] at hrows
    subst hrows
    exact ⟨hbare, hlists.mp ((Store.dependency_rows_nodup hexist).mp hnodup)⟩
  · rintro ⟨hbare, hnodup⟩
    have hrows : Store.planned_dependencies s input.plan = some
        (Store.dependency_rows s plan.stored) := by
      rw [hplan, Store.planned_dependencies_eq hexist]
    obtain ⟨m, t, hok⟩ := Store.create_mission_tx_iff.mpr ⟨hbare, _, hrows,
      (Store.dependency_rows_nodup hexist).mpr (hlists.mpr hnodup),
      Store.dependency_rows_irreflexive haccepted.stored_irreflexive hexist⟩
    exact ⟨m, t, hok, hpersisted m t hok⟩

namespace Workshop

/-- A corp with an owner in a room, and the worker of the roster. -/
def premises : Store.Db :=
  { actors := [{ id := 2, corp_id := 1, kind := .human, role := "owner" }]
    rooms := [{ id := 3, corp_id := 1 }]
    room_memberships := [{ room_id := 3, actor_id := 2 }]
    agents := roster }

def order (plan : TaskGraphPlan) : Store.CreateMissionInput :=
  { corp_id := 1, requested_by := 2, title := "Report", description := "Write the report",
    room_id := 3
    plan := plan.stored }

/-- The plan with one entry less. -/
def chain : TaskGraphPlan :=
  Workshop.plan [task "c" ["a", "b"] 2, task "a" [] 0, task "b" ["a"] 1]

end Workshop

set_option maxRecDepth 20000 in
/-- The theorem at a plan that repeats nothing. -/
theorem accepted_plan_persisted_chain :
    validate_plan 4 Workshop.chain Workshop.roster = some (.ok ())
      ∧ ∃ m t, Store.create_mission_tx Workshop.premises (Workshop.order Workshop.chain) = .ok
        (m, t)
        ∧ PersistedGraph Workshop.premises t (Workshop.order Workshop.chain) Workshop.chain := by
  have h : validate_plan 4 Workshop.chain Workshop.roster = some (.ok ()) := by rfl
  have hbare : ∃ m t, Store.create_mission_tx Workshop.premises (Workshop.order Workshop.chain).bare
      = .ok (m, t) := ⟨_, _, rfl⟩
  refine ⟨h, (accepted_plan_persisted h rfl).1.mpr ⟨hbare, ?_⟩⟩
  decide

set_option maxRecDepth 20000 in
/-- A plan that is accepted and violates the primary key: the task `b` names `a` twice. Nothing
else is against the mission. -/
theorem accepted_plan_not_persisted :
    validate_plan 4 Workshop.triangle Workshop.roster = some (.ok ())
      ∧ (∃ m t, Store.create_mission_tx Workshop.premises (Workshop.order Workshop.triangle).bare
        = .ok (m, t))
      ∧ Store.create_mission_tx Workshop.premises (Workshop.order Workshop.triangle)
        = .error "new row violates check constraint task_dependencies_check" :=
  ⟨rfl, ⟨_, _, rfl⟩, rfl⟩

end Crony.Server
