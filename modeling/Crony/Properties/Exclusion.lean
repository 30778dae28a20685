/-
Exclusive execution, and the discipline of dependencies.

Three methods start runs and many more move statuses; that a task and an agent never have
two active runs, that attempts only grow, and that a completed mission has only completed
tasks, is what the lifecycle invariant says. The one method that reopens a completed task
is the resume of one of its runs, and it reopens the mission with it.
-/
import Crony.Lifecycle.Reach

set_option autoImplicit false

open Crony.Lib

namespace Crony.Store

variable {env : Env} {s t : Db}

/-! ## At most one active run -/

/-- The attempt of a task after a step, for the row that carries its identifier. -/
theorem step_attempt_le (hs : Inv s) {op : Op} {x x' : Task} (hx : x ∈ s.tasks)
    (hx' : x' ∈ (step env s op).tasks) (hid : x'.id = x.id) :
    x.attempt_count ≤ x'.attempt_count := by
  unfold step at hx'
  cases he : exec env s op with
  | error e =>
    rw [he] at hx'
    rw [hs.life.tasks_keyed.eq_of_mem hx' hx hid]
  | ok t =>
    rw [he] at hx'
    obtain ⟨y, hy, hk, hle⟩ := (exec_grows hs he).tasks x hx
    have hxy : x' = y :=
      (exec_inv hs he).life.tasks_keyed.eq_of_mem hx' hy (hid.trans hk.id.symm)
    rw [hxy]
    exact hle

/-- What a dispatch does to the attempts. -/
theorem create_task_run_attempts {now : Int} {input : TaskRunInput}
    (h : exec env s (.create_task_run now input) = .ok t) :
    ∃ x ∈ s.tasks, x.id = input.task_id ∧ x.attempt_count < x.max_attempts
      ∧ t.tasks = updateWhere (fun y => y.id == x.id) (fun y =>
          { y with status := .claimed, attempt_count := x.attempt_count + 1
                   verification_status := .pending }) s.tasks := by
  obtain ⟨mission, task, agent, r, msgs, evs, hrow, -, -, -, -, -, hlt, -, -, -, -, -, rfl, -⟩ :=
    create_task_run_ok h
  obtain ⟨-, -, -, hx, hid, -⟩ := task_run_row_eq_some hrow
  exact ⟨task, hx, hid, hlt, rfl⟩

/-- **Exclusive execution.** In every reachable state each task and each agent has at most
one active run; no step takes an attempt back; a dispatch counts one attempt of its own task,
within the limit, and none of another. -/
theorem exclusive_execution (h : Reachable env s) :
    (∀ task_id, (s.runs.filter fun r => r.active && r.task_id == task_id).length ≤ 1)
      ∧ (∀ agent_id, (s.runs.filter fun r => r.active && r.agent_id == agent_id).length ≤ 1)
      ∧ (∀ op, ∀ x ∈ s.tasks, ∀ x' ∈ (step env s op).tasks, x'.id = x.id →
          x.attempt_count ≤ x'.attempt_count)
      ∧ ∀ now input t, exec env s (.create_task_run now input) = .ok t →
          (∃ x ∈ s.tasks, x.id = input.task_id)
          ∧ ∀ x ∈ s.tasks, ∀ x' ∈ t.tasks, x'.id = x.id →
            if x.id = input.task_id
            then x'.attempt_count = x.attempt_count + 1 ∧ x'.attempt_count ≤ x'.max_attempts
            else x'.attempt_count = x.attempt_count := by
  have hs := ReachableVia.invariants h
  refine ⟨hs.life.task_exclusive.length_filter_le_one,
    hs.life.agent_exclusive.length_filter_le_one, ?_, ?_⟩
  · intro op x hx x' hx' hid
    exact step_attempt_le hs hx hx' hid
  · intro now input t he
    obtain ⟨y, hy, hyid, hlt, ht⟩ := create_task_run_attempts he
    refine ⟨⟨y, hy, hyid⟩, ?_⟩
    intro x hx x' hx' hid
    rw [ht] at hx'
    obtain ⟨z, hz, rfl⟩ := mem_updateWhere.mp hx'
    have hzx : z = x := by
      refine hs.life.tasks_keyed.eq_of_mem hz hx ?_
      split at hid
      · exact hid
      · exact hid
    subst hzx
    by_cases hsame : z.id = y.id
    · obtain rfl := hs.life.tasks_keyed.eq_of_mem hz hy hsame
      rw [if_pos hyid]
      simp only [beq_self_eq_true, if_true, true_and]
      omega
    · have hne : z.id ≠ input.task_id := fun he => hsame (he.trans hyid.symm)
      rw [if_neg hne]
      simp [hsame]

/-- The task of a mission that ran to its end, and a dispatch of the second one. -/
def Office.two_tasks : List Op :=
  [Office.create_mission (Office.plan [Office.task "a" [] Office.file_policy,
    Office.task "b" ["a"] Office.file_policy])] ++ Office.completed_run.tail

set_option maxRecDepth 20000 in
theorem exclusive_execution_office :
    ((Office.after Office.two_tasks).runs.filter fun r => r.active && r.agent_id == 100).length ≤ 1
      ∧ (Office.after (Office.two_tasks ++ [Office.dispatch 2 51])).tasks.map Task.attempt_count
        = [1, 1] :=
  ⟨(exclusive_execution (Office.reachable_after Office.two_tasks)).2.1 100, by decide⟩

/-! ## Dependencies and completion -/

theorem Turnover.completed_stays (hs : Life s) (h : Turnover s t) :
    s.runs.length ≤ t.runs.length
      ∧ (t.runs.length = s.runs.length → ∀ x ∈ s.tasks, x.status = .completed →
        ∃ x' ∈ t.tasks, x'.id = x.id ∧ x'.status = .completed) := by
  have hopen : KeepsOpen s t → s.runs.length ≤ t.runs.length
      ∧ (t.runs.length = s.runs.length → ∀ x ∈ s.tasks, x.status = .completed →
        ∃ x' ∈ t.tasks, x'.id = x.id ∧ x'.status = .completed) := by
    intro hk
    refine ⟨hk.runs.length_eq.ge, fun _ x hx hc => ?_⟩
    obtain ⟨x', hx', hkx, -, hstay⟩ := hk.tasks_open.exists_new hx
    exact ⟨x', hx', hkx.id, hstay hc⟩
  cases h with
  | quiet h => exact hopen h.keepsOpen
  | work r h => exact hopen (h.keepsOpen hs)
  | stop r h => exact hopen (h.keepsOpen hs)
  | lapse r h => exact hopen h.keepsOpen
  | complete r h =>
    refine ⟨h.runs.length_eq.ge, fun _ x hx hc => ?_⟩
    obtain ⟨x', hx', hk, -, hself, hother⟩ := h.tasks.exists_new hx
    by_cases hid : x.id = r.task_id
    · exact ⟨x', hx', hk.id, hself hid⟩
    · rcases hother hid with hst | ⟨hpend, -⟩
      · exact ⟨x', hx', hk.id, hst.trans hc⟩
      · rw [hc] at hpend
        cases hpend
  | admission r task h =>
    rw [h.runs, List.length_append, List.length_singleton]
    exact ⟨by omega, fun hlen => by omega⟩

/-- A move that adds no run leaves completed tasks completed. -/
theorem Move.completed_stays (hs : Life s) (h : Move s t) :
    s.runs.length ≤ t.runs.length
      ∧ (t.runs.length = s.runs.length → ∀ x ∈ s.tasks, x.status = .completed →
        ∃ x' ∈ t.tasks, x'.id = x.id ∧ x'.status = .completed) := by
  cases h with
  | turnover h => exact h.completed_stays hs
  | plan mission tasks agents dependencies h =>
    rw [h.runs]
    exact ⟨le_refl _, fun _ x hx hc => ⟨x, h.mem_tasks.mpr (Or.inl hx), rfl, hc⟩⟩

theorem Moves.completed_stays (hs : Life s) (h : Moves s t) :
    s.runs.length ≤ t.runs.length
      ∧ (t.runs.length = s.runs.length → ∀ x ∈ s.tasks, x.status = .completed →
        ∃ x' ∈ t.tasks, x'.id = x.id ∧ x'.status = .completed) := by
  induction h with
  | refl => exact ⟨le_refl _, fun _ x hx hc => ⟨x, hx, rfl, hc⟩⟩
  | tail hrun hm ih =>
    obtain ⟨hle, hstay⟩ := hm.completed_stays (Moves.life hrun hs)
    refine ⟨ih.1.trans hle, fun hlen x hx hc => ?_⟩
    have hmid : _ = s.runs.length := le_antisymm (hle.trans hlen.le) ih.1
    obtain ⟨y, hy, hyid, hyc⟩ := ih.2 hmid x hx hc
    obtain ⟨z, hz, hzid, hzc⟩ := hstay (hlen.trans hmid.symm) y hy hyc
    exact ⟨z, hz, hzid.trans hyid, hzc⟩

/-- A call that admits no run adds none. -/
theorem Effect.runs_length {op : Op} (h : Effect s op t) (hop : op.admits = false) :
    t.runs.length = s.runs.length := by
  cases h with
  | calm h => exact h.runs.length_eq
  | settled command_id _ h => exact h.runs.length_eq
  | admitted r hadm h =>
    rw [hadm] at hop
    cases hop
  | raised now corp_id run_id run task mission stage i c e _ _ _ _ h =>
    rw [h.state, length_updateWhere]
  | shelved l h ht => rw [ht, Db.onArtifacts_runs]
  | readied corp_id artifact_id a run task mission u _ _ _ h ht =>
    have hu := h.quiet.runs.length_eq
    rw [ht]
    split
    · exact (length_updateWhere _ _ _).trans hu
    · exact hu
  | approved now input row actor _ _ _ hadv => exact hadv.runs.length_eq
  | reported now input row scope payload _ _ _ _ h =>
    cases h with
    | calm _ h => exact h.runs.length_eq
    | ended _ h => exact h.runs.length_eq
    | asked _ p _ _ _ h _ _ => exact h.runs.length_eq
    | usage _ h => exact (run_usage_quiet h).runs.length_eq
    | evidence _ h => exact (run_verification_evidence_quiet h).runs.length_eq
    | passed _ h => exact (run_verification_passed_quiet h).runs.length_eq
    | waiting _ _ hadv => exact hadv.runs.length_eq
    | completed _ _ hadv => exact hadv.runs.length_eq

/-- An admission for a task that is not completed leaves the completed ones alone. -/
theorem Admit.completed_stays {r : Run} {task : Task} (hs : Life s) (h : Admit s t r task)
    (hopen : task.status ≠ .completed) {x : Task} (hx : x ∈ s.tasks) (hc : x.status = .completed) :
    ∃ x' ∈ t.tasks, x'.id = x.id ∧ x'.status = .completed := by
  obtain ⟨x', hx', hk, -, -, hother⟩ := h.tasks.exists_new hx
  have hne : x.id ≠ r.task_id := by
    intro hid
    rw [hs.tasks_keyed.eq_of_mem hx h.task_mem (hid.trans h.task_id.symm)] at hc
    exact hopen hc
  rw [hother hne] at hx'
  exact ⟨x, hx', rfl, hc⟩

/-- Only a resume reopens a completed task, and the mission with it. -/
theorem exec_reopens (hs : Inv s) {op : Op} (h : exec env s op = .ok t) {x : Task}
    (hx : x ∈ s.tasks) (hc : x.status = .completed) :
    (∃ x' ∈ t.tasks, x'.id = x.id ∧ x'.status = .completed)
      ∨ ∃ now input, op = .create_resume_run now input
        ∧ (∃ source ∈ s.runs, source.id = input.source_run_id ∧ source.task_id = x.id)
        ∧ (∃ x' ∈ t.tasks, x'.id = x.id ∧ x'.status = .claimed)
        ∧ ∀ m ∈ t.missions, m.id = x.mission_id → m.status = .running := by
  by_cases hop : op.admits = true
  · cases op with
    | create_task_run now input =>
      obtain ⟨mission, task, agent, r, msgs, evs, hrow, -, hsched, -, -, -, -, -, -, -, -, -, rfl,
        -⟩ := create_task_run_ok h
      refine Or.inl ⟨x, mem_updateWhere.mpr ⟨x, hx, if_neg ?_⟩, rfl, hc⟩
      obtain ⟨-, -, -, htask, -⟩ := task_run_row_eq_some hrow
      rw [beq_iff_eq]
      intro hid
      rw [← hs.life.tasks_keyed.eq_of_mem hx htask hid, hc] at hsched
      rcases hsched with h | h <;> cases h
    | create_resume_run now input =>
      obtain ⟨source, task, mission, r, msgs, items, recs, evs, hj, -, -, -, -, -, -, -, rfl, -⟩ :=
        create_resume_run_ok h
      by_cases hid : x.id = task.id
      · obtain rfl := hs.life.tasks_keyed.eq_of_mem hx hj.task_mem hid
        refine Or.inr ⟨now, input, rfl, ⟨source, hj.run_mem, hj.run_id, hj.task_id.symm⟩, ?_, ?_⟩
        · exact ⟨_, mem_updateWhere.mpr ⟨x, hx, if_pos (by simp)⟩, rfl, rfl⟩
        · intro m hm hmid
          obtain ⟨m', -, rfl⟩ := mem_updateWhere.mp hm
          by_cases hm' : m'.id = mission.id
          · simp [hm']
          · simp [hm', ← hj.mission_id] at hmid
      · exact Or.inl ⟨x, mem_updateWhere.mpr ⟨x, hx, if_neg (by simpa using hid)⟩, rfl, hc⟩
    | create_factory_verification_recovery now input =>
      rcases create_factory_verification_recovery_admit hs.life h with rfl |
        ⟨r, task, hadm, hopen, -⟩
      · exact Or.inl ⟨x, hx, rfl, hc⟩
      · exact Or.inl (hadm.completed_stays hs.life hopen hx hc)
    | _ => cases hop
  · have hlen := (exec_effect hs.life hs.linked h).runs_length (by simpa using hop)
    exact Or.inl (((exec_moves hs.life hs.linked h).completed_stays hs.life).2 hlen x hx hc)

/-- **Dependency and completion discipline.** In every reachable state a completed mission has
only completed tasks; a step that reopens a completed task is the resume of one of its runs and
sets its mission running; a dispatch needs every dependency completed; and whatever has a run
depends only on tasks that completed. -/
theorem completion_discipline (h : Reachable env s) :
    (∀ m ∈ s.missions, m.status = .completed → ∀ x ∈ s.tasks, x.mission_id = m.id →
        x.status = .completed)
      ∧ (∀ op t, exec env s op = .ok t → ∀ x ∈ s.tasks, x.status = .completed →
          ∀ x' ∈ t.tasks, x'.id = x.id → x'.status = .completed
            ∨ ∃ now input, op = .create_resume_run now input
              ∧ (∃ source ∈ s.runs, source.id = input.source_run_id ∧ source.task_id = x.id)
              ∧ x'.status = .claimed
              ∧ ∀ m ∈ t.missions, m.id = x.mission_id → m.status = .running)
      ∧ (∀ now input t, exec env s (.create_task_run now input) = .ok t →
          ∀ d ∈ s.task_dependencies, d.task_id = input.task_id →
            ∃ x ∈ s.tasks, x.id = d.depends_on_task_id ∧ x.status = .completed)
      ∧ ∀ r ∈ s.runs, ∀ d ∈ s.task_dependencies, d.task_id = r.task_id →
          ∃ x ∈ s.runs, x.task_id = d.depends_on_task_id ∧ x.status = .completed := by
  have hs := ReachableVia.invariants h
  refine ⟨hs.life.mission_settled, ?_, ?_, hs.life.run_ready⟩
  · intro op t he x hx hc x' hx' hid
    have hkeyed := (exec_inv hs he).life.tasks_keyed
    rcases exec_reopens hs he hx hc with
      ⟨y, hy, hyid, hyc⟩ | ⟨now, input, hop, hsource, ⟨y, hy, hyid, hyc⟩, hmission⟩
    · rw [hkeyed.eq_of_mem hx' hy (hid.trans hyid.symm)]
      exact Or.inl hyc
    · rw [hkeyed.eq_of_mem hx' hy (hid.trans hyid.symm)]
      exact Or.inr ⟨now, input, hop, hsource, hyc, hmission⟩
  · intro now input t he d hd hid
    obtain ⟨mission, task, agent, r, msgs, evs, hrow, -, -, hready, -⟩ := create_task_run_ok he
    obtain ⟨-, -, -, -, htid, -⟩ := task_run_row_eq_some hrow
    obtain ⟨-, p, hp, hpid⟩ := hs.life.dependency_tasks d hd
    exact ⟨p, hp, hpid, Db.dependencies_ready_eq_true hready d hd (hid.trans htid.symm) p hp hpid⟩

/-- A run that completed in a preserved workspace, with a session to resume. -/
def Office.resumable_run : List Op :=
  [Office.create_mission (Office.plan [Office.task "a" [] Office.file_policy]),
    Office.dispatch 1 50, Office.report 50 200 .run_session (.obj [("session_id", .str "session")]),
    Office.report 50 201 .run_started
      (.obj [("workspace", .str "/work"), ("workspace_base_commit", .str "base")]),
    Office.report 50 202 .run_verification_started (.obj []),
    Office.report 50 203 .run_verification_evidence (Office.evidence 0 900 "file"),
    Office.report 50 204 .run_verification_passed (.obj []),
    Office.report 50 205 .run_completed (.obj []),
    Office.report 50 206 .run_workspace_preserved (.obj [])]

/-- The owner resumes the run. -/
def Office.resume : Op :=
  .create_resume_run 1
    { corp_id := 1, source_run_id := 50, requested_by := 1, run_id := 51, assignment_token := 8 }

set_option maxRecDepth 20000 in
theorem completion_discipline_office :
    (Office.after Office.completed_run).missions.map Mission.status = [.completed]
      ∧ ∀ x ∈ (Office.after Office.completed_run).tasks, x.mission_id = 1 →
        x.status = .completed := by
  refine ⟨by decide, fun x hx hmission => ?_⟩
  obtain ⟨m, hm, hst, hid⟩ : ∃ m ∈ (Office.after Office.completed_run).missions,
      m.status = .completed ∧ m.id = 1 := by decide
  exact (completion_discipline (Office.reachable_after Office.completed_run)).1 m hm hst x hx
    (hmission.trans hid.symm)

set_option maxRecDepth 20000 in
/-- A completed task does leave its status: a resume claims it again. -/
theorem completed_task_reopened :
    ¬ ∀ s, Reachable Office.digest s → ∀ op, ∀ x ∈ s.tasks, x.status = .completed →
      ∀ x' ∈ (step Office.digest s op).tasks, x'.id = x.id → x'.status = .completed := by
  intro hall
  have hstay := hall _ (Office.reachable_after Office.resumable_run) Office.resume
  revert hstay
  decide

end Crony.Store
