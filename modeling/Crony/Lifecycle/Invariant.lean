/-
Every move keeps the lifecycle invariant.

The moves differ in what they do to one run, its task, its mission and its agent; what
they have in common is stated first. `Ages` is the common part of all moves that insert
nothing: assignments stay, no run becomes active, a completed run stays completed. Keys,
references, exclusivity and the two facts about completed runs follow from it for all
these moves at once; the rest is one lemma per field of the invariant and kind of move.
-/
import Crony.Lifecycle.Moves

set_option autoImplicit false

open Crony.Lib

namespace Crony.Store

variable {s t : Db} {r : Run}

theorem Run.active_of_not_started {x : Run} (h : x.started = false) : x.active = true := by
  unfold Run.started at h
  unfold Run.active
  cases hs : x.status <;> simp_all [RunStatus.is_active]

theorem Run.active_congr {x x' : Run} (h : x'.status = x.status) : x'.active = x.active := by
  unfold Run.active
  rw [h]

theorem Run.started_congr {x x' : Run} (h : x'.status = x.status) : x'.started = x.started := by
  unfold Run.started
  rw [h]

theorem Run.not_active_of_completed {x : Run} (h : x.status = .completed) : x.active = false := by
  unfold Run.active
  rw [h]
  rfl

/-- An active run is determined by its identifier, its task or its agent. -/
theorem Life.eq_of_id (h : Life s) {x y : Run} (hx : x ∈ s.runs) (hy : y ∈ s.runs)
    (hid : x.id = y.id) : x = y :=
  h.runs_keyed.eq_of_mem hx hy hid

theorem Life.eq_of_task (h : Life s) {x y : Run} (hx : x ∈ s.runs) (hy : y ∈ s.runs)
    (hxa : x.active = true) (hya : y.active = true) (ht : x.task_id = y.task_id) : x = y :=
  h.task_exclusive.eq_of_mem hx hy hxa hya ht

theorem Life.eq_of_agent (h : Life s) {x y : Run} (hx : x ∈ s.runs) (hy : y ∈ s.runs)
    (hxa : x.active = true) (hya : y.active = true) (ha : x.agent_id = y.agent_id) : x = y :=
  h.agent_exclusive.eq_of_mem hx hy hxa hya ha

/-- The task of an active run is not completed. -/
theorem Life.task_open (h : Life s) {x : Run} {task : Task} (hx : x ∈ s.runs)
    (hxa : x.active = true) (ht : task ∈ s.tasks) (hid : task.id = x.task_id) :
    task.status ≠ .completed := by
  intro hc
  have := h.task_settled task ht hc x hx hid.symm
  rw [hxa] at this
  cases this

/-! ## Moves that insert nothing -/

/-- What a move that inserts nothing does to every row. -/
structure Ages (s t : Db) : Prop where
  runs : Updated (fun x x' => x.Kept x' ∧ (x'.active = true → x.active = true)
    ∧ (x.status = .completed → x'.status = .completed)) s.runs t.runs
  tasks : Updated Task.Kept s.tasks t.tasks
  missions : Updated Mission.Kept s.missions t.missions
  agents : Updated Agent.Kept s.agents t.agents
  task_dependencies : t.task_dependencies = s.task_dependencies

theorem Quiet.ages (h : Quiet s t) : Ages s t where
  runs := h.runs.mono fun x _ x' hx => ⟨hx.1, by rw [Run.active_congr hx.2]; exact id,
    fun hc => hx.2.trans hc⟩
  tasks := h.tasks.mono fun _ _ _ hx => hx.1
  missions := by
    rw [h.missions]
    exact Updated.refl fun m _ => Mission.Kept.refl m
  agents := by
    rw [h.agents]
    exact Updated.refl fun a _ => Agent.Kept.refl a
  task_dependencies := h.task_dependencies

theorem Work.ages (hs : Life s) (h : Work s t r) : Ages s t where
  runs := by
    refine h.runs.mono ?_
    rintro x hx x' ⟨hk, hst | ⟨hid, -, -⟩⟩
    · exact ⟨hk, by rw [Run.active_congr hst]; exact id, fun hc => hst.trans hc⟩
    · have hxr : x = r := hs.eq_of_id hx h.mem hid
      subst hxr
      refine ⟨hk, fun _ => h.active, ?_⟩
      intro hc
      exact absurd h.active (by rw [Run.not_active_of_completed hc]; simp)
  tasks := h.tasks.mono fun _ _ _ hx => hx.1
  missions := by
    rw [h.missions]
    exact Updated.refl fun m _ => Mission.Kept.refl m
  agents := h.agents.mono fun _ _ _ ha => ha.1
  task_dependencies := h.task_dependencies

theorem Agent.release_kept (a : Agent) : a.Kept a.release := ⟨rfl, rfl, rfl⟩

theorem Complete.ages (h : Complete s t r) : Ages s t where
  runs := by
    refine h.runs.mono ?_
    rintro x hx x' ⟨hk, hself, hother⟩
    by_cases hid : x.id = r.id
    · refine ⟨hk, ?_, fun _ => hself hid⟩
      rw [Run.not_active_of_completed (hself hid)]
      simp
    · exact ⟨hk, by rw [Run.active_congr (hother hid)]; exact id, fun hc => (hother hid).trans hc⟩
  tasks := h.tasks.mono fun _ _ _ hx => hx.1
  missions := h.missions.mono fun _ _ _ hm => hm.1
  agents := by
    refine h.agents.mono ?_
    rintro a - a' ⟨hself, hother⟩
    by_cases hid : a.id = r.agent_id
    · rw [hself hid]
      exact a.release_kept
    · rw [hother hid]
      exact Agent.Kept.refl a
  task_dependencies := h.task_dependencies

theorem Stop.ages (hs : Life s) (h : Stop s t r) : Ages s t where
  runs := by
    refine h.runs.mono ?_
    rintro x hx x' ⟨hk, hself, hother⟩
    by_cases hid : x.id = r.id
    · have hxr : x = r := hs.eq_of_id hx h.mem hid
      subst hxr
      refine ⟨hk, fun _ => h.active, ?_⟩
      intro hc
      exact absurd h.active (by rw [Run.not_active_of_completed hc]; simp)
    · exact ⟨hk, by rw [Run.active_congr (hother hid)]; exact id, fun hc => (hother hid).trans hc⟩
  tasks := h.tasks.mono fun _ _ _ hx => hx.1
  missions := h.missions.mono fun _ _ _ hm => hm.1
  agents := by
    refine h.agents.mono ?_
    rintro a - a' ⟨rfl | ⟨-, rfl⟩, -⟩
    · exact Agent.Kept.refl a'
    · exact a.release_kept
  task_dependencies := h.task_dependencies

theorem Lapse.ages (h : Lapse s t r) : Ages s t where
  runs := by
    rw [h.runs]
    exact Updated.refl fun x _ => ⟨Run.Kept.refl x, id, id⟩
  tasks := h.tasks.mono fun _ _ _ hx => hx.1
  missions := h.missions.mono fun _ _ _ hm => hm.1
  agents := by
    refine h.agents.mono ?_
    rintro a - a' (rfl | ⟨-, rfl⟩)
    · exact Agent.Kept.refl a'
    · exact a.release_kept
  task_dependencies := h.task_dependencies

namespace Ages

/-- References point at rows that are still there. -/
theorem wellFormed (h : Ages s t) (hs : WellFormed s) : WellFormed t where
  runs_keyed := h.runs.keyed hs.runs_keyed fun _ _ hx => hx.1.id
  tasks_keyed := h.tasks.keyed hs.tasks_keyed fun _ _ hx => hx.id
  missions_keyed := h.missions.keyed hs.missions_keyed fun _ _ hm => hm.id
  agents_keyed := h.agents.keyed hs.agents_keyed fun _ _ ha => ha.id
  run_task := by
    intro r' hr'
    obtain ⟨r, hr, hk, -, -⟩ := h.runs.exists_old hr'
    obtain ⟨task, ht, hid, hcorp⟩ := hs.run_task r hr
    obtain ⟨task', ht', hkt⟩ := h.tasks.exists_new ht
    exact ⟨task', ht', by rw [hkt.id, hk.task_id, hid], by rw [hkt.corp_id, hk.corp_id, hcorp]⟩
  run_agent := by
    intro r' hr'
    obtain ⟨r, hr, hk, -, -⟩ := h.runs.exists_old hr'
    obtain ⟨a, ha, hid, hcorp⟩ := hs.run_agent r hr
    obtain ⟨a', ha', hka⟩ := h.agents.exists_new ha
    exact ⟨a', ha', by rw [hka.id, hk.agent_id, hid], by rw [hka.corp_id, hk.corp_id, hcorp]⟩
  task_mission := by
    intro x' hx'
    obtain ⟨x, hx, hk⟩ := h.tasks.exists_old hx'
    obtain ⟨m, hm, hid, hcorp⟩ := hs.task_mission x hx
    obtain ⟨m', hm', hkm⟩ := h.missions.exists_new hm
    exact ⟨m', hm', by rw [hkm.id, hk.mission_id, hid], by rw [hkm.corp_id, hk.corp_id, hcorp]⟩
  task_agent := by
    intro x' hx' agent_id hagent
    obtain ⟨x, hx, hk⟩ := h.tasks.exists_old hx'
    rw [hk.assigned_agent_id] at hagent
    obtain ⟨a, ha, hid, hcorp⟩ := hs.task_agent x hx agent_id hagent
    obtain ⟨a', ha', hka⟩ := h.agents.exists_new ha
    exact ⟨a', ha', by rw [hka.id, hid], by rw [hka.corp_id, hk.corp_id, hcorp]⟩
  dependency_tasks := by
    intro d hd
    rw [h.task_dependencies] at hd
    obtain ⟨⟨x, hx, hxid⟩, ⟨y, hy, hyid⟩⟩ := hs.dependency_tasks d hd
    obtain ⟨x', hx', hkx⟩ := h.tasks.exists_new hx
    obtain ⟨y', hy', hky⟩ := h.tasks.exists_new hy
    exact ⟨⟨x', hx', by rw [hkx.id, hxid]⟩, ⟨y', hy', by rw [hky.id, hyid]⟩⟩

theorem task_exclusive (h : Ages s t) (hs : Life s) :
    UniqueWhere Run.active Run.task_id t.runs :=
  hs.task_exclusive.updated h.runs (fun _ _ hx => hx.1.task_id) fun _ _ _ hx => hx.2.1

theorem agent_exclusive (h : Ages s t) (hs : Life s) :
    UniqueWhere Run.active Run.agent_id t.runs :=
  hs.agent_exclusive.updated h.runs (fun _ _ hx => hx.1.agent_id) fun _ _ _ hx => hx.2.1

/-- A completed run of a task is still one. -/
theorem completed_run (h : Ages s t) {task_id : Uuid}
    (hx : ∃ x ∈ s.runs, x.task_id = task_id ∧ x.status = .completed) :
    ∃ x ∈ t.runs, x.task_id = task_id ∧ x.status = .completed := by
  obtain ⟨x, hx, htask, hc⟩ := hx
  obtain ⟨x', hx', hk, -, hcc⟩ := h.runs.exists_new hx
  exact ⟨x', hx', by rw [hk.task_id, htask], hcc hc⟩

theorem run_ready (h : Ages s t) (hs : Life s) : ∀ r ∈ t.runs, ∀ d ∈ t.task_dependencies,
    d.task_id = r.task_id →
    ∃ x ∈ t.runs, x.task_id = d.depends_on_task_id ∧ x.status = .completed := by
  intro r' hr' d hd htask
  obtain ⟨r, hr, hk, -, -⟩ := h.runs.exists_old hr'
  rw [h.task_dependencies] at hd
  exact h.completed_run (hs.run_ready r hr d hd (by rw [htask, hk.task_id]))

theorem run_origin (h : Ages s t) (hs : Life s) : ∀ r ∈ t.runs, ∀ id,
    r.resumed_from_run_id = some id → ∃ x ∈ t.runs, x.id = id ∧ x.task_id = r.task_id := by
  intro r' hr' id hid
  obtain ⟨r, hr, hk, -, -⟩ := h.runs.exists_old hr'
  rw [hk.resumed_from_run_id] at hid
  obtain ⟨x, hx, hxid, htask⟩ := hs.run_origin r hr id hid
  obtain ⟨x', hx', hkx, -, -⟩ := h.runs.exists_new hx
  exact ⟨x', hx', hkx.id.trans hxid, by rw [hkx.task_id, htask, hk.task_id]⟩

end Ages

/-- The tasks of the runs that have not started stay claimed. -/
theorem run_claimed_of {R : Task → Task → Prop} (hs : Life s) (htasks : Updated R s.tasks t.tasks)
    (hk : ∀ y y', R y y' → y'.id = y.id)
    (hruns : ∀ x' ∈ t.runs, x'.started = false → ∃ x ∈ s.runs, x.Kept x' ∧ x.started = false
      ∧ ∀ y y', R y y' → y.id = x.task_id → y.status = .claimed → y'.status = .claimed) :
    ∀ r ∈ t.runs, r.started = false → ∀ x ∈ t.tasks, x.id = r.task_id → x.status = .claimed := by
  intro x' hx' hstart y' hy' htask
  obtain ⟨x, hx, hkx, hold, hstay⟩ := hruns x' hx' hstart
  obtain ⟨y, hy, hR⟩ := htasks.exists_old hy'
  have hid : y.id = x.task_id := by rw [← hk y y' hR, htask, hkx.task_id]
  exact hstay y y' hR hid (hs.run_claimed x hx hold y hy hid)

/-! ## Completed tasks and missions -/

/-- A move after which no task is newly completed. -/
structure KeepsOpen (s t : Db) : Prop extends Ages s t where
  tasks_open : Updated (fun x x' => x.Kept x' ∧ (x'.status = .completed → x.status = .completed)
    ∧ (x.status = .completed → x'.status = .completed)) s.tasks t.tasks
  missions_open : Updated (fun m m' => m.Kept m'
    ∧ (m'.status = .completed → m.status = .completed)) s.missions t.missions

namespace KeepsOpen

theorem task_settled (h : KeepsOpen s t) (hs : Life s) : ∀ x ∈ t.tasks, x.status = .completed →
    ∀ r ∈ t.runs, r.task_id = x.id → r.active = false := by
  intro x' hx' hc r' hr' htask
  obtain ⟨x, hx, hkx, hopen, -⟩ := h.tasks_open.exists_old hx'
  obtain ⟨r, hr, hkr, hact, -⟩ := h.runs.exists_old hr'
  have hidle := hs.task_settled x hx (hopen hc) r hr (by rw [← hkr.task_id, htask, hkx.id])
  cases ha : r'.active with
  | false => rfl
  | true =>
    rw [hact ha] at hidle
    exact hidle

theorem task_earned (h : KeepsOpen s t) (hs : Life s) : ∀ x ∈ t.tasks, x.status = .completed →
    ∃ r ∈ t.runs, r.task_id = x.id ∧ r.status = .completed := by
  intro x' hx' hc
  obtain ⟨x, hx, hkx, hopen, -⟩ := h.tasks_open.exists_old hx'
  rw [hkx.id]
  exact h.completed_run (hs.task_earned x hx (hopen hc))

theorem mission_settled (h : KeepsOpen s t) (hs : Life s) : ∀ m ∈ t.missions,
    m.status = .completed → ∀ x ∈ t.tasks, x.mission_id = m.id → x.status = .completed := by
  intro m' hm' hc x' hx' hmission
  obtain ⟨m, hm, hkm, hopen⟩ := h.missions_open.exists_old hm'
  obtain ⟨x, hx, hkx, -, hstay⟩ := h.tasks_open.exists_old hx'
  exact hstay (hs.mission_settled m hm (hopen hc) x hx (by rw [← hkx.mission_id, hmission, hkm.id]))

end KeepsOpen

theorem Quiet.keepsOpen (h : Quiet s t) : KeepsOpen s t where
  toAges := h.ages
  tasks_open := by
    refine h.tasks.mono ?_
    rintro x - x' ⟨hk, -, hst⟩
    exact ⟨hk, fun hc => hst.symm.trans hc, fun hc => hst.trans hc⟩
  missions_open := by
    rw [h.missions]
    exact Updated.refl fun m _ => ⟨Mission.Kept.refl m, id⟩

/-- A task whose run is active is neither completed before the move nor after it. -/
theorem tasks_open_of_active (hs : Life s) (hr : r ∈ s.runs) (hactive : r.active = true)
    (h : Updated (fun x x' => x.Kept x' ∧ x'.attempt_count = x.attempt_count
      ∧ (x'.status = x.status ∨ (x.id = r.task_id ∧ x'.status ≠ .completed))) s.tasks t.tasks) :
    Updated (fun x x' => x.Kept x' ∧ (x'.status = .completed → x.status = .completed)
      ∧ (x.status = .completed → x'.status = .completed)) s.tasks t.tasks := by
  refine h.mono ?_
  rintro x hx x' ⟨hk, -, hst | ⟨hid, hopen⟩⟩
  · exact ⟨hk, fun hc => hst.symm.trans hc, fun hc => hst.trans hc⟩
  · exact ⟨hk, fun hc => absurd hc hopen, fun hc => absurd hc (hs.task_open hr hactive hx hid)⟩

/-- A mission that is written to something else than `completed` is not newly completed. -/
theorem missions_open_of_write
    (h : Updated (fun m m' => m.Kept m' ∧ (m'.status = m.status ∨ m'.status ≠ .completed))
      s.missions t.missions) :
    Updated (fun m m' => m.Kept m' ∧ (m'.status = .completed → m.status = .completed))
      s.missions t.missions := by
  refine h.mono ?_
  rintro m - m' ⟨hk, hst | hopen⟩
  · exact ⟨hk, fun hc => hst.symm.trans hc⟩
  · exact ⟨hk, fun hc => absurd hc hopen⟩

theorem Work.keepsOpen (hs : Life s) (h : Work s t r) : KeepsOpen s t where
  toAges := h.ages hs
  tasks_open := by
    refine tasks_open_of_active hs h.mem h.active (h.tasks.mono ?_)
    rintro x - x' ⟨hk, hattempt, hst | ⟨hid, hopen, -⟩⟩
    · exact ⟨hk, hattempt, Or.inl hst⟩
    · exact ⟨hk, hattempt, Or.inr ⟨hid, hopen⟩⟩
  missions_open := by
    rw [h.missions]
    exact Updated.refl fun m _ => ⟨Mission.Kept.refl m, id⟩

theorem Stop.keepsOpen (hs : Life s) (h : Stop s t r) : KeepsOpen s t where
  toAges := h.ages hs
  tasks_open := tasks_open_of_active hs h.mem h.active h.tasks
  missions_open := missions_open_of_write h.missions

theorem Lapse.keepsOpen (h : Lapse s t r) : KeepsOpen s t where
  toAges := h.ages
  tasks_open := by
    refine h.tasks.mono ?_
    rintro x - x' ⟨hk, -, hst | ⟨hold, hnew⟩⟩
    · exact ⟨hk, fun hc => hst.symm.trans hc, fun hc => hst.trans hc⟩
    · refine ⟨hk, fun hc => ?_, fun hc => ?_⟩
      · rw [hnew] at hc
        cases hc
      · rw [hold] at hc
        cases hc
  missions_open := missions_open_of_write h.missions

/-! ## Each move -/

theorem Quiet.life (hs : Life s) (h : Quiet s t) : Life t where
  toWellFormed := h.ages.wellFormed hs.toWellFormed
  task_exclusive := h.ages.task_exclusive hs
  agent_exclusive := h.ages.agent_exclusive hs
  task_settled := h.keepsOpen.task_settled hs
  task_earned := h.keepsOpen.task_earned hs
  mission_settled := h.keepsOpen.mission_settled hs
  agent_holds := by
    intro a ha id hid
    rw [h.agents] at ha
    obtain ⟨x, hx, hxid, hagent, hactive⟩ := hs.agent_holds a ha id hid
    obtain ⟨x', hx', hk, hst⟩ := h.runs.exists_new hx
    exact ⟨x', hx', by rw [hk.id, hxid], by rw [hk.agent_id, hagent],
      by rw [Run.active_congr hst, hactive]⟩
  run_held := by
    intro x' hx' hstart a ha hagent
    rw [h.agents] at ha
    obtain ⟨x, hx, hk, hst⟩ := h.runs.exists_old hx'
    rw [Run.started_congr hst] at hstart
    rw [hs.run_held x hx hstart a ha (by rw [hagent, hk.agent_id]), hk.id]
  run_ready := h.ages.run_ready hs
  run_claimed := by
    refine run_claimed_of hs h.tasks (fun _ _ hR => hR.1.id) fun x' hx' hstart => ?_
    obtain ⟨x, hx, hk, hst⟩ := h.runs.exists_old hx'
    refine ⟨x, hx, hk, (Run.started_congr hst).symm.trans hstart, ?_⟩
    rintro y y' ⟨-, -, hsame⟩ - hclaimed
    exact hsame.trans hclaimed
  run_origin := h.ages.run_origin hs

theorem Work.life (hs : Life s) (h : Work s t r) : Life t where
  toWellFormed := (h.ages hs).wellFormed hs.toWellFormed
  task_exclusive := (h.ages hs).task_exclusive hs
  agent_exclusive := (h.ages hs).agent_exclusive hs
  task_settled := (h.keepsOpen hs).task_settled hs
  task_earned := (h.keepsOpen hs).task_earned hs
  mission_settled := (h.keepsOpen hs).mission_settled hs
  agent_holds := by
    intro a' ha' id hid
    obtain ⟨a, ha, hka, hcase⟩ := h.agents.exists_old ha'
    have hold : a.current_run_id = some id := by
      rcases hcase with rfl | ⟨-, hsame | ⟨hnone, -⟩⟩
      · exact hid
      · rw [← hsame, hid]
      · rw [hnone] at hid
        cases hid
    obtain ⟨x, hx, hxid, hagent, hactive⟩ := hs.agent_holds a ha id hold
    obtain ⟨x', hx', hk, hst⟩ := h.runs.exists_new hx
    refine ⟨x', hx', by rw [hk.id, hxid], by rw [hk.agent_id, hagent, hka.id], ?_⟩
    rcases hst with hst | ⟨-, hact, -⟩
    · rw [Run.active_congr hst, hactive]
    · exact hact
  run_held := by
    intro x' hx' hstart a' ha' hagent
    obtain ⟨x, hx, hk, hst⟩ := h.runs.exists_old hx'
    obtain ⟨a, ha, hka, hcase⟩ := h.agents.exists_old ha'
    rcases hst with hst | ⟨-, -, hst⟩
    · rw [Run.started_congr hst] at hstart
      have hax : a.id = x.agent_id := by rw [← hka.id, hagent, hk.agent_id]
      have hheld := hs.run_held x hx hstart a ha hax
      rcases hcase with rfl | ⟨har, hsame | ⟨-, hstarted⟩⟩
      · rw [hheld, hk.id]
      · rw [hsame, hheld, hk.id]
      · -- The only active run of a detached agent is the one that made the move.
        have hxr : x = r := hs.eq_of_agent hx h.mem (Run.active_of_not_started hstart) h.active
          (by rw [← hax, har])
        have := hstarted x' hx' (by rw [hk.id, hxr])
        rw [Run.started_congr hst, hstart] at this
        cases this
    · rw [hstart] at hst
      cases hst
  run_ready := (h.ages hs).run_ready hs
  run_claimed := by
    refine run_claimed_of hs h.tasks (fun _ _ hR => hR.1.id) fun x' hx' hstart => ?_
    obtain ⟨x, hx, hk, hst | ⟨-, -, hstarted⟩⟩ := h.runs.exists_old hx'
    · have hold : x.started = false := (Run.started_congr hst).symm.trans hstart
      refine ⟨x, hx, hk, hold, ?_⟩
      rintro y y' ⟨-, -, hsame | ⟨hid, -, hstarts⟩⟩ htask hclaimed
      · exact hsame.trans hclaimed
      · -- The reporting run is the one that has not started.
        have hxr : x = r := hs.eq_of_task hx h.mem (Run.active_of_not_started hold) h.active
          (htask.symm.trans hid)
        have hnow := hstarts hclaimed x' hx' (hk.id.trans (congrArg Run.id hxr))
        rw [hnow] at hstart
        cases hstart
    · rw [hstarted] at hstart
      cases hstart
  run_origin := (h.ages hs).run_origin hs

theorem Complete.life (hs : Life s) (h : Complete s t r) : Life t where
  toWellFormed := h.ages.wellFormed hs.toWellFormed
  task_exclusive := h.ages.task_exclusive hs
  agent_exclusive := h.ages.agent_exclusive hs
  task_settled := by
    intro x' hx' hc y' hy' htask
    obtain ⟨x, hx, hkx, -, -, hother⟩ := h.tasks.exists_old hx'
    obtain ⟨y, hy, hky, hself, hrest⟩ := h.runs.exists_old hy'
    by_cases hyr : y.id = r.id
    · exact Run.not_active_of_completed (hself hyr)
    rw [Run.active_congr (hrest hyr)]
    have hyx : y.task_id = x.id := by rw [← hky.task_id, htask, hkx.id]
    cases hact : y.active with
    | false => rfl
    | true =>
      by_cases hxr : x.id = r.task_id
      · exact absurd (congrArg Run.id (hs.eq_of_task hy h.mem hact h.active (hyx.trans hxr))) hyr
      · have hxc : x.status = .completed := by
          rcases hother hxr with hst | ⟨-, hready⟩
          · rw [← hst, hc]
          · rw [hready] at hc
            cases hc
        have := hs.task_settled x hx hxc y hy hyx
        rw [hact] at this
        cases this
  task_earned := by
    intro x' hx' hc
    obtain ⟨x, hx, hkx, -, -, hother⟩ := h.tasks.exists_old hx'
    by_cases hxr : x.id = r.task_id
    · obtain ⟨r', hr', hkr, hself, -⟩ := h.runs.exists_new h.mem
      exact ⟨r', hr', by rw [hkr.task_id, hkx.id, hxr], hself rfl⟩
    · rcases hother hxr with hst | ⟨-, hready⟩
      · rw [hkx.id]
        exact h.ages.completed_run (hs.task_earned x hx (by rw [← hst, hc]))
      · rw [hready] at hc
        cases hc
  mission_settled := by
    intro m' hm' hc x' hx' hmission
    obtain ⟨m, hm, hkm, hcase⟩ := h.missions.exists_old hm'
    obtain ⟨x, hx, hkx, -, hself, hother⟩ := h.tasks.exists_old hx'
    rcases hcase with hst | hrun | ⟨-, hall⟩
    · by_cases hxr : x.id = r.task_id
      · exact hself hxr
      · have hxc := hs.mission_settled m hm (by rw [← hst, hc]) x hx
          (by rw [← hkx.mission_id, hmission, hkm.id])
        rcases hother hxr with hsame | ⟨hpend, -⟩
        · rw [hsame, hxc]
        · rw [hpend] at hxc
          cases hxc
    · rw [hrun] at hc
      cases hc
    · exact hall x' hx' (by rw [hmission, hkm.id])
  agent_holds := by
    intro a' ha' id hid
    obtain ⟨a, ha, hself, hother⟩ := h.agents.exists_old ha'
    by_cases har : a.id = r.agent_id
    · rw [hself har] at hid
      cases hid
    · obtain rfl := hother har
      obtain ⟨x, hx, hxid, hagent, hactive⟩ := hs.agent_holds a' ha id hid
      obtain ⟨x', hx', hk, -, hrest⟩ := h.runs.exists_new hx
      have hxr : x.id ≠ r.id := by
        intro he
        exact har (by rw [← hagent, hs.eq_of_id hx h.mem he])
      exact ⟨x', hx', by rw [hk.id, hxid], by rw [hk.agent_id, hagent],
        by rw [Run.active_congr (hrest hxr), hactive]⟩
  run_held := by
    intro x' hx' hstart a' ha' hagent
    obtain ⟨x, hx, hk, hselfx, hrest⟩ := h.runs.exists_old hx'
    obtain ⟨a, ha, hself, hother⟩ := h.agents.exists_old ha'
    have hxr : x.id ≠ r.id := by
      intro he
      rw [Run.started, hselfx he] at hstart
      cases hstart
    rw [Run.started_congr (hrest hxr)] at hstart
    by_cases har : a.id = r.agent_id
    · have hax : a.id = x.agent_id := by
        rw [← hk.agent_id, ← hagent, hself har]
        rfl
      have := hs.eq_of_agent hx h.mem (Run.active_of_not_started hstart) h.active
        (by rw [← hax, har])
      exact absurd (congrArg Run.id this) hxr
    · obtain rfl := hother har
      rw [hs.run_held x hx hstart a' ha (by rw [hagent, hk.agent_id]), hk.id]
  run_ready := h.ages.run_ready hs
  run_claimed := by
    refine run_claimed_of hs h.tasks (fun _ _ hR => hR.1.id) fun x' hx' hstart => ?_
    obtain ⟨x, hx, hk, hself, hrest⟩ := h.runs.exists_old hx'
    have hxr : x.id ≠ r.id := by
      intro he
      rw [Run.started, hself he] at hstart
      cases hstart
    have hold : x.started = false := (Run.started_congr (hrest hxr)).symm.trans hstart
    refine ⟨x, hx, hk, hold, ?_⟩
    rintro y y' ⟨-, -, -, hother⟩ htask hclaimed
    have hyr : y.id ≠ r.task_id := by
      intro he
      have hrun : x = r := hs.eq_of_task hx h.mem (Run.active_of_not_started hold) h.active
        (htask.symm.trans he)
      exact hxr (congrArg Run.id hrun)
    rcases hother hyr with hsame | ⟨hpending, -⟩
    · exact hsame.trans hclaimed
    · rw [hpending] at hclaimed
      cases hclaimed
  run_origin := h.ages.run_origin hs

theorem Stop.life (hs : Life s) (h : Stop s t r) : Life t where
  toWellFormed := (h.ages hs).wellFormed hs.toWellFormed
  task_exclusive := (h.ages hs).task_exclusive hs
  agent_exclusive := (h.ages hs).agent_exclusive hs
  task_settled := (h.keepsOpen hs).task_settled hs
  task_earned := (h.keepsOpen hs).task_earned hs
  mission_settled := (h.keepsOpen hs).mission_settled hs
  agent_holds := by
    intro a' ha' id hid
    obtain ⟨a, ha, hcase, hheld⟩ := h.agents.exists_old ha'
    rcases hcase with rfl | ⟨-, rfl⟩
    · obtain ⟨x, hx, hxid, hagent, hactive⟩ := hs.agent_holds a' ha id hid
      obtain ⟨x', hx', hk, -, hrest⟩ := h.runs.exists_new hx
      have hxr : x.id ≠ r.id := by
        intro he
        have hrel := hheld (by rw [hid, ← hxid, he])
          (by rw [← hagent, hs.eq_of_id hx h.mem he])
        rw [hrel] at hid
        cases hid
      exact ⟨x', hx', by rw [hk.id, hxid], by rw [hk.agent_id, hagent],
        by rw [Run.active_congr (hrest hxr), hactive]⟩
    · cases hid
  run_held := by
    intro x' hx' hstart a' ha' hagent
    obtain ⟨x, hx, hk, hselfx, hrest⟩ := h.runs.exists_old hx'
    obtain ⟨a, ha, hcase, -⟩ := h.agents.exists_old ha'
    have hxr : x.id ≠ r.id := by
      intro he
      have := Run.active_of_not_started hstart
      rw [(hselfx he).1] at this
      cases this
    rw [Run.started_congr (hrest hxr)] at hstart
    rcases hcase with rfl | ⟨har, rfl⟩
    · rw [hs.run_held x hx hstart a' ha (by rw [hagent, hk.agent_id]), hk.id]
    · have hax : a.id = x.agent_id := by
        rw [← hk.agent_id, ← hagent]
        rfl
      have := hs.eq_of_agent hx h.mem (Run.active_of_not_started hstart) h.active
        (by rw [← hax, har])
      exact absurd (congrArg Run.id this) hxr
  run_ready := (h.ages hs).run_ready hs
  run_claimed := by
    refine run_claimed_of hs h.tasks (fun _ _ hR => hR.1.id) fun x' hx' hstart => ?_
    obtain ⟨x, hx, hk, hself, hrest⟩ := h.runs.exists_old hx'
    have hxr : x.id ≠ r.id := by
      intro he
      have hactive := Run.active_of_not_started hstart
      rw [(hself he).1] at hactive
      cases hactive
    have hold : x.started = false := (Run.started_congr (hrest hxr)).symm.trans hstart
    refine ⟨x, hx, hk, hold, ?_⟩
    rintro y y' ⟨-, -, hsame | ⟨hid, -⟩⟩ htask hclaimed
    · exact hsame.trans hclaimed
    · have hrun : x = r := hs.eq_of_task hx h.mem (Run.active_of_not_started hold) h.active
        (htask.symm.trans hid)
      exact absurd (congrArg Run.id hrun) hxr
  run_origin := (h.ages hs).run_origin hs

theorem Lapse.life (hs : Life s) (h : Lapse s t r) : Life t where
  toWellFormed := h.ages.wellFormed hs.toWellFormed
  task_exclusive := h.ages.task_exclusive hs
  agent_exclusive := h.ages.agent_exclusive hs
  task_settled := h.keepsOpen.task_settled hs
  task_earned := h.keepsOpen.task_earned hs
  mission_settled := h.keepsOpen.mission_settled hs
  agent_holds := by
    intro a' ha' id hid
    obtain ⟨a, ha, rfl | ⟨-, rfl⟩⟩ := h.agents.exists_old ha'
    · rw [h.runs]
      exact hs.agent_holds a' ha id hid
    · cases hid
  run_held := by
    intro x hx hstart a' ha' hagent
    rw [h.runs] at hx
    obtain ⟨a, ha, rfl | ⟨hcur, rfl⟩⟩ := h.agents.exists_old ha'
    · exact hs.run_held x hx hstart a' ha hagent
    · -- A held run that has started is not the one that has not.
      have hheld := hs.run_held x hx hstart a ha hagent
      rw [hcur, Option.some.injEq] at hheld
      rw [hs.eq_of_id hx h.mem hheld.symm, h.started] at hstart
      cases hstart
  run_ready := h.ages.run_ready hs
  run_claimed := by
    refine run_claimed_of hs h.tasks (fun _ _ hR => hR.1.id) fun x hx hstart => ?_
    rw [h.runs] at hx
    refine ⟨x, hx, Run.Kept.refl x, hstart, ?_⟩
    rintro y y' ⟨-, -, hsame | ⟨hwaiting, -⟩⟩ - hclaimed
    · exact hsame.trans hclaimed
    · rw [hwaiting] at hclaimed
      cases hclaimed
  run_origin := h.ages.run_origin hs

/-! ### Admission -/

namespace Admit

variable {task : Task}

theorem active (h : Admit s t r task) : r.active = true := by
  rw [Run.active, h.status]
  rfl

theorem mem_runs (h : Admit s t r task) {x : Run} : x ∈ t.runs ↔ x ∈ s.runs ∨ x = r := by
  rw [h.runs, List.mem_append, List.mem_singleton]

theorem wellFormed (hs : WellFormed s) (h : Admit s t r task) : WellFormed t where
  runs_keyed := by
    rw [h.runs]
    exact hs.runs_keyed.append_singleton h.fresh
  tasks_keyed := h.tasks.keyed hs.tasks_keyed fun _ _ hx => hx.1.id
  missions_keyed := h.missions.keyed hs.missions_keyed fun _ _ hm => hm.1.id
  agents_keyed := h.agents.keyed hs.agents_keyed fun _ _ ha => ha.1.id
  run_task := by
    intro x hx
    obtain ⟨y, hy, hid, hcorp⟩ : ∃ y ∈ s.tasks, y.id = x.task_id ∧ y.corp_id = x.corp_id := by
      rcases h.mem_runs.mp hx with hx | rfl
      · exact hs.run_task x hx
      · exact ⟨task, h.task_mem, h.task_id, h.task_corp⟩
    obtain ⟨y', hy', hk, -⟩ := h.tasks.exists_new hy
    exact ⟨y', hy', by rw [hk.id, hid], by rw [hk.corp_id, hcorp]⟩
  run_agent := by
    intro x hx
    obtain ⟨a, ha, hid, hcorp⟩ : ∃ a ∈ s.agents, a.id = x.agent_id ∧ a.corp_id = x.corp_id := by
      rcases h.mem_runs.mp hx with hx | rfl
      · exact hs.run_agent x hx
      · exact h.agent
    obtain ⟨a', ha', hk, -⟩ := h.agents.exists_new ha
    exact ⟨a', ha', by rw [hk.id, hid], by rw [hk.corp_id, hcorp]⟩
  task_mission := by
    intro x' hx'
    obtain ⟨x, hx, hk, -⟩ := h.tasks.exists_old hx'
    obtain ⟨m, hm, hid, hcorp⟩ := hs.task_mission x hx
    obtain ⟨m', hm', hkm, -⟩ := h.missions.exists_new hm
    exact ⟨m', hm', by rw [hkm.id, hk.mission_id, hid], by rw [hkm.corp_id, hk.corp_id, hcorp]⟩
  task_agent := by
    intro x' hx' agent_id hagent
    obtain ⟨x, hx, hk, -⟩ := h.tasks.exists_old hx'
    rw [hk.assigned_agent_id] at hagent
    obtain ⟨a, ha, hid, hcorp⟩ := hs.task_agent x hx agent_id hagent
    obtain ⟨a', ha', hka, -⟩ := h.agents.exists_new ha
    exact ⟨a', ha', by rw [hka.id, hid], by rw [hka.corp_id, hk.corp_id, hcorp]⟩
  dependency_tasks := by
    intro d hd
    rw [h.task_dependencies] at hd
    obtain ⟨⟨x, hx, hxid⟩, ⟨y, hy, hyid⟩⟩ := hs.dependency_tasks d hd
    obtain ⟨x', hx', hkx, -⟩ := h.tasks.exists_new hx
    obtain ⟨y', hy', hky, -⟩ := h.tasks.exists_new hy
    exact ⟨⟨x', hx', by rw [hkx.id, hxid]⟩, ⟨y', hy', by rw [hky.id, hyid]⟩⟩

/-- A task that is completed after an admission is not the one it is for. -/
theorem task_of_completed (h : Admit s t r task) {x' : Task} (hx' : x' ∈ t.tasks)
    (hc : x'.status = .completed) : x' ∈ s.tasks ∧ x'.id ≠ r.task_id := by
  obtain ⟨x, hx, hk, -, hself, hother⟩ := h.tasks.exists_old hx'
  by_cases hid : x.id = r.task_id
  · rw [hself hid] at hc
    cases hc
  · obtain rfl := hother hid
    exact ⟨hx, hid⟩

theorem life (hs : Life s) (h : Admit s t r task) : Life t where
  toWellFormed := h.wellFormed hs.toWellFormed
  task_exclusive := by
    rw [h.runs]
    refine hs.task_exclusive.append_singleton fun _ x hx hact he => ?_
    rw [h.task_idle x hx he] at hact
    cases hact
  agent_exclusive := by
    rw [h.runs]
    refine hs.agent_exclusive.append_singleton fun _ x hx hact he => ?_
    rw [h.agent_idle x hx he] at hact
    cases hact
  task_settled := by
    intro x hx hc y hy htask
    obtain ⟨hx, hxr⟩ := h.task_of_completed hx hc
    rcases h.mem_runs.mp hy with hy | rfl
    · exact hs.task_settled x hx hc y hy htask
    · exact absurd htask.symm hxr
  task_earned := by
    intro x hx hc
    obtain ⟨hx, -⟩ := h.task_of_completed hx hc
    obtain ⟨y, hy, hyt, hyc⟩ := hs.task_earned x hx hc
    exact ⟨y, h.mem_runs.mpr (Or.inl hy), hyt, hyc⟩
  mission_settled := by
    intro m' hm' hc x' hx' hmission
    obtain ⟨m, hm, hkm, hst, hself⟩ := h.missions.exists_old hm'
    obtain ⟨x, hx, hkx, -, -, hother⟩ := h.tasks.exists_old hx'
    have hmt : m.id ≠ task.mission_id := by
      intro he
      rw [hself he] at hc
      cases hc
    have hmc : m.status = .completed := by
      rcases hst with hst | hst
      · rw [← hst, hc]
      · rw [hst] at hc
        cases hc
    have hxm : x.mission_id = m.id := by rw [← hkx.mission_id, hmission, hkm.id]
    have hxr : x.id ≠ r.task_id := by
      intro he
      -- The admitted task belongs to a mission that is now running.
      have : x = task := hs.tasks_keyed.eq_of_mem hx h.task_mem (by rw [he, h.task_id])
      exact hmt (by rw [← hxm, this])
    rw [hother hxr]
    exact hs.mission_settled m hm hmc x hx hxm
  agent_holds := by
    intro a' ha' id hid
    obtain ⟨a, ha, hka, hself, hother⟩ := h.agents.exists_old ha'
    by_cases har : a.id = r.agent_id
    · rw [hself har, Option.some.injEq] at hid
      exact ⟨r, h.mem_runs.mpr (Or.inr rfl), hid, by rw [hka.id, har], h.active⟩
    · obtain rfl := hother har
      obtain ⟨x, hx, hrest⟩ := hs.agent_holds a' ha id hid
      exact ⟨x, h.mem_runs.mpr (Or.inl hx), hrest⟩
  run_held := by
    intro x hx hstart a' ha' hagent
    obtain ⟨a, ha, hka, hself, hother⟩ := h.agents.exists_old ha'
    rcases h.mem_runs.mp hx with hx | rfl
    · have har : a.id ≠ r.agent_id := by
        intro he
        have := h.agent_idle x hx (by rw [← hagent, hka.id, he])
        rw [Run.active_of_not_started hstart] at this
        cases this
      obtain rfl := hother har
      exact hs.run_held x hx hstart a' ha hagent
    · exact hself (by rw [← hka.id, hagent])
  run_ready := by
    intro x hx d hd htask
    rw [h.task_dependencies] at hd
    have hdone : ∃ y ∈ s.runs, y.task_id = d.depends_on_task_id ∧ y.status = .completed := by
      rcases h.mem_runs.mp hx with hx | rfl
      · exact hs.run_ready x hx d hd htask
      · rcases h.ready with hready | ⟨y, hy, hyt⟩
        · obtain ⟨-, p, hp, hpid⟩ := hs.dependency_tasks d hd
          obtain ⟨y, hy, hyt, hyc⟩ := hs.task_earned p hp (hready d hd htask p hp hpid)
          exact ⟨y, hy, by rw [hyt, hpid], hyc⟩
        · exact hs.run_ready y hy d hd (by rw [htask, hyt])
    obtain ⟨y, hy, hrest⟩ := hdone
    exact ⟨y, h.mem_runs.mpr (Or.inl hy), hrest⟩
  run_claimed := by
    intro x hx hstart y' hy' htask
    obtain ⟨y, hy, hk, -, hself, hother⟩ := h.tasks.exists_old hy'
    rcases h.mem_runs.mp hx with hx | rfl
    · have hyr : y.id ≠ r.task_id := by
        intro he
        have hidle := h.task_idle x hx (by rw [← htask, hk.id, he])
        rw [Run.active_of_not_started hstart] at hidle
        cases hidle
      obtain rfl := hother hyr
      exact hs.run_claimed x hx hstart y' hy htask
    · exact hself (by rw [← hk.id, htask])
  run_origin := by
    intro x hx id hid
    have hold : ∃ y ∈ s.runs, y.id = id ∧ y.task_id = x.task_id := by
      rcases h.mem_runs.mp hx with hx | rfl
      · exact hs.run_origin x hx id hid
      · exact h.origin id hid
    obtain ⟨y, hy, hrest⟩ := hold
    exact ⟨y, h.mem_runs.mpr (Or.inl hy), hrest⟩

end Admit

/-! ### Planning -/

namespace Plan

variable {mission : Mission} {tasks : List Task} {agents : List Agent}
  {dependencies : List TaskDependency}

theorem mem_tasks (h : Plan s t mission tasks agents dependencies) {x : Task} :
    x ∈ t.tasks ↔ x ∈ s.tasks ∨ x ∈ tasks := by
  rw [h.tasks_eq, List.mem_append]

theorem mem_agents (h : Plan s t mission tasks agents dependencies) {a : Agent} :
    a ∈ t.agents ↔ a ∈ s.agents ∨ a ∈ agents := by
  rw [h.agents_eq, List.mem_append]

theorem mem_missions (h : Plan s t mission tasks agents dependencies) {m : Mission} :
    m ∈ t.missions ↔ m ∈ s.missions ∨ m = mission := by
  rw [h.missions, List.mem_append, List.mem_singleton]

/-- A completed task was there before. -/
theorem old_of_completed (h : Plan s t mission tasks agents dependencies) {x : Task}
    (hx : x ∈ t.tasks) (hc : x.status = .completed) : x ∈ s.tasks := by
  rcases h.mem_tasks.mp hx with hx | hx
  · exact hx
  · exact absurd hc (h.tasks_new x hx).2.2.1

theorem wellFormed (hs : WellFormed s) (h : Plan s t mission tasks agents dependencies) :
    WellFormed t where
  runs_keyed := by
    rw [h.runs]
    exact hs.runs_keyed
  tasks_keyed := by
    rw [h.tasks_eq]
    exact hs.tasks_keyed.append h.tasks_keyed h.tasks_fresh
  missions_keyed := by
    rw [h.missions]
    exact hs.missions_keyed.append_singleton h.mission_fresh
  agents_keyed := by
    rw [h.agents_eq]
    exact hs.agents_keyed.append h.agents_keyed h.agents_fresh
  run_task := by
    intro x hx
    rw [h.runs] at hx
    obtain ⟨y, hy, hrest⟩ := hs.run_task x hx
    exact ⟨y, h.mem_tasks.mpr (Or.inl hy), hrest⟩
  run_agent := by
    intro x hx
    rw [h.runs] at hx
    obtain ⟨a, ha, hrest⟩ := hs.run_agent x hx
    exact ⟨a, h.mem_agents.mpr (Or.inl ha), hrest⟩
  task_mission := by
    intro x hx
    rcases h.mem_tasks.mp hx with hx | hx
    · obtain ⟨m, hm, hrest⟩ := hs.task_mission x hx
      exact ⟨m, h.mem_missions.mpr (Or.inl hm), hrest⟩
    · obtain ⟨hid, hcorp, -⟩ := h.tasks_new x hx
      exact ⟨mission, h.mem_missions.mpr (Or.inr rfl), hid.symm, hcorp.symm⟩
  task_agent := by
    intro x hx agent_id hagent
    rcases h.mem_tasks.mp hx with hx | hx
    · obtain ⟨a, ha, hrest⟩ := hs.task_agent x hx agent_id hagent
      exact ⟨a, h.mem_agents.mpr (Or.inl ha), hrest⟩
    · rw [h.agents_eq]
      exact (h.tasks_new x hx).2.2.2 agent_id hagent
  dependency_tasks := by
    intro d hd
    rw [h.dependencies_eq] at hd
    rcases List.mem_append.mp hd with hd | hd
    · obtain ⟨⟨x, hx, hxid⟩, ⟨y, hy, hyid⟩⟩ := hs.dependency_tasks d hd
      exact ⟨⟨x, h.mem_tasks.mpr (Or.inl hx), hxid⟩, ⟨y, h.mem_tasks.mpr (Or.inl hy), hyid⟩⟩
    · obtain ⟨⟨x, hx, hxid⟩, ⟨y, hy, hyid⟩⟩ := h.dependencies_new d hd
      exact ⟨⟨x, h.mem_tasks.mpr (Or.inr hx), hxid⟩, ⟨y, h.mem_tasks.mpr (Or.inr hy), hyid⟩⟩

theorem life (hs : Life s) (h : Plan s t mission tasks agents dependencies) : Life t where
  toWellFormed := h.wellFormed hs.toWellFormed
  task_exclusive := by
    rw [h.runs]
    exact hs.task_exclusive
  agent_exclusive := by
    rw [h.runs]
    exact hs.agent_exclusive
  task_settled := by
    intro x hx hc
    rw [h.runs]
    exact hs.task_settled x (h.old_of_completed hx hc) hc
  task_earned := by
    intro x hx hc
    rw [h.runs]
    exact hs.task_earned x (h.old_of_completed hx hc) hc
  mission_settled := by
    intro m hm hc x hx hmission
    rcases h.mem_missions.mp hm with hm | rfl
    · rcases h.mem_tasks.mp hx with hx | hx
      · exact hs.mission_settled m hm hc x hx hmission
      · exact absurd ((h.tasks_new x hx).1.symm.trans hmission).symm (h.mission_fresh m hm)
    · exact absurd hc h.mission_open
  agent_holds := by
    intro a ha id hid
    rw [h.runs]
    rcases h.mem_agents.mp ha with ha | ha
    · exact hs.agent_holds a ha id hid
    · rw [h.agents_new a ha] at hid
      cases hid
  run_held := by
    intro x hx hstart a ha hagent
    rw [h.runs] at hx
    rcases h.mem_agents.mp ha with ha | ha
    · exact hs.run_held x hx hstart a ha hagent
    · obtain ⟨b, hb, hbid, -⟩ := hs.run_agent x hx
      exact absurd (hbid.trans hagent.symm) (h.agents_fresh b hb a ha)
  run_ready := by
    intro x hx d hd htask
    rw [h.runs] at hx ⊢
    rw [h.dependencies_eq] at hd
    rcases List.mem_append.mp hd with hd | hd
    · exact hs.run_ready x hx d hd htask
    · -- A new dependency is about new tasks, and those have no run yet.
      obtain ⟨y, hy, hyid, -⟩ := hs.run_task x hx
      obtain ⟨⟨z, hz, hzid⟩, -⟩ := h.dependencies_new d hd
      exact absurd (by rw [hyid, hzid, htask]) (h.tasks_fresh y hy z hz)
  run_claimed := by
    intro x hx hstart y hy htask
    rw [h.runs] at hx
    rcases h.mem_tasks.mp hy with hy | hy
    · exact hs.run_claimed x hx hstart y hy htask
    · -- The task of a run is an old one.
      obtain ⟨z, hz, hzid, -⟩ := hs.run_task x hx
      exact absurd (hzid.trans htask.symm) (h.tasks_fresh z hz y hy)
  run_origin := by
    rw [h.runs]
    exact hs.run_origin

end Plan

theorem Turnover.life (hs : Life s) (h : Turnover s t) : Life t := by
  cases h with
  | quiet h => exact h.life hs
  | work r h => exact h.life hs
  | complete r h => exact h.life hs
  | stop r h => exact h.life hs
  | lapse r h => exact h.life hs
  | admission r task h => exact h.life hs

/-- **Every move keeps the lifecycle invariant.** -/
theorem Move.life (hs : Life s) (h : Move s t) : Life t := by
  cases h with
  | turnover h => exact h.life hs
  | plan mission tasks agents dependencies h => exact h.life hs

theorem Moves.life (h : Moves s t) (hs : Life s) : Life t := by
  induction h with
  | refl => exact hs
  | tail _ hm ih => exact hm.life ih

end Crony.Store
