/-
Dispatch failures and lost runners are stops.

A dispatch failure ends a run that never started, so the agent still holds it. The loss of
a runner visits the runs that were active when it began; the loop is a sequence of stops
because ending one run leaves the rows of the others as they were.
-/
import Crony.Lifecycle.Reports
import Crony.Lifecycle.Calm

set_option autoImplicit false

open Crony.Lib

namespace Crony.Store

variable {env : Env} {s t : Db}

/-- The agent of the run is free. -/
def Freed (t : Db) (r : Run) : Prop := ∀ a ∈ t.agents, a.id = r.agent_id → ∃ b :
    Agent, a = b.release

/-- A release by identifier reaches the agent. -/
theorem Freed.of_release {u : Db} {r : Run} (h : t.agents = (u.release_agent r.agent_id).agents) :
    Freed t r := by
  intro a ha hid
  rw [h] at ha
  obtain ⟨b, -, rfl⟩ := mem_updateWhere.mp ha
  have hbid : b.id = r.agent_id := by
    split at hid
    · exact hid
    · exact hid
  exact ⟨b, if_pos (by simp [hbid])⟩

/-! ## `fail_run_before_dispatch` -/

/-- What a failed dispatch writes. -/
theorem fail_dispatch_ok {corp_id : Uuid} {run : Run} {task : Task} {mission : Mission}
    {reason : String} (h : fail_dispatch s corp_id run task mission reason = .ok t) :
    ∃ msgs evs, t = { s with
        runs := updateWhere (fun r => r.id == run.id && r.corp_id == corp_id) (fun r =>
          { r with status := .failed, summary := some reason
                   workspace_detail := some "dispatch_not_started" }) s.runs
        queued_messages := msgs
        tasks := updateWhere (fun t => t.id == task.id && t.corp_id == corp_id) (fun t =>
          { t with status := .failed }) s.tasks
        missions := updateWhere (fun m => m.id == mission.id && m.corp_id == corp_id) (fun m =>
          { m with status := .failed }) s.missions
        agents := updateWhere
          (fun a => a.id == run.agent_id && a.current_run_id == some run.id && a.corp_id == corp_id)
          Agent.release s.agents
        events := evs }
      ∧ Appends Event.Routine s.events evs := by
  unfold fail_dispatch at h
  obtain ⟨evs, rfl, hevs⟩ := record_event_tx_appends h (P := Event.Routine) ⟨rfl, rfl⟩
  exact ⟨_, evs, rfl, hevs⟩

theorem block_undispatched_item_frame {item : Option FactoryWorkItem} {mission : Mission}
    {run_id : Uuid} {reason : String}
    (h : block_undispatched_item s item mission run_id reason = .ok t) :
    FactoryOnly Event.Routine s t := by
  unfold block_undispatched_item at h
  split at h
  · exact FactoryOnly.of_pure h
  · split at h
    · exact FactoryOnly.of_pure h
    · obtain ⟨evs, rfl, hevs⟩ := record_event_tx_appends h (P := Event.Routine) ⟨rfl, rfl⟩
      exact ⟨_, _, evs, rfl, hevs, Bindings.of_items rfl rfl fun _ => ⟨rfl, rfl, rfl⟩⟩

/-- The outcomes of `fail_run_before_dispatch`: nothing but a Factory block, or the failure
of a run that never started. -/
theorem fail_run_before_dispatch_ok {corp_id run_id : Uuid} {reason : String}
    (h : fail_run_before_dispatch s corp_id run_id reason = .ok t) :
    FactoryOnly Event.Routine s t
      ∨ ∃ run task mission text u, Joined s corp_id run_id run task mission
        ∧ task.corp_id = run.corp_id
        ∧ (run.status = .provisioning ∨ run.status = .starting)
        ∧ fail_dispatch s corp_id run task mission text = .ok u
        ∧ FactoryOnly Event.Routine u t := by
  unfold fail_run_before_dispatch at h
  simp only [bind_eq_ok, context_eq_ok] at h
  obtain ⟨⟨run, task, mission⟩, hrow, latest, -, h⟩ := h
  split at h
  · exact Or.inl (FactoryOnly.of_pure h)
  · rename_i hgo
    by_cases hreplay : is_dispatch_replay run task mission = true
    · simp only [hreplay, if_true, ok_bind] at h
      exact Or.inl (block_undispatched_item_frame h)
    · simp only [hreplay, Bool.false_eq_true, if_false, bind_eq_ok] at h
      obtain ⟨u, hu, h⟩ := h
      obtain ⟨hj, hcorp, -⟩ := Db.run_task_mission_scoped_eq_some hrow
      refine Or.inr ⟨run, task, mission, _, u, hj, hcorp, ?_, hu,
        block_undispatched_item_frame h⟩
      by_contra hst
      rw [not_or] at hst
      exact hgo (Or.inr (Or.inr (Or.inr (Or.inr (Or.inr ⟨by simpa using hreplay, hst⟩)))))

/-- An undispatched run is held by its agent. -/
theorem Life.held_of_undispatched (hs : Life s) {run : Run} (hrun : run ∈ s.runs)
    (hst : run.status = .provisioning ∨ run.status = .starting) :
    run.active = true ∧ ∀ a ∈ s.agents, a.id = run.agent_id → a.current_run_id = some run.id := by
  have hstarted : run.started = false := by
    unfold Run.started
    rcases hst with h | h <;> rw [h]
  exact ⟨Run.active_of_not_started hstarted, hs.run_held run hrun hstarted⟩

/-- An undispatched run ends and its agent is free. -/
theorem fail_dispatch_stop (hs : Life s) {corp_id run_id : Uuid} {run : Run} {task : Task}
    {mission : Mission} {text : String} {u : Db} (hj : Joined s corp_id run_id run task mission)
    (hst : run.status = .provisioning ∨ run.status = .starting)
    (h : fail_dispatch s corp_id run task mission text = .ok u)
    (hfactory : FactoryOnly Event.Routine u t) :
    Stop s t run ∧ Freed t run := by
  obtain ⟨hactive, hheld⟩ := hs.held_of_undispatched hj.run_mem hst
  obtain ⟨msgs, evs, rfl, -⟩ := fail_dispatch_ok h
  obtain ⟨items, recs, evs', rfl, -⟩ := hfactory
  have hruns : updateWhere (fun r => r.id == run.id && r.corp_id == corp_id) (fun r : Run =>
      { r with status := .failed, summary := some text
               workspace_detail := some "dispatch_not_started" }) s.runs
      = updateWhere (fun r => r.id == run.id) (fun r : Run =>
      { r with status := .failed, summary := some text
               workspace_detail := some "dispatch_not_started" }) s.runs := by
    unfold updateWhere
    refine List.map_congr_left fun r hr => ?_
    by_cases hid : r.id = run.id
    · obtain rfl := hs.eq_of_id hr hj.run_mem hid
      simp [hj.corp_id]
    · simp [hid]
  refine ⟨Stop.of_writes hj.run_mem hactive hruns rfl rfl rfl rfl ?_ ?_ ?_ ?_ ?_ ?_, ?_⟩
  · intro x
    exact ⟨Run.Kept.of_identity rfl, rfl, by simp⟩
  · intro x hx
    simp only [Bool.and_eq_true, beq_iff_eq] at hx
    rw [hx.1, hj.task_id]
  · intro x
    exact ⟨⟨rfl, rfl, rfl, rfl, rfl, rfl, rfl, rfl⟩, rfl, by simp⟩
  · intro m
    exact ⟨⟨rfl, rfl, rfl, rfl, rfl, rfl, rfl, rfl⟩, by simp⟩
  · intro a _ hp
    simp only [Bool.and_eq_true, beq_iff_eq] at hp
    exact hp.1.1
  · intro a ha hcur hid
    simp [hcur, hid, hs.agent_corp hj.run_mem ha hid, hj.corp_id]
  · intro a ha hid
    obtain ⟨b, hb, rfl⟩ := mem_updateWhere.mp ha
    have hbid : b.id = run.agent_id := by
      split at hid
      · exact hid
      · exact hid
    refine ⟨b, if_pos ?_⟩
    simp [hbid, hheld b hb hbid, hs.agent_corp hj.run_mem hb hbid, hj.corp_id]

theorem fail_dispatch_calm {corp_id : Uuid} {run : Run} {task : Task} {mission : Mission}
    {text : String} (h : fail_dispatch s corp_id run task mission text = .ok t) :
    Calm Event.Routine s t := by
  obtain ⟨msgs, evs, rfl, hevs⟩ := fail_dispatch_ok h
  exact Calm.of_tables rfl (calm_updateWhere fun x => Run.Calm.of_columns rfl rfl (by simp)) hevs

theorem fail_run_before_dispatch_calm {corp_id run_id : Uuid} {reason : String}
    (h : fail_run_before_dispatch s corp_id run_id reason = .ok t) : Calm Event.Routine s t := by
  rcases fail_run_before_dispatch_ok h with hf | ⟨run, task, mission, text, u, -, -, -, hu, hf⟩
  · exact hf.calm
  · exact (fail_dispatch_calm hu).trans hf.calm

theorem fail_run_before_dispatch_move (hs : Life s) {corp_id run_id : Uuid} {reason : String}
    (h : fail_run_before_dispatch s corp_id run_id reason = .ok t) : Turnover s t := by
  rcases fail_run_before_dispatch_ok h with hf | ⟨run, task, mission, text, u, hj, -, hst, hu, hf⟩
  · obtain ⟨items, recs, evs, rfl, -⟩ := hf
    exact .quiet (Quiet.of_same rfl rfl rfl rfl rfl)
  · exact .stop run (fail_dispatch_stop hs hj hst hu hf).1

/-! ## `fail_factory_recovery_before_dispatch` -/

/-- What a failed recovery dispatch writes. -/
theorem fail_recovery_dispatch_ok {corp_id recovery_id : Uuid} {run : Run} {task : Task}
    {mission : Mission} {reason : String}
    (h : fail_recovery_dispatch s corp_id run task mission recovery_id reason = .ok t) :
    FactoryOnly Event.Routine
      (s.fail_recovery_run corp_id run task.id mission.id recovery_id reason)
      t := by
  unfold fail_recovery_dispatch at h
  simp only [bind_eq_ok, append_new_event_tx_ok] at h
  obtain ⟨u, ⟨-, rfl⟩, h⟩ := h
  obtain ⟨items, recs, evs, rfl, hevs, hkept⟩ := reconcile_factory_verification_failure_tx_frame h
  refine ⟨items, recs, evs, rfl, (Appends.one ⟨rfl, rfl⟩).trans (hevs.mono ?_),
    ⟨hkept.items, hkept.recoveries⟩⟩
  rintro e ⟨⟨item, hkey⟩, htype⟩
  exact ⟨by rw [hkey]; rfl, htype⟩

theorem fail_factory_recovery_before_dispatch_ok {corp_id run_id : Uuid} {reason : String}
    (h : fail_factory_recovery_before_dispatch s corp_id run_id reason = .ok t) :
    t = s.settle_recovery_command corp_id run_id
      ∨ ∃ run task mission recovery_id text, Joined s corp_id run_id run task mission
        ∧ (run.status = .provisioning ∨ run.status = .starting)
        ∧ fail_recovery_dispatch s corp_id run task mission recovery_id text = .ok t := by
  unfold fail_factory_recovery_before_dispatch at h
  simp only [bind_eq_ok, context_eq_ok] at h
  obtain ⟨text, -, ⟨run, task, mission⟩, hrow, recovery, -, h⟩ := h
  split at h
  · rw [pure_eq_ok] at h
    exact Or.inl h.symm
  · simp only [bind_eq_ok, ensure_eq_ok] at h
    obtain ⟨_, hst, h⟩ := h
    exact Or.inr ⟨run, task, mission, recovery.id, text, Db.run_task_mission_eq_some hrow, hst, h⟩

theorem fail_recovery_dispatch_stop (hs : Life s) {corp_id run_id recovery_id : Uuid} {run : Run}
    {task : Task} {mission : Mission} {text : String}
    (hj : Joined s corp_id run_id run task mission)
    (hst : run.status = .provisioning ∨ run.status = .starting)
    (h : fail_recovery_dispatch s corp_id run task mission recovery_id text = .ok t) :
    Stop s t run ∧ Freed t run := by
  obtain ⟨hactive, hheld⟩ := hs.held_of_undispatched hj.run_mem hst
  obtain ⟨items, recs, evs, rfl, -⟩ := fail_recovery_dispatch_ok h
  refine ⟨Stop.of_writes hj.run_mem hactive rfl rfl rfl rfl rfl ?_ ?_ ?_ ?_ ?_ ?_, ?_⟩
  · intro x
    exact ⟨Run.Kept.of_identity rfl, rfl, by simp⟩
  · intro x hx
    rw [← hj.task_id]
    simpa using hx
  · intro x
    exact ⟨⟨rfl, rfl, rfl, rfl, rfl, rfl, rfl, rfl⟩, rfl, by simp⟩
  · intro m
    exact ⟨⟨rfl, rfl, rfl, rfl, rfl, rfl, rfl, rfl⟩, by simp⟩
  · intro a _ hp
    simp only [Bool.and_eq_true, beq_iff_eq] at hp
    exact hp.1
  · intro a _ hcur hid
    simp [hcur, hid]
  · intro a ha hid
    obtain ⟨b, hb, rfl⟩ := mem_updateWhere.mp ha
    have hbid : b.id = run.agent_id := by
      split at hid
      · exact hid
      · exact hid
    exact ⟨b, if_pos (by simp [hbid, hheld b hb hbid])⟩

theorem settle_recovery_command_keys (s : Db) (corp_id run_id : Uuid) :
    (s.settle_recovery_command corp_id run_id).breaker_keys = s.breaker_keys :=
  breaker_keys_of_settle rfl fun _ => ⟨rfl, rfl⟩

theorem fail_factory_recovery_before_dispatch_calm {corp_id run_id : Uuid} {reason : String}
    (h : fail_factory_recovery_before_dispatch s corp_id run_id reason = .ok t) :
    Calm Event.Routine s t := by
  rcases fail_factory_recovery_before_dispatch_ok h with
    rfl | ⟨run, task, mission, recovery_id, text, -, -, hf⟩
  · exact ⟨⟨rfl, requests_kept _, approvals_kept _, rfl, rfl, rfl,
      settle_recovery_command_keys s corp_id run_id, Appends.refl⟩,
      Updated.refl fun r _ => Run.Calm.refl r⟩
  · refine Calm.trans ?_ (fail_recovery_dispatch_ok hf).calm
    exact ⟨⟨rfl, requests_kept _, approvals_kept _, rfl, rfl, rfl,
      settle_recovery_command_keys s corp_id run.id, Appends.refl⟩,
      calm_updateWhere fun x => ⟨Run.Same.of_columns rfl, Or.inr (Or.inr rfl), by simp⟩⟩

theorem fail_factory_recovery_before_dispatch_move (hs : Life s) {corp_id run_id : Uuid}
    {reason : String} (h : fail_factory_recovery_before_dispatch s corp_id run_id reason = .ok t) :
    Turnover s t := by
  rcases fail_factory_recovery_before_dispatch_ok h with
    rfl | ⟨run, task, mission, recovery_id, text, hj, hst, hf⟩
  · exact .quiet (Quiet.of_same rfl rfl rfl rfl rfl)
  · exact .stop run (fail_recovery_dispatch_stop hs hj hst hf).1

/-! ## Lost runners -/

/-- What losing one run writes. -/
theorem lose_run_tx_ok {row : LostRow} {reason : String} (hrun : row.run ∈ s.runs)
    (hactive : row.run.active = true) (htask : row.task.id = row.run.task_id)
    (h : lose_run_tx s row reason = .ok t) :
    Stop s t row.run ∧ Freed t row.run ∧ Calm Event.Routine s t
      ∧ ∃ f, t.runs = updateWhere (fun r => r.id == row.run.id) f s.runs := by
  unfold lose_run_tx at h
  simp only [bind_eq_ok] at h
  obtain ⟨u, hu, h⟩ := h
  obtain ⟨evs, rfl, hevs⟩ := record_event_tx_appends h (P := Event.Routine) ⟨rfl, rfl⟩
  unfold end_lost_run at hu
  split at hu
  · rename_i recovery hrec
    refine ⟨terminalize_stop hrun hactive htask hu rfl rfl rfl rfl rfl ?_ ?_,
      Freed.of_release rfl, ?_, ?_⟩
    · intro a _ hp
      simpa using hp
    · intro a _ _ hid
      simpa using hid
    · obtain ⟨hst, note, recs, v, rfl, hfactory⟩ := terminalize_factory_recovery_run_tx_ok hu
      have hroutine : FactoryOnly Event.Routine _ u := hfactory.mono (by
        rintro e ⟨⟨item, hkey⟩, htype⟩
        refine ⟨?_, htype⟩
        rw [hkey]
        unfold loss_cause
        split <;> rfl)
      refine Calm.trans (Calm.trans ?_ hroutine.calm) (Calm.of_events rfl rfl hevs)
      refine ⟨⟨rfl, ?_, approvals_kept _, rfl, rfl, rfl, ?_, Appends.refl⟩, ?_⟩
      · exact Updated.of_updateWhere (fun q _ hq => ⟨rfl, rfl, rfl, rfl, by simp⟩)
          fun q _ _ => VerificationRequest.Kept.refl q
      · exact breaker_keys_of_settle rfl fun _ => ⟨rfl, rfl⟩
      · exact calm_updateWhere fun x =>
          ⟨Run.Same.of_columns rfl, Or.inr (Or.inr rfl), by simp⟩
    · obtain ⟨hst, note, recs, v, rfl, items, recs', evs', rfl, -⟩ :=
        terminalize_factory_recovery_run_tx_ok hu
      exact ⟨_, rfl⟩
  · rw [Except.ok.injEq] at hu
    subst hu
    refine ⟨Stop.of_writes hrun hactive rfl rfl rfl rfl rfl ?_ ?_ ?_ ?_ ?_ ?_,
      Freed.of_release rfl, ?_, ⟨_, rfl⟩⟩
    · intro x
      exact ⟨Run.Kept.of_identity rfl, rfl, by simp⟩
    · intro x hx
      rw [← htask]
      simpa using hx
    · intro x
      exact ⟨⟨rfl, rfl, rfl, rfl, rfl, rfl, rfl, rfl⟩, rfl, by simp⟩
    · intro m
      exact ⟨⟨rfl, rfl, rfl, rfl, rfl, rfl, rfl, rfl⟩, by simp⟩
    · intro a _ hp
      simpa using hp
    · intro a _ _ hid
      simpa using hid
    · exact Calm.of_tables rfl (calm_updateWhere fun x => Run.Calm.of_columns rfl rfl (by simp))
        hevs

/-- A row whose run is still there and active. -/
structure LostRow.Live (s : Db) (row : LostRow) : Prop where
  run_mem : row.run ∈ s.runs
  active : row.run.active = true
  task_id : row.task.id = row.run.task_id

theorem lost_rows_live (hs : Life s) (input : LostRunner) :
    ∀ row ∈ lost_rows s input, row.Live s := by
  intro row hrow
  unfold lost_rows at hrow
  obtain ⟨r, hr, hmap⟩ := List.mem_filterMap.mp hrow
  obtain ⟨⟨run, task, mission⟩, hjoin, rfl⟩ := Option.map_eq_some_iff.mp hmap
  have hj := Db.run_task_mission_eq_some hjoin
  have hr' : r ∈ s.runs.filter _ := (List.mem_insertionSort _).mp hr
  obtain ⟨hmem, hcond⟩ := List.mem_filter.mp hr'
  simp only [Bool.and_eq_true] at hcond
  have hrr : run = r := hs.eq_of_id hj.run_mem hmem hj.run_id
  subst hrr
  exact ⟨hmem, hcond.1.1.1.1.2, hj.task_id⟩

/-- The rows are of different runs. -/
theorem lost_rows_nodup (hs : Life s) (input : LostRunner) :
    ((lost_rows s input).map fun row => row.run.id).Nodup := by
  have hruns : ((lost_runs s input).map Run.id).Nodup := by
    unfold lost_runs
    have hperm := (List.perm_insertionSort
      (fun a b : Run => a.created_at < b.created_at ∨ (a.created_at = b.created_at ∧ a.id ≤ b.id))
      (s.runs.filter fun r => r.runner_id == input.runner_id && r.active
        && (s.run_task_mission_scoped r.corp_id r.id).isSome
        && !input.excluded_run_ids.contains r.id
        && input.created_before.all (fun before => decide (r.created_at ≤ before))
        && !awaits_recovery_command s r)).map Run.id
    exact hperm.nodup_iff.mpr (hs.runs_keyed.sublist (List.filter_sublist.map Run.id))
  unfold lost_rows
  rw [List.map_filterMap]
  refine List.Nodup.sublist ?_ hruns
  -- Each row keeps the identifier of the run it was selected for.
  induction lost_runs s input with
  | nil => simp
  | cons r l ih =>
    rw [List.filterMap_cons, List.map_cons]
    cases hjoin : s.run_task_mission r.corp_id r.id with
    | none => simpa using ih.cons r.id
    | some row =>
      have hj : Joined s r.corp_id r.id row.1 row.2.1 row.2.2 := Db.run_task_mission_eq_some hjoin
      have hid : row.1.id = r.id := hj.run_id
      simpa [hid] using ih.cons_cons r.id

/-- One turn of the loop: nothing, or a run ends and its agent is free. -/
def LossStep (s t : Db) : Prop :=
  t = s ∨ ∃ r, Stop s t r ∧ Freed t r ∧ Calm Event.Routine s t

/-- **The loss of a runner is a sequence of stops.** -/
theorem foldlM_lose_row {now : Int} {reason : String} (rows : List LostRow)
    (hnodup : (rows.map fun row => row.run.id).Nodup) (hlive : ∀ row ∈ rows, row.Live s)
    (h : rows.foldlM (lose_row now reason) s = .ok t) :
    Relation.ReflTransGen LossStep s t := by
  induction rows generalizing s with
  | nil =>
    simp only [List.foldlM_nil, pure_eq_ok] at h
    subst h
    exact Relation.ReflTransGen.refl
  | cons row rows ih =>
    rw [List.map_cons, List.nodup_cons] at hnodup
    simp only [List.foldlM_cons, bind_eq_ok] at h
    obtain ⟨u, hu, h⟩ := h
    unfold lose_row at hu
    simp only [bind_eq_ok] at hu
    obtain ⟨ready, -, hu⟩ := hu
    split at hu
    · rw [pure_eq_ok] at hu
      subst hu
      exact ih hnodup.2 (fun x hx => hlive x (List.mem_cons_of_mem row hx)) h
    · have hrow := hlive row List.mem_cons_self
      obtain ⟨hstop, hfreed, hcalm, f, hruns⟩ :=
        lose_run_tx_ok hrow.run_mem hrow.active hrow.task_id hu
      refine Relation.ReflTransGen.head (Or.inr ⟨row.run, hstop, hfreed, hcalm⟩)
        (ih hnodup.2 ?_ h)
      -- The other rows are untouched.
      intro x hx
      have hx' := hlive x (List.mem_cons_of_mem row hx)
      refine ⟨?_, hx'.active, hx'.task_id⟩
      rw [hruns]
      refine mem_updateWhere.mpr ⟨x.run, hx'.run_mem, if_neg ?_⟩
      rw [beq_iff_eq]
      intro hid
      exact hnodup.1 (hid ▸ List.mem_map_of_mem (f := fun row : LostRow => row.run.id) hx)

theorem mark_runner_runs_lost_tx_steps (hs : Life s) {now : Int} {input : LostRunner}
    (h : mark_runner_runs_lost_tx s now input = .ok t) : Relation.ReflTransGen LossStep s t :=
  foldlM_lose_row (lost_rows s input) (lost_rows_nodup hs input) (lost_rows_live hs input) h

theorem mark_runner_runs_lost_tx_moves (hs : Life s) {now : Int} {input : LostRunner}
    (h : mark_runner_runs_lost_tx s now input = .ok t) : Turnovers s t := by
  have hsteps := mark_runner_runs_lost_tx_steps hs h
  clear h
  induction hsteps with
  | refl => exact Relation.ReflTransGen.refl
  | tail _ hstep ih =>
    rcases hstep with rfl | ⟨r, hstop, -, -⟩
    · exact ih
    · exact ih.tail (.stop r hstop)

theorem mark_runner_runs_lost_tx_calm (hs : Life s) {now : Int} {input : LostRunner}
    (h : mark_runner_runs_lost_tx s now input = .ok t) : Calm Event.Routine s t := by
  have hsteps := mark_runner_runs_lost_tx_steps hs h
  clear h
  induction hsteps with
  | refl => exact Calm.refl
  | tail _ hstep ih =>
    rcases hstep with rfl | ⟨r, -, -, hcalm⟩
    · exact ih
    · exact ih.trans hcalm

end Crony.Store
