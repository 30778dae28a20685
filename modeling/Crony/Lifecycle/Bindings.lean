/-
What work items and recoveries are bound to.

An item is linked to the mission that was planned for it; a recovery names the run it
replaces, the run that replaces it, their task, and the item it is for. None of these
columns is written after the row has them: calls move items and recoveries through their
statuses and bind nothing, apart from the one that materialises a mission and the one that
admits a recovery. A query that finds its row through a binding therefore finds the same
row in every later state.
-/
import Crony.Lifecycle.Reach

set_option autoImplicit false

open Crony.Lib

namespace Crony.Store

variable {env : Env} {s t u : Db}

/-! ## Reports and settlements -/

section Calls

variable {row : RunnerRow} {payload : Json}

theorem terminalize_bindings {corp_id recovery_id run_id task_id mission_id room_id : Uuid}
    {summary : String} {run_status : RunStatus} {cause : FailureCause}
    (h : terminalize_factory_recovery_run_tx s corp_id recovery_id run_id task_id mission_id room_id
      summary run_status cause = .ok t) : Bindings s t := by
  unfold terminalize_factory_recovery_run_tx at h
  obtain ⟨_, -, h⟩ := bind_eq_ok.mp h
  have hfactory := (reconcile_factory_verification_failure_tx_frame h).bindings
  refine ⟨hfactory.items, ?_⟩
  -- the recovery of the run ends before the item's other recoveries do
  have hended : Updated FactoryVerificationRecovery.Kept s.factory_verification_recoveries
      (updateWhere (fun r => r.id == recovery_id && r.corp_id == corp_id)
        (fun r => { r with status := .failed }) s.factory_verification_recoveries) :=
    Updated.of_updateWhere (fun r _ _ => rfl) fun r _ _ => FactoryVerificationRecovery.Kept.refl r
  exact hended.trans hfactory.recoveries fun _ _ _ _ hr hr' => hr.trans hr'

theorem complete_task_tx_bindings {actor_id : Option Uuid}
    (h : complete_task_tx s row actor_id = .ok t) : Bindings s t := by
  have hsettled :
      Bindings s (settle_successful_factory_recoveries_tx s row.run.corp_id row.run.id) :=
    Bindings.of_recoveries rfl rfl
  unfold complete_task_tx at h
  dsimp only at h
  refine hsettled.trans ?_
  split at h
  · have hfactory := (reconcile_factory_verified_tx_frame h).bindings
    exact ⟨hfactory.items, hfactory.recoveries⟩
  · rw [pure_eq_ok] at h
    subst h
    exact Bindings.of_eq rfl rfl

theorem run_verification_failed_bindings (h : run_verification_failed s row payload = .ok t) :
    Bindings s t := by
  obtain ⟨summary, hfactory⟩ := run_verification_failed_ok h
  exact ⟨hfactory.bindings.items, hfactory.bindings.recoveries⟩

theorem run_failed_bindings {scope : Option RunScope}
    (h : run_failed env s row scope payload = .ok t) : Bindings s t := by
  unfold run_failed at h
  simp only [bind_eq_ok, pure_eq_ok] at h
  obtain ⟨u, hu, rfl⟩ := h
  have hsu : Bindings s u := by
    unfold end_failed_run at hu
    split at hu
    · exact terminalize_bindings hu
    · obtain ⟨task_status, mission_status, -, -, hfactory⟩ := fail_run_tx_ok hu
      exact ⟨hfactory.bindings.items, hfactory.bindings.recoveries⟩
  refine hsu.trans ?_
  unfold release_failed_run_agent_tx
  split
  · exact Bindings.refl
  · split
    · exact Bindings.refl
    · exact Bindings.of_eq rfl rfl

theorem run_cancelled_bindings (h : run_cancelled s row payload = .ok t) : Bindings s t := by
  unfold run_cancelled at h
  simp only [bind_eq_ok, pure_eq_ok] at h
  obtain ⟨u, hu, rfl⟩ := h
  have hsu : Bindings s u := by
    unfold end_cancelled_run at hu
    split at hu
    · exact terminalize_bindings hu
    · obtain rfl := Except.ok.inj hu
      exact Bindings.of_eq rfl rfl
  exact hsu.trans (Bindings.of_eq rfl rfl)

theorem run_completed_bindings (h : run_completed s row payload = .ok t) : Bindings s t := by
  unfold run_completed at h
  simp only [bind_eq_ok, pure_eq_ok] at h
  obtain ⟨_, -, _, -, u, hu, rfl⟩ := h
  have hfactory := complete_task_tx_bindings hu
  exact ⟨hfactory.items, hfactory.recoveries⟩

theorem run_verification_waiting_bindings (h : run_verification_waiting s row payload = .ok t) :
    Bindings s t := by
  obtain ⟨q, verification_summary, completion_summary, u, -, -, -, -, -, -, -, hu, h⟩ :=
    run_verification_waiting_ok h
  subst hu
  exact ⟨h.bindings.items, h.bindings.recoveries⟩

/-- A report ends recoveries at most. -/
theorem runner_event_effect_bindings {now : Int} {scope : Option RunScope} {event_type : EventType}
    (h : runner_event_effect env s now row scope event_type payload = .ok t) : Bindings s t := by
  unfold runner_event_effect at h
  split at h
  case h_1 =>
    unfold run_session at h
    simp only [bind_eq_ok, pure_eq_ok] at h
    obtain ⟨_, -, rfl⟩ := h
    exact Bindings.of_eq rfl rfl
  case h_2 =>
    unfold run_started at h
    rw [pure_eq_ok] at h
    subst h
    exact Bindings.of_eq rfl rfl
  case h_3 =>
    obtain ⟨status, station, -, ⟨-, rfl⟩ | ⟨-, rfl⟩⟩ := run_status_ok h
    · exact Bindings.of_eq rfl rfl
    · exact Bindings.of_eq rfl rfl
  case h_4 =>
    obtain ⟨p, -, -, -, -, -, -, -, rfl⟩ := run_approval_requested_ok h
    exact Bindings.of_eq rfl rfl
  case h_5 =>
    unfold run_tool_activity at h
    split at h
    · rw [pure_eq_ok] at h
      subst h
      exact Bindings.refl
    · split at h
      · rw [pure_eq_ok] at h
        subst h
        exact Bindings.of_eq rfl rfl
      · simp only [bind_eq_ok, pure_eq_ok] at h
        obtain ⟨_, -, rfl⟩ := h
        exact Bindings.of_eq rfl rfl
  case h_6 => cases h
  case h_7 => cases h
  case h_8 => cases h
  case h_9 => cases h
  case h_10 =>
    unfold run_usage at h
    simp only [bind_eq_ok, pure_eq_ok] at h
    obtain ⟨_, -, rfl⟩ := h
    exact Bindings.of_eq rfl rfl
  case h_11 =>
    unfold run_verification_started at h
    rw [pure_eq_ok] at h
    subst h
    exact Bindings.of_eq rfl rfl
  case h_12 =>
    obtain ⟨e, rfl, -⟩ := run_verification_evidence_ok h
    exact Bindings.of_eq rfl rfl
  case h_13 =>
    obtain ⟨_, _, _, -, -, -, rfl⟩ := run_verification_passed_ok h
    exact Bindings.of_eq rfl rfl
  case h_14 => exact run_verification_waiting_bindings h
  case h_15 => exact run_verification_failed_bindings h
  case h_16 =>
    unfold run_teardown_uncertain at h
    simp only [bind_eq_ok, pure_eq_ok] at h
    obtain ⟨_, -, detail, -, rfl⟩ := h
    exact Bindings.of_eq rfl rfl
  case h_17 =>
    obtain ⟨f, rfl, -⟩ := run_workspace_retained_ok h
    exact Bindings.of_eq rfl rfl
  case h_18 =>
    obtain ⟨f, rfl, -⟩ := run_workspace_retained_ok h
    exact Bindings.of_eq rfl rfl
  case h_19 => exact run_completed_bindings h
  case h_20 => exact run_failed_bindings h
  case h_21 => exact run_cancelled_bindings h
  all_goals
    rw [pure_eq_ok] at h
    subst h
    exact Bindings.refl

theorem apply_runner_event_bindings {now : Int} {input : RunnerEventInput} {o : Option Event}
    (h : apply_runner_event env s now input = .ok (o, t)) : Bindings s t := by
  obtain ⟨row, scope, payload, -, ⟨-, -, rfl⟩ | ⟨-, -, -, heffect⟩⟩ := apply_runner_event_ok h
  · exact Bindings.refl
  · have heff := runner_event_effect_bindings heffect
    exact ⟨heff.items, heff.recoveries⟩

theorem lose_run_tx_bindings {row : LostRow} {reason : String}
    (h : lose_run_tx s row reason = .ok t) : Bindings s t := by
  unfold lose_run_tx at h
  obtain ⟨u, hu, h⟩ := bind_eq_ok.mp h
  have hsu : Bindings s u := by
    unfold end_lost_run at hu
    split at hu
    · exact terminalize_bindings hu
    · obtain rfl := Except.ok.inj hu
      exact Bindings.of_eq rfl rfl
  refine hsu.trans ?_
  rw [record_event_tx_ok.mp h]
  split
  · exact Bindings.of_eq rfl rfl
  · exact Bindings.of_eq rfl rfl

theorem mark_runner_runs_lost_tx_bindings {now : Int} {input : LostRunner}
    (h : mark_runner_runs_lost_tx s now input = .ok t) : Bindings s t := by
  unfold mark_runner_runs_lost_tx at h
  generalize lost_rows s input = rows at h
  induction rows generalizing s with
  | nil =>
    simp only [List.foldlM_nil, pure_eq_ok] at h
    subst h
    exact Bindings.refl
  | cons row rows ih =>
    simp only [List.foldlM_cons, bind_eq_ok] at h
    obtain ⟨u, hu, h⟩ := h
    refine Bindings.trans ?_ (ih h)
    unfold lose_row at hu
    obtain ⟨ready, -, hu⟩ := bind_eq_ok.mp hu
    split at hu
    · rw [pure_eq_ok] at hu
      subst hu
      exact Bindings.refl
    · exact lose_run_tx_bindings hu

theorem fail_run_before_dispatch_bindings {corp_id run_id : Uuid} {reason : String}
    (h : fail_run_before_dispatch s corp_id run_id reason = .ok t) : Bindings s t := by
  rcases fail_run_before_dispatch_ok h with hfactory |
    ⟨run, task, mission, text, u, -, -, -, hu, hfactory⟩
  · exact hfactory.bindings
  · obtain ⟨msgs, evs, rfl, -⟩ := fail_dispatch_ok hu
    exact ⟨hfactory.bindings.items, hfactory.bindings.recoveries⟩

theorem fail_factory_recovery_before_dispatch_bindings {corp_id run_id : Uuid} {reason : String}
    (h : fail_factory_recovery_before_dispatch s corp_id run_id reason = .ok t) : Bindings s t := by
  rcases fail_factory_recovery_before_dispatch_ok h with
    rfl | ⟨run, task, mission, recovery_id, text, -, -, hu⟩
  · exact Bindings.of_eq rfl rfl
  · refine Bindings.trans ?_ (fail_recovery_dispatch_ok hu).bindings
    exact Bindings.of_recoveries rfl rfl

theorem record_verification_decision_bindings {input : VerificationDecision} {row : DecisionRow}
    (h : record_verification_decision s input row = .ok t) : Bindings s t := by
  obtain ⟨u, evs, rfl, -, ⟨-, hu⟩ | ⟨-, hu⟩⟩ := record_verification_decision_ok h
  · unfold approve_verification at hu
    have hfactory := complete_task_tx_bindings hu
    exact ⟨hfactory.items, hfactory.recoveries⟩
  · obtain ⟨summary, hfactory⟩ := reject_verification_ok hu
    exact ⟨hfactory.bindings.items, hfactory.bindings.recoveries⟩

theorem expire_action_approval_bindings {now : Int} {approval_id : Uuid}
    (h : expire_action_approval s now approval_id = .ok t) : Bindings s t := by
  rcases expire_action_approval_ok h with rfl | ⟨approval, new, evs, -, -, -, -, -, rfl, -⟩
  · exact Bindings.refl
  · exact Bindings.of_eq rfl rfl

theorem finalize_artifact_upload_bindings {corp_id artifact_id : Uuid}
    {fence authority : ReceiptVerdict} {c : Committed String Db Unit}
    (h : finalize_artifact_upload s corp_id artifact_id fence authority = .ok c) :
    Bindings s c.state := by
  rcases finalize_artifact_upload_ok h with
    hc | ⟨reason, hc⟩ | ⟨a, run, task, mission, u, -, -, -, -, hready, hc⟩
  · rw [hc]
    exact Bindings.refl
  · rw [hc]
    exact Bindings.of_eq rfl rfl
  · have hsu : Bindings s u := by
      rcases hready.state with ⟨-, hu⟩ | ⟨-, row, -, -, hu⟩
      · rw [hu]
        exact Bindings.of_eq rfl rfl
      · rw [hu]
        exact Bindings.of_eq rfl rfl
    rw [hc]
    split
    · exact hsu.trans (Bindings.of_eq rfl rfl)
    · exact hsu

end Calls

/-! ## Calls that bind -/

/-- A mission is planned for an item that had none. -/
structure Links (s t : Db) (item : FactoryWorkItem) (mission_id : Uuid) : Prop where
  mem : item ∈ s.factory_work_items
  unlinked : item.mission_id = none
  fresh : ∀ m ∈ s.missions, m.id ≠ mission_id
  mission : ∃ m ∈ t.missions, m.id = mission_id
  items : Updated (fun i i' => i'.id = i.id ∧ i'.corp_id = i.corp_id
    ∧ ((i.id = item.id ∧ i'.mission_id = some mission_id) ∨ i' = i))
    s.factory_work_items t.factory_work_items
  recoveries : t.factory_verification_recoveries = s.factory_verification_recoveries

/-- What a call does to the bindings. -/
inductive Binding (s t : Db) : Prop
  | kept (h : Bindings s t)
  | linked (item : FactoryWorkItem) (mission_id : Uuid) (h : Links s t item mission_id)
  | authorized (r : Run) (recovery : FactoryVerificationRecovery) (runs : t.runs = s.runs ++ [r])
      (h : Authorizes s t r recovery)

theorem materialize_factory_mission_binding {now : Int} {input : MaterializeInput}
    (h : materialize_factory_mission s now input = .ok t) : Binding s t := by
  unfold materialize_factory_mission at h
  simp only [bind_eq_ok, ensure_eq_ok] at h
  obtain ⟨_, -, _, -, _, -, _, -, h⟩ := h
  split at h
  · simp only [bind_eq_ok, pure_eq_ok] at h
    obtain ⟨_, -, rfl⟩ := h
    exact .kept Bindings.refl
  · simp only [bind_eq_ok, ensure_eq_ok, context_eq_ok, append_new_event_tx_ok] at h
    obtain ⟨current, hcurrent, _, -, _, ⟨-, hnone⟩, _, -, ⟨mission_id, u⟩, hu, -, rfl⟩ := h
    obtain ⟨mission, tasks, agents, dependencies, actors, memberships, evs, hplan, hstate, hid, -,
      -⟩ :=
      create_mission_tx_ok hu
    have hitems : u.factory_work_items = s.factory_work_items := by rw [hstate]
    have hfound := List.find?_some hcurrent
    simp only [Bool.and_eq_true, beq_iff_eq] at hfound
    refine .linked current mission_id ⟨List.mem_of_find?_eq_some hcurrent, hnone, ?_, ?_, ?_, ?_⟩
    · intro m hm he
      exact hplan.mission_fresh m hm (he.trans hid.symm)
    · refine ⟨mission, ?_, hid⟩
      change mission ∈ u.missions
      rw [hplan.missions]
      exact List.mem_append_right _ List.mem_cons_self
    · change Updated _ s.factory_work_items (updateWhere _ _ u.factory_work_items)
      rw [hitems]
      refine Updated.of_updateWhere ?_ fun i _ _ => ⟨rfl, rfl, Or.inr rfl⟩
      intro i _ hi
      simp only [Bool.and_eq_true, beq_iff_eq] at hi
      exact ⟨rfl, rfl, Or.inl ⟨hi.1.trans hfound.1.symm, rfl⟩⟩
    · change u.factory_verification_recoveries = s.factory_verification_recoveries
      rw [hstate]

/-- **What each call does to the bindings.** -/
theorem exec_binding (hs : Inv s) {op : Op} (h : exec env s op = .ok t) : Binding s t := by
  cases op with
  | apply_runner_event now input =>
    obtain ⟨⟨o, u⟩, hu, rfl⟩ := map_eq_ok.mp h
    exact .kept (apply_runner_event_bindings hu)
  | evaluate_circuit_breaker now corp_id run_id =>
    rcases evaluate_circuit_breaker_ok h with
      rfl | ⟨run, task, mission, stage, incident, command, event, -, -, -, -, hraise⟩
    · exact .kept Bindings.refl
    · rw [hraise.state]
      exact .kept (Bindings.of_eq rfl rfl)
  | set_budget_policy input =>
    obtain ⟨policies, evs, rfl, -⟩ := set_budget_policy_ok h
    exact .kept (Bindings.of_eq rfl rfl)
  | create_mission input =>
    obtain ⟨mission_id, h⟩ := create_mission_ok h
    obtain ⟨_, _, _, _, _, _, _, -, rfl, -⟩ := create_mission_tx_ok h
    exact .kept (Bindings.of_eq rfl rfl)
  | materialize_factory_mission now input => exact materialize_factory_mission_binding h
  | transition_factory_work_item now input =>
    obtain ⟨_, _, _, -, -, hkept⟩ := transition_factory_work_item_ok h
    exact .kept hkept
  | create_task_run now input =>
    obtain ⟨_, _, _, _, _, _, -, -, -, -, -, -, -, -, -, -, -, -, rfl, -⟩ := create_task_run_ok h
    exact .kept (Bindings.of_eq rfl rfl)
  | create_resume_run now input =>
    obtain ⟨_, _, _, _, _, _, _, _, -, -, -, -, -, -, -, -, -, -, hkept⟩ := create_resume_run_ok h
    exact .kept hkept
  | create_factory_verification_recovery now input =>
    rcases create_factory_verification_recovery_ok h with rfl | ⟨source, task, mission, r, attempt,
      msgs, station, items, recs, c, evs, -, -, -, -, -, -, -, -, -, ht, -, recovery, hauth⟩
    · exact .kept Bindings.refl
    · exact .authorized r recovery (by rw [ht]) hauth
  | prepare_artifact_upload now input artifact staging_key receipt_allows =>
    obtain ⟨_, _, _, -, -, -, -, rfl | ⟨a, -, -, -, -, rfl⟩⟩ := prepare_artifact_upload_ok h
    · exact .kept Bindings.refl
    · exact .kept (Bindings.of_eq rfl rfl)
  | finalize_artifact_upload corp_id artifact_id fence authority =>
    obtain ⟨c, hc, rfl⟩ := map_eq_ok.mp h
    exact .kept (finalize_artifact_upload_bindings hc)
  | reject_staged_artifact corp_id artifact_id reason =>
    obtain rfl := Except.ok.inj h
    exact .kept (Bindings.of_eq rfl rfl)
  | abandon_staged_artifact corp_id artifact_id =>
    obtain rfl := Except.ok.inj h
    exact .kept (Bindings.of_eq rfl rfl)
  | clear_artifact_staging_key corp_id artifact_id staging_key =>
    obtain rfl := Except.ok.inj h
    exact .kept (Bindings.of_eq rfl rfl)
  | decide_action_approval now input =>
    obtain ⟨c, hc, rfl⟩ := map_eq_ok.mp h
    obtain ⟨approval, run, -, -, -, -, ⟨-, hsame⟩ | ⟨-, hexpire | hrecord⟩⟩ :=
      decide_action_approval_ok hc
    · rw [hsame]
      exact .kept Bindings.refl
    · exact .kept (expire_action_approval_bindings hexpire)
    · obtain ⟨command, evs, -, hstate, -⟩ := record_action_decision_ok hrecord
      rw [hstate]
      exact .kept (Bindings.of_eq rfl rfl)
  | expire_action_approval now approval_id => exact .kept (expire_action_approval_bindings h)
  | decide_verification now input =>
    rcases decide_verification_ok h with rfl | ⟨row, actor, -, hrecord⟩
    · exact .kept Bindings.refl
    · exact .kept (record_verification_decision_bindings hrecord)
  | acknowledge_runner_command command_id runner_id =>
    rcases settle_runner_command_ok h with rfl | ⟨msgs, evs, rfl, -⟩
    · exact .kept Bindings.refl
    · exact .kept (Bindings.of_eq rfl rfl)
  | fail_runner_command command_id runner_id detail =>
    rcases settle_runner_command_ok h with rfl | ⟨msgs, evs, rfl, -⟩
    · exact .kept Bindings.refl
    · exact .kept (Bindings.of_eq rfl rfl)
  | fail_run_before_dispatch corp_id run_id reason =>
    exact .kept (fail_run_before_dispatch_bindings h)
  | fail_factory_recovery_before_dispatch corp_id run_id reason =>
    exact .kept (fail_factory_recovery_before_dispatch_bindings h)
  | mark_runner_runs_lost now input => exact .kept (mark_runner_runs_lost_tx_bindings h)

/-! ## The invariant -/

/-- No mission is ever lost. -/
theorem Move.missions (h : Move s t) {m : Mission} (hm : m ∈ s.missions) :
    ∃ m' ∈ t.missions, m'.id = m.id := by
  cases h with
  | turnover h =>
    cases h with
    | quiet h => exact ⟨m, h.missions ▸ hm, rfl⟩
    | work r h => exact ⟨m, h.missions ▸ hm, rfl⟩
    | complete r h =>
      obtain ⟨m', hm', hk, -⟩ := h.missions.exists_new hm
      exact ⟨m', hm', hk.id⟩
    | stop r h =>
      obtain ⟨m', hm', hk, -⟩ := h.missions.exists_new hm
      exact ⟨m', hm', hk.id⟩
    | lapse r h =>
      obtain ⟨m', hm', hk, -⟩ := h.missions.exists_new hm
      exact ⟨m', hm', hk.id⟩
    | admission r task h =>
      obtain ⟨m', hm', hk, -⟩ := h.missions.exists_new hm
      exact ⟨m', hm', hk.id⟩
  | plan mission tasks agents dependencies h =>
    refine ⟨m, ?_, rfl⟩
    rw [h.missions]
    exact List.mem_append_left _ hm

theorem Moves.missions (h : Moves s t) {m : Mission} (hm : m ∈ s.missions) :
    ∃ m' ∈ t.missions, m'.id = m.id := by
  induction h with
  | refl => exact ⟨m, hm, rfl⟩
  | tail _ hmove ih =>
    obtain ⟨x, hx, hid⟩ := ih
    obtain ⟨x', hx', hid'⟩ := hmove.missions hx
    exact ⟨x', hx', hid'.trans hid⟩

/-- Keys and references of items and recoveries. -/
structure Bound (s : Db) : Prop where
  items_keyed : Keyed FactoryWorkItem.id s.factory_work_items
  /-- A mission is linked by at most one item. -/
  links : ∀ i ∈ s.factory_work_items, ∀ j ∈ s.factory_work_items, i.mission_id.isSome = true →
    i.mission_id = j.mission_id → i = j
  link_mission : ∀ i ∈ s.factory_work_items, ∀ id, i.mission_id = some id →
    ∃ m ∈ s.missions, m.id = id
  recoveries_keyed : Keyed FactoryVerificationRecovery.id s.factory_verification_recoveries
  /-- A run replaces at most one run. -/
  replacements : Keyed FactoryVerificationRecovery.replacement_run_id
    s.factory_verification_recoveries
  replacement_run : ∀ r ∈ s.factory_verification_recoveries, ∃ x ∈ s.runs,
    r.replacement_run_id = some x.id ∧ r.task_id = x.task_id ∧ r.corp_id = x.corp_id

theorem FactoryVerificationRecovery.Kept.bindings {r r' : FactoryVerificationRecovery}
    (h : r.Kept r') : r'.id = r.id ∧ r'.replacement_run_id = r.replacement_run_id
      ∧ r'.task_id = r.task_id ∧ r'.corp_id = r.corp_id := by
  rw [h]
  exact ⟨rfl, rfl, rfl, rfl⟩

/-- The recoveries' references survive whatever keeps their runs. -/
theorem Bound.replacement_of_grows (hs : Bound s) (hg : Grows s t)
    {recoveries : List FactoryVerificationRecovery}
    (h : Updated FactoryVerificationRecovery.Kept s.factory_verification_recoveries recoveries) :
    ∀ r ∈ recoveries, ∃ x ∈ t.runs,
      r.replacement_run_id = some x.id ∧ r.task_id = x.task_id ∧ r.corp_id = x.corp_id := by
  intro r' hr'
  obtain ⟨r, hr, hk⟩ := h.exists_old hr'
  obtain ⟨-, hreplacement, htask, hcorp⟩ := hk.bindings
  obtain ⟨x, hx, hid, hxtask, hxcorp⟩ := hs.replacement_run r hr
  obtain ⟨x', hx', hxk, -, -⟩ := hg.runs x hx
  refine ⟨x', hx', ?_, ?_, ?_⟩
  · rw [hreplacement, hid, hxk.id]
  · rw [htask, hxtask, hxk.task_id]
  · rw [hcorp, hxcorp, hxk.corp_id]

/-- What a change must respect for the invariant of the recoveries. -/
theorem Bindings.bound (hs : Bound s) (hg : Grows s t)
    (hm : ∀ m ∈ s.missions, ∃ m' ∈ t.missions, m'.id = m.id) (h : Bindings s t) : Bound t where
  items_keyed := h.items.keyed hs.items_keyed fun _ _ hi => hi.id
  links := by
    intro i' hi' j' hj' hsome heq
    obtain ⟨φ, hitems, hφ⟩ := h.items
    rw [hitems] at hi' hj'
    obtain ⟨i, hi, rfl⟩ := List.mem_map.mp hi'
    obtain ⟨j, hj, rfl⟩ := List.mem_map.mp hj'
    rw [(hφ i hi).mission_id] at hsome heq
    rw [(hφ j hj).mission_id] at heq
    rw [hs.links i hi j hj hsome heq]
  link_mission := by
    intro i' hi' id hid
    obtain ⟨i, hi, hk⟩ := h.items.exists_old hi'
    obtain ⟨m, hmem, hmid⟩ := hs.link_mission i hi id (hk.mission_id ▸ hid)
    obtain ⟨m', hm', hid'⟩ := hm m hmem
    exact ⟨m', hm', hid'.trans hmid⟩
  recoveries_keyed := h.recoveries.keyed hs.recoveries_keyed fun _ _ hr => hr.bindings.1
  replacements := h.recoveries.keyed hs.replacements fun _ _ hr => hr.bindings.2.1
  replacement_run := hs.replacement_of_grows hg h.recoveries

/-- The item of a new mission is the only one that is linked to it. -/
theorem Links.bound {item : FactoryWorkItem} {mission_id : Uuid} (hs : Bound s) (hg : Grows s t)
    (hm : ∀ m ∈ s.missions, ∃ m' ∈ t.missions, m'.id = m.id) (h : Links s t item mission_id) :
    Bound t where
  items_keyed := h.items.keyed hs.items_keyed fun _ _ hi => hi.1
  links := by
    intro i' hi' j' hj' hsome heq
    obtain ⟨φ, hitems, hφ⟩ := h.items
    rw [hitems] at hi' hj'
    obtain ⟨i, hi, rfl⟩ := List.mem_map.mp hi'
    obtain ⟨j, hj, rfl⟩ := List.mem_map.mp hj'
    -- an old link never names the new mission
    have hold : ∀ k ∈ s.factory_work_items, k.mission_id ≠ some mission_id := by
      intro k hk hlink
      obtain ⟨m, hmem, hid⟩ := hs.link_mission k hk mission_id hlink
      exact h.fresh m hmem hid
    obtain ⟨-, -, ⟨hiid, hilink⟩ | hisame⟩ := hφ i hi
    · obtain ⟨-, -, ⟨hjid, -⟩ | hjsame⟩ := hφ j hj
      · rw [hs.items_keyed.eq_of_mem hi hj (hiid.trans hjid.symm)]
      · rw [hilink, hjsame] at heq
        exact absurd heq.symm (hold j hj)
    · obtain ⟨-, -, ⟨-, hjlink⟩ | hjsame⟩ := hφ j hj
      · rw [hjlink, hisame] at heq
        exact absurd heq (hold i hi)
      · rw [hisame] at hsome heq ⊢
        rw [hjsame] at heq ⊢
        exact hs.links i hi j hj hsome heq
  link_mission := by
    intro i' hi' id hid
    obtain ⟨i, hi, -, -, ⟨-, hlink⟩ | rfl⟩ := h.items.exists_old hi'
    · rw [hlink] at hid
      obtain rfl := Option.some.inj hid
      exact h.mission
    · obtain ⟨m, hmem, hmid⟩ := hs.link_mission i' hi id hid
      obtain ⟨m', hm', hid'⟩ := hm m hmem
      exact ⟨m', hm', hid'.trans hmid⟩
  recoveries_keyed := by
    rw [h.recoveries]
    exact hs.recoveries_keyed
  replacements := by
    rw [h.recoveries]
    exact hs.replacements
  replacement_run := by
    rw [h.recoveries]
    exact hs.replacement_of_grows hg Bindings.refl.recoveries

theorem Authorizes.bound {r : Run} {recovery : FactoryVerificationRecovery} (hs : Bound s)
    (hg : Grows s t) (hm : ∀ m ∈ s.missions, ∃ m' ∈ t.missions, m'.id = m.id) (hr : r ∈ t.runs)
    (h : Authorizes s t r recovery) : Bound t := by
  obtain ⟨olds, hrecs, holds, hnew⟩ := h.recoveries
  -- the items, and the recoveries that were there
  have hold : Bound { t with factory_verification_recoveries := olds } :=
    Bindings.bound hs ⟨hg.runs, hg.tasks⟩ hm ⟨h.items, holds⟩
  refine ⟨hold.items_keyed, hold.links, hold.link_mission, ?_, ?_, ?_⟩
  · rw [hrecs]
    exact hold.recoveries_keyed.append_singleton fun x hx => (hnew x hx).1
  · rw [hrecs]
    exact hold.replacements.append_singleton fun x hx => (hnew x hx).2
  · intro x hx
    rw [hrecs] at hx
    rcases List.mem_append.mp hx with hx | hx
    · exact hold.replacement_run x hx
    · obtain rfl := List.mem_singleton.mp hx
      exact ⟨r, hr, h.replacement, h.task_id, h.corp_id⟩

theorem exec_bound (hs : Inv s) (hb : Bound s) {op : Op} (h : exec env s op = .ok t) : Bound t := by
  have hg := exec_grows hs h
  have hm : ∀ m ∈ s.missions, ∃ m' ∈ t.missions, m'.id = m.id :=
    fun m hm => (exec_moves hs.life hs.linked h).missions hm
  cases exec_binding hs h with
  | kept hk => exact hk.bound hb hg hm
  | linked item mission_id hl => exact hl.bound hb hg hm
  | authorized r recovery hruns ha =>
    refine ha.bound hb hg hm ?_
    rw [hruns]
    exact List.mem_append_right _ List.mem_cons_self

theorem Initial.bound (h : Initial s) : Bound s where
  items_keyed := h.items_keyed
  links := by
    intro i hi j hj hsome
    rw [h.items_unlinked i hi] at hsome
    cases hsome
  link_mission := by
    intro i hi id hid
    rw [h.items_unlinked i hi] at hid
    cases hid
  recoveries_keyed := by simp [h.factory_verification_recoveries, Keyed]
  replacements := by simp [h.factory_verification_recoveries, Keyed]
  replacement_run := by simp [h.factory_verification_recoveries]

/-- **Items and recoveries stay bound to what they were bound to, in every reachable state.** -/
theorem ReachableVia.bound {ok : Db → Op → Prop} (h : ReachableVia env ok s) : Bound s :=
  ReachableVia.inv (I := Bound) h (fun _ h0 => h0.bound) fun _ _ _ hr hI _ he =>
    exec_bound hr.invariants hI he

end Crony.Store
