/-
How the run lifecycle moves Factory work items.

A projection (a report, a decision, a lost runner, a failed dispatch) moves the item that
is linked to the mission of the run, whoever holds its claim, and only while the item is
in work: what is verified or published is out of its reach, and so are the columns of the
claim. The holder of the claim moves its item by `materialize_factory_mission`,
`transition_factory_work_item` and `create_factory_verification_recovery`. Either way the
version grows.
-/
import Crony.Lifecycle.Sweeps

set_option autoImplicit false

open Crony.Lib

namespace Crony.Store

variable {env : Env} {s t u : Db}

/-! ## Projections -/

/-- The states an item is in before its mission is verified. -/
def factory_state_in_work : FactoryWorkItemState → Bool
  | .claimed | .mission_created | .running | .blocked | .awaiting_approval
  | .verification_failed => true
  | _ => false

/-- The states a projection sets. -/
def factory_state_projected : FactoryWorkItemState → Bool
  | .running | .blocked | .awaiting_approval | .verification_failed | .verified => true
  | _ => false

/-- An item in work is moved on; the claim stays with its holder. -/
structure FactoryWorkItem.Projected (i i' : FactoryWorkItem) : Prop where
  columns : i' = { i with
    state := i'.state, version := i'.version, failure_detail := i'.failure_detail }
  linked : i.mission_id.isSome = true
  work : factory_state_in_work i.state = true
  outcome : factory_state_projected i'.state = true
  version : i.version < i'.version

/-- The columns of a projection in the middle of a row. -/
theorem FactoryWorkItem.Projected.of_update {i : FactoryWorkItem} {state : FactoryWorkItemState}
    {detail : Option String} (hlinked : i.mission_id.isSome = true)
    (hwork : factory_state_in_work i.state = true)
    (hstate : factory_state_projected state = true) :
    i.Projected { i with state, version := i.version + 1, failure_detail := detail } where
  columns := rfl
  linked := hlinked
  work := hwork
  outcome := hstate
  version := by simp

theorem FactoryWorkItem.Projected.trans {a b c : FactoryWorkItem} (h : a.Projected b)
    (h' : b.Projected c) : a.Projected c where
  columns := by
    rw [h'.columns, h.columns]
  linked := h.linked
  work := h.work
  outcome := h'.outcome
  version := lt_trans h.version h'.version

/-- Items are projected at most, and no operation is recorded. -/
structure Works (s t : Db) : Prop where
  items : Updated (fun i i' => i' = i ∨ i.Projected i') s.factory_work_items t.factory_work_items
  operations : t.factory_operations = s.factory_operations

namespace Works

theorem refl : Works s s := ⟨updated_same, rfl⟩

theorem trans (h : Works s t) (h' : Works t u) : Works s u where
  items := updated_same_trans h.items h'.items (fun _ _ hi => hi) (fun _ _ hi => hi)
    fun _ _ _ hi hj => hi.trans hj
  operations := h'.operations.trans h.operations

/-- A projection that returns at once. -/
theorem of_pure (h : (pure s : Except String Db) = .ok t) : Works s t := by
  rw [pure_eq_ok] at h
  rw [h]
  exact refl

theorem of_eq (hitems : t.factory_work_items = s.factory_work_items)
    (hoperations : t.factory_operations = s.factory_operations) : Works s t := by
  refine ⟨?_, hoperations⟩
  rw [hitems]
  exact updated_same

/-- A statement that moves the item `item`, which it selects by its key. -/
theorem of_item {item : FactoryWorkItem} {p : FactoryWorkItem → Bool}
    {f : FactoryWorkItem → FactoryWorkItem} (hs : Keyed FactoryWorkItem.id s.factory_work_items)
    (hitem : item ∈ s.factory_work_items) (hp : ∀ i, p i = true → i.id = item.id)
    (hf : item.Projected (f item))
    (hitems : t.factory_work_items = updateWhere p f s.factory_work_items)
    (hoperations : t.factory_operations = s.factory_operations) : Works s t := by
  refine ⟨?_, hoperations⟩
  rw [hitems]
  refine Updated.of_updateWhere ?_ fun _ _ _ => Or.inl rfl
  intro i hi hpi
  obtain rfl := hs.eq_of_mem hi hitem (hp i hpi)
  exact Or.inr hf

theorem keyed (h : Works s t) (hs : Keyed FactoryWorkItem.id s.factory_work_items) :
    Keyed FactoryWorkItem.id t.factory_work_items := by
  refine h.items.keyed hs ?_
  rintro i i' (rfl | hi)
  · rfl
  · rw [hi.columns]

end Works

/-- The item of a mission. -/
theorem Db.factory_item_of_eq_some {corp_id mission_id : Uuid} {item : FactoryWorkItem}
    (h : s.factory_item_of corp_id mission_id = some item) :
    item ∈ s.factory_work_items ∧ item.corp_id = corp_id ∧ item.mission_id = some mission_id := by
  have hfound := List.find?_some h
  simp only [Bool.and_eq_true, beq_iff_eq] at hfound
  exact ⟨List.mem_of_find?_eq_some h, hfound⟩

theorem Db.factory_work_item_eq_some {corp_id item_id : Uuid} {item : FactoryWorkItem}
    (h : s.factory_work_item corp_id item_id = some item) :
    item ∈ s.factory_work_items ∧ item.id = item_id ∧ item.corp_id = corp_id := by
  have hfound := List.find?_some h
  simp only [Bool.and_eq_true, beq_iff_eq] at hfound
  exact ⟨List.mem_of_find?_eq_some h, hfound⟩

/-- A clause on the key of an item selects that item. -/
theorem id_of_clause {item i : FactoryWorkItem} {corp_id : Uuid}
    (h : (i.id == item.id && i.corp_id == corp_id) = true) : i.id = item.id := by
  simp only [Bool.and_eq_true, beq_iff_eq] at h
  exact h.1

theorem reconcile_tx_works {scope : RunScope} {corp_id room_id task_id run_id : Uuid}
    {reason : String}
    (h : reconcile_tx env s scope corp_id room_id task_id run_id reason = .ok t)
    (hs : Keyed FactoryWorkItem.id s.factory_work_items) : Works s t := by
  unfold reconcile_tx at h
  split at h
  · exact Works.of_pure h
  · rename_i item_id hscope
    obtain ⟨mission, -, h⟩ := bind_eq_ok.mp h
    split at h
    · exact Works.of_pure h
    · obtain ⟨item, hitem, h⟩ := bind_eq_ok.mp h
      split at h
      · exact Works.of_pure h
      · rename_i hstate
        rw [append_new_event_tx_ok] at h
        obtain ⟨-, rfl⟩ := h
        obtain ⟨hmem, hid, -⟩ := Db.factory_work_item_eq_some (context_eq_ok.mp hitem)
        have hwork : factory_state_in_work item.state = true := by
          revert hstate
          cases item.state <;> decide
        refine ⟨?_, rfl⟩
        refine Updated.of_updateWhere ?_ fun _ _ _ => Or.inl rfl
        intro i hi hclause
        simp only [Bool.and_eq_true, beq_iff_eq] at hclause
        obtain rfl := hs.eq_of_mem hi hmem (hclause.1.1.trans hid.symm)
        -- the clause names the mission too
        exact Or.inr (.of_update (by rw [hclause.2]; rfl) hwork rfl)

/-- The item a verification failure moves is the one of the mission. -/
theorem reconcile_factory_verification_failure_tx_moves
    {corp_id mission_id room_id run_id : Uuid} {actor_id : Option Uuid} {detail : String}
    {cause : FailureCause}
    (h : reconcile_factory_verification_failure_tx s corp_id mission_id room_id run_id actor_id
      detail cause = .ok t)
    (hs : Keyed FactoryWorkItem.id s.factory_work_items) :
    Updated (fun i i' => i' = i ∨ (i.mission_id = some mission_id ∧ i.Projected i'))
      s.factory_work_items t.factory_work_items
      ∧ t.factory_operations = s.factory_operations := by
  unfold reconcile_factory_verification_failure_tx at h
  obtain ⟨text, -, h⟩ := bind_eq_ok.mp h
  split at h
  · rw [pure_eq_ok] at h
    subst h
    exact ⟨updated_same, rfl⟩
  · rename_i current hcurrent
    split at h
    · rw [pure_eq_ok] at h
      subst h
      exact ⟨updated_same, rfl⟩
    split at h
    · rw [pure_eq_ok] at h
      subst h
      exact ⟨updated_same, rfl⟩
    · obtain ⟨_, hstate, h⟩ := bind_eq_ok.mp h
      rw [append_new_event_tx_ok] at h
      obtain ⟨-, rfl⟩ := h
      obtain ⟨hmem, -, hmission⟩ := Db.factory_item_of_eq_some hcurrent
      refine ⟨?_, rfl⟩
      refine Updated.of_updateWhere ?_ fun _ _ _ => Or.inl rfl
      intro i hi hclause
      obtain rfl := hs.eq_of_mem hi hmem (id_of_clause hclause)
      refine Or.inr ⟨hmission, .of_update (by rw [hmission]; rfl) ?_ rfl⟩
      have hin := ensure_eq_ok.mp hstate
      revert hin
      cases i.state <;> decide

theorem reconcile_factory_verification_failure_tx_works {corp_id mission_id room_id run_id : Uuid}
    {actor_id : Option Uuid} {detail : String} {cause : FailureCause}
    (h : reconcile_factory_verification_failure_tx s corp_id mission_id room_id run_id actor_id
      detail cause = .ok t)
    (hs : Keyed FactoryWorkItem.id s.factory_work_items) : Works s t := by
  obtain ⟨hitems, hops⟩ := reconcile_factory_verification_failure_tx_moves h hs
  refine ⟨hitems.mono ?_, hops⟩
  rintro i - i' (rfl | ⟨-, hi⟩)
  · exact Or.inl rfl
  · exact Or.inr hi

theorem reconcile_factory_verified_tx_works {corp_id mission_id room_id run_id : Uuid}
    {actor_id : Option Uuid}
    (h : reconcile_factory_verified_tx s corp_id mission_id room_id run_id actor_id = .ok t)
    (hs : Keyed FactoryWorkItem.id s.factory_work_items) : Works s t := by
  unfold reconcile_factory_verified_tx at h
  split at h
  · exact Works.of_pure h
  · rename_i current hcurrent
    split at h
    · exact Works.of_pure h
    · obtain ⟨_, hstate, h⟩ := bind_eq_ok.mp h
      obtain ⟨_, -, h⟩ := bind_eq_ok.mp h
      rw [append_new_event_tx_ok] at h
      obtain ⟨-, rfl⟩ := h
      obtain ⟨hmem, -, hmission⟩ := Db.factory_item_of_eq_some hcurrent
      refine Works.of_item hs hmem (fun i hi => id_of_clause hi) ?_ rfl rfl
      refine .of_update (by rw [hmission]; rfl) ?_ rfl
      have hin := ensure_eq_ok.mp hstate
      revert hin
      cases current.state <;> decide

theorem reconcile_factory_awaiting_approval_tx_works {corp_id mission_id room_id run_id : Uuid}
    (h : reconcile_factory_awaiting_approval_tx s corp_id mission_id room_id run_id = .ok t)
    (hs : Keyed FactoryWorkItem.id s.factory_work_items) : Works s t := by
  unfold reconcile_factory_awaiting_approval_tx at h
  split at h
  · exact Works.of_pure h
  · rename_i current hcurrent
    split at h
    · exact Works.of_pure h
    · obtain ⟨mission, -, h⟩ := bind_eq_ok.mp h
      split at h
      · exact Works.of_pure h
      · obtain ⟨_, hstate, h⟩ := bind_eq_ok.mp h
        rw [append_new_event_tx_ok] at h
        obtain ⟨-, rfl⟩ := h
        obtain ⟨hmem, -, hmission⟩ := Db.factory_item_of_eq_some hcurrent
        refine Works.of_item hs hmem (fun i hi => id_of_clause hi) ?_ rfl rfl
        refine .of_update (by rw [hmission]; rfl) ?_ rfl
        have hin := ensure_eq_ok.mp hstate
        revert hin
        cases current.state <;> decide

theorem resume_tx_works {scope : RunScope} {corp_id room_id source_run_id : Uuid}
    {source_status : RunStatus} {run_id actor_id : Uuid}
    (h : resume_tx env s scope corp_id room_id source_run_id source_status run_id actor_id
      = .ok t)
    (hs : Keyed FactoryWorkItem.id s.factory_work_items) : Works s t := by
  unfold resume_tx at h
  split at h
  · exact Works.of_pure h
  · rename_i item_id hscope
    obtain ⟨item, hitem, h⟩ := bind_eq_ok.mp h
    obtain ⟨_, -, h⟩ := bind_eq_ok.mp h
    split at h
    · exact Works.of_pure h
    · rename_i hblocked
      split at h
      · exact Works.of_pure h
      · split at h
        · exact Works.of_pure h
        · rw [append_new_event_tx_ok] at h
          obtain ⟨-, rfl⟩ := h
          obtain ⟨hmem, hid, -⟩ := Db.factory_work_item_eq_some (context_eq_ok.mp hitem)
          have hstate : item.state = .blocked := by
            by_contra hne
            exact hblocked (Or.inl hne)
          refine ⟨?_, rfl⟩
          refine Updated.of_updateWhere ?_ fun _ _ _ => Or.inl rfl
          intro i hi hclause
          simp only [Bool.and_eq_true, beq_iff_eq] at hclause
          obtain rfl := hs.eq_of_mem hi hmem (hclause.1.1.trans hid.symm)
          exact Or.inr (.of_update (by rw [hclause.2]; rfl) (by rw [hstate]; rfl) rfl)

/-! ## Reports, decisions and losses -/

section Calls

variable {row : RunnerRow} {payload : Json}

theorem terminalize_works {corp_id recovery_id run_id task_id mission_id room_id : Uuid}
    {summary : String} {run_status : RunStatus} {cause : FailureCause}
    (h : terminalize_factory_recovery_run_tx s corp_id recovery_id run_id task_id mission_id room_id
      summary run_status cause = .ok t)
    (hs : Keyed FactoryWorkItem.id s.factory_work_items) : Works s t := by
  unfold terminalize_factory_recovery_run_tx at h
  obtain ⟨_, -, h⟩ := bind_eq_ok.mp h
  have hfactory := reconcile_factory_verification_failure_tx_works h hs
  exact ⟨hfactory.items, hfactory.operations⟩

theorem complete_task_tx_works {actor_id : Option Uuid}
    (h : complete_task_tx s row actor_id = .ok t)
    (hs : Keyed FactoryWorkItem.id s.factory_work_items) : Works s t := by
  unfold complete_task_tx at h
  dsimp only at h
  split at h
  · have hfactory := reconcile_factory_verified_tx_works h hs
    exact ⟨hfactory.items, hfactory.operations⟩
  · rw [pure_eq_ok] at h
    subst h
    exact Works.of_eq rfl rfl

theorem run_failed_works {scope : Option RunScope}
    (h : run_failed env s row scope payload = .ok t)
    (hs : Keyed FactoryWorkItem.id s.factory_work_items) : Works s t := by
  unfold run_failed at h
  simp only [bind_eq_ok, pure_eq_ok] at h
  obtain ⟨u, hu, rfl⟩ := h
  have hsu : Works s u := by
    unfold end_failed_run at hu
    split at hu
    · exact terminalize_works hu hs
    · unfold fail_run_tx at hu
      dsimp only at hu
      split at hu
      · split at hu
        · obtain rfl := Except.ok.inj hu
          exact Works.of_eq rfl rfl
        · have hfactory := reconcile_tx_works hu hs
          exact ⟨hfactory.items, hfactory.operations⟩
      · obtain rfl := Except.ok.inj hu
        exact Works.of_eq rfl rfl
  refine hsu.trans ?_
  unfold release_failed_run_agent_tx
  split
  · exact Works.refl
  · split
    · exact Works.refl
    · exact Works.of_eq rfl rfl

theorem run_cancelled_works (h : run_cancelled s row payload = .ok t)
    (hs : Keyed FactoryWorkItem.id s.factory_work_items) : Works s t := by
  unfold run_cancelled at h
  simp only [bind_eq_ok, pure_eq_ok] at h
  obtain ⟨u, hu, rfl⟩ := h
  have hsu : Works s u := by
    unfold end_cancelled_run at hu
    split at hu
    · exact terminalize_works hu hs
    · obtain rfl := Except.ok.inj hu
      exact Works.of_eq rfl rfl
  exact hsu.trans (Works.of_eq rfl rfl)

theorem run_verification_waiting_works (h : run_verification_waiting s row payload = .ok t)
    (hs : Keyed FactoryWorkItem.id s.factory_work_items) : Works s t := by
  unfold run_verification_waiting at h
  simp only [bind_eq_ok] at h
  obtain ⟨_, -, _, -, _, -, _, -, _, -, _, -, u, hu, h⟩ := h
  unfold insert_verification_request at hu
  simp only [bind_eq_ok, pure_eq_ok] at hu
  obtain ⟨_, -, rfl⟩ := hu
  have hfactory := reconcile_factory_awaiting_approval_tx_works h hs
  exact ⟨hfactory.items, hfactory.operations⟩

/-- A report moves items by projections. -/
theorem runner_event_effect_works {now : Int} {scope : Option RunScope} {event_type : EventType}
    (h : runner_event_effect env s now row scope event_type payload = .ok t)
    (hs : Keyed FactoryWorkItem.id s.factory_work_items) : Works s t := by
  unfold runner_event_effect at h
  split at h
  case h_1 =>
    unfold run_session at h
    simp only [bind_eq_ok, pure_eq_ok] at h
    obtain ⟨_, -, rfl⟩ := h
    exact Works.of_eq rfl rfl
  case h_2 =>
    unfold run_started at h
    rw [pure_eq_ok] at h
    subst h
    exact Works.of_eq rfl rfl
  case h_3 =>
    obtain ⟨status, station, -, ⟨-, rfl⟩ | ⟨-, rfl⟩⟩ := run_status_ok h
    · exact Works.of_eq rfl rfl
    · exact Works.of_eq rfl rfl
  case h_4 =>
    obtain ⟨p, -, -, -, -, -, -, -, rfl⟩ := run_approval_requested_ok h
    exact Works.of_eq rfl rfl
  case h_5 =>
    unfold run_tool_activity at h
    split at h
    · exact Works.of_pure h
    · split at h
      · rw [pure_eq_ok] at h
        subst h
        exact Works.of_eq rfl rfl
      · simp only [bind_eq_ok, pure_eq_ok] at h
        obtain ⟨_, -, rfl⟩ := h
        exact Works.of_eq rfl rfl
  case h_6 => cases h
  case h_7 => cases h
  case h_8 => cases h
  case h_9 => cases h
  case h_10 =>
    unfold run_usage at h
    simp only [bind_eq_ok, pure_eq_ok] at h
    obtain ⟨_, -, rfl⟩ := h
    exact Works.of_eq rfl rfl
  case h_11 =>
    unfold run_verification_started at h
    rw [pure_eq_ok] at h
    subst h
    exact Works.of_eq rfl rfl
  case h_12 =>
    obtain ⟨e, rfl, -⟩ := run_verification_evidence_ok h
    exact Works.of_eq rfl rfl
  case h_13 =>
    obtain ⟨_, _, _, -, -, -, rfl⟩ := run_verification_passed_ok h
    exact Works.of_eq rfl rfl
  case h_14 => exact run_verification_waiting_works h hs
  case h_15 =>
    unfold run_verification_failed at h
    obtain ⟨_, -, h⟩ := bind_eq_ok.mp h
    have hfactory := reconcile_factory_verification_failure_tx_works h hs
    exact ⟨hfactory.items, hfactory.operations⟩
  case h_16 =>
    unfold run_teardown_uncertain at h
    simp only [bind_eq_ok, pure_eq_ok] at h
    obtain ⟨_, -, detail, -, rfl⟩ := h
    exact Works.of_eq rfl rfl
  case h_17 =>
    obtain ⟨f, rfl, -⟩ := run_workspace_retained_ok h
    exact Works.of_eq rfl rfl
  case h_18 =>
    obtain ⟨f, rfl, -⟩ := run_workspace_retained_ok h
    exact Works.of_eq rfl rfl
  case h_19 =>
    unfold run_completed at h
    simp only [bind_eq_ok, pure_eq_ok] at h
    obtain ⟨_, -, _, -, u, hu, rfl⟩ := h
    have hfactory := complete_task_tx_works hu hs
    exact ⟨hfactory.items, hfactory.operations⟩
  case h_20 => exact run_failed_works h hs
  case h_21 => exact run_cancelled_works h hs
  all_goals exact Works.of_pure h

theorem apply_runner_event_works {now : Int} {input : RunnerEventInput} {o : Option Event}
    (h : apply_runner_event env s now input = .ok (o, t))
    (hs : Keyed FactoryWorkItem.id s.factory_work_items) : Works s t := by
  obtain ⟨row, scope, payload, -, ⟨-, -, rfl⟩ | ⟨-, -, -, heffect⟩⟩ := apply_runner_event_ok h
  · exact Works.refl
  · have heff := runner_event_effect_works heffect hs
    exact ⟨heff.items, heff.operations⟩

theorem apply_decision_works {input : VerificationDecision} {row : DecisionRow}
    (h : apply_decision s input row = .ok t)
    (hs : Keyed FactoryWorkItem.id s.factory_work_items) : Works s t := by
  unfold apply_decision at h
  split at h
  · have hfactory := complete_task_tx_works h hs
    exact ⟨hfactory.items, hfactory.operations⟩
  · have hfactory := reconcile_factory_verification_failure_tx_works h hs
    exact ⟨hfactory.items, hfactory.operations⟩

theorem record_verification_decision_works {input : VerificationDecision} {row : DecisionRow}
    (h : record_verification_decision s input row = .ok t)
    (hs : Keyed FactoryWorkItem.id s.factory_work_items) : Works s t := by
  unfold record_verification_decision at h
  simp only [bind_eq_ok, append_new_event_tx_ok] at h
  obtain ⟨_, -, u, hu, -, rfl⟩ := h
  have hfactory := apply_decision_works hu hs
  exact ⟨hfactory.items, hfactory.operations⟩

theorem expire_action_approval_works {now : Int} {approval_id : Uuid}
    (h : expire_action_approval s now approval_id = .ok t) : Works s t := by
  rcases expire_action_approval_ok h with rfl | ⟨approval, new, evs, -, -, -, -, -, rfl, -⟩
  · exact Works.refl
  · exact Works.of_eq rfl rfl

theorem finalize_artifact_upload_works {corp_id artifact_id : Uuid}
    {fence authority : ReceiptVerdict} {c : Committed String Db Unit}
    (h : finalize_artifact_upload s corp_id artifact_id fence authority = .ok c) :
    Works s c.state := by
  rcases finalize_artifact_upload_ok h with
    hc | ⟨reason, hc⟩ | ⟨a, run, task, mission, u, -, -, -, -, hready, hc⟩
  · rw [hc]
    exact Works.refl
  · rw [hc]
    exact Works.of_eq rfl rfl
  · have hsu : Works s u := by
      rcases hready.state with ⟨-, hu⟩ | ⟨-, row, -, -, hu⟩
      · rw [hu]
        exact Works.of_eq rfl rfl
      · rw [hu]
        exact Works.of_eq rfl rfl
    rw [hc]
    split
    · exact hsu.trans (Works.of_eq rfl rfl)
    · exact hsu

theorem lose_run_tx_works {row : LostRow} {reason : String}
    (h : lose_run_tx s row reason = .ok t)
    (hs : Keyed FactoryWorkItem.id s.factory_work_items) : Works s t := by
  unfold lose_run_tx at h
  obtain ⟨u, hu, h⟩ := bind_eq_ok.mp h
  have hsu : Works s u := by
    unfold end_lost_run at hu
    split at hu
    · exact terminalize_works hu hs
    · obtain rfl := Except.ok.inj hu
      exact Works.of_eq rfl rfl
  refine hsu.trans ?_
  rw [record_event_tx_ok.mp h]
  split
  · exact Works.of_eq rfl rfl
  · exact Works.of_eq rfl rfl

theorem mark_runner_runs_lost_tx_works {now : Int} {input : LostRunner}
    (h : mark_runner_runs_lost_tx s now input = .ok t)
    (hs : Keyed FactoryWorkItem.id s.factory_work_items) : Works s t := by
  unfold mark_runner_runs_lost_tx at h
  generalize lost_rows s input = rows at h
  induction rows generalizing s with
  | nil =>
    simp only [List.foldlM_nil] at h
    exact Works.of_pure h
  | cons row rows ih =>
    simp only [List.foldlM_cons, bind_eq_ok] at h
    obtain ⟨u, hu, h⟩ := h
    have hsu : Works s u := by
      unfold lose_row at hu
      obtain ⟨ready, -, hu⟩ := bind_eq_ok.mp hu
      split at hu
      · exact Works.of_pure hu
      · exact lose_run_tx_works hu hs
    exact hsu.trans (ih (hsu.keyed hs) h)

theorem block_undispatched_item_works {item : Option FactoryWorkItem} {mission : Mission}
    {run_id : Uuid} {reason : String}
    (h : block_undispatched_item s item mission run_id reason = .ok t)
    (hs : Keyed FactoryWorkItem.id s.factory_work_items)
    (hitem : ∀ i, item = some i → i ∈ s.factory_work_items ∧ i.mission_id.isSome = true
      ∧ factory_state_in_work i.state = true) : Works s t := by
  unfold block_undispatched_item at h
  split at h
  · exact Works.of_pure h
  · rename_i i
    split at h
    · exact Works.of_pure h
    · obtain ⟨hmem, hlinked, hwork⟩ := hitem i rfl
      rw [record_event_tx_ok] at h
      have hmoved : Works s (s.onFactoryWorkItems (updateWhere
          (fun j => j.id == i.id && j.corp_id == i.corp_id) fun j =>
            { j with state := .blocked, version := j.version + 1,
                     failure_detail := some reason })) :=
        Works.of_item hs hmem (fun j hj => id_of_clause hj) (.of_update hlinked hwork rfl) rfl rfl
      refine hmoved.trans ?_
      rw [h]
      split
      · exact Works.refl
      · exact Works.of_eq rfl rfl

theorem fail_run_before_dispatch_works {corp_id run_id : Uuid} {reason : String}
    (h : fail_run_before_dispatch s corp_id run_id reason = .ok t)
    (hs : Keyed FactoryWorkItem.id s.factory_work_items) : Works s t := by
  -- the item that is blocked is linked to the mission of the run and in work
  have hitem : ∀ mission_id i, ((s.factory_item_of corp_id mission_id).filter fun i =>
      [FactoryWorkItemState.claimed, .mission_created, .running, .blocked, .awaiting_approval,
        .verification_failed].contains i.state) = some i →
      i ∈ s.factory_work_items ∧ i.mission_id.isSome = true
        ∧ factory_state_in_work i.state = true := by
    intro mission_id i hi
    obtain ⟨hfind, hstate⟩ := Option.filter_eq_some_iff.mp hi
    obtain ⟨hmem, -, hmission⟩ := Db.factory_item_of_eq_some hfind
    refine ⟨hmem, by rw [hmission]; rfl, ?_⟩
    revert hstate
    cases i.state <;> decide
  unfold fail_run_before_dispatch at h
  simp only [bind_eq_ok, context_eq_ok] at h
  obtain ⟨⟨run, task, mission⟩, -, latest, -, h⟩ := h
  split at h
  · exact Works.of_pure h
  · by_cases hreplay : is_dispatch_replay run task mission = true
    · simp only [hreplay, if_true, ok_bind] at h
      exact block_undispatched_item_works h hs (hitem mission.id)
    · simp only [hreplay, Bool.false_eq_true, if_false, bind_eq_ok] at h
      obtain ⟨u, hu, h⟩ := h
      obtain ⟨msgs, evs, rfl, -⟩ := fail_dispatch_ok hu
      have hblock := block_undispatched_item_works h hs (hitem mission.id)
      exact ⟨hblock.items, hblock.operations⟩

theorem fail_factory_recovery_before_dispatch_works {corp_id run_id : Uuid} {reason : String}
    (h : fail_factory_recovery_before_dispatch s corp_id run_id reason = .ok t)
    (hs : Keyed FactoryWorkItem.id s.factory_work_items) : Works s t := by
  rcases fail_factory_recovery_before_dispatch_ok h with
    rfl | ⟨run, task, mission, recovery_id, text, -, -, hu⟩
  · exact Works.of_eq rfl rfl
  · unfold fail_recovery_dispatch at hu
    simp only [bind_eq_ok, append_new_event_tx_ok] at hu
    obtain ⟨_, ⟨-, rfl⟩, hu⟩ := hu
    have hfactory := reconcile_factory_verification_failure_tx_works hu hs
    exact ⟨hfactory.items, hfactory.operations⟩

theorem create_resume_run_works {now : Int} {input : ResumeInput}
    (h : create_resume_run env s now input = .ok t)
    (hs : Keyed FactoryWorkItem.id s.factory_work_items) : Works s t := by
  unfold create_resume_run insert_run at h
  simp only [bind_eq_ok, ensure_eq_ok, pure_eq_ok, append_new_event_tx_ok] at h
  obtain ⟨⟨source, task, mission⟩, -, scope, -, agent, -, _, -, session, -, _, -, _, -, _, -,
    latest, -, _, -, budget, -, u, ⟨_, -, rfl⟩, v, hv, -, rfl⟩ := h
  have hfactory := resume_tx_works hv hs
  exact ⟨hfactory.items, hfactory.operations⟩

end Calls

/-! ## The holder of the claim -/

/-- What the holder of a claim presents with a call, and when. -/
structure FactoryControl where
  corp_id : Uuid
  work_item_id : Uuid
  actor_id : Uuid
  claim_token : Uuid
  expected_version : Int
  now : Int

/-- The claim on the item is the one presented, at the version presented, and its lease runs. -/
structure FactoryWorkItem.Held (i : FactoryWorkItem) (c : FactoryControl) : Prop where
  id : i.id = c.work_item_id
  corp_id : i.corp_id = c.corp_id
  live : factory_state_is_terminal i.state = false
  claim_owner_id : i.claim_owner_id = c.actor_id
  claim_token : i.claim_token = c.claim_token
  version : i.version = c.expected_version
  lease : c.now < i.lease_expires_at

/-- What its holder can do to an item with a call of the lifecycle. -/
structure FactoryWorkItem.Managed (i i' : FactoryWorkItem) : Prop where
  columns : i' = { i with
    state := i'.state, version := i'.version, failure_detail := i'.failure_detail
    mission_id := i'.mission_id, lease_expires_at := i'.lease_expires_at }
  live : factory_state_is_terminal i.state = false
  version : i.version < i'.version
  /-- What is verified or published is given up or put back at most. -/
  settled : factory_state_in_work i.state = true ∨ i'.state ∈ [.verified, .failed, .cancelled]
  target : i'.state ∉ [.claimed, .publishing, .published]
  /-- A mission is linked once. -/
  mission : i.mission_id.isSome = true → i'.mission_id = i.mission_id
  unlinked : i'.mission_id = none → i'.state ∈ [.blocked, .failed, .cancelled]
  /-- A lease is given back when work is blocked before there is a mission. -/
  lease : i'.lease_expires_at = i.lease_expires_at ∨ (i'.mission_id = none ∧ i'.state = .blocked)

theorem FactoryWorkItem.Projected.managed {i i' : FactoryWorkItem} (h : i.Projected i') :
    i.Managed i' where
  columns := by rw [h.columns]
  live := by
    have hwork := h.work
    revert hwork
    cases i.state <;> decide
  version := h.version
  settled := Or.inl h.work
  target := by
    have houtcome := h.outcome
    revert houtcome
    cases i'.state <;> decide
  mission := fun _ => by rw [h.columns]
  unlinked := by
    intro hnone
    have hlinked := h.linked
    rw [h.columns] at hnone
    rw [hnone] at hlinked
    cases hlinked
  lease := Or.inl (by rw [h.columns])

/-- What the holder presents with the calls of the lifecycle that ask for it. -/
def Op.control : Op → Option FactoryControl
  | .materialize_factory_mission now input => some
    { corp_id := input.mission.corp_id, work_item_id := input.work_item_id
      actor_id := input.mission.requested_by, claim_token := input.claim_token
      expected_version := input.expected_version, now }
  | .transition_factory_work_item now input => some
    { corp_id := input.corp_id, work_item_id := input.work_item_id, actor_id := input.actor_id
      claim_token := input.claim_token, expected_version := input.expected_version, now }
  | .create_factory_verification_recovery now input => some
    { corp_id := input.corp_id, work_item_id := input.work_item_id, actor_id := input.actor_id
      claim_token := input.claim_token, expected_version := input.expected_factory_version, now }
  | _ => none

/-- The row among the operations of the Factory that a request with this key is recorded as. -/
def recorded_under (corp_id : Uuid) (raw : String) : Option (Uuid × String) :=
  (normalize_factory_idempotency_key raw).toOption.map fun key => (corp_id, key)

theorem recorded_under_normalized {corp_id : Uuid} {raw key : String}
    (h : normalize_factory_idempotency_key raw = .ok key) :
    recorded_under corp_id raw = some (corp_id, key) := by
  rw [recorded_under, h]
  rfl

/-- The key under which the call is recorded among the operations of the Factory. -/
def Op.factory_key : Op → Option (Uuid × String)
  | .materialize_factory_mission _ input =>
    recorded_under input.mission.corp_id input.idempotency_key
  | .transition_factory_work_item _ input => recorded_under input.corp_id input.idempotency_key
  | _ => none

/-- The operation under `key`, if there is one, is new and recorded with the token. -/
structure Logged (s t : Db) (key : Option (Uuid × String)) (token : Uuid) : Prop where
  silent : key = none → t.factory_operations = s.factory_operations
  entry : ∀ corp_id k, key = some (corp_id, k) → s.factory_operation corp_id k = none
    ∧ ∃ row, row.corp_id = corp_id ∧ row.idempotency_key = k ∧ row.claim_token = some token
      ∧ t.factory_operations = s.factory_operations ++ [row]

/-- What a call does to the items. -/
inductive Conduct (s t : Db) (op : Op) : Prop
  /-- The call has been made before. -/
  | replayed (h : t = s)
  /-- A projection, or nothing. -/
  | works (hop : op.control = none) (h : Works s t)
  /-- The holder of the claim moves its item. -/
  | managed (c : FactoryControl) (item : FactoryWorkItem) (hop : op.control = some c)
      (hitem : item ∈ s.factory_work_items) (hheld : item.Held c)
      (items : Updated (fun i i' => i' = i ∨ (i = item ∧ i.Managed i'))
        s.factory_work_items t.factory_work_items)
      (log : Logged s t op.factory_key c.claim_token)

theorem held_of_control {corp_id item_id actor_id token : Uuid} {expected_version now : Int}
    {item : FactoryWorkItem} (hitem : s.factory_work_item corp_id item_id = some item)
    (h : ensure_active_factory_control item actor_id token expected_version now = .ok ()) :
    item ∈ s.factory_work_items ∧ item.Held
      { corp_id, work_item_id := item_id, actor_id, claim_token := token, expected_version,
        now } := by
  obtain ⟨hmem, hid, hcorp⟩ := Db.factory_work_item_eq_some hitem
  unfold ensure_active_factory_control at h
  simp only [bind_eq_ok, ensure_eq_ok] at h
  obtain ⟨_, hlive, _, ⟨howner, htoken⟩, _, hversion, hlease⟩ := h
  exact ⟨hmem, ⟨hid, hcorp, hlive, howner, htoken, hversion, hlease⟩⟩

theorem materialize_factory_mission_conduct {now : Int} {input : MaterializeInput}
    (h : materialize_factory_mission s now input = .ok t)
    (hs : Keyed FactoryWorkItem.id s.factory_work_items) :
    Conduct s t (.materialize_factory_mission now input) := by
  unfold materialize_factory_mission at h
  simp only [bind_eq_ok, ensure_eq_ok] at h
  obtain ⟨_, -, _, -, key, hkey, _, -, h⟩ := h
  have hrecorded : (Op.materialize_factory_mission now input).factory_key
      = some (input.mission.corp_id, key) := recorded_under_normalized hkey
  split at h
  · simp only [bind_eq_ok, pure_eq_ok] at h
    obtain ⟨_, -, rfl⟩ := h
    exact .replayed rfl
  · rename_i hfresh
    simp only [bind_eq_ok, ensure_eq_ok, context_eq_ok, append_new_event_tx_ok] at h
    obtain ⟨current, hcurrent, _, hcontrol, _, ⟨hclaimed, hnone⟩, _, -, ⟨mission_id, u⟩, hu, -,
      rfl⟩ := h
    obtain ⟨hmem, hheld⟩ := held_of_control hcurrent hcontrol
    obtain ⟨mission, tasks, agents, dependencies, actors, memberships, evs, hplan, hstate, -⟩ :=
      create_mission_tx_ok hu
    have hitems : u.factory_work_items = s.factory_work_items := by rw [hstate]
    have hops : u.factory_operations = s.factory_operations := by rw [hstate]
    refine .managed _ current rfl hmem hheld ?_
      ⟨(fun hnone => by rw [hrecorded] at hnone; cases hnone), ?_⟩
    · change Updated _ s.factory_work_items (updateWhere _ _ u.factory_work_items)
      rw [hitems]
      refine Updated.of_updateWhere ?_ fun _ _ _ => Or.inl rfl
      intro i hi hclause
      simp only [Bool.and_eq_true, beq_iff_eq] at hclause
      obtain rfl := hs.eq_of_mem hi hmem (hclause.1.trans hheld.id.symm)
      refine Or.inr ⟨rfl, rfl, hheld.live, by simp, Or.inl (by rw [hclaimed]; rfl), by simp, ?_,
        by simp, Or.inl rfl⟩
      intro hsome
      rw [hnone] at hsome
      cases hsome
    · intro corp_id k hunder
      obtain ⟨rfl, rfl⟩ := Prod.mk.injEq .. ▸ Option.some.inj (hrecorded.symm.trans hunder)
      have hlog : ∀ row : FactoryOperation,
          u.factory_operations ++ [row] = s.factory_operations ++ [row] := fun row => by rw [hops]
      exact ⟨hfresh, _, rfl, rfl, rfl, hlog { request := .materialize input.request, .. }⟩

/-- What is settled is given up or put back at most. -/
theorem factory_transition_allowed_settled {source target : FactoryWorkItemState}
    (htarget : target ∉ [.claimed, .mission_created, .publishing, .published])
    (hallowed : factory_transition_allowed source target = true) :
    factory_state_in_work source = true ∨ target ∈ [.verified, .failed, .cancelled] := by
  revert htarget hallowed
  cases source <;> cases target <;> decide

/-- A transition does not enter a state that has its own operation. -/
theorem target_undedicated {target : FactoryWorkItemState}
    (htarget : target ∉ [.claimed, .mission_created, .publishing, .published]) :
    target ∉ [FactoryWorkItemState.claimed, .publishing, .published] := by
  revert htarget
  cases target <;> decide

theorem transition_factory_work_item_conduct {now : Int} {input : TransitionInput}
    (h : transition_factory_work_item s now input = .ok t)
    (hs : Keyed FactoryWorkItem.id s.factory_work_items) :
    Conduct s t (.transition_factory_work_item now input) := by
  unfold transition_factory_work_item at h
  simp only [bind_eq_ok, ensure_eq_ok] at h
  obtain ⟨_, -, _, htarget, detail, -, _, -, key, hkey, _, -, h⟩ := h
  have hrecorded : (Op.transition_factory_work_item now input).factory_key
      = some (input.corp_id, key) := recorded_under_normalized hkey
  split at h
  · simp only [bind_eq_ok, pure_eq_ok] at h
    obtain ⟨_, -, rfl⟩ := h
    exact .replayed rfl
  · rename_i hfresh
    simp only [bind_eq_ok, ensure_eq_ok, context_eq_ok, append_new_event_tx_ok] at h
    obtain ⟨current, hcurrent, _, hcontrol, _, hallowed, _, hmission, _, -, room, -, -, rfl⟩ := h
    obtain ⟨hmem, hheld⟩ := held_of_control hcurrent hcontrol
    refine .managed _ current rfl hmem hheld ?_
      ⟨(fun hnone => by rw [hrecorded] at hnone; cases hnone), ?_⟩
    · refine Updated.of_updateWhere ?_ fun _ _ _ => Or.inl rfl
      intro i hi hclause
      simp only [Bool.and_eq_true, beq_iff_eq] at hclause
      obtain rfl := hs.eq_of_mem hi hmem (hclause.1.trans hheld.id.symm)
      refine Or.inr ⟨rfl, rfl, hheld.live, by simp, ?_, ?_, fun _ => rfl, ?_, ?_⟩
      · exact factory_transition_allowed_settled htarget hallowed
      · exact target_undedicated htarget
      · intro hnone
        rcases hmission with hsome | hin
        · have hnone' : i.mission_id = none := hnone
          rw [hnone'] at hsome
          cases hsome
        · exact hin
      · by_cases hlease : i.mission_id.isNone = true ∧ input.state = .blocked
        · exact Or.inr ⟨Option.isNone_iff_eq_none.mp hlease.1, hlease.2⟩
        · exact Or.inl (if_neg hlease)
    · intro corp_id k hunder
      obtain ⟨rfl, rfl⟩ := Prod.mk.injEq .. ▸ Option.some.inj (hrecorded.symm.trans hunder)
      exact ⟨hfresh, _, rfl, rfl, rfl, rfl⟩

section Recovery

variable {now : Int} {input : RecoveryInput} {revision : String} {item : FactoryWorkItem}
  {source : Run} {task : Task} {mission : Mission}

/-- A checkpoint verification starts from an item in work. -/
theorem recovery_checkpoint_work {c : SourceWorkspaceCheckpoint × Option CheckpointAuthority}
    (h : recovery_checkpoint env s now input revision item task mission = .ok c)
    (hmode : input.mode = .checkpoint_verification) : factory_state_in_work item.state = true := by
  unfold recovery_checkpoint at h
  simp only [hmode, if_true, bind_eq_ok, ensure_eq_ok] at h
  obtain ⟨_, -, _, -, _, -, _, hstate, -⟩ := h
  rcases hstate with hstate | hstate | ⟨hstate, -⟩
  · rw [hstate]
    rfl
  · rw [hstate]
    rfl
  · rw [hstate]
    rfl

/-- Any other recovery starts from an item whose verification failed, if need be after the
item has caught up with its mission. -/
theorem recovery_failure_moves (h : recovery_failure s input item source task mission = .ok t)
    (hb : Bound s) (hitem : item ∈ s.factory_work_items)
    (hmission : item.mission_id = some mission.id) :
    Updated (fun i i' => i' = i ∨ (i = item ∧ i.Projected i'))
        s.factory_work_items t.factory_work_items
      ∧ t.factory_operations = s.factory_operations
      ∧ (input.mode ≠ .checkpoint_verification → factory_state_in_work item.state = true) := by
  unfold recovery_failure at h
  split at h
  · rename_i hmode
    rw [pure_eq_ok] at h
    subst h
    exact ⟨updated_same, rfl, fun hne => absurd hmode hne⟩
  · simp only [bind_eq_ok, ensure_eq_ok] at h
    obtain ⟨_, -, _, -, h⟩ := h
    split at h
    · rename_i hstate
      rw [pure_eq_ok] at h
      subst h
      exact ⟨updated_same, rfl, fun _ => by rw [hstate]; rfl⟩
    · simp only [bind_eq_ok, ensure_eq_ok] at h
      obtain ⟨_, hany, h⟩ := h
      obtain ⟨hitems, hops⟩ := reconcile_factory_verification_failure_tx_moves h hb.items_keyed
      refine ⟨hitems.mono ?_, hops, fun _ => ?_⟩
      · rintro i hi i' (rfl | ⟨hlink, hmoved⟩)
        · exact Or.inl rfl
        · refine Or.inr ⟨?_, hmoved⟩
          exact hb.links i hi item hitem (by rw [hlink]; rfl) (hlink.trans hmission.symm)
      · -- the reconciliation has looked at the state
        obtain ⟨current, hcurrent, hother⟩ := (Option.any_eq_true _ _).mp hany
        obtain ⟨hmem, -, hlink⟩ := Db.factory_item_of_eq_some hcurrent
        obtain rfl : current = item :=
          hb.links current hmem item hitem (by rw [hlink]; rfl) (hlink.trans hmission.symm)
        unfold reconcile_factory_verification_failure_tx at h
        simp only [hcurrent, bind_eq_ok] at h
        obtain ⟨_, -, h⟩ := h
        split at h
        · rename_i hfailed
          rw [hfailed] at hother
          cases hother
        · split at h
          · rename_i hblocked
            rw [hblocked.1]
            rfl
          · obtain ⟨_, hstate, -⟩ := bind_eq_ok.mp h
            have hin := ensure_eq_ok.mp hstate
            revert hin
            cases current.state <;> decide

/-- What starting a recovery writes to the items. -/
theorem start_recovery_items {reason : String} {run : Run} {attempt : Int}
    {authority : Option CheckpointAuthority} {policies : VerificationPolicy × VerificationPolicy}
    (h : start_recovery s input reason run task mission attempt authority policies = .ok t) :
    t.factory_work_items = updateWhere
        (fun i => i.id == input.work_item_id && i.corp_id == input.corp_id)
        (fun i => { i with state := .running, version := i.version + 1, failure_detail := none })
        s.factory_work_items
      ∧ t.factory_operations = s.factory_operations := by
  unfold start_recovery insert_run insert_recovery at h
  simp only [bind_eq_ok, ensure_eq_ok, pure_eq_ok] at h
  obtain ⟨_, ⟨_, -, rfl⟩, _, -, rfl⟩ := h
  obtain ⟨msgs, hmsgs⟩ := reserve_recovery_messages_eq (s.onRuns (· ++ [run])) input run
  rw [hmsgs]
  exact ⟨rfl, rfl⟩

theorem create_factory_verification_recovery_conduct
    (h : create_factory_verification_recovery env s now input = .ok t) (hb : Bound s) :
    Conduct s t (.create_factory_verification_recovery now input) := by
  unfold create_factory_verification_recovery at h
  simp only [bind_eq_ok, ensure_eq_ok] at h
  obtain ⟨⟨reason, revision⟩, -, _, -, _, -, h⟩ := h
  split at h
  · unfold replay_recovery at h
    simp only [bind_eq_ok, pure_eq_ok] at h
    obtain ⟨_, -, _, -, rfl⟩ := h
    exact .replayed rfl
  · simp only [bind_eq_ok, context_eq_ok] at h
    obtain ⟨item, hfind, _, hcontrol, mission_id, hlink, ⟨source, task, mission, agent⟩, hrow, _, -,
      ⟨u, run, attempt, authority, policies⟩, hadm, v, hstart, hann⟩ := h
    obtain ⟨hmem, hheld⟩ := held_of_control hfind hcontrol
    have hmission : item.mission_id = some mission.id := by
      unfold recovery_row at hrow
      simp only [Option.bind_eq_bind, Option.bind_eq_some_iff, Option.pure_def, Option.some.injEq,
        Option.guard_eq_some', Prod.mk.injEq] at hrow
      obtain ⟨⟨r, x, m⟩, -, _, ⟨hid, -⟩, a, -, -, -, hm, -⟩ := hrow
      rw [← hm, hid, hlink]
    unfold admit_recovery at hadm
    simp only [bind_eq_ok, ensure_eq_ok, pure_eq_ok, Prod.mk.injEq] at hadm
    obtain ⟨c, hc, w, hw, _, -, _, -, _, -, _, -, _, -, _, -, _, -, _, -, _, -, _, -, _, -, budget,
      -, _, -, _, -, _, -, _, -, rfl, -⟩ := hadm
    obtain ⟨hitems, hops, hfailed⟩ := recovery_failure_moves hw hb hmem hmission
    have hwork : factory_state_in_work item.state = true := by
      by_cases hmode : input.mode = .checkpoint_verification
      · exact recovery_checkpoint_work hc hmode
      · exact hfailed hmode
    obtain ⟨hstarted, hlogged⟩ := start_recovery_items hstart
    obtain ⟨command, evs, -, rfl, -⟩ := announce_recovery_ok hann
    refine .managed _ item rfl hmem hheld ?_ ⟨fun _ => hlogged.trans hops,
      (fun _ _ hkey => by cases hkey)⟩
    refine hitems.trans (S := fun i i' => i' = i ∨ (i.id = item.id ∧ i' = { i with
      state := .running, version := i.version + 1, failure_detail := none })) ?_ ?_
    · show Updated _ w.factory_work_items v.factory_work_items
      rw [hstarted]
      refine Updated.of_updateWhere ?_ fun _ _ _ => Or.inl rfl
      intro i _ hclause
      simp only [Bool.and_eq_true, beq_iff_eq] at hclause
      exact Or.inr ⟨hclause.1.trans hheld.id.symm, rfl⟩
    · rintro i hi j k hij hjk
      have hmoved : i = item → i.Managed { j with
          state := .running, version := j.version + 1, failure_detail := none } := by
        rintro rfl
        have hj : j = { i with
            state := j.state, version := j.version, failure_detail := j.failure_detail }
            ∧ i.version ≤ j.version := by
          rcases hij with rfl | ⟨-, hproj⟩
          · exact ⟨rfl, le_refl _⟩
          · exact ⟨hproj.columns, le_of_lt hproj.version⟩
        obtain ⟨hcolumns, hle⟩ := hj
        have hlinked : j.mission_id = some mission.id := by rw [hcolumns, hmission]
        refine ⟨by rw [hcolumns], hheld.live, ?_, Or.inl hwork, by simp, ?_, ?_, Or.inl ?_⟩
        · show i.version < j.version + 1
          omega
        · intro _
          rw [hmission, hlinked]
        · intro hnone
          rw [hlinked] at hnone
          cases hnone
        · rw [hcolumns]
      -- the row that is started is the one whose failure was recorded
      by_cases hid : i.id = item.id
      · obtain rfl := hb.items_keyed.eq_of_mem hi hmem hid
        rcases hjk with rfl | ⟨-, rfl⟩
        · exact hij.imp_right fun hproj => ⟨rfl, hproj.2.managed⟩
        · exact Or.inr ⟨rfl, hmoved rfl⟩
      · have hsame : j = i := by
          rcases hij with hsame | ⟨rfl, -⟩
          · exact hsame
          · exact absurd rfl hid
        rcases hjk with rfl | ⟨hkey, -⟩
        · exact Or.inl hsame
        · rw [hsame] at hkey
          exact absurd hkey hid

end Recovery

/-- **What each call of the lifecycle does to the work items.** -/
theorem exec_conduct (hb : Bound s) {op : Op} (h : exec env s op = .ok t) : Conduct s t op := by
  have hs := hb.items_keyed
  cases op with
  | apply_runner_event now input =>
    obtain ⟨⟨o, u⟩, hu, rfl⟩ := map_eq_ok.mp h
    exact .works rfl (apply_runner_event_works hu hs)
  | evaluate_circuit_breaker now corp_id run_id =>
    rcases evaluate_circuit_breaker_ok h with
      rfl | ⟨run, task, mission, stage, incident, command, event, -, -, -, -, hraise⟩
    · exact .works rfl Works.refl
    · rw [hraise.state]
      exact .works rfl (Works.of_eq rfl rfl)
  | set_budget_policy input =>
    obtain ⟨policies, evs, rfl, -⟩ := set_budget_policy_ok h
    exact .works rfl (Works.of_eq rfl rfl)
  | create_mission input =>
    obtain ⟨mission_id, h⟩ := create_mission_ok h
    obtain ⟨_, _, _, _, _, _, _, -, rfl, -⟩ := create_mission_tx_ok h
    exact .works rfl (Works.of_eq rfl rfl)
  | materialize_factory_mission now input => exact materialize_factory_mission_conduct h hs
  | transition_factory_work_item now input => exact transition_factory_work_item_conduct h hs
  | create_task_run now input =>
    obtain ⟨_, _, _, _, _, _, -, -, -, -, -, -, -, -, -, -, -, -, rfl, -⟩ := create_task_run_ok h
    exact .works rfl (Works.of_eq rfl rfl)
  | create_resume_run now input => exact .works rfl (create_resume_run_works h hs)
  | create_factory_verification_recovery now input =>
    exact create_factory_verification_recovery_conduct h hb
  | prepare_artifact_upload now input artifact staging_key receipt_allows =>
    obtain ⟨_, _, _, -, -, -, -, rfl | ⟨a, -, -, -, -, rfl⟩⟩ := prepare_artifact_upload_ok h
    · exact .works rfl Works.refl
    · exact .works rfl (Works.of_eq rfl rfl)
  | finalize_artifact_upload corp_id artifact_id fence authority =>
    obtain ⟨c, hc, rfl⟩ := map_eq_ok.mp h
    exact .works rfl (finalize_artifact_upload_works hc)
  | reject_staged_artifact corp_id artifact_id reason =>
    obtain rfl := Except.ok.inj h
    exact .works rfl (Works.of_eq rfl rfl)
  | abandon_staged_artifact corp_id artifact_id =>
    obtain rfl := Except.ok.inj h
    exact .works rfl (Works.of_eq rfl rfl)
  | clear_artifact_staging_key corp_id artifact_id staging_key =>
    obtain rfl := Except.ok.inj h
    exact .works rfl (Works.of_eq rfl rfl)
  | decide_action_approval now input =>
    obtain ⟨c, hc, rfl⟩ := map_eq_ok.mp h
    obtain ⟨approval, run, -, -, -, -, ⟨-, hsame⟩ | ⟨-, hexpire | hrecord⟩⟩ :=
      decide_action_approval_ok hc
    · rw [hsame]
      exact .works rfl Works.refl
    · exact .works rfl (expire_action_approval_works hexpire)
    · obtain ⟨command, evs, -, hstate, -⟩ := record_action_decision_ok hrecord
      rw [hstate]
      exact .works rfl (Works.of_eq rfl rfl)
  | expire_action_approval now approval_id => exact .works rfl (expire_action_approval_works h)
  | decide_verification now input =>
    rcases decide_verification_ok h with rfl | ⟨row, actor, -, hrecord⟩
    · exact .works rfl Works.refl
    · exact .works rfl (record_verification_decision_works hrecord hs)
  | acknowledge_runner_command command_id runner_id =>
    rcases settle_runner_command_ok h with rfl | ⟨msgs, evs, rfl, -⟩
    · exact .works rfl Works.refl
    · exact .works rfl (Works.of_eq rfl rfl)
  | fail_runner_command command_id runner_id detail =>
    rcases settle_runner_command_ok h with rfl | ⟨msgs, evs, rfl, -⟩
    · exact .works rfl Works.refl
    · exact .works rfl (Works.of_eq rfl rfl)
  | fail_run_before_dispatch corp_id run_id reason =>
    exact .works rfl (fail_run_before_dispatch_works h hs)
  | fail_factory_recovery_before_dispatch corp_id run_id reason =>
    exact .works rfl (fail_factory_recovery_before_dispatch_works h hs)
  | mark_runner_runs_lost now input => exact .works rfl (mark_runner_runs_lost_tx_works h hs)

end Crony.Store
