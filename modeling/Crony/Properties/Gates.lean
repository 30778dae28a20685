/-
A pending manual verification stays decidable.

`decide_verification` wants the run in `waiting_for_approval` and its task in
`awaiting_approval`, and a request can be made only once. Most calls leave a run that waits
alone, or end it. The steps that do neither are named by `Strands`: a start or a report of
work that resumes the run although its request is open, a verification that starts over, an
artifact of the run that becomes ready, and an approval of an earlier run of the same task
that expires. In a run without such a step every pending request of an active run can be
decided.
-/
import Crony.Lifecycle.Accrual
import Crony.Lifecycle.Turns

set_option autoImplicit false

open Crony.Lib

namespace Crony.Store

variable {env : Env} {s t : Db} {r r' : Run}

/-- A manual verification of the run is pending. -/
def Db.gated (s : Db) (r : Run) : Prop :=
  ∃ q ∈ s.verification_requests, q.run_id = r.id ∧ q.status = .pending

/-! ## The steps that strand a request -/

/-- A report that moves a waiting run on. -/
def resumes_run (s : Db) (r : Run) (input : RunnerEventInput) : Prop :=
  r.assigned input = true
    ∧ (input.event_type = .run_started ∨ input.event_type = .run_verification_started
      ∨ (input.event_type = .run_status ∧ (input.payload.text? "status").getD "working" = "working"
        ∧ run_pending s r.id = false))

/-- The call takes the run, or its task, out of the states a decision requires. -/
def strands_run (s : Db) (r : Run) : Op → Prop
  | .apply_runner_event now input => s.takes now input = true ∧ resumes_run s r input
  | .finalize_artifact_upload corp_id artifact_id .allows .allows =>
    ∃ a ∈ s.artifacts, a.id = artifact_id ∧ a.corp_id = corp_id ∧ a.status = .staged
      ∧ a.run_id = r.id
  | op => ∃ p ∈ s.action_approvals, op.expires p ∧ p.run_id ≠ r.id ∧ p.task_id = r.task_id

/-- A step that strands the pending request of an active run. -/
def Strands (s : Db) (op : Op) : Prop :=
  ∃ r ∈ s.runs, r.active = true ∧ s.gated r ∧ strands_run s r op

instance (op : Op) (p : ActionApproval) : Decidable (op.expires p) := by
  delta Op.expires
  rcases op <;> exact inferInstance

instance (s : Db) (r : Run) : Decidable (s.gated r) := by
  unfold Db.gated
  exact inferInstance

instance (s : Db) (r : Run) (input : RunnerEventInput) : Decidable (resumes_run s r input) := by
  unfold resumes_run
  exact inferInstance

instance (s : Db) (r : Run) (op : Op) : Decidable (strands_run s r op) := by
  delta strands_run
  rcases op
  case finalize_artifact_upload corp_id artifact_id fence authority =>
    rcases fence <;> rcases authority <;> exact inferInstance
  all_goals exact inferInstance

instance (s : Db) (op : Op) : Decidable (Strands s op) := by
  unfold Strands
  exact inferInstance

/-! ## Runs that are left waiting -/

/-- The run of an identifier before and after a step. -/
theorem Life.eq_of_kept (hs : Life s) {x : Run} (hx : x ∈ s.runs) (hr : r ∈ s.runs)
    (hk : x.Kept r') (hid : r'.id = r.id) : x = r :=
  hs.eq_of_id hx hr (hk.id.symm.trans hid)

theorem Quiet.steady (hs : Life s) (h : Quiet s t) (hr : r ∈ s.runs) (haw : s.awaits r)
    (hr' : r' ∈ t.runs) (hid : r'.id = r.id) : t.awaits r' := by
  obtain ⟨x, hx, hk, hst⟩ := h.runs.exists_old hr'
  obtain rfl := hs.eq_of_kept hx hr hk hid
  refine ⟨hst.trans haw.1, fun y' hy' hy'id => ?_⟩
  obtain ⟨y, hy, hky, -, hyst⟩ := h.tasks.exists_old hy'
  rw [hyst]
  exact haw.2 y hy (by rw [← hky.id, hy'id, hk.task_id])

/-- A stop of another run, or of this one. -/
theorem Stop.steady {w : Run} (hs : Life s) (h : Stop s t w) (hr : r ∈ s.runs)
    (hactive : r.active = true) (haw : s.awaits r) (hr' : r' ∈ t.runs) (hid : r'.id = r.id)
    (hactive' : r'.active = true) : t.awaits r' := by
  obtain ⟨x, hx, hk, hself, hother⟩ := h.runs.exists_old hr'
  obtain rfl := hs.eq_of_kept hx hr hk hid
  by_cases hw : x.id = w.id
  · rw [(hself hw).1] at hactive'
    cases hactive'
  · refine ⟨(hother hw).trans haw.1, fun y' hy' hy'id => ?_⟩
    obtain ⟨y, hy, hky, -, hyst⟩ := h.tasks.exists_old hy'
    have hyid : y.id = x.task_id := by rw [← hky.id, hy'id, hk.task_id]
    rcases hyst with hyst | ⟨hyw, -⟩
    · rw [hyst]
      exact haw.2 y hy hyid
    · exact absurd (by rw [hs.eq_of_task hr h.mem hactive h.active (hyid.symm.trans hyw)]) hw

theorem Complete.steady {w : Run} (hs : Life s) (h : Complete s t w) (hr : r ∈ s.runs)
    (hactive : r.active = true) (haw : s.awaits r) (hr' : r' ∈ t.runs) (hid : r'.id = r.id)
    (hactive' : r'.active = true) : t.awaits r' := by
  obtain ⟨x, hx, hk, hself, hother⟩ := h.runs.exists_old hr'
  obtain rfl := hs.eq_of_kept hx hr hk hid
  by_cases hw : x.id = w.id
  · rw [Run.not_active_of_completed (hself hw)] at hactive'
    cases hactive'
  · refine ⟨(hother hw).trans haw.1, fun y' hy' hy'id => ?_⟩
    obtain ⟨y, hy, hky, -, -, hyother⟩ := h.tasks.exists_old hy'
    have hyid : y.id = x.task_id := by rw [← hky.id, hy'id, hk.task_id]
    have hyw : y.id ≠ w.task_id := by
      intro hyw
      exact hw (by rw [hs.eq_of_task hr h.mem hactive h.active (hyid.symm.trans hyw)])
    have hyst := haw.2 y hy hyid
    rcases hyother hyw with hsame | ⟨hpending, -⟩
    · exact hsame.trans hyst
    · rw [hyst] at hpending
      cases hpending

/-- Work on another run. -/
theorem Work.steady_other {w : Run} (hs : Life s) (h : Work s t w) (hr : r ∈ s.runs)
    (hactive : r.active = true) (haw : s.awaits r) (hw : r.id ≠ w.id) (hr' : r' ∈ t.runs)
    (hid : r'.id = r.id) : t.awaits r' := by
  obtain ⟨x, hx, hk, hst⟩ := h.runs.exists_old hr'
  obtain rfl := hs.eq_of_kept hx hr hk hid
  have hst : r'.status = x.status := hst.resolve_right fun hself => hw hself.1
  refine ⟨hst.trans haw.1, fun y' hy' hy'id => ?_⟩
  obtain ⟨y, hy, hky, -, hyst⟩ := h.tasks.exists_old hy'
  have hyid : y.id = x.task_id := by rw [← hky.id, hy'id, hk.task_id]
  rcases hyst with hyst | ⟨hyw, -⟩
  · rw [hyst]
    exact haw.2 y hy hyid
  · exact absurd (by rw [hs.eq_of_task hr h.mem hactive h.active (hyid.symm.trans hyw)]) hw

theorem Settle.steady (hs : Life s) (h : Settle s t) (hr : r ∈ s.runs)
    (hactive : r.active = true) (haw : s.awaits r) (hr' : r' ∈ t.runs) (hid : r'.id = r.id)
    (hactive' : r'.active = true) : t.awaits r' := by
  cases h with
  | quiet h => exact h.steady hs hr haw hr' hid
  | plan mission tasks agents dependencies h =>
    rw [h.runs] at hr'
    obtain rfl := hs.eq_of_id hr' hr hid
    refine ⟨haw.1, fun y hy hyid => ?_⟩
    rcases h.mem_tasks.mp hy with hy | hy
    · exact haw.2 y hy hyid
    · obtain ⟨z, hz, hzid, -⟩ := hs.run_task r' hr
      exact absurd (hzid.trans hyid.symm) (h.tasks_fresh z hz y hy)
  | admission w task h =>
    rcases h.mem_runs.mp hr' with hr' | rfl
    · obtain rfl := hs.eq_of_id hr' hr hid
      refine ⟨haw.1, fun y' hy' hy'id => ?_⟩
      obtain ⟨y, hy, hky, -, -, hyother⟩ := h.tasks.exists_old hy'
      have hyid : y.id = r'.task_id := hky.id.symm.trans hy'id
      have hyw : y.id ≠ w.task_id := by
        intro hyw
        have hidle := h.task_idle r' hr (hyid.symm.trans hyw)
        rw [hactive] at hidle
        cases hidle
      rw [hyother hyw]
      exact haw.2 y hy hyid
    · exact absurd hid.symm (h.fresh r hr)
  | complete w h => exact h.steady hs hr hactive haw hr' hid hactive'
  | stop w h _ => exact h.steady hs hr hactive haw hr' hid hactive'

theorem Settle.move (h : Settle s t) : Move s t := by
  cases h with
  | quiet h => exact .turnover (.quiet h)
  | plan mission tasks agents dependencies h => exact .plan _ _ _ _ h
  | admission w task h => exact .turnover (.admission w task h)
  | complete w h => exact .turnover (.complete w h)
  | stop w h _ => exact .turnover (.stop w h)

/-- A run that is active after a step was active before it. -/
theorem Grows.active_of_active (h : Grows s t) (ht : Life t) (hr : r ∈ s.runs)
    (hr' : r' ∈ t.runs) (hid : r'.id = r.id) (hactive' : r'.active = true) : r.active = true := by
  obtain ⟨x, hx, hk, -, hend⟩ := h.runs r hr
  obtain rfl := ht.eq_of_id hx hr' (hk.id.trans hid.symm)
  by_contra hidle
  rw [Bool.not_eq_true] at hidle
  rw [Run.active_congr (hend hidle), hidle] at hactive'
  cases hactive'

theorem settles_steady (hs : Life s) (h : Relation.ReflTransGen Settle s t) (hr : r ∈ s.runs)
    (hactive : r.active = true) (haw : s.awaits r) (hr' : r' ∈ t.runs) (hid : r'.id = r.id)
    (hactive' : r'.active = true) : t.awaits r' := by
  induction h generalizing r' with
  | refl =>
    obtain rfl := hs.eq_of_id hr' hr hid
    exact haw
  | @tail u v hrun hstep ih =>
    have hmoves : Moves s u := Relation.ReflTransGen.mono (fun _ _ h => h.move) _ _ hrun
    have hu : Life u := hmoves.life hs
    obtain ⟨x, hx, hk, -, -⟩ := (hmoves.grows hs).runs r hr
    have hxid : r'.id = x.id := hid.trans hk.id.symm
    have hxactive : x.active = true :=
      (hstep.move.grows hu).active_of_active (hstep.move.life hu) hx hr' hxid hactive'
    exact hstep.steady hu hx hxactive (ih hx hk.id hxactive) hr' hxid hactive'

/-! ## The calls that are not of this kind -/

/-- A report about a run that waits for its manual verification leaves it waiting, unless it
resumes it. -/
theorem work_report_steady (hs : Inv s) {now : Int} {input : RunnerEventInput} {row : RunnerRow}
    {scope : Option RunScope} {payload : Json} (hadm : Admitted s now input row scope payload)
    (htype : is_work_report input.event_type = true)
    (h : runner_event_effect env (s.onEvents (· ++ [runner_event input row payload])) now row scope
      input.event_type payload = .ok t)
    (hok : ¬ resumes_run s row.run input) (haw : s.awaits row.run) (hr' : r' ∈ t.runs)
    (hid : r'.id = row.run.id) : t.awaits r' := by
  have hj := hadm.reported.joined
  have hassigned := hadm.reported.assigned
  -- The state of the run when its row and its task are not written.
  have hsame : t.runs = s.runs → t.tasks = s.tasks → t.awaits r' := by
    intro hruns htasks
    rw [hruns] at hr'
    obtain rfl := hs.life.eq_of_id hr' hj.run_mem hid
    refine ⟨haw.1, ?_⟩
    rw [htasks]
    exact haw.2
  -- The state when a report writes exactly the states a decision requires.
  have hwrite : ∀ {f : Run → Run} {g : Task → Task},
      t.runs = updateWhere (fun r => r.id == row.run.id) f s.runs →
      t.tasks = updateWhere (fun x => x.id == row.task.id) g s.tasks →
      (∀ x, x.Kept (f x) ∧ (f x).status = .waiting_for_approval) →
      (∀ x, (g x).status = .awaiting_approval) → t.awaits r' := by
    intro f g hruns htasks hf hg
    rw [hruns] at hr'
    obtain ⟨x, hx, rfl⟩ := mem_updateWhere.mp hr'
    have hxid : x.id = row.run.id := by
      split at hid
      · exact (hf x).1.id.symm.trans hid
      · exact hid
    obtain rfl := hs.life.eq_of_id hx hj.run_mem hxid
    rw [if_pos (beq_self_eq_true _)]
    refine ⟨(hf _).2, fun y' hy' hy'id => ?_⟩
    rw [htasks] at hy'
    obtain ⟨y, -, rfl⟩ := mem_updateWhere.mp hy'
    by_cases hy : y.id = row.task.id
    · rw [if_pos (by simpa using hy)]
      exact hg y
    · rw [if_neg (by simpa using hy)] at hy'id
      exact absurd (by rw [hy'id, (hf _).1.task_id, hj.task_id]) hy
  cases hty : input.event_type with
  | run_started => exact absurd ⟨hassigned, Or.inl hty⟩ hok
  | run_verification_started => exact absurd ⟨hassigned, Or.inr (Or.inl hty)⟩ hok
  | run_status =>
    rw [hty] at h
    have hpay : payload = input.payload := by
      have hp := hadm.payload_eq
      unfold runner_event_payload at hp
      rw [hty, if_neg (by simp), pure_eq_ok] at hp
      exact hp.symm
    obtain ⟨status, station, hstatus, ⟨-, ht⟩ | ⟨hworking, ht⟩⟩ := run_status_ok h
    · exact hsame (by rw [ht]; rfl) (by rw [ht]; rfl)
    · -- Work is reported while an action approval is pending: nothing is resumed.
      have hrun : run_pending s row.run.id = true := by
        by_contra hnone
        rw [Bool.not_eq_true] at hnone
        exact hok ⟨hassigned, Or.inr (Or.inr ⟨hty, by rw [← hpay, ← hstatus, hworking], hnone⟩)⟩
      have htask : task_pending s row.task.id = true := by
        unfold run_pending at hrun
        unfold task_pending
        simp only [List.any_eq_true, Bool.and_eq_true, beq_iff_eq] at hrun ⊢
        obtain ⟨p, hp, hprun, hpending⟩ := hrun
        obtain ⟨x, hx, hxid, hxtask, -⟩ := hs.linked.approvals p hp
        obtain rfl := hs.life.eq_of_id hx hj.run_mem (hxid.trans hprun)
        exact ⟨p, hp, hxtask.symm.trans hj.task_id.symm, hpending⟩
      refine hsame ?_ ?_
      · rw [ht]
        refine updateWhere_of_none fun x _ => ?_
        change (_ && !run_pending s row.run.id) = false
        rw [hrun]
        simp
      · rw [ht]
        refine updateWhere_of_none fun x _ => ?_
        change (_ && !task_pending s row.task.id) = false
        rw [htask]
        simp
  | run_approval_requested =>
    rw [hty] at h
    obtain ⟨p, -, -, -, -, -, -, -, ht⟩ := run_approval_requested_ok h
    subst ht
    exact hwrite rfl rfl (fun x => ⟨Run.Kept.of_identity rfl, rfl⟩) fun x => rfl
  | run_verification_waiting =>
    rw [hty] at h
    obtain ⟨q, v, c, u, -, -, -, -, -, -, -, rfl, items, recs, evs, ht, -⟩ :=
      run_verification_waiting_ok h
    subst ht
    exact hwrite rfl rfl (fun x => ⟨Run.Kept.of_identity rfl, rfl⟩) fun x => rfl
  | _ =>
    rw [hty] at htype
    cases htype

theorem work_report_work {now : Int} {input : RunnerEventInput} {row : RunnerRow}
    {scope : Option RunScope} {payload : Json} (hadm : Admitted s now input row scope payload)
    (htype : is_work_report input.event_type = true)
    (h : runner_event_effect env (s.onEvents (· ++ [runner_event input row payload])) now row scope
      input.event_type payload = .ok t) : Work s t row.run := by
  have hj := hadm.reported.joined.onEvents (· ++ [runner_event input row payload])
  have hactive := hadm.reported.active (by cases hty : input.event_type <;> rw [hty] at htype <;>
    first | rfl | cases htype)
  have hwork : Work (s.onEvents (· ++ [runner_event input row payload])) t row.run := by
    cases hty : input.event_type with
    | run_started =>
      rw [hty] at h
      exact run_started_work hj hactive h
    | run_verification_started =>
      rw [hty] at h
      exact run_verification_started_work hj hactive h
    | run_status =>
      rw [hty] at h
      exact run_status_work hj hactive h
    | run_approval_requested =>
      rw [hty] at h
      exact run_approval_requested_work hj hactive h
    | run_verification_waiting =>
      rw [hty] at h
      exact run_verification_waiting_work hj hactive h
    | _ =>
      rw [hty] at htype
      cases htype
  exact ⟨hwork.mem, hwork.active, hwork.runs, hwork.tasks, hwork.missions, hwork.agents,
    hwork.task_dependencies⟩

/-- The breaker interrupts only what runs. -/
theorem Raising.steady (hs : Life s) {corp_id : Uuid} {run : Run} {task : Task} {mission : Mission}
    {stage : BreakerStage} {incident : CircuitBreakerIncident} {command : RunnerCommand}
    {event : Event} (h : Raising s t corp_id run task mission stage incident command event)
    (hr : r ∈ s.runs) (haw : s.awaits r) (hr' : r' ∈ t.runs) (hid : r'.id = r.id) :
    t.awaits r' := by
  have ht := h.state
  rw [ht] at hr'
  obtain ⟨x, hx, hxr⟩ := mem_updateWhere.mp hr'
  have hkept : x.Kept r' := by
    rw [← hxr]
    split
    · exact Run.Kept.of_identity rfl
    · exact Run.Kept.refl x
  obtain rfl := hs.eq_of_kept hx hr hkept hid
  refine ⟨?_, fun y' hy' hy'id => ?_⟩
  · rw [← hxr]
    split
    · simp [Run.raised, haw.1]
    · exact haw.1
  · rw [ht] at hy'
    obtain ⟨y, hy, rfl⟩ := mem_updateWhere.mp hy'
    have hyid : y.id = x.task_id := by
      rw [hkept.task_id] at hy'id
      split at hy'id
      · exact hy'id
      · exact hy'id
    have hyst := haw.2 y hy hyid
    rw [if_neg (by simp [hyst])]
    exact hyst

/-- An artifact of another run. -/
theorem Readying.steady {u : Db} {a : Artifact} {run : Run} {task : Task} (hs : Inv s)
    (ha : a ∈ s.artifacts) (hrun : run ∈ s.runs) (hrid : run.id = a.run_id)
    (htask : task.id = a.task_id) (h : Readying s u a)
    (ht : t = if run.active then u.review_run run task.id else u) (hr : r ∈ s.runs)
    (hactive : r.active = true) (haw : s.awaits r) (hne : r.id ≠ a.run_id) (hr' : r' ∈ t.runs)
    (hid : r'.id = r.id) : t.awaits r' := by
  have hquiet := h.quiet
  by_cases hact : run.active = true
  · rw [if_pos hact] at ht
    have hu : Life u := Quiet.life hs.life hquiet
    obtain ⟨x, hx, hk, hst⟩ := hquiet.runs.exists_new hr
    have hxaw := hquiet.steady hs.life hr haw hx hk.id
    obtain ⟨y, hy, hyk, hyst⟩ := hquiet.runs.exists_new hrun
    obtain ⟨z, hz, hzid, hztask⟩ := hs.linked.artifacts a ha
    obtain rfl := hs.life.eq_of_id hz hrun (hzid.trans hrid.symm)
    obtain ⟨w, -, hwk, hwork⟩ := review_run_work (s := u) z task.id
      ⟨y, hy, hyk, by rw [Run.active_congr hyst, hact]⟩ (htask.trans hztask.symm)
    subst ht
    refine hwork.steady_other hu hx (by rw [Run.active_congr hst, hactive]) hxaw ?_ hr'
      (hid.trans hk.id.symm)
    rw [hk.id, hwk.id, hrid]
    exact hne
  · rw [if_neg hact] at ht
    subst ht
    exact hquiet.steady hs.life hr haw hr' hid

/-- The approval of this run, or one of another task. -/
theorem Expired.steady {p : ActionApproval} (hs : Life s) (h : Expired s t p) (hr : r ∈ s.runs)
    (haw : s.awaits r) (hok : p.run_id ≠ r.id → p.task_id ≠ r.task_id) (hr' : r' ∈ t.runs)
    (hid : r'.id = r.id) (hactive' : r'.active = true) : t.awaits r' := by
  rw [h.runs] at hr'
  obtain ⟨x, hx, hxr⟩ := mem_updateWhere.mp hr'
  have hkept : x.Kept r' := by
    rw [← hxr]
    split
    · exact Run.Kept.of_identity rfl
    · exact Run.Kept.refl x
  obtain rfl := hs.eq_of_kept hx hr hkept hid
  by_cases hprun : x.id = p.run_id
  · -- The run itself is cancelled.
    rw [if_pos (by simp [hprun, haw.1])] at hxr
    subst hxr
    cases hactive'
  · rw [if_neg (by simp [hprun])] at hxr
    subst hxr
    refine ⟨haw.1, fun y' hy' hy'id => ?_⟩
    rw [h.tasks] at hy'
    obtain ⟨y, hy, rfl⟩ := mem_updateWhere.mp hy'
    have hyid : y.id = x.task_id := by
      split at hy'id
      · exact hy'id
      · exact hy'id
    have hne : y.id ≠ p.task_id := fun he => hok (Ne.symm hprun) (he.symm.trans hyid)
    rw [if_neg (by simp [hne])]
    exact haw.2 y hy hyid

/-! ## Runs without such a step -/

/-- A request that is pending after a step was pending before it, or was made by it. -/
theorem Effect.gated {op : Op} (h : Effect s op t) (hg : t.gated r') :
    (∃ q ∈ s.verification_requests, q.run_id = r'.id ∧ q.status = .pending)
      ∨ (r' ∈ t.runs → t.awaits r') := by
  obtain ⟨q', hq', hrun, hpending⟩ := hg
  have hupdated : Updated VerificationRequest.Kept s.verification_requests t.verification_requests →
      ∃ q ∈ s.verification_requests, q.run_id = r'.id ∧ q.status = .pending := by
    intro hu
    obtain ⟨q, hq, hk⟩ := hu.exists_old hq'
    exact ⟨q, hq, hk.run_id.symm.trans hrun, hk.pending hpending⟩
  have hsame : t.verification_requests = s.verification_requests →
      ∃ q ∈ s.verification_requests, q.run_id = r'.id ∧ q.status = .pending :=
    fun heq => ⟨q', heq ▸ hq', hrun, hpending⟩
  have hadvance : ∀ {v : Db} {r : Run}, Advance v t r →
      v.verification_requests = s.verification_requests →
      (∃ q ∈ s.verification_requests, q.run_id = r'.id ∧ q.status = .pending)
        ∨ (r' ∈ t.runs → t.awaits r') := by
    intro v r hadv hreq
    rcases hadv.verification_requests q' hq' with ⟨q, hq, hk⟩ | ⟨hqr, -, -, hawaits⟩
    · exact Or.inl ⟨q, hreq ▸ hq, hk.run_id.symm.trans hrun, hk.pending hpending⟩
    · exact Or.inr fun hr' => hawaits r' hr' (hrun.symm.trans hqr)
  cases h with
  | calm h => exact Or.inl (hupdated h.verification_requests)
  | settled command_id _ h => exact Or.inl (hupdated h.verification_requests)
  | admitted r _ h => exact Or.inl (hupdated h.verification_requests)
  | raised now corp_id run_id run task mission stage i c e _ _ _ _ h =>
    exact Or.inl (hsame (by rw [h.state]))
  | shelved l h ht => exact Or.inl (hsame (by rw [ht]; rfl))
  | readied corp_id artifact_id a run task mission u _ _ _ h ht =>
    obtain ⟨runs, tasks, agents, hr⟩ := review_run_frame u run task.id run.active
    exact Or.inl (hsame (by rw [ht, hr]; exact h.frame.2.2.1))
  | approved now input row actor _ _ _ hadv => exact hadvance hadv rfl
  | reported now input row scope payload hop hadm _ _ h =>
    cases h with
    | calm _ h => exact Or.inl (hupdated h.verification_requests)
    | ended _ h => exact Or.inl (hupdated h.verification_requests)
    | asked _ p _ _ _ h _ _ => exact Or.inl (hupdated h.verification_requests)
    | usage _ h =>
      unfold run_usage at h
      simp only [bind_eq_ok, pure_eq_ok] at h
      obtain ⟨_, -, rfl⟩ := h
      exact Or.inl (hsame rfl)
    | evidence _ h =>
      obtain ⟨e, rfl, -⟩ := run_verification_evidence_ok h
      exact Or.inl (hsame rfl)
    | passed _ h =>
      obtain ⟨_, _, _, -, -, -, rfl⟩ := run_verification_passed_ok h
      exact Or.inl (hsame rfl)
    | waiting _ _ hadv => exact hadvance hadv rfl
    | completed _ _ hadv => exact hadvance hadv rfl

theorem exec_gates (hs : Inv s) (hg : ∀ r ∈ s.runs, r.active = true → s.gated r → s.awaits r)
    {op : Op} (hok : ¬ Strands s op) (h : exec env s op = .ok t) :
    ∀ r ∈ t.runs, r.active = true → t.gated r → t.awaits r := by
  rcases exec_taken h with rfl | htaken
  · exact hg
  intro r' hr' hactive' hgated'
  rcases (exec_effect hs.life hs.linked h).gated hgated' with ⟨q, hq, hqrun, hpending⟩ | hnew
  swap
  · exact hnew hr'
  -- The request was there: so was its run, active and waiting.
  obtain ⟨r, hr, hrid, -⟩ := hs.linked.requests q hq
  have hid : r'.id = r.id := hqrun.symm.trans hrid.symm
  have hactive := (exec_grows hs h).active_of_active (exec_inv hs h).life hr hr' hid hactive'
  have hgated : s.gated r := ⟨q, hq, hqrun.trans hid, hpending⟩
  have haw := hg r hr hactive hgated
  cases exec_turn hs h with
  | settled h => exact settles_steady hs.life h hr hactive haw hr' hid hactive'
  | worked now input row scope payload hop hadm htype heff =>
    by_cases hrow : r.id = row.run.id
    · obtain rfl := hs.life.eq_of_id hr hadm.reported.joined.run_mem hrow
      refine work_report_steady hs hadm htype heff ?_ haw hr' hid
      intro hres
      refine hok ⟨row.run, hr, hactive, hgated, ?_⟩
      rw [hop]
      exact ⟨htaken now input hop, hres⟩
    · exact (work_report_work hadm htype heff).steady_other hs.life hr hactive haw hrow hr' hid
  | failed now input row scope payload hop hadm htype hfail =>
    have hs' : Life (s.onEvents (· ++ [runner_event input row payload])) :=
      Quiet.life hs.life (Quiet.of_same rfl rfl rfl rfl rfl)
    have hstop := run_failed_stop hs' (hadm.reported.joined.onEvents _)
      (hadm.reported.active (by rw [htype]; rfl)) hfail
    exact hstop.steady hs' hr hactive haw hr' hid hactive'
  | raised corp_id run_id run task mission stage i c e _ _ h =>
      exact h.steady hs.life hr haw hr' hid
  | readied corp_id artifact_id a run task mission u hop hrow hstaged h ht =>
    obtain ⟨ha, haid, hacorp, hrun, hrunid, -, htid⟩ := finalize_row_eq_some hrow
    refine h.steady hs ha hrun hrunid htid ht hr hactive haw ?_ hr' hid
    intro hrel
    refine hok ⟨r, hr, hactive, hgated, ?_⟩
    rw [hop]
    exact ⟨a, ha, haid, hacorp, hstaged, hrel.symm⟩
  | expired p hp hop h =>
    refine h.steady hs.life hr haw ?_ hr' hid hactive'
    intro hne htask
    refine hok ⟨r, hr, hactive, hgated, ?_⟩
    have hmatch : ∃ p ∈ s.action_approvals, op.expires p ∧ p.run_id ≠ r.id
        ∧ p.task_id = r.task_id :=
      ⟨p, hp, hop, hne, htask⟩
    -- Only two calls expire approvals.
    cases op with
    | expire_action_approval now approval_id => exact hmatch
    | decide_action_approval now input => exact hmatch
    | _ => exact absurd hop.2 id

/-- **A pending manual verification stays decidable.** In every state of a run without a step
that strands a request, a pending request of an active run finds that run and its task in the
states `decide_verification` requires. -/
theorem pending_request_decidable (h : ReachableVia env (fun s op => ¬ Strands s op) s) :
    ∀ q ∈ s.verification_requests, q.status = .pending → ∀ r ∈ s.runs, r.id = q.run_id →
      r.active = true → r.status = .waiting_for_approval
        ∧ ∃ x ∈ s.tasks, x.id = r.task_id ∧ x.status = .awaiting_approval := by
  have hg : ∀ r ∈ s.runs, r.active = true → s.gated r → s.awaits r := by
    refine ReachableVia.inv (I := fun s => ∀ r ∈ s.runs, r.active = true → s.gated r → s.awaits r)
      h ?_ fun _ _ _ hr hg hok he => exec_gates hr.invariants hg hok he
    intro s₀ h0
    simp [h0.runs]
  intro q hq hpending r hr hid hactive
  have haw := hg r hr hactive ⟨q, hq, hid.symm, hpending⟩
  obtain ⟨x, hx, hxid, -⟩ := (ReachableVia.invariants h).life.run_task r hr
  exact ⟨haw.1, x, hx, hxid, haw.2 x hx hxid⟩

/-- One file check, and a gate for the owner. -/
def Office.gated_policy : VerificationPolicy where
  checks := [.file "report.md" 1]
  manual_gate := some (.human_approval ["owner"])

/-- A run up to its request for a manual verification. -/
def Office.waiting_run : List Op :=
  [Office.create_mission (Office.plan [Office.task "a" [] Office.gated_policy]),
    Office.dispatch 1 50, Office.report 50 201 .run_started (.obj []),
    Office.report 50 202 .run_verification_started (.obj []),
    Office.report 50 203 .run_verification_evidence (Office.evidence 0 900 "file"),
    Office.report 50 204 .run_verification_passed (.obj []),
    Office.report 50 205 .run_verification_waiting (.obj [("gate_type", .str "human_approval"),
      ("gate", .obj [("type", .str "human_approval"), ("roles", .arr [.str "owner"])])])]

set_option maxRecDepth 20000 in
theorem pending_request_decidable_office :
    (Office.after Office.waiting_run).verification_requests.map VerificationRequest.status
        = [.pending]
      ∧ ∀ q ∈ (Office.after Office.waiting_run).verification_requests, q.status = .pending →
        ∀ r ∈ (Office.after Office.waiting_run).runs, r.id = q.run_id → r.active = true →
          r.status = .waiting_for_approval := by
  refine ⟨by decide, fun q hq hpending r hr hid hactive => ?_⟩
  have hrun : ReachableVia Office.digest (fun s op => ¬ Strands s op)
      (Office.after Office.waiting_run) :=
    TransitionSystem.ReachableVia.run Office.initial (by decide)
  exact (pending_request_decidable hrun q hq hpending r hr hid hactive).1

set_option maxRecDepth 20000 in
/-- A report of work resumes the run: its request stays pending and nobody can decide it. -/
theorem pending_request_stranded :
    ¬ ∀ s, Reachable Office.digest s → ∀ q ∈ s.verification_requests, q.status = .pending →
      ∀ r ∈ s.runs, r.id = q.run_id → r.active = true → r.status = .waiting_for_approval
        ∧ ∃ x ∈ s.tasks, x.id = r.task_id ∧ x.status = .awaiting_approval := by
  intro hall
  have hstate := hall _ (Office.reachable_after (Office.waiting_run
    ++ [Office.report 50 206 .run_status (.obj [("status", .str "working")])]))
  revert hstate
  decide

end Crony.Store
