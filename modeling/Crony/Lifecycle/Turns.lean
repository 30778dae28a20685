/-
Which calls end runs, and which change how a run works.

The moves do not say which method makes them. Two questions need that: whether an agent is
freed when its run ends, and whether a run that waits for a decision is left waiting. For
both, almost every call is a sequence of moves that settle things (`Settle`): they end a run
only together with freeing its agent, and touch no other active run. The exceptions are
listed: five reports of an active run, its failure, the breaker, an artifact that becomes
ready, and an approval that expires.
-/
import Crony.Lifecycle.Reach

set_option autoImplicit false

open Crony.Lib

namespace Crony.Store

variable {env : Env} {s t : Db}

/-- A move that ends a run only together with freeing its agent. -/
inductive Settle (s t : Db) : Prop where
  | quiet (h : Quiet s t)
  | plan (mission : Mission) (tasks : List Task) (agents : List Agent)
      (dependencies : List TaskDependency) (h : Plan s t mission tasks agents dependencies)
  | admission (r : Run) (task : Task) (h : Admit s t r task)
  | complete (r : Run) (h : Complete s t r)
  | stop (r : Run) (h : Stop s t r) (hfreed : Freed t r)

/-- The reports that change how a run works. -/
def is_work_report : EventType → Bool
  | .run_started | .run_status | .run_approval_requested | .run_verification_started
  | .run_verification_waiting => true
  | _ => false

/-- The approvals a call finds pending and overdue. -/
def Op.expires (op : Op) (p : ActionApproval) : Prop :=
  p.status = .pending
    ∧ match op with
      | .expire_action_approval now approval_id => p.id = approval_id ∧ p.expires_at ≤ now
      | .decide_action_approval now input => p.id = input.approval_id ∧ p.expires_at ≤ now
      | _ => False

/-- The status tables after an approval expired. -/
structure Expired (s t : Db) (p : ActionApproval) : Prop where
  runs : t.runs = (s.expire_run p).runs
  tasks : t.tasks = (s.expire_run p).tasks
  missions : t.missions = (s.expire_run p).missions
  agents : t.agents = (s.expire_run p).agents
  task_dependencies : t.task_dependencies = s.task_dependencies

/-- What a committed call does to the lifecycle, method by method where it matters. -/
inductive Turn (env : Env) (s : Db) (op : Op) (t : Db) : Prop where
  | settled (h : Relation.ReflTransGen Settle s t)
  | worked (now : Int) (input : RunnerEventInput) (row : RunnerRow) (scope : Option RunScope)
      (payload : Json) (hop : op = .apply_runner_event now input)
      (hadm : Admitted s now input row scope payload)
      (htype : is_work_report input.event_type = true)
      (h : runner_event_effect env (s.onEvents (· ++ [runner_event input row payload])) now row
      scope
        input.event_type payload = .ok t)
  | failed (now : Int) (input : RunnerEventInput) (row : RunnerRow) (scope : Option RunScope)
      (payload : Json) (hop : op = .apply_runner_event now input)
      (hadm : Admitted s now input row scope payload) (htype : input.event_type = .run_failed)
      (h : run_failed env (s.onEvents (· ++ [runner_event input row payload])) row scope payload
        = .ok t)
  | raised (corp_id run_id : Uuid) (run : Run) (task : Task) (mission : Mission)
      (stage : BreakerStage) (incident : CircuitBreakerIncident) (command : RunnerCommand)
      (event : Event) (hj : Joined s corp_id run_id run task mission) (hactive : run.active = true)
      (h : Raising s t corp_id run task mission stage incident command event)
  | readied (corp_id artifact_id : Uuid) (a : Artifact) (run : Run) (task : Task)
      (mission : Mission) (u : Db)
      (hop : op = .finalize_artifact_upload corp_id artifact_id .allows .allows)
      (hrow : finalize_row s corp_id artifact_id = some (a, run, task, mission))
      (hstaged : a.status = .staged) (h : Readying s u a)
      (ht : t = if run.active then u.review_run run task.id else u)
  | expired (p : ActionApproval) (hp : p ∈ s.action_approvals) (hop : op.expires p)
      (h : Expired s t p)

theorem Turn.quiet {op : Op} (h : Quiet s t) : Turn env s op t := .settled (.single (.quiet h))

theorem Turn.unchanged {op : Op} : Turn env s op s := .settled Relation.ReflTransGen.refl

/-! ## Freed agents -/

theorem Freed.congr {u : Db} {r : Run} (h : Freed u r) (hagents : t.agents = u.agents) :
    Freed t r := by
  intro a ha hid
  exact h a (hagents ▸ ha) hid

theorem run_verification_failed_freed {row : RunnerRow} {payload : Json}
    (h : run_verification_failed s row payload = .ok t) : Freed t row.run := by
  obtain ⟨summary, items, recs, evs, rfl, -⟩ := run_verification_failed_ok h
  exact Freed.of_release (u := s.fail_verification row summary) rfl

theorem run_cancelled_freed {row : RunnerRow} {payload : Json}
    (h : run_cancelled s row payload = .ok t) : Freed t row.run := by
  unfold run_cancelled at h
  simp only [bind_eq_ok, pure_eq_ok] at h
  obtain ⟨u, -, rfl⟩ := h
  exact Freed.of_release rfl

/-! ## Every call -/

theorem expire_action_approval_turn {op : Op} {now : Int} {approval_id : Uuid}
    (hop : ∀ p : ActionApproval, p.status = .pending → p.id = approval_id → p.expires_at ≤ now →
      op.expires p)
    (h : expire_action_approval s now approval_id = .ok t) : Turn env s op t := by
  rcases expire_action_approval_ok h with
    rfl | ⟨p, new, evs, hp, hid, hpending, hdue, -, ht, -⟩
  · exact Turn.unchanged
  · refine .expired p hp (hop p hpending hid hdue) ?_
    subst ht
    exact ⟨rfl, rfl, rfl, rfl, rfl⟩

theorem apply_runner_event_turn {now : Int} {input : RunnerEventInput}
    {o : Option Event} (h : apply_runner_event env s now input = .ok (o, t)) :
    Turn env s (.apply_runner_event now input) t := by
  obtain ⟨row, scope, payload, hadm, ⟨-, -, rfl⟩ | ⟨-, -, -, heff⟩⟩ := apply_runner_event_ok h
  · exact Turn.unchanged
  have hj := hadm.reported.joined
  have hlive := hadm.reported.active
  -- The rest is about the state that already has the entry of the report.
  have hquiet : Quiet (s.onEvents (· ++ [runner_event input row payload])) t →
      Turn env s (.apply_runner_event now input) t :=
    fun hq => .quiet ⟨hq.runs, hq.tasks, hq.missions, hq.agents, hq.task_dependencies⟩
  have hstop : Stop (s.onEvents (· ++ [runner_event input row payload])) t row.run →
      Freed t row.run → Turn env s (.apply_runner_event now input) t :=
    fun hst hf => .settled (.single (.stop row.run ⟨hst.mem, hst.active, hst.runs, hst.tasks,
      hst.missions, hst.agents, hst.task_dependencies⟩ hf))
  have hj' := hj.onEvents (· ++ [runner_event input row payload])
  cases htype : input.event_type with
  | run_started | run_status | run_approval_requested | run_verification_started
  | run_verification_waiting =>
    exact .worked now input row scope payload rfl hadm (by rw [htype]; rfl) heff
  | run_failed =>
    rw [htype] at heff
    exact .failed now input row scope payload rfl hadm htype heff
  | run_session =>
    rw [htype] at heff
    exact hquiet (run_session_quiet heff)
  | run_tool_activity =>
    rw [htype] at heff
    exact hquiet (run_tool_activity_quiet heff)
  | run_usage =>
    rw [htype] at heff
    exact hquiet (run_usage_quiet heff)
  | run_verification_evidence =>
    rw [htype] at heff
    exact hquiet (run_verification_evidence_quiet heff)
  | run_verification_passed =>
    rw [htype] at heff
    exact hquiet (run_verification_passed_quiet heff)
  | run_teardown_uncertain =>
    rw [htype] at heff
    exact hquiet (run_teardown_uncertain_quiet heff)
  | run_workspace_preserved | run_workspace_removed =>
    rw [htype] at heff
    exact hquiet (run_workspace_retained_quiet heff)
  | run_verification_failed =>
    rw [htype] at heff hlive
    exact hstop (run_verification_failed_stop hj' (hlive rfl) heff)
      (run_verification_failed_freed heff)
  | run_cancelled =>
    rw [htype] at heff hlive
    exact hstop (run_cancelled_stop hj' (hlive rfl) heff) (run_cancelled_freed heff)
  | run_completed =>
    rw [htype] at heff hlive
    have hc := run_completed_complete hj' (hlive rfl) heff
    exact .settled (.single (.complete row.run ⟨hc.mem, hc.active, hc.runs, hc.tasks, hc.missions,
      hc.agents, hc.task_dependencies⟩))
  | run_artifact | run_artifact_upload | run_deliverable | run_deliverable_upload =>
    rw [htype] at heff
    cases heff
  | run_session_terminated | run_breaker_transition | factory_blocked | factory_claim_renewed
  | other text =>
    rw [htype] at heff
    simp only [runner_event_effect, pure_eq_ok] at heff
    subst heff
    exact .quiet (Quiet.of_same rfl rfl rfl rfl rfl)

theorem decide_verification_turn (hs : Life s) (hl : Linked s) {now : Int}
    {input : VerificationDecision} (h : decide_verification s now input = .ok t) :
    Turn env s (.decide_verification now input) t := by
  rcases decide_verification_ok h with rfl | ⟨row, actor, hdec, hrec⟩
  · exact Turn.unchanged
  · obtain ⟨u, evs, ht, -, ⟨-, happ⟩ | ⟨-, hrej⟩⟩ := record_verification_decision_ok hrec
    · exact .settled (.single (.complete row.run (approve_complete hs hl hdec happ ht)))
    · refine .settled (.single (.stop row.run (reject_stop hs hl hdec hrej ht) ?_))
      subst ht
      exact Freed.of_release rfl

theorem decide_action_approval_turn {now : Int} {input : ApprovalDecision}
    {c : Committed String Db Unit} (h : decide_action_approval s now input = .ok c) :
    Turn env s (.decide_action_approval now input) c.state := by
  obtain ⟨approval, run, -, haid, -, -, ⟨-, hsame⟩ | ⟨-, hexp | hrec⟩⟩ :=
    decide_action_approval_ok h
  · rw [hsame]
    exact Turn.unchanged
  · refine expire_action_approval_turn (fun p hpending hid hdue => ?_) hexp
    exact ⟨hpending, hid.trans haid, hdue⟩
  · obtain ⟨x, evs, -, hstate, -⟩ := record_action_decision_ok hrec
    rw [hstate]
    exact .quiet (Quiet.of_same rfl rfl rfl rfl rfl)

theorem mark_runner_runs_lost_tx_settles (hs : Life s) {now : Int} {input : LostRunner}
    (h : mark_runner_runs_lost_tx s now input = .ok t) : Relation.ReflTransGen Settle s t := by
  have hsteps := mark_runner_runs_lost_tx_steps hs h
  clear h
  induction hsteps with
  | refl => exact Relation.ReflTransGen.refl
  | tail _ hstep ih =>
    rcases hstep with rfl | ⟨r, hstop, hfreed, -⟩
    · exact ih
    · exact ih.tail (.stop r hstop hfreed)

/-- **What a committed call does to the lifecycle.** -/
theorem exec_turn (hs : Inv s) {op : Op} (h : exec env s op = .ok t) : Turn env s op t := by
  have hl := hs.linked
  have hs := hs.life
  cases op with
  | apply_runner_event now input =>
    obtain ⟨⟨o, u⟩, hu, rfl⟩ := map_eq_ok.mp h
    exact apply_runner_event_turn hu
  | evaluate_circuit_breaker now corp_id run_id =>
    rcases evaluate_circuit_breaker_ok h with
      rfl | ⟨run, task, mission, stage, i, c, e, hj, hactive, -, -, hraise⟩
    · exact Turn.unchanged
    · exact .raised corp_id run_id run task mission stage i c e hj hactive hraise
  | set_budget_policy input =>
    obtain ⟨policies, evs, rfl, -⟩ := set_budget_policy_ok h
    exact .quiet (Quiet.of_same rfl rfl rfl rfl rfl)
  | create_mission input =>
    obtain ⟨mission_id, h⟩ := create_mission_ok h
    obtain ⟨_, _, _, _, _, _, _, hplan, -⟩ := create_mission_tx_ok h
    exact .settled (.single (.plan _ _ _ _ hplan))
  | materialize_factory_mission now input =>
    rcases materialize_factory_mission_ok h with rfl | ⟨mission_id, u, items, ops, evs, hu, rfl, -⟩
    · exact Turn.unchanged
    · obtain ⟨_, _, _, _, _, _, _, hplan, -⟩ := create_mission_tx_ok hu
      exact .settled (.tail (.single (.plan _ _ _ _ hplan))
        (.quiet (Quiet.of_same rfl rfl rfl rfl rfl)))
  | transition_factory_work_item now input =>
    obtain ⟨items, ops, evs, rfl, -⟩ := transition_factory_work_item_ok h
    exact .quiet (Quiet.of_same rfl rfl rfl rfl rfl)
  | create_task_run now input =>
    obtain ⟨r, task, hadmit, -⟩ := create_task_run_admit hs h
    exact .settled (.single (.admission r task hadmit))
  | create_resume_run now input =>
    obtain ⟨r, task, hadmit, -⟩ := create_resume_run_admit hs h
    exact .settled (.single (.admission r task hadmit))
  | create_factory_verification_recovery now input =>
    rcases create_factory_verification_recovery_admit hs h with rfl | ⟨r, task, hadmit, -, -⟩
    · exact Turn.unchanged
    · exact .settled (.single (.admission r task hadmit))
  | prepare_artifact_upload now input artifact staging_key receipt_allows =>
    obtain ⟨_, _, _, -, -, -, -, rfl | ⟨a, -, -, -, -, rfl⟩⟩ := prepare_artifact_upload_ok h
    · exact Turn.unchanged
    · exact .quiet artifacts_quiet
  | finalize_artifact_upload corp_id artifact_id fence authority =>
    obtain ⟨c, hc, rfl⟩ := map_eq_ok.mp h
    rcases finalize_artifact_upload_ok hc with
      hsame | ⟨reason, hrej⟩ | ⟨a, run, task, mission, u, rfl, rfl, hrow, hstaged, hready, hstate⟩
    · rw [hsame]
      exact Turn.unchanged
    · rw [hrej]
      exact .quiet artifacts_quiet
    · exact .readied corp_id artifact_id a run task mission u rfl hrow hstaged hready hstate
  | reject_staged_artifact corp_id artifact_id reason =>
    obtain rfl := Except.ok.inj h
    exact .quiet artifacts_quiet
  | abandon_staged_artifact corp_id artifact_id =>
    obtain rfl := Except.ok.inj h
    exact .quiet artifacts_quiet
  | clear_artifact_staging_key corp_id artifact_id staging_key =>
    obtain rfl := Except.ok.inj h
    exact .quiet artifacts_quiet
  | decide_action_approval now input =>
    obtain ⟨c, hc, rfl⟩ := map_eq_ok.mp h
    exact decide_action_approval_turn hc
  | expire_action_approval now approval_id =>
    exact expire_action_approval_turn (fun p hpending hid hdue => ⟨hpending, hid, hdue⟩) h
  | decide_verification now input => exact decide_verification_turn hs hl h
  | acknowledge_runner_command command_id runner_id =>
    exact .quiet (settle_runner_command_quiet h)
  | fail_runner_command command_id runner_id detail =>
    exact .quiet (settle_runner_command_quiet h)
  | fail_run_before_dispatch corp_id run_id reason =>
    rcases fail_run_before_dispatch_ok h with hf | ⟨run, task, mission, text, u, hj, -, hst, hu, hf⟩
    · obtain ⟨items, recs, evs, rfl, -⟩ := hf
      exact .quiet (Quiet.of_same rfl rfl rfl rfl rfl)
    · obtain ⟨hstop, hfreed⟩ := fail_dispatch_stop hs hj hst hu hf
      exact .settled (.single (.stop run hstop hfreed))
  | fail_factory_recovery_before_dispatch corp_id run_id reason =>
    rcases fail_factory_recovery_before_dispatch_ok h with
      rfl | ⟨run, task, mission, recovery_id, text, hj, hst, hf⟩
    · exact .quiet (Quiet.of_same rfl rfl rfl rfl rfl)
    · obtain ⟨hstop, hfreed⟩ := fail_recovery_dispatch_stop hs hj hst hf
      exact .settled (.single (.stop run hstop hfreed))
  | mark_runner_runs_lost now input => exact .settled (mark_runner_runs_lost_tx_settles hs h)

end Crony.Store
