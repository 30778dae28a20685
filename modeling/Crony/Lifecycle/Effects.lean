/-
What a committed call can do, said once.

`exec_moves`: every call is a sequence of moves. `exec_effect`: beside its moves, a call is
calm, admits a run, raises the breaker, touches artifacts, or advances one run on the
strength of evidence already there. Every later argument about whole runs of the store is a
case split on these two, never on the methods themselves.
-/
import Crony.Lifecycle.Admissions
import Crony.Lifecycle.Settlements
import Crony.Lifecycle.Losses

set_option autoImplicit false

open Crony.Lib

namespace Crony.Store

variable {env : Env} {s t : Db}

/-! ## Every call is a sequence of moves -/

/-- The calls that create a mission. -/
def Op.plans : Op → Bool
  | .create_mission _ | .materialize_factory_mission _ _ => true
  | _ => false

/-- A call that plans nothing. -/
theorem exec_turnovers (hs : Life s) (hl : Linked s) {op : Op} (hop : op.plans = false)
    (h : exec env s op = .ok t) : Turnovers s t := by
  cases op with
  | apply_runner_event now input =>
    obtain ⟨⟨o, u⟩, hu, rfl⟩ := map_eq_ok.mp h
    exact .single (apply_runner_event_move hs hu)
  | evaluate_circuit_breaker now corp_id run_id => exact .single (evaluate_circuit_breaker_move h)
  | set_budget_policy input =>
    obtain ⟨policies, evs, rfl, -⟩ := set_budget_policy_ok h
    exact .single (.quiet (Quiet.of_same rfl rfl rfl rfl rfl))
  | create_mission input => cases hop
  | materialize_factory_mission now input => cases hop
  | transition_factory_work_item now input =>
    obtain ⟨items, ops, evs, rfl, -⟩ := transition_factory_work_item_ok h
    exact .single (.quiet (Quiet.of_same rfl rfl rfl rfl rfl))
  | create_task_run now input =>
    obtain ⟨r, task, hadmit, -⟩ := create_task_run_admit hs h
    exact .single (.admission r task hadmit)
  | create_resume_run now input =>
    obtain ⟨r, task, hadmit, -⟩ := create_resume_run_admit hs h
    exact .single (.admission r task hadmit)
  | create_factory_verification_recovery now input =>
    rcases create_factory_verification_recovery_admit hs h with rfl | ⟨r, task, hadmit, -, -⟩
    · exact Relation.ReflTransGen.refl
    · exact .single (.admission r task hadmit)
  | prepare_artifact_upload now input artifact staging_key receipt_allows =>
    obtain ⟨_, _, _, -, -, -, -, rfl | ⟨a, -, -, -, -, rfl⟩⟩ := prepare_artifact_upload_ok h
    · exact Relation.ReflTransGen.refl
    · exact .single (.quiet artifacts_quiet)
  | finalize_artifact_upload corp_id artifact_id fence authority =>
    obtain ⟨c, hc, rfl⟩ := map_eq_ok.mp h
    exact finalize_artifact_upload_moves hs hl hc
  | reject_staged_artifact corp_id artifact_id reason =>
    obtain rfl := Except.ok.inj h
    exact .single (.quiet artifacts_quiet)
  | abandon_staged_artifact corp_id artifact_id =>
    obtain rfl := Except.ok.inj h
    exact .single (.quiet artifacts_quiet)
  | clear_artifact_staging_key corp_id artifact_id staging_key =>
    obtain rfl := Except.ok.inj h
    exact .single (.quiet artifacts_quiet)
  | decide_action_approval now input =>
    obtain ⟨c, hc, rfl⟩ := map_eq_ok.mp h
    exact .single (decide_action_approval_move hs hl hc)
  | expire_action_approval now approval_id => exact .single (expire_action_approval_move hs hl h)
  | decide_verification now input => exact .single (decide_verification_move hs hl h)
  | acknowledge_runner_command command_id runner_id =>
    exact .single (.quiet (settle_runner_command_quiet h))
  | fail_runner_command command_id runner_id detail =>
    exact .single (.quiet (settle_runner_command_quiet h))
  | fail_run_before_dispatch corp_id run_id reason =>
    exact .single (fail_run_before_dispatch_move hs h)
  | fail_factory_recovery_before_dispatch corp_id run_id reason =>
    exact .single (fail_factory_recovery_before_dispatch_move hs h)
  | mark_runner_runs_lost now input => exact mark_runner_runs_lost_tx_moves hs h

/-- **A call is a sequence of moves.** -/
theorem exec_moves (hs : Life s) (hl : Linked s) {op : Op} (h : exec env s op = .ok t) :
    Moves s t := by
  cases hop : op.plans with
  | false => exact (exec_turnovers hs hl hop h).moves
  | true =>
    cases op with
    | create_mission input =>
      obtain ⟨mission_id, h⟩ := create_mission_ok h
      obtain ⟨_, _, _, _, _, _, _, hplan, -⟩ := create_mission_tx_ok h
      exact .single (.plan _ _ _ _ hplan)
    | materialize_factory_mission now input =>
      rcases materialize_factory_mission_ok h with rfl |
        ⟨mission_id, u, items, ops, evs, hu, rfl, -⟩
      · exact Relation.ReflTransGen.refl
      · obtain ⟨_, _, _, _, _, _, _, hplan, -⟩ := create_mission_tx_ok hu
        exact .tail (.single (.plan _ _ _ _ hplan))
          (.turnover (.quiet (Quiet.of_same rfl rfl rfl rfl rfl)))
    | _ => cases hop

/-! ## What a call does beside its moves -/

/-- The keys under which the end of a run blocks its Factory item. -/
def EventKey.names_end (key : EventKey) (run_id : Uuid) : Prop :=
  ∃ item, key = .factory_run_failed item run_id
    ∨ key = .factory_verification_failed item run_id .recovery_run_failure
    ∨ key = .factory_verification_failed item run_id .recovery_run_cancelled

/-- An entry of a report that ends the run. -/
def Event.OfEnd (run_id : Uuid) (e : Event) : Prop :=
  (e.idempotency_key.is_routine = true ∨ e.idempotency_key.names_end run_id)
    ∧ e.type.is_routine = true

/-- The entry of a command that was acknowledged or refused. -/
def Event.OfCommand (command_id : Uuid) (e : Event) : Prop :=
  (e.idempotency_key = .runner_command_ack command_id
      ∨ e.idempotency_key = .runner_command_failed command_id)
    ∧ e.type.is_routine = true

/-- The run claims to have passed its automated checks. -/
def Db.claims (s : Db) (r : Run) : Prop :=
  r.status = .completed ∨ r.verification_status = .passed
    ∨ r.verification_status = .waiting_for_approval
    ∨ ∃ q ∈ s.verification_requests, q.run_id = r.id

/-- The run waits for a decision, and so does its task. -/
def Db.awaits (s : Db) (r : Run) : Prop :=
  r.status = .waiting_for_approval
    ∧ ∀ x ∈ s.tasks, x.id = r.task_id → x.status = .awaiting_approval

/-- The run `r`, which claimed its checks before, waits for a human or completes. -/
structure Advance (s t : Db) (r : Run) : Prop where
  claims : s.claims r
  soft : breaker_is_hard r.breaker_stage = false
  runs : Updated (fun x x' => x.Same x' ∧ (x.id = r.id ∨ x.Calm x')) s.runs t.runs
  verification_evidence : t.verification_evidence = s.verification_evidence
  verification_requests : ∀ q' ∈ t.verification_requests,
    (∃ q ∈ s.verification_requests, q.Kept q') ∨ (q'.run_id = r.id ∧ q'.task_id = r.task_id
      ∧ (∃ x ∈ s.tasks, x.id = r.task_id ∧ x.verification_policy.manual_gate = some q'.gate)
      ∧ ∀ r' ∈ t.runs, r'.id = r.id → t.awaits r')
  action_approvals : t.action_approvals = s.action_approvals
  artifacts : t.artifacts = s.artifacts
  source_deliverables : t.source_deliverables = s.source_deliverables
  circuit_breaker_incidents : t.circuit_breaker_incidents = s.circuit_breaker_incidents
  breaker_keys : t.breaker_keys = s.breaker_keys
  events : Appends Event.Routine s.events t.events

/-- What a journalled report does; `s` already has the entry of the report. -/
inductive ReportEffect (s t : Db) (row : RunnerRow) (payload : Json) (event_type : EventType) :
    Prop where
  | calm (htype : event_type.is_routine = true) (h : Calm Event.Routine s t)
  | ended (htype : event_type = .run_failed ∨ event_type = .run_cancelled)
      (h : Calm (Event.OfEnd row.run.id) s t)
  | asked (htype : event_type = .run_approval_requested) (p : ActionApproval)
      (hrun : p.run_id = row.run.id) (htask : p.task_id = row.task.id)
      (hagent : p.agent_id = row.run.agent_id)
      (h : Calm Event.Routine s { t with action_approvals := s.action_approvals })
      (happ : t.action_approvals = s.action_approvals ++ [p])
      (hworks : ∀ r ∈ t.runs, r.id = row.run.id → r.active = true ∧ r.started = true)
      (hnew : ∀ x ∈ s.action_approvals, x.id ≠ p.id)
  | usage (htype : event_type = .run_usage) (h : run_usage s row payload = .ok t)
  | evidence (htype : event_type = .run_verification_evidence)
      (h : run_verification_evidence s row payload = .ok t)
  | passed (htype : event_type = .run_verification_passed)
      (h : run_verification_passed s row payload = .ok t)
  | waiting (htype : event_type = .run_verification_waiting)
      (h : run_verification_waiting s row payload = .ok t) (hadv : Advance s t row.run)
  | completed (htype : event_type = .run_completed)
      (hgate : row.task.verification_policy.manual_gate = none) (hadv : Advance s t row.run)

/-- An artifact keeps what it is; a ready one stays ready. -/
structure Artifact.Kept (a a' : Artifact) : Prop where
  id : a'.id = a.id
  corp_id : a'.corp_id = a.corp_id
  task_id : a'.task_id = a.task_id
  run_id : a'.run_id = a.run_id
  sha256 : a'.sha256 = a.sha256
  artifact_role : a'.artifact_role = a.artifact_role
  document : artifact_evidence_payload a' = artifact_evidence_payload a
  status : a'.status = a.status ∨ (a.status = .staged ∧ a'.status = .rejected)

theorem Artifact.Kept.refl (a : Artifact) : a.Kept a :=
  ⟨rfl, rfl, rfl, rfl, rfl, rfl, rfl, Or.inl rfl⟩

/-- What staging, rejecting and sweeping do to the artifact table. -/
inductive Shelving (s : Db) : List Artifact → Prop where
  /-- Staged rows are rejected, staging keys cleared. -/
  | updated {l : List Artifact} (h : Updated Artifact.Kept s.artifacts l) : Shelving s l
  /-- A staged row is dropped. -/
  | dropped (p : Artifact → Bool) (h : ∀ a ∈ s.artifacts, p a = false → a.status = .staged) :
      Shelving s (s.artifacts.filter p)
  /-- A row is staged for an active run. -/
  | staged (run : Run) (a : Artifact) (hrun : run ∈ s.runs) (hactive : run.active = true)
      (hsoft : breaker_is_hard run.breaker_stage = false) (hstatus : a.status = .staged)
      (hid : a.run_id = run.id) (htask : a.task_id = run.task_id)
      (hnew : ∀ b ∈ s.artifacts, b.id ≠ a.id
        ∧ ¬ (b.run_id = a.run_id ∧ b.artifact_role = .source_deliverable
          ∧ a.artifact_role = .source_deliverable ∧ b.status ≠ .rejected)) :
      Shelving s (s.artifacts ++ [a])

/-- The three calls that start runs. -/
def Op.admits : Op → Bool
  | .create_task_run .. | .create_resume_run .. | .create_factory_verification_recovery .. => true
  | _ => false

/-- The command a call settles. -/
def Op.settles : Op → Option Uuid
  | .acknowledge_runner_command command_id _ | .fail_runner_command command_id _ _ =>
    some command_id
  | _ => none

/-- What a committed call does. -/
inductive Effect (s : Db) (op : Op) (t : Db) : Prop where
  | calm (h : Calm Event.Routine s t)
  | settled (command_id : Uuid) (hop : op.settles = some command_id)
      (h : Calm (Event.OfCommand command_id) s t)
  | admitted (r : Run) (hop : op.admits = true) (h : Admitting r s t)
  | raised (now : Int) (corp_id run_id : Uuid) (run : Run) (task : Task) (mission : Mission)
      (stage : BreakerStage) (incident : CircuitBreakerIncident) (command : RunnerCommand)
      (event : Event) (hop : op = .evaluate_circuit_breaker now corp_id run_id)
      (hj : Joined s corp_id run_id run task mission) (hactive : run.active = true)
      (hrank : breaker_rank run.breaker_stage < breaker_rank stage)
      (h : Raising s t corp_id run task mission stage incident command event)
  | shelved (l : List Artifact) (h : Shelving s l) (ht : t = s.onArtifacts fun _ => l)
  | readied (corp_id artifact_id : Uuid) (a : Artifact)
      (run : Run) (task : Task) (mission : Mission) (u : Db)
      (hop : op = .finalize_artifact_upload corp_id artifact_id .allows .allows)
      (hrow : finalize_row s corp_id artifact_id = some (a, run, task, mission))
      (hstaged : a.status = .staged) (h : Readying s u a)
      (ht : t = if run.active then u.review_run run task.id else u)
  | approved (now : Int) (input : VerificationDecision) (row : DecisionRow) (actor : Actor)
      (hop : op = .decide_verification now input) (hdec : Deciding s input row actor)
      (happ : input.approved = true) (hadv : Advance s t row.run)
  | reported (now : Int) (input : RunnerEventInput) (row : RunnerRow) (scope : Option RunScope)
      (payload : Json) (hop : op = .apply_runner_event now input)
      (hadm : Admitted s now input row scope payload)
      (hnew : s.recorded input.corp_id (.runner_event input.runner_id input.event_id) = false)
      (hid : ∀ e ∈ s.events, e.id ≠ input.event_id)
      (h : ReportEffect (s.onEvents (· ++ [runner_event input row payload])) t row payload
        input.event_type)

/-! ### Reports -/

section Reports

variable {row : RunnerRow} {payload : Json}

/-- A write of columns of runs that are not looked at here. -/
theorem Calm.of_run_write {P : Event → Prop} {p : Run → Bool} {f : Run → Run}
    (hf : ∀ x, Run.Calm x (f x)) : Calm P s (s.onRuns (updateWhere p f)) :=
  Calm.of_tables rfl (calm_updateWhere hf) Appends.refl

theorem run_session_calm (h : run_session s row payload = .ok t) : Calm Event.Routine s t := by
  unfold run_session at h
  simp only [bind_eq_ok, context_eq_ok, pure_eq_ok] at h
  obtain ⟨_, -, rfl⟩ := h
  exact Calm.of_run_write fun x => Run.Calm.of_columns rfl rfl fun h => h

theorem run_started_calm (h : run_started s row payload = .ok t) : Calm Event.Routine s t := by
  unfold run_started at h
  rw [pure_eq_ok] at h
  subst h
  exact Calm.of_tables rfl (calm_updateWhere fun x => Run.Calm.of_columns rfl rfl (by simp))
    Appends.refl

theorem run_status_calm (h : run_status s row payload = .ok t) : Calm Event.Routine s t := by
  obtain ⟨status, station, -, ⟨-, rfl⟩ | ⟨-, rfl⟩⟩ := run_status_ok h
  · exact Calm.of_events rfl rfl Appends.refl
  · exact Calm.of_tables rfl (calm_updateWhere fun x => Run.Calm.of_columns rfl rfl (by simp))
      Appends.refl

theorem run_tool_activity_calm (h : run_tool_activity s row payload = .ok t) :
    Calm Event.Routine s t := by
  unfold run_tool_activity at h
  split at h
  · rw [pure_eq_ok] at h
    subst h
    exact Calm.refl
  · split at h
    · rw [pure_eq_ok] at h
      subst h
      exact Calm.of_run_write fun x => Run.Calm.of_columns rfl rfl fun h => h
    · simp only [bind_eq_ok, ensure_eq_ok, pure_eq_ok] at h
      obtain ⟨_, -, rfl⟩ := h
      exact Calm.of_run_write fun x => Run.Calm.of_columns rfl rfl fun h => h

theorem run_verification_started_calm (h : run_verification_started s row = .ok t) :
    Calm Event.Routine s t := by
  unfold run_verification_started at h
  rw [pure_eq_ok] at h
  subst h
  exact Calm.of_tables rfl (calm_updateWhere fun x =>
    ⟨Run.Same.of_columns rfl, Or.inr (Or.inl rfl), by simp⟩) Appends.refl

theorem run_verification_failed_calm (h : run_verification_failed s row payload = .ok t) :
    Calm Event.Routine s t := by
  obtain ⟨summary, hfactory⟩ := run_verification_failed_ok h
  refine Calm.trans ?_ (FactoryOnly.calm (hfactory.mono ?_))
  · exact Calm.of_tables rfl (calm_updateWhere fun x =>
      ⟨Run.Same.of_columns rfl, Or.inr (Or.inr rfl), by simp⟩) Appends.refl
  · rintro e ⟨⟨item, hkey⟩, htype⟩
    exact ⟨by rw [hkey]; rfl, htype⟩

theorem run_teardown_uncertain_calm (h : run_teardown_uncertain s row payload = .ok t) :
    Calm Event.Routine s t := by
  unfold run_teardown_uncertain at h
  simp only [bind_eq_ok, ensure_eq_ok, context_eq_ok, pure_eq_ok] at h
  obtain ⟨_, -, _, -, rfl⟩ := h
  exact Calm.of_run_write fun x => Run.Calm.of_columns rfl rfl fun h => h

theorem run_workspace_retained_calm {now : Int} {event_type : EventType}
    (h : run_workspace_retained s now row event_type payload = .ok t) :
    Calm Event.Routine s t := by
  obtain ⟨f, rfl, hf⟩ := run_workspace_retained_ok h
  refine Calm.of_run_write fun x => ?_
  obtain ⟨_, _, _, _, _, _, _, hx⟩ := hf x
  rw [hx]
  exact Run.Calm.of_columns rfl rfl fun h => h

theorem terminalize_calm {corp_id recovery_id run_id task_id mission_id room_id : Uuid}
    {summary : String} {run_status : RunStatus} {cause : FailureCause}
    (h : terminalize_factory_recovery_run_tx s corp_id recovery_id run_id task_id mission_id room_id
      summary run_status cause = .ok t) :
    Calm (fun e => (∃ item, e.idempotency_key = .factory_verification_failed item run_id cause)
      ∧ e.type.is_routine = true) s t := by
  obtain ⟨hst, note, recs, v, rfl, hfactory⟩ := terminalize_factory_recovery_run_tx_ok h
  refine Calm.trans ?_ hfactory.calm
  refine ⟨⟨rfl, ?_, approvals_kept _, rfl, rfl, rfl, ?_, Appends.refl⟩, ?_⟩
  · exact Updated.of_updateWhere (fun q _ hq => ⟨rfl, rfl, rfl, rfl, by simp⟩)
      fun q _ _ => VerificationRequest.Kept.refl q
  · exact breaker_keys_of_settle rfl fun _ => ⟨rfl, rfl⟩
  · refine calm_updateWhere fun x => ⟨Run.Same.of_columns rfl, Or.inr (Or.inr rfl), ?_⟩
    intro hc
    exact absurd hc (reject_ne_completed hst).2

/-- Releasing agents is calm. -/
theorem release_failed_run_agent_tx_calm {P : Event → Prop} {corp_id agent_id run_id : Uuid} :
    Calm P s (release_failed_run_agent_tx s corp_id agent_id run_id) := by
  unfold release_failed_run_agent_tx
  split
  · exact Calm.refl
  · split
    · exact Calm.refl
    · exact Calm.of_events rfl rfl Appends.refl

theorem run_failed_calm {scope : Option RunScope} (h : run_failed env s row scope payload = .ok t) :
    Calm (Event.OfEnd row.run.id) s t := by
  unfold run_failed at h
  simp only [bind_eq_ok, pure_eq_ok] at h
  obtain ⟨u, hend, rfl⟩ := h
  refine Calm.trans ?_ release_failed_run_agent_tx_calm
  unfold end_failed_run at hend
  split at hend
  · refine (terminalize_calm hend).mono ?_
    rintro e ⟨⟨item, hkey⟩, htype⟩
    exact ⟨Or.inr ⟨item, Or.inr (Or.inl hkey)⟩, htype⟩
  · obtain ⟨ts, ms, -, -, hfactory⟩ := fail_run_tx_ok hend
    refine Calm.trans ?_ (FactoryOnly.calm (hfactory.mono ?_))
    · exact Calm.of_tables rfl
        (calm_updateWhere fun x => Run.Calm.of_columns rfl rfl (by simp)) Appends.refl
    · rintro e ⟨⟨item, hkey⟩, htype⟩
      exact ⟨Or.inr ⟨item, Or.inl hkey⟩, htype⟩

theorem run_cancelled_calm (h : run_cancelled s row payload = .ok t) :
    Calm (Event.OfEnd row.run.id) s t := by
  unfold run_cancelled at h
  simp only [bind_eq_ok, pure_eq_ok] at h
  obtain ⟨u, hend, rfl⟩ := h
  have hrelease : Calm (Event.OfEnd row.run.id) u (u.release_agent row.run.agent_id) :=
    Calm.of_events rfl rfl Appends.refl
  refine Calm.trans ?_ hrelease
  unfold end_cancelled_run at hend
  split at hend
  · refine (terminalize_calm hend).mono ?_
    rintro e ⟨⟨item, hkey⟩, htype⟩
    exact ⟨Or.inr ⟨item, Or.inr (Or.inr hkey)⟩, htype⟩
  · rw [Except.ok.injEq] at hend
    subst hend
    exact Calm.of_tables rfl
      (calm_updateWhere fun x => Run.Calm.of_columns rfl rfl (by simp)) Appends.refl

/-- The writes of a completion, around the drawing of its consequences. -/
theorem Advance.of_complete {r : RunnerRow} {actor_id : Option Uuid} {f : Run → Run} {u v : Db}
    (evs : List Event)
    (hclaims : s.claims r.run) (hsoft : breaker_is_hard r.run.breaker_stage = false)
    (hu : u.runs = updateWhere (fun x => x.id == r.run.id) f s.runs) (hf : ∀ x, Run.Same x (f x))
    (hevidence : u.verification_evidence = s.verification_evidence)
    (hrequests : Updated VerificationRequest.Kept s.verification_requests u.verification_requests)
    (happrovals : u.action_approvals = s.action_approvals) (hartifacts : u.artifacts = s.artifacts)
    (hdeliverables : u.source_deliverables = s.source_deliverables)
    (hincidents : u.circuit_breaker_incidents = s.circuit_breaker_incidents)
    (hcommands : u.runner_commands = s.runner_commands) (huevents : u.events = s.events)
    (h : complete_task_tx u r actor_id = .ok v)
    (ht : t = { v.release_agent r.run.agent_id with events := evs })
    (hevs : Appends Event.Routine v.events evs) : Advance s t r.run := by
  obtain ⟨recs, w, rfl, items, recs', evs', rfl, hevs', -⟩ := complete_task_tx_ok h
  subst ht
  refine ⟨hclaims, hsoft, ?_, hevidence, ?_, happrovals, hartifacts, hdeliverables, hincidents, ?_,
    ?_⟩
  · change Updated _ s.runs u.runs
    rw [hu]
    refine Updated.of_updateWhere ?_ fun x _ _ => ⟨Run.Same.refl x, Or.inr (Run.Calm.refl x)⟩
    intro x _ hx
    exact ⟨hf x, Or.inl (by simpa using hx)⟩
  · intro q' hq'
    obtain ⟨q, hq, hk⟩ := hrequests.exists_old hq'
    exact Or.inl ⟨q, hq, hk⟩
  · change u.breaker_keys = s.breaker_keys
    unfold Db.breaker_keys
    rw [hcommands]
  · rw [← huevents]
    exact hevs'.trans hevs

theorem run_completed_advance (hsoft : breaker_is_hard row.run.breaker_stage = false)
    (h : run_completed s row payload = .ok t) :
    row.task.verification_policy.manual_gate = none ∧ Advance s t row.run := by
  unfold run_completed at h
  simp only [bind_eq_ok, ensure_eq_ok, pure_eq_ok] at h
  obtain ⟨_, hpassed, _, hgate, v, hv, rfl⟩ := h
  refine ⟨hgate, Advance.of_complete (u := (s.onRuns _).onTasks _) v.events
    (Or.inr (Or.inl hpassed)) hsoft rfl (fun x => by exact Run.Same.of_columns rfl) rfl
    (Updated.refl fun q _ => VerificationRequest.Kept.refl q) rfl rfl rfl rfl rfl rfl hv rfl
    Appends.refl⟩

theorem run_verification_waiting_advance (hs : Life s) {corp_id run_id : Uuid}
    (hj : Joined s corp_id run_id row.run row.task row.mission)
    (hsoft : breaker_is_hard row.run.breaker_stage = false)
    (h : run_verification_waiting s row payload = .ok t) : Advance s t row.run := by
  obtain ⟨q, v, c, u, hpassed, hgate, hqrun, -, hqtask, -, -, rfl, items, recs, evs, rfl, hevs,
    -⟩ :=
    run_verification_waiting_ok h
  refine ⟨Or.inr (Or.inl hpassed), hsoft, ?_, rfl, ?_, rfl, rfl, rfl, rfl, rfl, hevs⟩
  · refine Updated.of_updateWhere ?_ fun x _ _ => ⟨Run.Same.refl x, Or.inr (Run.Calm.refl x)⟩
    intro x _ hx
    exact ⟨Run.Same.of_columns rfl, Or.inl (by simpa using hx)⟩
  · intro q' hq'
    rcases List.mem_append.mp hq' with hq' | hq'
    · exact Or.inl ⟨q', hq', VerificationRequest.Kept.refl q'⟩
    · rw [List.mem_singleton] at hq'
      subst hq'
      refine Or.inr ⟨hqrun, hqtask.trans hj.task_id, ⟨row.task, hj.task_mem, hj.task_id, hgate⟩, ?_⟩
      intro r' hr' hid
      obtain ⟨x, hx, rfl⟩ := mem_updateWhere.mp hr'
      have hxid : x.id = row.run.id := by
        split at hid
        · exact hid
        · exact hid
      obtain rfl := hs.eq_of_id hx hj.run_mem hxid
      rw [if_pos (beq_self_eq_true _)]
      refine ⟨rfl, fun y hy hyid => ?_⟩
      obtain ⟨z, -, rfl⟩ := mem_updateWhere.mp hy
      by_cases hz : z.id = row.task.id
      · rw [if_pos (by simpa using hz)]
      · rw [if_neg (by simpa using hz)] at hyid
        exact absurd (hyid.trans hj.task_id.symm) hz

/-- The breaker lets no advancing report of a run at a hard stage pass. -/
theorem Admitted.soft {now : Int} {input : RunnerEventInput} {scope : Option RunScope}
    (h : Admitted s now input row scope payload)
    (hadv : runner_event_advances_run input.event_type = true) :
    breaker_is_hard row.run.breaker_stage = false := by
  have hblock := h.unblocked
  unfold breaker_blocks_runner_progress at hblock
  rw [hadv, Bool.and_true] at hblock
  exact hblock

theorem run_approval_requested_asked {now : Int}
    (h : run_approval_requested s now row payload = .ok t) :
    ReportEffect s t row payload .run_approval_requested := by
  obtain ⟨p, hrun, htask, -, hagent, -, -, hnew, rfl⟩ := run_approval_requested_ok h
  refine .asked rfl p hrun htask hagent ?_ rfl ?_ hnew
  · exact Calm.of_tables rfl
      (calm_updateWhere fun x => Run.Calm.of_columns rfl rfl (by simp)) Appends.refl
  · intro r hr hid
    obtain ⟨x, -, rfl⟩ := mem_updateWhere.mp hr
    by_cases hx : x.id = row.run.id
    · simp [hx, Run.started, Run.active, RunStatus.is_active]
    · simp [hx] at hid

/-- The effect of each report. -/
theorem runner_event_effect_cases (hs : Life s) {now : Int} {scope : Option RunScope}
    {event_type : EventType}
    {corp_id run_id : Uuid} (hj : Joined s corp_id run_id row.run row.task row.mission)
    (hsoft : runner_event_advances_run event_type = true →
      breaker_is_hard row.run.breaker_stage = false)
    (h : runner_event_effect env s now row scope event_type payload = .ok t) :
    ReportEffect s t row payload event_type := by
  cases event_type with
  | run_session => exact .calm rfl (run_session_calm h)
  | run_started => exact .calm rfl (run_started_calm h)
  | run_status => exact .calm rfl (run_status_calm h)
  | run_approval_requested => exact run_approval_requested_asked h
  | run_tool_activity => exact .calm rfl (run_tool_activity_calm h)
  | run_artifact => cases h
  | run_artifact_upload => cases h
  | run_deliverable => cases h
  | run_deliverable_upload => cases h
  | run_usage => exact .usage rfl h
  | run_verification_started => exact .calm rfl (run_verification_started_calm h)
  | run_verification_evidence => exact .evidence rfl h
  | run_verification_passed => exact .passed rfl h
  | run_verification_waiting =>
    exact .waiting rfl h (run_verification_waiting_advance hs hj (hsoft rfl) h)
  | run_verification_failed => exact .calm rfl (run_verification_failed_calm h)
  | run_teardown_uncertain => exact .calm rfl (run_teardown_uncertain_calm h)
  | run_workspace_preserved => exact .calm rfl (run_workspace_retained_calm h)
  | run_workspace_removed => exact .calm rfl (run_workspace_retained_calm h)
  | run_completed =>
    obtain ⟨hgate, hadv⟩ := run_completed_advance (hsoft rfl) h
    exact .completed rfl hgate hadv
  | run_failed => exact .ended (Or.inl rfl) (run_failed_calm h)
  | run_cancelled => exact .ended (Or.inr rfl) (run_cancelled_calm h)
  | run_session_terminated | run_breaker_transition | factory_blocked | factory_claim_renewed
  | other text =>
    simp only [runner_event_effect, pure_eq_ok] at h
    subst h
    exact .calm rfl Calm.refl

end Reports

/-- A journal entry of a report touches no other table. -/
theorem Joined.onEvents {corp_id run_id : Uuid} {run : Run} {task : Task} {mission : Mission}
    (h : Joined s corp_id run_id run task mission) (f : List Event → List Event) :
    Joined (s.onEvents f) corp_id run_id run task mission :=
  ⟨h.run_mem, h.run_id, h.corp_id, h.task_mem, h.task_id, h.mission_mem, h.mission_id⟩

/-- Of the reports, only those that are taken change anything. -/
theorem exec_taken {op : Op} (h : exec env s op = .ok t) :
    t = s ∨ ∀ now input, op = .apply_runner_event now input → s.takes now input = true := by
  by_cases hop : ∃ now input, op = .apply_runner_event now input
  · obtain ⟨now, input, rfl⟩ := hop
    obtain ⟨⟨o, u⟩, hu, rfl⟩ := map_eq_ok.mp h
    refine (apply_runner_event_taken hu).imp_right fun htakes now' input' hsame => ?_
    cases hsame
    exact htakes
  · exact Or.inr fun now input hreport => absurd ⟨now, input, hreport⟩ hop

theorem apply_runner_event_effect (hs : Life s) {now : Int} {input : RunnerEventInput}
    {o : Option Event} (h : apply_runner_event env s now input = .ok (o, t)) :
    Effect s (.apply_runner_event now input) t := by
  obtain ⟨row, scope, payload, hadm, ⟨-, -, rfl⟩ | ⟨hnew, hid, -, heff⟩⟩ := apply_runner_event_ok h
  · exact .calm Calm.refl
  · have hs' : Life (s.onEvents (· ++ [runner_event input row payload])) :=
      Quiet.life hs (Quiet.of_same rfl rfl rfl rfl rfl)
    exact .reported now input row scope payload rfl hadm hnew hid
      (runner_event_effect_cases hs' (hadm.reported.joined.onEvents _) hadm.soft heff)

theorem decide_verification_effect (hs : Life s) (hl : Linked s) {now : Int}
    {input : VerificationDecision} (h : decide_verification s now input = .ok t) :
    Effect s (.decide_verification now input) t := by
  rcases decide_verification_ok h with rfl | ⟨row, actor, hdec, hrec⟩
  · exact .calm Calm.refl
  obtain ⟨hq, hqrun, -, -, hrid, -⟩ := decision_row_eq_some hdec.row_eq
  have hrequests : Updated VerificationRequest.Kept s.verification_requests
      (s.decided_requests input) := by
    refine Updated.of_updateWhere (fun q _ _ => ?_) fun q _ _ => VerificationRequest.Kept.refl q
    refine ⟨rfl, rfl, rfl, rfl, ?_⟩
    unfold decision_status
    split <;> simp
  obtain ⟨u, evs, ht, hevs, ⟨happ, hu⟩ | ⟨-, hu⟩⟩ := record_verification_decision_ok hrec
  · refine .approved now input row actor rfl hdec happ ?_
    unfold approve_verification at hu
    exact Advance.of_complete
      (r := { run := row.run, task := row.task, mission := row.mission })
      (u := (({ s with verification_requests := s.decided_requests input } : Db).onRuns _).onTasks
      _) evs
      (Or.inr (Or.inr (Or.inr ⟨row.request, hq, hqrun.trans hrid.symm⟩))) hdec.soft rfl
      (fun x => by exact Run.Same.of_columns rfl) rfl hrequests rfl rfl rfl rfl rfl rfl hu ht hevs
  · obtain ⟨summary, items, recs, evs', rfl, hevs', -⟩ := reject_verification_ok hu
    subst ht
    refine .calm ⟨⟨rfl, hrequests, approvals_kept _, rfl, rfl, rfl, rfl, hevs'.trans hevs⟩, ?_⟩
    exact calm_updateWhere fun x => ⟨Run.Same.of_columns rfl, Or.inr (Or.inr rfl), by simp⟩

theorem reject_artifact_kept (s : Db) (corp_id artifact_id : Uuid) (reason : String) :
    Updated Artifact.Kept s.artifacts (s.reject_artifact corp_id artifact_id reason).artifacts := by
  refine Updated.of_updateWhere (fun a _ ha => ?_) fun a _ _ => Artifact.Kept.refl a
  simp only [Bool.and_eq_true, beq_iff_eq] at ha
  exact ⟨rfl, rfl, rfl, rfl, rfl, rfl, rfl, Or.inr ⟨ha.2, rfl⟩⟩

/-- A planned mission has nothing to verify yet. -/
theorem create_mission_tx_calm {input : CreateMissionInput} {mission_id : Uuid}
    (h : create_mission_tx s input = .ok (mission_id, t)) : Calm Event.Routine s t := by
  obtain ⟨_, _, _, _, _, _, _, -, rfl, -, -, hevs⟩ := create_mission_tx_ok h
  exact Calm.of_events rfl rfl hevs

/-- **What a committed call does.** -/
theorem exec_effect (hs : Life s) (hl : Linked s) {op : Op} (h : exec env s op = .ok t) :
    Effect s op t := by
  cases op with
  | apply_runner_event now input =>
    obtain ⟨⟨o, u⟩, hu, rfl⟩ := map_eq_ok.mp h
    exact apply_runner_event_effect hs hu
  | evaluate_circuit_breaker now corp_id run_id =>
    rcases evaluate_circuit_breaker_ok h with
      rfl | ⟨run, task, mission, stage, i, c, e, hj, hactive, -, hrank, hraise⟩
    · exact .calm Calm.refl
    · exact .raised now corp_id run_id run task mission stage i c e rfl hj hactive hrank hraise
  | set_budget_policy input =>
    obtain ⟨policies, evs, rfl, hevs⟩ := set_budget_policy_ok h
    exact .calm (Calm.of_events rfl rfl hevs)
  | create_mission input =>
    obtain ⟨mission_id, h⟩ := create_mission_ok h
    exact .calm (create_mission_tx_calm h)
  | materialize_factory_mission now input =>
    rcases materialize_factory_mission_ok h with rfl |
      ⟨mission_id, u, items, ops, evs, hu, rfl, hevs⟩
    · exact .calm Calm.refl
    · exact .calm ((create_mission_tx_calm hu).trans (Calm.of_events rfl rfl hevs))
  | transition_factory_work_item now input =>
    obtain ⟨items, ops, evs, rfl, hevs, -⟩ := transition_factory_work_item_ok h
    exact .calm (Calm.of_events rfl rfl hevs)
  | create_task_run now input =>
    obtain ⟨r, task, -, hadmit⟩ := create_task_run_admit hs h
    exact .admitted r rfl hadmit
  | create_resume_run now input =>
    obtain ⟨r, task, -, hadmit⟩ := create_resume_run_admit hs h
    exact .admitted r rfl hadmit
  | create_factory_verification_recovery now input =>
    rcases create_factory_verification_recovery_admit hs h with rfl | ⟨r, task, -, -, hadmit⟩
    · exact .calm Calm.refl
    · exact .admitted r rfl hadmit
  | prepare_artifact_upload now input artifact staging_key receipt_allows =>
    obtain ⟨run, task, mission, hj, -, hactive, hsoft, rfl | ⟨a, hst, hrun, htask, hnew, rfl⟩⟩ :=
      prepare_artifact_upload_ok h
    · exact .calm Calm.refl
    · exact .shelved _ (.staged run a hj.run_mem hactive hsoft hst hrun htask hnew) rfl
  | finalize_artifact_upload corp_id artifact_id fence authority =>
    obtain ⟨c, hc, rfl⟩ := map_eq_ok.mp h
    rcases finalize_artifact_upload_ok hc with
      hsame | ⟨reason, hrej⟩ | ⟨a, run, task, mission, u, rfl, rfl, hrow, hstaged, hready, hstate⟩
    · rw [hsame]
      exact .calm Calm.refl
    · rw [hrej]
      exact .shelved _ (.updated (reject_artifact_kept s corp_id artifact_id reason)) rfl
    · exact .readied corp_id artifact_id a run task mission u rfl hrow hstaged hready
        hstate
  | reject_staged_artifact corp_id artifact_id reason =>
    obtain rfl := Except.ok.inj h
    exact .shelved _ (.updated (reject_artifact_kept s corp_id artifact_id reason)) rfl
  | abandon_staged_artifact corp_id artifact_id =>
    obtain rfl := Except.ok.inj h
    refine .shelved _ (.dropped _ ?_) rfl
    intro a _ ha
    simp only [Bool.not_eq_false', Bool.and_eq_true, beq_iff_eq] at ha
    exact ha.2
  | clear_artifact_staging_key corp_id artifact_id staging_key =>
    obtain rfl := Except.ok.inj h
    refine .shelved _ (.updated ?_) rfl
    exact Updated.of_updateWhere (fun a _ _ => ⟨rfl, rfl, rfl, rfl, rfl, rfl, rfl, Or.inl rfl⟩)
      fun a _ _ => Artifact.Kept.refl a
  | decide_action_approval now input =>
    obtain ⟨c, hc, rfl⟩ := map_eq_ok.mp h
    exact .calm (decide_action_approval_calm hc)
  | expire_action_approval now approval_id => exact .calm (expire_action_approval_calm h)
  | decide_verification now input => exact decide_verification_effect hs hl h
  | acknowledge_runner_command command_id runner_id =>
    refine .settled command_id rfl ((settle_runner_command_calm h fun _ => ⟨rfl, rfl⟩).mono ?_)
    exact fun _ he => ⟨Or.inl he.1, he.2⟩
  | fail_runner_command command_id runner_id detail =>
    refine .settled command_id rfl ((settle_runner_command_calm h fun _ => ⟨rfl, rfl⟩).mono ?_)
    exact fun _ he => ⟨Or.inr he.1, he.2⟩
  | fail_run_before_dispatch corp_id run_id reason => exact .calm (fail_run_before_dispatch_calm h)
  | fail_factory_recovery_before_dispatch corp_id run_id reason =>
    exact .calm (fail_factory_recovery_before_dispatch_calm h)
  | mark_runner_runs_lost now input => exact .calm (mark_runner_runs_lost_tx_calm hs h)

end Crony.Store
