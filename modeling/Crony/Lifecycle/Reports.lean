/-
Runner reports are moves.

`apply_runner_event` is taken apart once: what is known when a report has been admitted
(`Admitted`), and the two outcomes, a redelivery that changes nothing and an effect on the
database with the report in the journal. Then each case of the effect is shown to be a
move of the run the report is about.
-/
import Crony.Lifecycle.Invariant

set_option autoImplicit false

open Crony.Lib

namespace Crony.Store

variable {env : Env} {s t : Db}

/-! ## Admitted reports -/

/-- What the checks of `apply_runner_event` establish. -/
structure Admitted (s : Db) (now : Int) (input : RunnerEventInput) (row : RunnerRow)
    (scope : Option RunScope) (payload : Json) : Prop where
  row_eq : runner_event_row s input = some row
  scope_eq : runner_event_scope s input = .ok scope
  usage_matches : input.event_type = .run_usage → usage_matches_active_run s input = true
  scope_valid : validate_runner_event_scope s input row scope = .ok ()
  failure : input.event_type = .run_failed →
    s.latest_run row.task.id input.corp_id = some input.run_id
    ∧ row.task.status ≠ .completed
    ∧ row.mission.status ≠ .completed ∧ row.mission.status ≠ .cancelled
  provider : ¬ (input.event_type = .run_usage ∧ row.run.execution_mode = .verification_only)
  session : validate_runner_session s input row = .ok ()
  unblocked : breaker_blocks_runner_progress row.run.breaker_stage input.event_type = false
  progress : ensure_runner_progress s now input row = .ok ()
  payload_eq : runner_event_payload s input row = .ok payload

theorem admit_runner_event_ok {now : Int} {input : RunnerEventInput} {row : RunnerRow}
    {scope : Option RunScope} {payload : Json} :
    admit_runner_event s now input = .ok (row, scope, payload)
      ↔ Admitted s now input row scope payload := by
  constructor
  · intro h
    unfold admit_runner_event at h
    simp only [bind_eq_ok, ensure_eq_ok, context_eq_ok, pure_eq_ok, Prod.mk.injEq] at h
    obtain ⟨scope', hscope, _, husage, row', hrow, _, hvalid, _, hfail, _, hprov, _, hsess, _,
      hblock, _, hprog, payload', hpay, rfl, rfl, rfl⟩ := h
    exact ⟨hrow, hscope, husage, hvalid, hfail, hprov, hsess, hblock, hprog, hpay⟩
  · intro h
    unfold admit_runner_event
    simp only [bind_eq_ok, ensure_eq_ok, context_eq_ok, pure_eq_ok, Prod.mk.injEq]
    exact ⟨scope, h.scope_eq, (), h.usage_matches, row, h.row_eq, (), h.scope_valid, (), h.failure,
      (), h.provider, (), h.session, (), h.unblocked, (), h.progress, payload, h.payload_eq, rfl,
      rfl, rfl⟩

/-- The selected rows of an admitted report. -/
structure Reported (s : Db) (input : RunnerEventInput) (row : RunnerRow) : Prop where
  joined : Joined s input.corp_id input.run_id row.run row.task row.mission
  task_corp : row.task.corp_id = row.run.corp_id
  mission_corp : row.mission.corp_id = row.task.corp_id
  assigned : row.run.assigned input = true
  live : row.run.active = true
    ∨ (is_terminal_report input.event_type = true ∧ row.run.active = false)

theorem runner_event_row_eq_some {input : RunnerEventInput} {row : RunnerRow}
    (h : runner_event_row s input = some row) : Reported s input row := by
  obtain ⟨⟨run, task, mission⟩, hrow, rfl⟩ := Option.map_eq_some_iff.mp h
  obtain ⟨hjoin, hcond⟩ := Option.filter_eq_some_iff.mp hrow
  obtain ⟨hj, htc, hmc⟩ := Db.run_task_mission_scoped_eq_some hjoin
  simp only [Bool.and_eq_true, Bool.or_eq_true] at hcond
  refine ⟨hj, htc, hmc, hcond.1, ?_⟩
  rcases hcond.2 with hact | ⟨hrep, hterm⟩
  · exact Or.inl hact
  · refine Or.inr ⟨hrep, ?_⟩
    rw [Run.active]
    simpa [RunStatus.is_terminal] using hterm

theorem Admitted.reported {now : Int} {input : RunnerEventInput} {row : RunnerRow}
    {scope : Option RunScope} {payload : Json} (h : Admitted s now input row scope payload) :
    Reported s input row :=
  runner_event_row_eq_some h.row_eq

/-- A report other than the three of terminal runs is about an active run. -/
theorem Reported.active {input : RunnerEventInput} {row : RunnerRow} (h : Reported s input row)
    (hr : is_terminal_report input.event_type = false) : row.run.active = true := by
  rcases h.live with hact | ⟨hrep, -⟩
  · exact hact
  · rw [hr] at hrep
    cases hrep

/-- The two outcomes of an accepted report. -/
theorem apply_runner_event_ok {now : Int} {input : RunnerEventInput} {o : Option Event}
    (h : apply_runner_event env s now input = .ok (o, t)) :
    ∃ row scope payload, Admitted s now input row scope payload
      ∧ ((s.recorded input.corp_id (.runner_event input.runner_id input.event_id) = true
          ∧ o = none ∧ t = s)
        ∨ (s.recorded input.corp_id (.runner_event input.runner_id input.event_id) = false
          ∧ (∀ e ∈ s.events, e.id ≠ input.event_id)
          ∧ o = some (runner_event input row payload)
          ∧ runner_event_effect env (s.onEvents (· ++ [runner_event input row payload])) now row
              scope input.event_type payload = .ok t)) := by
  unfold apply_runner_event at h
  obtain ⟨⟨row, scope, payload⟩, hadm, h⟩ := bind_eq_ok.mp h
  obtain ⟨⟨event, s'⟩, happ, h⟩ := bind_eq_ok.mp h
  refine ⟨row, scope, payload, admit_runner_event_ok.mp hadm, ?_⟩
  rcases append_event_tx_ok.mp happ with ⟨hrec, rfl, rfl⟩ | ⟨hrec, hid, rfl, rfl⟩
  · simp only [pure_eq_ok, Prod.mk.injEq] at h
    exact Or.inl ⟨hrec, h.1.symm, h.2.symm⟩
  · simp only [bind_eq_ok, pure_eq_ok, Prod.mk.injEq] at h
    obtain ⟨t', heff, rfl, rfl⟩ := h
    exact Or.inr ⟨hrec, hid, rfl, heff⟩

/-- The report passes the checks and is not recorded yet. -/
def Db.takes (s : Db) (now : Int) (input : RunnerEventInput) : Bool :=
  (admit_runner_event s now input).isOk
    && !s.recorded input.corp_id (.runner_event input.runner_id input.event_id)

/-- A report that is not taken changes nothing. -/
theorem apply_runner_event_taken {now : Int} {input : RunnerEventInput} {o : Option Event}
    (h : apply_runner_event env s now input = .ok (o, t)) : t = s ∨ s.takes now input = true := by
  obtain ⟨row, scope, payload, hadm, ⟨-, -, rfl⟩ | ⟨hnew, -, -, -⟩⟩ := apply_runner_event_ok h
  · exact Or.inl rfl
  · refine Or.inr ?_
    rw [Db.takes, admit_runner_event_ok.mpr hadm, Bool.and_eq_true, Bool.not_eq_true']
    exact ⟨rfl, hnew⟩

/-! ## The effect of each report

The rows a case works on are the rows of the run the report names. -/

/-- A write of columns the lifecycle does not look at. -/
theorem Quiet.of_run_write {p : Run → Bool} {f : Run → Run}
    (hruns : t.runs = updateWhere p f s.runs) (htasks : t.tasks = s.tasks)
    (hmissions : t.missions = s.missions) (hagents : t.agents = s.agents)
    (hdeps : t.task_dependencies = s.task_dependencies)
    (hf : ∀ x, x.Kept (f x) ∧ (f x).status = x.status) : Quiet s t where
  runs := by
    rw [hruns]
    exact Updated.of_updateWhere (fun x _ _ => hf x) fun x _ _ => ⟨Run.Kept.refl x, rfl⟩
  tasks := by
    rw [htasks]
    exact Updated.refl fun x _ => ⟨Task.Kept.refl x, rfl, rfl⟩
  missions := hmissions
  agents := hagents
  task_dependencies := hdeps

/-- A transaction that leaves the four lifecycle tables alone. -/
theorem Quiet.of_same (hruns : t.runs = s.runs) (htasks : t.tasks = s.tasks)
    (hmissions : t.missions = s.missions) (hagents : t.agents = s.agents)
    (hdeps : t.task_dependencies = s.task_dependencies) : Quiet s t where
  runs := by
    rw [hruns]
    exact Updated.refl fun x _ => ⟨Run.Kept.refl x, rfl⟩
  tasks := by
    rw [htasks]
    exact Updated.refl fun x _ => ⟨Task.Kept.refl x, rfl, rfl⟩
  missions := hmissions
  agents := hagents
  task_dependencies := hdeps

variable {row : RunnerRow} {payload : Json}

theorem run_session_quiet (h : run_session s row payload = .ok t) : Quiet s t := by
  unfold run_session at h
  simp only [bind_eq_ok, context_eq_ok, pure_eq_ok] at h
  obtain ⟨_, -, rfl⟩ := h
  exact Quiet.of_run_write rfl rfl rfl rfl rfl fun x => ⟨Run.Kept.of_identity rfl, rfl⟩

theorem run_tool_activity_quiet (h : run_tool_activity s row payload = .ok t) : Quiet s t := by
  unfold run_tool_activity at h
  split at h
  · rw [pure_eq_ok] at h
    subst h
    exact Quiet.of_same rfl rfl rfl rfl rfl
  · split at h
    · rw [pure_eq_ok] at h
      subst h
      exact Quiet.of_run_write rfl rfl rfl rfl rfl fun x =>
        ⟨Run.Kept.of_identity rfl, rfl⟩
    · simp only [bind_eq_ok, ensure_eq_ok, pure_eq_ok] at h
      obtain ⟨_, -, rfl⟩ := h
      exact Quiet.of_run_write rfl rfl rfl rfl rfl fun x =>
        ⟨Run.Kept.of_identity rfl, rfl⟩

theorem run_usage_quiet (h : run_usage s row payload = .ok t) : Quiet s t := by
  unfold run_usage at h
  simp only [bind_eq_ok, ensure_eq_ok, pure_eq_ok] at h
  obtain ⟨_, -, rfl⟩ := h
  exact Quiet.of_run_write rfl rfl rfl rfl rfl fun x => ⟨Run.Kept.of_identity rfl, rfl⟩

/-- The evidence row of a report, and what the report was checked for. -/
theorem run_verification_evidence_ok (h : run_verification_evidence s row payload = .ok t) :
    ∃ e : VerificationEvidence, t = s.onVerificationEvidence (· ++ [e])
      ∧ e.run_id = row.run.id
      ∧ (∃ check, row.task.verification_policy.checks[e.check_index]? = some check
          ∧ e.kind = check.kind)
      ∧ payload.text? "kind" = some e.kind
      ∧ payload.text? "status" = some (match e.status with
          | .passed => "passed"
          | .failed => "failed")
      ∧ e.payload = (payload.get? "payload").getD (.obj [])
      ∧ ∀ x ∈ s.verification_evidence,
          ¬ (x.run_id = e.run_id ∧ x.check_index = e.check_index) := by
  unfold run_verification_evidence insert_verification_evidence at h
  simp only [bind_eq_ok, context_eq_ok, ensure_eq_ok, pure_eq_ok] at h
  obtain ⟨_, -, id, -, index, -, _, -, check, hcheck, kind, hkind, _, hk, text, htext, status,
    hstatus, summary, -, _, -, _, huniq, rfl⟩ := h
  refine ⟨_, rfl, rfl, ⟨check, ?_, hk⟩, hkind, ?_, rfl, fun x hx => (huniq x hx).2⟩
  · by_cases hpos : 0 ≤ index
    · simpa [hpos] using hcheck
    · simp [hpos] at hcheck
  · rw [htext]
    unfold evidence_status at hstatus
    split at hstatus
    · rw [Option.some.injEq] at hstatus
      subst hstatus
      rfl
    · rw [Option.some.injEq] at hstatus
      subst hstatus
      rfl
    · cases hstatus

theorem run_verification_evidence_quiet (h : run_verification_evidence s row payload = .ok t) :
    Quiet s t := by
  obtain ⟨e, rfl, -⟩ := run_verification_evidence_ok h
  exact Quiet.of_same rfl rfl rfl rfl rfl

/-- What a `run.verification_passed` report establishes and writes. -/
theorem run_verification_passed_ok (h : run_verification_passed s row payload = .ok t) :
    ∃ summary verification_sha256 deliverable_sha256,
      passed_digests s row payload = .ok (verification_sha256, deliverable_sha256)
      ∧ (s.evidence_rows row.run.id).length = row.task.verification_policy.checks.length
      ∧ evidence_satisfies 0 (s.evidence_rows row.run.id)
          row.task.verification_policy.checks = true
      ∧ t = (s.onRuns (updateWhere (fun r => r.id == row.run.id) fun r =>
          { r with
            verification_status := .passed
            verification_summary := some summary
            verification_sha256 := verification_sha256
            deliverable_sha256 := deliverable_sha256 })).onTasks
          (updateWhere (fun t => t.id == row.task.id) fun t =>
            { t with verification_status := .passed }) := by
  unfold run_verification_passed at h
  simp only [bind_eq_ok, ensure_eq_ok, pure_eq_ok] at h
  obtain ⟨⟨v, d⟩, hdig, _, -, _, hlen, _, hsat, rfl⟩ := h
  exact ⟨_, v, d, hdig, hlen, hsat, rfl⟩

theorem run_verification_passed_quiet (h : run_verification_passed s row payload = .ok t) :
    Quiet s t := by
  obtain ⟨summary, v, d, -, -, -, rfl⟩ := run_verification_passed_ok h
  constructor
  · exact Updated.of_updateWhere (fun x _ _ => ⟨Run.Kept.of_identity rfl, rfl⟩)
      fun x _ _ => ⟨Run.Kept.refl x, rfl⟩
  · exact Updated.of_updateWhere (fun x _ _ => ⟨⟨rfl, rfl, rfl, rfl, rfl, rfl, rfl, rfl⟩, rfl, rfl⟩)
      fun x _ _ => ⟨Task.Kept.refl x, rfl, rfl⟩
  · rfl
  · rfl
  · rfl

theorem run_teardown_uncertain_quiet (h : run_teardown_uncertain s row payload = .ok t) :
    Quiet s t := by
  unfold run_teardown_uncertain at h
  simp only [bind_eq_ok, ensure_eq_ok, context_eq_ok, pure_eq_ok] at h
  obtain ⟨_, -, _, -, rfl⟩ := h
  exact Quiet.of_run_write rfl rfl rfl rfl rfl fun x => ⟨Run.Kept.of_identity rfl, rfl⟩

/-- A report on the retained workspace writes workspace columns of the run, and nothing
else. -/
theorem run_workspace_retained_ok {now : Int} {event_type : EventType}
    (h : run_workspace_retained s now row event_type payload = .ok t) :
    ∃ f : Run → Run, t = s.onRuns (updateWhere (fun r => r.id == row.run.id) f)
      ∧ ∀ x, ∃ path branch base_ref base_commit disposition detail fingerprint, f x = { x with
          workspace_path := path
          workspace_branch := branch
          workspace_base_ref := base_ref
          workspace_base_commit := base_commit
          workspace_disposition := disposition
          workspace_detail := detail
          workspace_fingerprint := fingerprint } := by
  unfold run_workspace_retained at h
  simp only [bind_eq_ok] at h
  obtain ⟨disposition, -, fingerprint, -, h⟩ := h
  split at h
  · simp only [bind_eq_ok] at h
    obtain ⟨checkpoint, -, h⟩ := h
    split at h
    · rw [pure_eq_ok] at h
      subst h
      refine ⟨_, congrArg (fun l => { s with runs := l }) (updateWhere_updateWhere ?_), ?_⟩
      · intro x hx
        exact hx
      · intro x
        exact ⟨_, _, _, _, _, _, _, rfl⟩
    · rw [pure_eq_ok] at h
      subst h
      exact ⟨_, rfl, fun x => ⟨_, _, _, _, _, _, _, rfl⟩⟩
  · rw [pure_eq_ok] at h
    subst h
    exact ⟨_, rfl, fun x => ⟨_, _, _, _, _, _, _, rfl⟩⟩

theorem run_workspace_retained_quiet {now : Int} {event_type : EventType}
    (h : run_workspace_retained s now row event_type payload = .ok t) : Quiet s t := by
  obtain ⟨f, rfl, hf⟩ := run_workspace_retained_ok h
  refine Quiet.of_run_write rfl rfl rfl rfl rfl ?_
  intro x
  obtain ⟨_, _, _, _, _, _, _, hx⟩ := hf x
  rw [hx]
  exact ⟨Run.Kept.of_identity rfl, rfl⟩

/-! ### Reports of an active run that goes on -/

/-- A write that reaches every row of a run leaves the run started. -/
theorem started_of_writes {r : Run} {p : Run → Bool} {f : Run → Run}
    (hruns : t.runs = updateWhere p f s.runs) (hp : ∀ x, p x = true → x.id = r.id)
    (hf : ∀ x, x.Kept (f x) ∧ (f x).active = true ∧ (f x).started = true)
    (hall : ∀ x : Run, x.id = r.id → p x = true) :
    ∀ x ∈ t.runs, x.id = r.id → x.started = true := by
  intro x hx hid
  rw [hruns] at hx
  obtain ⟨y, -, rfl⟩ := mem_updateWhere.mp hx
  have hy : p y = true := by
    refine hall y ?_
    cases hpy : p y with
    | true => exact hp y hpy
    | false => simpa [hpy] using hid
  simpa [hy] using (hf y).2.2

/-- The writes of a report that keeps its run active: some rows of the run, of its task and
of its agent. -/
theorem Work.of_writes {r : Run} {p : Run → Bool} {f : Run → Run} {q : Task → Bool}
    {g : Task → Task} {h : Agent → Agent} (hmem : r ∈ s.runs) (hactive : r.active = true)
    (hruns : t.runs = updateWhere p f s.runs) (htasks : t.tasks = updateWhere q g s.tasks)
    (hmissions : t.missions = s.missions)
    (hagents : t.agents = updateWhere (fun a => a.id == r.agent_id) h s.agents)
    (hdeps : t.task_dependencies = s.task_dependencies)
    (hp : ∀ x, p x = true → x.id = r.id) (hq : ∀ x, q x = true → x.id = r.task_id)
    (hf : ∀ x, x.Kept (f x) ∧ (f x).active = true ∧ (f x).started = true)
    (hg : ∀ x, x.Kept (g x) ∧ (g x).attempt_count = x.attempt_count ∧ (g x).status ≠ .completed)
    (hclaimed : ∀ x, q x = true → x.status = .claimed → ∀ y : Run, y.id = r.id → p y = true)
    (hh : ∀ a, a.Kept (h a) ∧ ((h a).current_run_id = a.current_run_id
      ∨ ((h a).current_run_id = none ∧ ∀ x, x.id = r.id → p x = true))) : Work s t r where
  mem := hmem
  active := hactive
  runs := by
    rw [hruns]
    refine Updated.of_updateWhere ?_ fun x _ _ => ⟨Run.Kept.refl x, Or.inl rfl⟩
    intro x _ hpx
    exact ⟨(hf x).1, Or.inr ⟨hp x hpx, (hf x).2⟩⟩
  tasks := by
    rw [htasks]
    refine Updated.of_updateWhere ?_ fun x _ _ => ⟨Task.Kept.refl x, rfl, Or.inl rfl⟩
    intro x _ hqx
    refine ⟨(hg x).1, (hg x).2.1, Or.inr ⟨hq x hqx, (hg x).2.2, ?_⟩⟩
    intro hclaim
    exact started_of_writes hruns hp hf (hclaimed x hqx hclaim)
  missions := hmissions
  agents := by
    rw [hagents]
    refine Updated.of_updateWhere ?_ fun a _ _ => ⟨Agent.Kept.refl a, Or.inl rfl⟩
    intro a _ hpa
    refine ⟨(hh a).1, Or.inr ⟨by simpa using hpa, ?_⟩⟩
    rcases (hh a).2 with hsame | ⟨hnone, hall⟩
    · exact Or.inl hsame
    · exact Or.inr ⟨hnone, started_of_writes hruns hp hf hall⟩
  task_dependencies := hdeps

variable {corp_id run_id : Uuid}

theorem run_started_work (hj : Joined s corp_id run_id row.run row.task row.mission)
    (hactive : row.run.active = true) (h : run_started s row payload = .ok t) :
    Work s t row.run := by
  unfold run_started at h
  rw [pure_eq_ok] at h
  subst h
  refine Work.of_writes hj.run_mem hactive rfl rfl rfl rfl rfl ?_ ?_ ?_ ?_ ?_ ?_
  · intro x hx
    simpa using hx
  · intro x hx
    rw [← hj.task_id]
    simpa using hx
  · intro x
    exact ⟨Run.Kept.of_identity rfl, rfl, rfl⟩
  · intro x
    exact ⟨⟨rfl, rfl, rfl, rfl, rfl, rfl, rfl, rfl⟩, rfl, by simp⟩
  · intro x _ _ y hy
    simpa using hy
  · intro a
    exact ⟨⟨rfl, rfl, rfl⟩, Or.inl rfl⟩

/-- The pending action approvals a `run.status` report looks at. -/
def run_pending (s : Db) (run_id : Uuid) : Bool :=
  s.action_approvals.any fun p => p.run_id == run_id && p.status == .pending

def task_pending (s : Db) (task_id : Uuid) : Bool :=
  s.action_approvals.any fun p => p.task_id == task_id && p.status == .pending

/-- The agent shows the reported status; a report of work also resumes a run that waits
for nothing. -/
theorem run_status_ok (h : run_status s row payload = .ok t) :
    ∃ status station, status = (payload.text? "status").getD "working"
      ∧ ((status ≠ "working"
          ∧ t = s.onAgents (updateWhere (fun a => a.id == row.run.agent_id) fun a =>
              { a with status := reported_agent_status status, station := some station }))
        ∨ (status = "working"
          ∧ t = ((s.onAgents (updateWhere (fun a => a.id == row.run.agent_id) fun a =>
              { a with status := .working, station := some station })).onRuns
              (updateWhere (fun r => r.id == row.run.id
                && (r.status == .waiting_for_input || r.status == .waiting_for_approval)
                && !run_pending s row.run.id) fun r => { r with status := .running })).onTasks
              (updateWhere (fun t => t.id == row.task.id && t.status == .awaiting_approval
                && !task_pending s row.task.id) fun t => { t with status := .running }))) := by
  refine ⟨_, (payload.text? "station").getD "terminal", rfl, ?_⟩
  unfold run_status at h
  by_cases hw : (payload.text? "status").getD "working" = "working"
  · refine Or.inr ⟨hw, ?_⟩
    simp only [hw, ne_eq, not_true_eq_false, if_false, pure_eq_ok] at h
    exact h.symm
  · refine Or.inl ⟨hw, ?_⟩
    simp only [hw, ne_eq, not_false_eq_true, if_true, pure_eq_ok] at h
    exact h.symm

theorem run_status_work (hj : Joined s corp_id run_id row.run row.task row.mission)
    (hactive : row.run.active = true) (h : run_status s row payload = .ok t) :
    Work s t row.run := by
  obtain ⟨status, station, -, ⟨-, rfl⟩ | ⟨-, rfl⟩⟩ := run_status_ok h
  · refine Work.of_writes (p := fun _ => false) (f := fun x => { x with status := .running })
      (q := fun _ => false) (g := fun x => { x with status := .running })
      hj.run_mem hactive (updateWhere_of_none fun _ _ => rfl).symm
      (updateWhere_of_none fun _ _ => rfl).symm rfl rfl rfl (by simp) (by simp) ?_ ?_ (by simp) ?_
    · intro x
      exact ⟨Run.Kept.of_identity rfl, rfl, rfl⟩
    · intro x
      exact ⟨⟨rfl, rfl, rfl, rfl, rfl, rfl, rfl, rfl⟩, rfl, by simp⟩
    · intro a
      exact ⟨⟨rfl, rfl, rfl⟩, Or.inl rfl⟩
  · refine Work.of_writes hj.run_mem hactive rfl rfl rfl rfl rfl ?_ ?_ ?_ ?_ ?_ ?_
    · intro x hx
      simp only [Bool.and_eq_true, beq_iff_eq] at hx
      exact hx.1.1
    · intro x hx
      simp only [Bool.and_eq_true, beq_iff_eq] at hx
      rw [hx.1.1, hj.task_id]
    · intro x
      exact ⟨Run.Kept.of_identity rfl, rfl, rfl⟩
    · intro x
      exact ⟨⟨rfl, rfl, rfl, rfl, rfl, rfl, rfl, rfl⟩, rfl, by simp⟩
    · intro x hx hclaim
      -- the report only resumes a task that awaits an approval
      simp [hclaim] at hx
    · intro a
      exact ⟨⟨rfl, rfl, rfl⟩, Or.inl rfl⟩

/-- The approval row of a request. -/
theorem run_approval_requested_ok {now : Int}
    (h : run_approval_requested s now row payload = .ok t) :
    ∃ p : ActionApproval, p.run_id = row.run.id ∧ p.task_id = row.task.id
      ∧ p.mission_id = row.mission.id ∧ p.agent_id = row.run.agent_id ∧ p.status = .pending
      ∧ p.corp_id = row.run.corp_id
      ∧ (∀ x ∈ s.action_approvals, x.id ≠ p.id)
      ∧ t = (((s.onActionApprovals (· ++ [p])).onRuns
          (updateWhere (fun r => r.id == row.run.id) fun r =>
            { r with status := .waiting_for_approval })).onTasks
          (updateWhere (fun t => t.id == row.task.id) fun t =>
            { t with status := .awaiting_approval })).onAgents
          (updateWhere (fun a => a.id == row.run.agent_id) fun a =>
            { a with status := .blocked, station := some "approval" }) := by
  unfold run_approval_requested insert_action_approval at h
  simp only [bind_eq_ok, ensure_eq_ok, pure_eq_ok] at h
  obtain ⟨q, -, _, ⟨_, huniq, rfl⟩, rfl⟩ := h
  exact ⟨_, rfl, rfl, rfl, rfl, rfl, rfl, fun x hx => (huniq x hx).1, rfl⟩

theorem run_approval_requested_work {now : Int}
    (hj : Joined s corp_id run_id row.run row.task row.mission) (hactive : row.run.active = true)
    (h : run_approval_requested s now row payload = .ok t) : Work s t row.run := by
  obtain ⟨p, -, -, -, -, -, -, -, rfl⟩ := run_approval_requested_ok h
  refine Work.of_writes hj.run_mem hactive rfl rfl rfl rfl rfl ?_ ?_ ?_ ?_ ?_ ?_
  · intro x hx
    simpa using hx
  · intro x hx
    rw [← hj.task_id]
    simpa using hx
  · intro x
    exact ⟨Run.Kept.of_identity rfl, rfl, rfl⟩
  · intro x
    exact ⟨⟨rfl, rfl, rfl, rfl, rfl, rfl, rfl, rfl⟩, rfl, by simp⟩
  · intro x _ _ y hy
    simpa using hy
  · intro a
    exact ⟨⟨rfl, rfl, rfl⟩, Or.inl rfl⟩

theorem run_verification_started_work (hj : Joined s corp_id run_id row.run row.task row.mission)
    (hactive : row.run.active = true) (h : run_verification_started s row = .ok t) :
    Work s t row.run := by
  unfold run_verification_started at h
  rw [pure_eq_ok] at h
  subst h
  refine Work.of_writes hj.run_mem hactive rfl rfl rfl rfl rfl ?_ ?_ ?_ ?_ ?_ ?_
  · intro x hx
    simpa using hx
  · intro x hx
    rw [← hj.task_id]
    simpa using hx
  · intro x
    exact ⟨Run.Kept.of_identity rfl, rfl, rfl⟩
  · intro x
    exact ⟨⟨rfl, rfl, rfl, rfl, rfl, rfl, rfl, rfl⟩, rfl, by simp⟩
  · intro x _ _ y hy
    simpa using hy
  · intro a
    exact ⟨⟨rfl, rfl, rfl⟩, Or.inl rfl⟩

/-- What a `run.verification_waiting` report establishes and writes. -/
theorem run_verification_waiting_ok (h : run_verification_waiting s row payload = .ok t) :
    ∃ (q : VerificationRequest) (verification_summary completion_summary : String) (u : Db),
      row.run.verification_status = .passed
      ∧ row.task.verification_policy.manual_gate = some q.gate
      ∧ q.run_id = row.run.id ∧ q.corp_id = row.run.corp_id ∧ q.task_id = row.task.id
      ∧ q.status = .pending
      ∧ (∀ x ∈ s.verification_requests, x.run_id ≠ q.run_id)
      ∧ u = (((s.onVerificationRequests (· ++ [q])).onRuns
          (updateWhere (fun r => r.id == row.run.id) fun r =>
            { r with
              status := .waiting_for_approval
              verification_status := .waiting_for_approval
              verification_summary := some verification_summary
              summary := some completion_summary })).onTasks
          (updateWhere (fun t => t.id == row.task.id) fun t =>
            { t with status := .awaiting_approval
                     verification_status := .waiting_for_approval })).onAgents
          (updateWhere (fun a => a.id == row.run.agent_id) fun a =>
            { a with status := .reviewing, station := some "review" })
      ∧ FactoryOnly Event.Routine u t := by
  unfold run_verification_waiting insert_verification_request at h
  simp only [bind_eq_ok, ensure_eq_ok, context_eq_ok, pure_eq_ok] at h
  obtain ⟨_, hpassed, _, -, gate, -, _, hgate, kind, -, _, -, _, ⟨_, huniq, rfl⟩, h⟩ := h
  exact ⟨_, _, _, _, hpassed, hgate, rfl, rfl, rfl, rfl, huniq, rfl,
    reconcile_factory_awaiting_approval_tx_frame h⟩

theorem run_verification_waiting_work (hj : Joined s corp_id run_id row.run row.task row.mission)
    (hactive : row.run.active = true) (h : run_verification_waiting s row payload = .ok t) :
    Work s t row.run := by
  obtain ⟨q, v, c, u, -, -, -, -, -, -, -, rfl, items, recs, evs, rfl, -⟩ :=
    run_verification_waiting_ok h
  refine Work.of_writes hj.run_mem hactive rfl rfl rfl rfl rfl ?_ ?_ ?_ ?_ ?_ ?_
  · intro x hx
    simpa using hx
  · intro x hx
    rw [← hj.task_id]
    simpa using hx
  · intro x
    exact ⟨Run.Kept.of_identity rfl, rfl, rfl⟩
  · intro x
    exact ⟨⟨rfl, rfl, rfl, rfl, rfl, rfl, rfl, rfl⟩, rfl, by simp⟩
  · intro x _ _ y hy
    simpa using hy
  · intro a
    exact ⟨⟨rfl, rfl, rfl⟩, Or.inl rfl⟩

/-! ### Reports that end a run -/

/-- The writes that end a run: its row, its task, its mission, and the release of its
agent where `p` selects it. -/
theorem Stop.of_writes {r : Run} {f : Run → Run} {q : Task → Bool} {g : Task → Task}
    {k : Mission → Bool} {w : Mission → Mission} {p : Agent → Bool}
    (hmem : r ∈ s.runs) (hactive : r.active = true)
    (hruns : t.runs = updateWhere (fun x => x.id == r.id) f s.runs)
    (htasks : t.tasks = updateWhere q g s.tasks)
    (hmissions : t.missions = updateWhere k w s.missions)
    (hagents : t.agents = updateWhere p Agent.release s.agents)
    (hdeps : t.task_dependencies = s.task_dependencies)
    (hf : ∀ x, x.Kept (f x) ∧ (f x).active = false ∧ (f x).status ≠ .completed)
    (hq : ∀ x, q x = true → x.id = r.task_id)
    (hg : ∀ x, x.Kept (g x) ∧ (g x).attempt_count = x.attempt_count ∧ (g x).status ≠ .completed)
    (hw : ∀ m, m.Kept (w m) ∧ (w m).status ≠ .completed)
    (hp : ∀ a ∈ s.agents, p a = true → a.id = r.agent_id)
    (hheld : ∀ a ∈ s.agents, a.current_run_id = some r.id → a.id = r.agent_id → p a = true) :
    Stop s t r where
  mem := hmem
  active := hactive
  runs := by
    rw [hruns]
    refine Updated.of_updateWhere ?_ ?_
    · intro x _ hx
      rw [beq_iff_eq] at hx
      exact ⟨(hf x).1, fun _ => (hf x).2, fun hne => absurd hx hne⟩
    · intro x _ hx
      rw [beq_eq_false_iff_ne] at hx
      exact ⟨Run.Kept.refl x, fun he => absurd he hx, fun _ => rfl⟩
  tasks := by
    rw [htasks]
    refine Updated.of_updateWhere ?_ fun x _ _ => ⟨Task.Kept.refl x, rfl, Or.inl rfl⟩
    intro x _ hx
    exact ⟨(hg x).1, (hg x).2.1, Or.inr ⟨hq x hx, (hg x).2.2⟩⟩
  missions := by
    rw [hmissions]
    exact Updated.of_updateWhere (fun m _ _ => ⟨(hw m).1, Or.inr (hw m).2⟩)
      fun m _ _ => ⟨Mission.Kept.refl m, Or.inl rfl⟩
  agents := by
    rw [hagents]
    refine Updated.of_updateWhere ?_ ?_
    · intro a ha hpa
      exact ⟨Or.inr ⟨hp a ha hpa, rfl⟩, fun _ _ => rfl⟩
    · intro a ha hpa
      refine ⟨Or.inl rfl, fun hcur hid => ?_⟩
      rw [hheld a ha hcur hid] at hpa
      cases hpa
  task_dependencies := hdeps

/-- What terminalising the replacement run of a recovery writes. -/
theorem terminalize_factory_recovery_run_tx_ok {corp_id recovery_id run_id task_id : Uuid}
    {mission_id room_id : Uuid} {summary : String} {run_status : RunStatus} {cause : FailureCause}
    (h : terminalize_factory_recovery_run_tx s corp_id recovery_id run_id task_id mission_id room_id
      summary run_status cause = .ok t) :
    (run_status = .failed ∨ run_status = .cancelled ∨ run_status = .lost)
      ∧ ∃ (note : String) (recs : List FactoryVerificationRecovery) (u : Db),
        u = { s with
          runs := updateWhere (fun r => r.id == run_id) (fun r =>
            { r with
              status := run_status
              verification_status := .failed
              verification_summary := some summary
              summary := some summary
              workspace_detail := if r.workspace_path.isNone ∧ run_status ≠ .lost
                then some "dispatch_not_started" else r.workspace_detail }) s.runs
          tasks := updateWhere (fun t => t.id == task_id) (fun t =>
            { t with status := .verification_failed, verification_status := .failed }) s.tasks
          missions := updateWhere (fun m => m.id == mission_id) (fun m =>
            { m with status := .failed }) s.missions
          verification_requests := updateWhere
            (fun q => q.run_id == run_id && q.corp_id == corp_id && q.status == .pending)
            (fun q => { q with status := .rejected, decision_note := some note })
            s.verification_requests
          factory_verification_recoveries := recs
          runner_commands := updateWhere
            (fun c => c.corp_id == corp_id && c.run_id == run_id
              && c.command_kind == .factory_verification_recovery)
            (fun c => { c with status := .dispatched }) s.runner_commands }
        ∧ FactoryOnly (fun e =>
            (∃ item, e.idempotency_key = .factory_verification_failed item run_id cause)
            ∧ e.type.is_routine = true) u t := by
  unfold terminalize_factory_recovery_run_tx at h
  simp only [bind_eq_ok, ensure_eq_ok] at h
  obtain ⟨_, hstatus, h⟩ := h
  refine ⟨by simpa using hstatus, _, _, _, rfl, reconcile_factory_verification_failure_tx_frame h⟩

theorem reject_ne_completed {st : RunStatus}
    (h : st = .failed ∨ st = .cancelled ∨ st = .lost) :
    st.is_active = false ∧ st ≠ .completed := by
  rcases h with rfl | rfl | rfl <;> exact ⟨rfl, by simp⟩

/-- The agent a failed run releases: the one that holds it, or one it left behind in a
review no later run can own. -/
theorem release_failed_run_agent_tx_ok (corp_id agent_id run_id : Uuid)
    (hkeyed : Keyed Agent.id s.agents) :
    ∃ p : Agent → Bool,
      release_failed_run_agent_tx s corp_id agent_id run_id
        = s.onAgents (updateWhere p Agent.release)
      ∧ (∀ a, p a = true → a.id = agent_id)
      ∧ ∀ a ∈ s.agents, a.id = agent_id → a.corp_id = corp_id →
          (p a = true ↔ (a.current_run_id = some run_id
            ∨ (a.current_run_id = none ∧ a.status = .reviewing
              ∧ owns_detached_review s corp_id agent_id run_id = true))) := by
  have hfind : ∀ a ∈ s.agents, a.id = agent_id → a.corp_id = corp_id →
      s.agents.find? (fun b => b.id == agent_id && b.corp_id == corp_id) = some a := by
    intro a ha hid hcorp
    cases hf : s.agents.find? (fun b => b.id == agent_id && b.corp_id == corp_id) with
    | none =>
      have := List.find?_eq_none.mp hf a ha
      simp [hid, hcorp] at this
    | some b =>
      have hb := List.find?_some hf
      simp only [Bool.and_eq_true, beq_iff_eq] at hb
      rw [hkeyed.eq_of_mem (List.mem_of_find?_eq_some hf) ha (by rw [hb.1, hid])]
  unfold release_failed_run_agent_tx
  split
  · rename_i hnone
    refine ⟨fun _ => false, ?_, by simp, ?_⟩
    · change s = { s with agents := _ }
      rw [updateWhere_of_none fun _ _ => rfl]
    · intro a ha hid hcorp
      rw [hfind a ha hid hcorp] at hnone
      cases hnone
  · rename_i agent hsome
    split
    · rename_i hskip
      refine ⟨fun _ => false, ?_, by simp, ?_⟩
      · change s = { s with agents := _ }
        rw [updateWhere_of_none fun _ _ => rfl]
      · intro a ha hid hcorp
        rw [hfind a ha hid hcorp, Option.some.injEq] at hsome
        subst hsome
        simp only [Bool.false_eq_true, false_iff]
        rintro (hheld | ⟨hnone, hrev, howns⟩)
        · exact hskip.1 hheld
        · rcases hskip.2 with hsome | hst | hno
          · rw [hnone] at hsome
            cases hsome
          · exact hst hrev
          · rw [howns] at hno
            cases hno
    · rename_i hgo
      refine ⟨_, rfl, ?_, ?_⟩
      · intro a hp
        simp only [Bool.and_eq_true, beq_iff_eq] at hp
        exact hp.1.1
      · intro a ha hid hcorp
        rw [hfind a ha hid hcorp, Option.some.injEq] at hsome
        subst hsome
        have htrue : (a.id == agent_id && a.corp_id == corp_id
            && a.current_run_id == a.current_run_id) = true := by
          simp [hid, hcorp]
        refine ⟨fun _ => ?_, fun _ => htrue⟩
        by_cases hheld : a.current_run_id = some run_id
        · exact Or.inl hheld
        · refine Or.inr ?_
          refine ⟨?_, ?_, ?_⟩
          · by_contra hn
            exact hgo ⟨hheld, Or.inl (Option.isSome_iff_ne_none.mpr hn)⟩
          · by_contra hst
            exact hgo ⟨hheld, Or.inr (Or.inl hst)⟩
          · by_contra hno
            exact hgo ⟨hheld, Or.inr (Or.inr (by simpa using hno))⟩

/-- The agents of a run's corp that hold it are selected by the agent's identifier. -/
theorem Life.agent_corp (hs : Life s) {r : Run} (hr : r ∈ s.runs) {a : Agent} (ha : a ∈ s.agents)
    (hid : a.id = r.agent_id) : a.corp_id = r.corp_id := by
  obtain ⟨b, hb, hbid, hcorp⟩ := hs.run_agent r hr
  rw [hs.agents_keyed.eq_of_mem ha hb (hid.trans hbid.symm), hcorp]

variable (row) in
/-- The writes of a failed verification, by a report or by a reviewer. -/
theorem fail_verification_stop (summary : String)
    (hj : Joined s corp_id run_id row.run row.task row.mission)
    (hactive : row.run.active = true)
    (hruns : t.runs = (s.fail_verification row summary).runs)
    (htasks : t.tasks = (s.fail_verification row summary).tasks)
    (hmissions : t.missions = (s.fail_verification row summary).missions)
    (hagents : t.agents = updateWhere (fun a => a.id == row.run.agent_id) Agent.release s.agents)
    (hdeps : t.task_dependencies = s.task_dependencies) : Stop s t row.run := by
  refine Stop.of_writes hj.run_mem hactive hruns htasks hmissions hagents hdeps ?_ ?_ ?_ ?_ ?_ ?_
  · intro x
    exact ⟨Run.Kept.of_identity rfl, rfl, by simp⟩
  · intro x hx
    rw [← hj.task_id]
    simpa using hx
  · intro x
    exact ⟨⟨rfl, rfl, rfl, rfl, rfl, rfl, rfl, rfl⟩, rfl, by simp⟩
  · intro m
    exact ⟨⟨rfl, rfl, rfl, rfl, rfl, rfl, rfl, rfl⟩, by simp⟩
  · intro a _ hp
    simpa using hp
  · intro a _ _ hid
    simpa using hid

theorem run_verification_failed_ok (h : run_verification_failed s row payload = .ok t) :
    ∃ summary, FactoryOnly (fun e => (∃ item, e.idempotency_key
          = .factory_verification_failed item row.run.id .automated_verification)
        ∧ e.type.is_routine = true)
      ((s.fail_verification row summary).release_agent row.run.agent_id) t := by
  unfold run_verification_failed at h
  simp only [bind_eq_ok, ensure_eq_ok] at h
  obtain ⟨_, -, h⟩ := h
  exact ⟨_, reconcile_factory_verification_failure_tx_frame h⟩

theorem run_verification_failed_stop (hj : Joined s corp_id run_id row.run row.task row.mission)
    (hactive : row.run.active = true) (h : run_verification_failed s row payload = .ok t) :
    Stop s t row.run := by
  obtain ⟨summary, items, recs, evs, rfl, -⟩ := run_verification_failed_ok h
  exact fail_verification_stop row summary hj hactive rfl rfl rfl rfl rfl

/-- The writes of a terminalised recovery run, with the release of its agent. -/
theorem terminalize_stop {run : Run} {corp_id recovery_id task_id mission_id room_id : Uuid}
    (hrun : run ∈ s.runs) (hactive : run.active = true) (htask : task_id = run.task_id)
    {summary : String} {run_status : RunStatus} {cause : FailureCause} {u : Db} {p : Agent → Bool}
    (h : terminalize_factory_recovery_run_tx s corp_id recovery_id run.id task_id mission_id room_id
      summary run_status cause = .ok u)
    (hruns : t.runs = u.runs) (htasks : t.tasks = u.tasks) (hmissions : t.missions = u.missions)
    (hagents : t.agents = updateWhere p Agent.release u.agents)
    (hdeps : t.task_dependencies = u.task_dependencies)
    (hp : ∀ a ∈ s.agents, p a = true → a.id = run.agent_id)
    (hheld : ∀ a ∈ s.agents, a.current_run_id = some run.id → a.id = run.agent_id → p a = true) :
    Stop s t run := by
  obtain ⟨hst, note, recs, v, rfl, items, recs', evs, rfl, -⟩ :=
    terminalize_factory_recovery_run_tx_ok h
  refine Stop.of_writes hrun hactive hruns htasks hmissions hagents hdeps ?_ ?_ ?_ ?_ hp hheld
  · intro x
    exact ⟨Run.Kept.of_identity rfl, reject_ne_completed hst⟩
  · intro x hx
    rw [← htask]
    simpa using hx
  · intro x
    exact ⟨⟨rfl, rfl, rfl, rfl, rfl, rfl, rfl, rfl⟩, rfl, by simp⟩
  · intro m
    exact ⟨⟨rfl, rfl, rfl, rfl, rfl, rfl, rfl, rfl⟩, by simp⟩

/-- What an ordinary failure writes. -/
theorem fail_run_tx_ok {scope : Option RunScope} {summary : String}
    (h : fail_run_tx env s row scope summary = .ok t) :
    ∃ (task_status : TaskStatus) (mission_status : MissionStatus),
      task_status ≠ .completed ∧ mission_status ≠ .completed
      ∧ FactoryOnly (fun e => (∃ item, e.idempotency_key = .factory_run_failed item row.run.id)
          ∧ e.type.is_routine = true)
        (((s.onRuns (updateWhere (fun r => r.id == row.run.id) fun r =>
          { r with status := .failed, summary := some summary })).onTasks
          (updateWhere (fun t => t.id == row.task.id) fun t =>
            { t with status := task_status })).settle_mission row.mission.id mission_status) t := by
  unfold fail_run_tx at h
  cases hretry : should_retry_runner_failure row.run.breaker_stage row.task.attempt_count
      row.task.max_attempts with
  | true =>
    simp only [hretry, if_true] at h
    refine ⟨.ready, .running, by simp, by simp, ?_⟩
    cases scope with
    | none =>
      simp only [Except.ok.injEq] at h
      subst h
      exact FactoryOnly.refl
    | some scope =>
      simp only [Except.ok.injEq] at h
      subst h
      exact FactoryOnly.refl
  | false =>
    simp only [hretry, Bool.false_eq_true, if_false] at h
    refine ⟨.failed, .failed, by simp, by simp, ?_⟩
    cases scope with
    | none =>
      simp only [Except.ok.injEq] at h
      subst h
      exact FactoryOnly.refl
    | some scope => exact reconcile_tx_frame h

theorem run_failed_stop (hs : Life s) {scope : Option RunScope}
    (hj : Joined s corp_id run_id row.run row.task row.mission)
    (hactive : row.run.active = true) (h : run_failed env s row scope payload = .ok t) :
    Stop s t row.run := by
  unfold run_failed at h
  simp only [bind_eq_ok, pure_eq_ok] at h
  obtain ⟨u, hend, rfl⟩ := h
  unfold end_failed_run at hend
  split at hend
  · rename_i recovery_id hrec
    obtain ⟨-, note, recs, v, hv, items, recs', evs, hu, -⟩ :=
      terminalize_factory_recovery_run_tx_ok hend
    have hua : u.agents = s.agents := by rw [hu, hv]
    obtain ⟨p, hrel, hp, hiff⟩ := release_failed_run_agent_tx_ok (s := u)
      row.run.corp_id row.run.agent_id row.run.id
      (hua ▸ hs.agents_keyed)
    rw [hrel]
    rw [hua] at hiff
    refine terminalize_stop hj.run_mem hactive hj.task_id hend rfl rfl rfl rfl rfl
      (fun a _ => hp a) ?_
    intro a ha hcur hid
    exact (hiff a ha hid (hs.agent_corp hj.run_mem ha hid)).mpr (Or.inl hcur)
  · obtain ⟨ts, ms, hts, hms, items, recs, evs, hu, -⟩ := fail_run_tx_ok hend
    have hua : u.agents = s.agents := by rw [hu]; rfl
    obtain ⟨p, hrel, hp, hiff⟩ := release_failed_run_agent_tx_ok (s := u)
      row.run.corp_id row.run.agent_id row.run.id
      (hua ▸ hs.agents_keyed)
    rw [hrel]
    rw [hua] at hiff
    subst hu
    refine Stop.of_writes hj.run_mem hactive rfl rfl rfl rfl rfl ?_ ?_ ?_ ?_ (fun a _ => hp a) ?_
    · intro x
      exact ⟨Run.Kept.of_identity rfl, rfl, by simp⟩
    · intro x hx
      rw [← hj.task_id]
      simpa using hx
    · intro x
      exact ⟨⟨rfl, rfl, rfl, rfl, rfl, rfl, rfl, rfl⟩, rfl, hts⟩
    · intro m
      exact ⟨⟨rfl, rfl, rfl, rfl, rfl, rfl, rfl, rfl⟩, hms⟩
    · intro a ha hcur hid
      exact (hiff a ha hid (hs.agent_corp hj.run_mem ha hid)).mpr (Or.inl hcur)

theorem run_cancelled_stop (hj : Joined s corp_id run_id row.run row.task row.mission)
    (hactive : row.run.active = true) (h : run_cancelled s row payload = .ok t) :
    Stop s t row.run := by
  unfold run_cancelled at h
  simp only [bind_eq_ok, pure_eq_ok] at h
  obtain ⟨u, hend, rfl⟩ := h
  unfold end_cancelled_run at hend
  split at hend
  · refine terminalize_stop hj.run_mem hactive hj.task_id hend rfl rfl rfl rfl rfl ?_ ?_
    · intro a _ hp
      simpa using hp
    · intro a _ _ hid
      simpa using hid
  · rw [Except.ok.injEq] at hend
    subst hend
    refine Stop.of_writes hj.run_mem hactive rfl rfl rfl rfl rfl ?_ ?_ ?_ ?_ ?_ ?_
    · intro x
      exact ⟨Run.Kept.of_identity rfl, rfl, by simp⟩
    · intro x hx
      rw [← hj.task_id]
      simpa using hx
    · intro x
      exact ⟨⟨rfl, rfl, rfl, rfl, rfl, rfl, rfl, rfl⟩, rfl, by simp⟩
    · intro m
      exact ⟨⟨rfl, rfl, rfl, rfl, rfl, rfl, rfl, rfl⟩, by simp⟩
    · intro a _ hp
      simpa using hp
    · intro a _ _ hid
      simpa using hid

/-! ### Completion -/

/-- A pending task of the mission whose dependencies are all completed. -/
def Db.child_ready (s : Db) (mission_id : Uuid) (child : Task) : Bool :=
  child.mission_id == mission_id && child.status == .pending
    && !(s.task_dependencies.any fun d => d.task_id == child.id
      && s.tasks.any fun parent =>
        parent.id == d.depends_on_task_id && !(parent.status == .completed))

/-- What completing a task writes besides the task and its run. -/
theorem complete_task_tx_ok {actor_id : Option Uuid}
    (h : complete_task_tx s row actor_id = .ok t) :
    ∃ recs u, u = { s with
        factory_verification_recoveries := recs
        tasks := updateWhere (s.child_ready row.mission.id)
          (fun child => { child with status := .ready }) s.tasks
        missions := updateWhere (fun m => m.id == row.mission.id && m.status.is_open)
          (fun m => { m with
            status := if (s.ready_children row.mission.id).mission_complete row.mission.id
              then .completed else .running }) s.missions }
      ∧ FactoryOnly Event.Routine u t := by
  unfold complete_task_tx at h
  dsimp only at h
  refine ⟨(settle_successful_factory_recoveries_tx s row.run.corp_id
    row.run.id).factory_verification_recoveries, _, rfl, ?_⟩
  split at h
  · rename_i hc
    have hc' : (s.ready_children row.mission.id).mission_complete row.mission.id = true := hc
    simp only [hc', if_true]
    exact reconcile_factory_verified_tx_frame h
  · rename_i hc
    have hc' : ¬ (s.ready_children row.mission.id).mission_complete row.mission.id = true := hc
    simp only [if_neg hc']
    exact FactoryOnly.of_pure h

variable (row) in
/-- The run and its task complete, and the consequences are drawn. -/
theorem Complete.of_writes {actor_id : Option Uuid} {f : Run → Run} {g : Task → Task} {u v : Db}
    (hj : Joined s corp_id run_id row.run row.task row.mission) (hactive : row.run.active = true)
    (hu : u.runs = updateWhere (fun r => r.id == row.run.id) f s.runs)
    (hut : u.tasks = updateWhere (fun t => t.id == row.task.id) g s.tasks)
    (hum : u.missions = s.missions) (hua : u.agents = s.agents)
    (hud : u.task_dependencies = s.task_dependencies)
    (hf : ∀ x, x.Kept (f x) ∧ (f x).status = .completed)
    (hg : ∀ x, x.Kept (g x) ∧ (g x).attempt_count = x.attempt_count ∧ (g x).status = .completed)
    (h : complete_task_tx u row actor_id = .ok v)
    (hruns : t.runs = v.runs) (htasks : t.tasks = v.tasks) (hmissions : t.missions = v.missions)
    (hagents : t.agents = updateWhere (fun a => a.id == row.run.agent_id) Agent.release v.agents)
    (hdeps : t.task_dependencies = v.task_dependencies) : Complete s t row.run := by
  obtain ⟨recs, w, hw, items, recs', evs, hv, -⟩ := complete_task_tx_ok h
  subst hw hv
  constructor
  · exact hj.run_mem
  · exact hactive
  · rw [hruns]
    change Updated _ s.runs u.runs
    rw [hu]
    refine Updated.of_updateWhere ?_ ?_
    · intro x _ hx
      rw [beq_iff_eq] at hx
      exact ⟨(hf x).1, fun _ => (hf x).2, fun hne => absurd hx hne⟩
    · intro x _ hx
      rw [beq_eq_false_iff_ne] at hx
      exact ⟨Run.Kept.refl x, fun he => absurd he hx, fun _ => rfl⟩
  · rw [htasks]
    change Updated _ s.tasks (updateWhere _ _ u.tasks)
    rw [hut, ← hj.task_id]
    refine Updated.trans (R := fun x x' => x.Kept x' ∧ x'.attempt_count = x.attempt_count
        ∧ (x.id = row.task.id → x'.status = .completed)
        ∧ (x.id ≠ row.task.id → x'.status = x.status))
      (S := fun x x' => x.Kept x' ∧ x'.attempt_count = x.attempt_count
        ∧ (x'.status = x.status ∨ (x.status = .pending ∧ x'.status = .ready)))
      (Updated.of_updateWhere ?_ ?_) (Updated.of_updateWhere ?_ ?_) ?_
    · intro x _ hx
      rw [beq_iff_eq] at hx
      exact ⟨(hg x).1, (hg x).2.1, fun _ => (hg x).2.2, fun hne => absurd hx hne⟩
    · intro x _ hx
      rw [beq_eq_false_iff_ne] at hx
      exact ⟨Task.Kept.refl x, rfl, fun he => absurd he hx, fun _ => rfl⟩
    · intro x _ hx
      simp only [Db.child_ready, Bool.and_eq_true, beq_iff_eq] at hx
      exact ⟨⟨rfl, rfl, rfl, rfl, rfl, rfl, rfl, rfl⟩, rfl, Or.inr ⟨hx.1.2, rfl⟩⟩
    · intro x _ _
      exact ⟨Task.Kept.refl x, rfl, Or.inl rfl⟩
    · rintro x _ y z ⟨hk, hat, hself, hother⟩ ⟨hk', hat', hcase⟩
      refine ⟨hk.trans hk', hat'.trans hat, ?_, ?_⟩
      · intro hid
        rcases hcase with hst | ⟨hpend, -⟩
        · rw [hst, hself hid]
        · rw [hself hid] at hpend
          cases hpend
      · intro hid
        rcases hcase with hst | ⟨hpend, hready⟩
        · exact Or.inl (hst.trans (hother hid))
        · exact Or.inr ⟨(hother hid).symm.trans hpend, hready⟩
  · rw [hmissions]
    change Updated _ s.missions (updateWhere _ _ u.missions)
    rw [hum]
    refine Updated.of_updateWhere ?_ fun m _ _ => ⟨Mission.Kept.refl m, Or.inl rfl⟩
    intro m _ hm
    simp only [Bool.and_eq_true, beq_iff_eq] at hm
    refine ⟨⟨rfl, rfl, rfl, rfl, rfl, rfl, rfl, rfl⟩, ?_⟩
    cases hc : (u.ready_children row.mission.id).mission_complete row.mission.id with
    | false => exact Or.inr (Or.inl rfl)
    | true =>
      refine Or.inr (Or.inr ⟨rfl, ?_⟩)
      intro x hx hmission
      rw [htasks] at hx
      by_contra hopen
      simp only [Db.mission_complete, Bool.not_eq_true', List.any_eq_false] at hc
      exact hc x hx (by simp [hmission, hm.1, hopen])
  · rw [hagents]
    change Updated _ s.agents (updateWhere _ _ u.agents)
    rw [hua]
    refine Updated.of_updateWhere ?_ ?_
    · intro a _ ha
      rw [beq_iff_eq] at ha
      exact ⟨fun _ => rfl, fun hne => absurd ha hne⟩
    · intro a _ ha
      rw [beq_eq_false_iff_ne] at ha
      exact ⟨fun he => absurd he ha, fun _ => rfl⟩
  · rw [hdeps]
    exact hud

theorem run_completed_complete (hj : Joined s corp_id run_id row.run row.task row.mission)
    (hactive : row.run.active = true) (h : run_completed s row payload = .ok t) :
    Complete s t row.run := by
  unfold run_completed at h
  simp only [bind_eq_ok, ensure_eq_ok, pure_eq_ok] at h
  obtain ⟨_, -, _, -, v, hv, rfl⟩ := h
  refine Complete.of_writes row (u := (s.onRuns _).onTasks _) hj hactive rfl rfl rfl rfl rfl ?_ ?_
    hv
    rfl rfl rfl rfl rfl
  · intro x
    exact ⟨Run.Kept.of_identity rfl, rfl⟩
  · intro x
    exact ⟨⟨rfl, rfl, rfl, rfl, rfl, rfl, rfl, rfl⟩, rfl, rfl⟩

/-! ## The method -/

/-- **A report is a move.** -/
theorem runner_event_effect_move (hs : Life s) {now : Int} {scope : Option RunScope}
    {event_type : EventType} (hj : Joined s corp_id run_id row.run row.task row.mission)
    (hactive : is_terminal_report event_type = false → row.run.active = true)
    (h : runner_event_effect env s now row scope event_type payload = .ok t) : Turnover s t := by
  cases event_type with
  | run_session => exact .quiet (run_session_quiet h)
  | run_started => exact .work _ (run_started_work hj (hactive rfl) h)
  | run_status => exact .work _ (run_status_work hj (hactive rfl) h)
  | run_approval_requested => exact .work _ (run_approval_requested_work hj (hactive rfl) h)
  | run_tool_activity => exact .quiet (run_tool_activity_quiet h)
  | run_artifact => cases h
  | run_artifact_upload => cases h
  | run_deliverable => cases h
  | run_deliverable_upload => cases h
  | run_usage => exact .quiet (run_usage_quiet h)
  | run_verification_started => exact .work _ (run_verification_started_work hj (hactive rfl) h)
  | run_verification_evidence => exact .quiet (run_verification_evidence_quiet h)
  | run_verification_passed => exact .quiet (run_verification_passed_quiet h)
  | run_verification_waiting => exact .work _ (run_verification_waiting_work hj (hactive rfl) h)
  | run_verification_failed => exact .stop _ (run_verification_failed_stop hj (hactive rfl) h)
  | run_teardown_uncertain => exact .quiet (run_teardown_uncertain_quiet h)
  | run_workspace_preserved => exact .quiet (run_workspace_retained_quiet h)
  | run_workspace_removed => exact .quiet (run_workspace_retained_quiet h)
  | run_completed => exact .complete _ (run_completed_complete hj (hactive rfl) h)
  | run_failed => exact .stop _ (run_failed_stop hs hj (hactive rfl) h)
  | run_cancelled => exact .stop _ (run_cancelled_stop hj (hactive rfl) h)
  | run_session_terminated | run_breaker_transition | factory_blocked | factory_claim_renewed
  | other text =>
    simp only [runner_event_effect, pure_eq_ok] at h
    subst h
    exact .quiet (Quiet.of_same rfl rfl rfl rfl rfl)

theorem apply_runner_event_move (hs : Life s) {now : Int} {input : RunnerEventInput}
    {o : Option Event} (h : apply_runner_event env s now input = .ok (o, t)) : Turnover s t := by
  obtain ⟨row, scope, payload, hadm, ⟨-, -, rfl⟩ | ⟨-, -, -, heff⟩⟩ := apply_runner_event_ok h
  · exact .quiet (Quiet.of_same rfl rfl rfl rfl rfl)
  · have hrep := hadm.reported
    have hj := hrep.joined
    -- Journalling the report touches none of the lifecycle tables.
    have hs' : Life (s.onEvents (· ++ [runner_event input row payload])) :=
      Quiet.life hs (Quiet.of_same rfl rfl rfl rfl rfl)
    have hmove := runner_event_effect_move hs'
      ⟨hj.run_mem, hj.run_id, hj.corp_id, hj.task_mem, hj.task_id, hj.mission_mem, hj.mission_id⟩
      hrep.active heff
    cases hmove with
    | quiet h => exact .quiet ⟨h.runs, h.tasks, h.missions, h.agents, h.task_dependencies⟩
    | work r h =>
      exact .work r ⟨h.mem, h.active, h.runs, h.tasks, h.missions, h.agents, h.task_dependencies⟩
    | complete r h =>
      exact .complete r
        ⟨h.mem, h.active, h.runs, h.tasks, h.missions, h.agents, h.task_dependencies⟩
    | stop r h =>
      exact .stop r ⟨h.mem, h.active, h.runs, h.tasks, h.missions, h.agents, h.task_dependencies⟩
    | lapse r h =>
      exact .lapse r ⟨h.mem, h.started, h.runs, h.tasks, h.missions, h.agents, h.task_dependencies⟩
    | admission r task h =>
      exact .admission r task ⟨h.fresh, h.runs, h.status, h.task_mem, h.task_id, h.task_corp,
        h.agent, h.task_idle, h.agent_idle, h.ready, h.origin, h.tasks, h.missions, h.agents,
        h.task_dependencies⟩

end Crony.Store
