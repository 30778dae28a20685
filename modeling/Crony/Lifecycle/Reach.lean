/-
The invariants of every reachable state, and how rows age along a run.

The lifecycle invariant and the links between tables depend on each other: an expiring
approval is a stop only because approvals name the run they are about. They are therefore
carried together.
-/
import Crony.Lifecycle.Effects

set_option autoImplicit false

open Crony.Lib

namespace Crony.Store

variable {env : Env} {s t u : Db}

/-! ## Rows along moves -/

/-- No run and no task is ever lost; a run that ended keeps its status, and no attempt is
taken back. -/
structure Grows (s t : Db) : Prop where
  runs : ∀ r ∈ s.runs, ∃ r' ∈ t.runs, r.Kept r' ∧ (r.started = true → r'.started = true)
    ∧ (r.active = false → r'.status = r.status)
  tasks : ∀ x ∈ s.tasks, ∃ x' ∈ t.tasks, x.Kept x' ∧ x.attempt_count ≤ x'.attempt_count

theorem Grows.refl : Grows s s where
  runs := fun r hr => ⟨r, hr, Run.Kept.refl r, id, fun _ => rfl⟩
  tasks := fun x hx => ⟨x, hx, Task.Kept.refl x, le_refl _⟩

theorem Grows.trans (h : Grows s t) (h' : Grows t u) : Grows s u where
  runs := by
    intro r hr
    obtain ⟨r', hr', hk, hst, hend⟩ := h.runs r hr
    obtain ⟨r'', hr'', hk', hst', hend'⟩ := h'.runs r' hr'
    refine ⟨r'', hr'', hk.trans hk', fun hs => hst' (hst hs), fun ha => ?_⟩
    have hsame := hend ha
    rw [hend' (by rw [Run.active_congr hsame, ha]), hsame]
  tasks := by
    intro x hx
    obtain ⟨x', hx', hk, hle⟩ := h.tasks x hx
    obtain ⟨x'', hx'', hk', hle'⟩ := h'.tasks x' hx'
    exact ⟨x'', hx'', hk.trans hk', hle.trans hle'⟩

/-- A run with an unchanged status. -/
theorem Run.grows_of_status {r r' : Run} (h : r'.status = r.status) :
    (r.started = true → r'.started = true) ∧ (r.active = false → r'.status = r.status) := by
  refine ⟨fun hs => ?_, fun _ => h⟩
  rw [Run.started_congr h, hs]

theorem Run.started_of_not_active {r : Run} (h : r.active = false) : r.started = true := by
  by_contra hs
  rw [Run.active_of_not_started (by simpa using hs)] at h
  cases h

theorem Turnover.grows (hs : Life s) (h : Turnover s t) : Grows s t := by
  cases h with
  | quiet h =>
    refine ⟨fun r hr => ?_, fun x hx => ?_⟩
    · obtain ⟨r', hr', hk, hst⟩ := h.runs.exists_new hr
      exact ⟨r', hr', hk, Run.grows_of_status hst⟩
    · obtain ⟨x', hx', hk, hat, -⟩ := h.tasks.exists_new hx
      exact ⟨x', hx', hk, hat.ge⟩
  | work w h =>
    refine ⟨fun r hr => ?_, fun x hx => ?_⟩
    · obtain ⟨r', hr', hk, hst | ⟨hid, hact, hstarted⟩⟩ := h.runs.exists_new hr
      · exact ⟨r', hr', hk, Run.grows_of_status hst⟩
      · obtain rfl := hs.eq_of_id hr h.mem hid
        refine ⟨r', hr', hk, fun _ => hstarted, fun hend => ?_⟩
        rw [h.active] at hend
        cases hend
    · obtain ⟨x', hx', hk, hat, -⟩ := h.tasks.exists_new hx
      exact ⟨x', hx', hk, hat.ge⟩
  | complete w h =>
    refine ⟨fun r hr => ?_, fun x hx => ?_⟩
    · obtain ⟨r', hr', hk, hself, hother⟩ := h.runs.exists_new hr
      by_cases hid : r.id = w.id
      · obtain rfl := hs.eq_of_id hr h.mem hid
        refine ⟨r', hr', hk, fun _ => ?_, fun hend => ?_⟩
        · exact Run.started_of_not_active (Run.not_active_of_completed (hself rfl))
        · rw [h.active] at hend
          cases hend
      · exact ⟨r', hr', hk, Run.grows_of_status (hother hid)⟩
    · obtain ⟨x', hx', hk, hat, -⟩ := h.tasks.exists_new hx
      exact ⟨x', hx', hk, hat.ge⟩
  | stop w h =>
    refine ⟨fun r hr => ?_, fun x hx => ?_⟩
    · obtain ⟨r', hr', hk, hself, hother⟩ := h.runs.exists_new hr
      by_cases hid : r.id = w.id
      · obtain rfl := hs.eq_of_id hr h.mem hid
        refine ⟨r', hr', hk, fun _ => Run.started_of_not_active (hself rfl).1, fun hend => ?_⟩
        rw [h.active] at hend
        cases hend
      · exact ⟨r', hr', hk, Run.grows_of_status (hother hid)⟩
    · obtain ⟨x', hx', hk, hat, -⟩ := h.tasks.exists_new hx
      exact ⟨x', hx', hk, hat.ge⟩
  | lapse w h =>
    refine ⟨fun r hr => ?_, fun x hx => ?_⟩
    · exact ⟨r, h.runs ▸ hr, Run.Kept.refl r, id, fun _ => rfl⟩
    · obtain ⟨x', hx', hk, hat, -⟩ := h.tasks.exists_new hx
      exact ⟨x', hx', hk, hat.ge⟩
  | admission w task h =>
    refine ⟨fun r hr => ?_, fun x hx => ?_⟩
    · exact ⟨r, h.mem_runs.mpr (Or.inl hr), Run.Kept.refl r, id, fun _ => rfl⟩
    · obtain ⟨x', hx', hk, hle, -⟩ := h.tasks.exists_new hx
      exact ⟨x', hx', hk, hle⟩

theorem Move.grows (hs : Life s) (h : Move s t) : Grows s t := by
  cases h with
  | turnover h => exact h.grows hs
  | plan mission tasks agents dependencies h =>
    refine ⟨fun r hr => ?_, fun x hx => ?_⟩
    · exact ⟨r, h.runs ▸ hr, Run.Kept.refl r, id, fun _ => rfl⟩
    · exact ⟨x, h.mem_tasks.mpr (Or.inl hx), Task.Kept.refl x, le_refl _⟩

theorem Moves.grows (hs : Life s) (h : Moves s t) : Grows s t := by
  induction h with
  | refl => exact Grows.refl
  | tail hrun hm ih => exact ih.trans (hm.grows (Moves.life hrun hs))

/-! ## Links -/

/-- A row that names a run still names it. -/
theorem Grows.link (h : Grows s t) {run_id task_id : Uuid}
    (hr : ∃ r ∈ s.runs, r.id = run_id ∧ r.task_id = task_id) :
    ∃ r ∈ t.runs, r.id = run_id ∧ r.task_id = task_id := by
  obtain ⟨r, hr, hid, htask⟩ := hr
  obtain ⟨r', hr', hk, -, -⟩ := h.runs r hr
  exact ⟨r', hr', hk.id.trans hid, hk.task_id.trans htask⟩

theorem Grows.link_approval (h : Grows s t) {run_id task_id agent_id : Uuid}
    (hr : ∃ r ∈ s.runs, r.id = run_id ∧ r.task_id = task_id ∧ r.agent_id = agent_id
      ∧ r.started = true) :
    ∃ r ∈ t.runs, r.id = run_id ∧ r.task_id = task_id ∧ r.agent_id = agent_id
      ∧ r.started = true := by
  obtain ⟨r, hr, hid, htask, hagent, hst⟩ := hr
  obtain ⟨r', hr', hk, hst', -⟩ := h.runs r hr
  exact ⟨r', hr', hk.id.trans hid, hk.task_id.trans htask, hk.agent_id.trans hagent, hst' hst⟩

/-- The rows that name a run, table by table: each is one of the rows that were there, or new
and of an active run. -/
structure Ties (s t : Db) : Prop where
  approvals : ∀ p' ∈ t.action_approvals, (∃ p ∈ s.action_approvals, p.Kept p')
    ∨ ∃ r ∈ t.runs, r.id = p'.run_id ∧ r.task_id = p'.task_id ∧ r.agent_id = p'.agent_id
      ∧ r.started = true ∧ r.active = true
  artifacts : ∀ a' ∈ t.artifacts,
    (∃ a ∈ s.artifacts, a'.run_id = a.run_id ∧ a'.task_id = a.task_id)
      ∨ ∃ r ∈ t.runs, r.id = a'.run_id ∧ r.task_id = a'.task_id
  requests : ∀ q' ∈ t.verification_requests, (∃ q ∈ s.verification_requests, q.Kept q')
    ∨ ∃ r ∈ t.runs, r.id = q'.run_id ∧ r.task_id = q'.task_id ∧ r.active = true

theorem Ties.linked (h : Ties s t) (hl : Linked s) (hg : Grows s t) : Linked t where
  approvals := by
    intro p' hp'
    rcases h.approvals p' hp' with ⟨p, hp, hk⟩ | ⟨r, hr, hid, htask, hagent, hstarted, -⟩
    · have := hg.link_approval (hl.approvals p hp)
      rwa [← hk.run_id, ← hk.task_id, ← hk.agent_id] at this
    · exact ⟨r, hr, hid, htask, hagent, hstarted⟩
  artifacts := by
    intro a' ha'
    rcases h.artifacts a' ha' with ⟨a, ha, hrun, htask⟩ | hr
    · have := hg.link (hl.artifacts a ha)
      rwa [← hrun, ← htask] at this
    · exact hr
  requests := by
    intro q' hq'
    rcases h.requests q' hq' with ⟨q, hq, hk⟩ | ⟨r, hr, hid, htask, -⟩
    · have := hg.link (hl.requests q hq)
      rwa [← hk.run_id, ← hk.task_id] at this
    · exact ⟨r, hr, hid, htask⟩

/-- Tables that are unchanged, or changed in columns no link reads. -/
theorem Aside.ties {P : Event → Prop} (h : Aside P s t) : Ties s t := by
  refine ⟨?_, ?_, ?_⟩
  · intro p' hp'
    exact Or.inl (h.action_approvals.exists_old hp')
  · intro a' ha'
    exact Or.inl ⟨a', h.artifacts ▸ ha', rfl, rfl⟩
  · intro q' hq'
    exact Or.inl (h.verification_requests.exists_old hq')

theorem Advance.ties {r : Run} (h : Advance s t r) (hr : r ∈ s.runs) : Ties s t := by
  refine ⟨?_, ?_, ?_⟩
  · intro p' hp'
    exact Or.inl ⟨p', h.action_approvals ▸ hp', ActionApproval.Kept.refl p'⟩
  · intro a' ha'
    exact Or.inl ⟨a', h.artifacts ▸ ha', rfl, rfl⟩
  · intro q' hq'
    rcases h.verification_requests q' hq' with hq | ⟨hrun, htask, -, hawaits⟩
    · exact Or.inl hq
    · obtain ⟨r', hr', hsame, -⟩ := h.runs.exists_new hr
      have hwaiting := (hawaits r' hr' hsame.kept.id).1
      refine Or.inr ⟨r', hr', hsame.kept.id.trans hrun.symm, hsame.kept.task_id.trans htask.symm,
        ?_⟩
      rw [Run.active, hwaiting]
      rfl

/-- Only the listed tables matter for the links. -/
theorem Ties.of_same (happ : t.action_approvals = s.action_approvals)
    (hart : t.artifacts = s.artifacts)
    (hreq : t.verification_requests = s.verification_requests) : Ties s t := by
  refine ⟨?_, ?_, ?_⟩
  · intro p' hp'
    exact Or.inl ⟨p', happ ▸ hp', ActionApproval.Kept.refl p'⟩
  · intro a' ha'
    exact Or.inl ⟨a', hart ▸ ha', rfl, rfl⟩
  · intro q' hq'
    exact Or.inl ⟨q', hreq ▸ hq', VerificationRequest.Kept.refl q'⟩

/-- Readying an artifact leaves the tables of verification and the breaker alone. -/
theorem Readying.frame {a : Artifact} (h : Readying s u a) :
    u.artifacts = s.readied_artifacts a.id ∧ u.action_approvals = s.action_approvals
      ∧ u.verification_requests = s.verification_requests
      ∧ u.verification_evidence = s.verification_evidence
      ∧ u.circuit_breaker_incidents = s.circuit_breaker_incidents
      ∧ u.runner_commands = s.runner_commands := by
  rcases h.state with ⟨-, hu⟩ | ⟨-, row, -, -, hu⟩
  · rw [hu]
    exact ⟨rfl, rfl, rfl, rfl, rfl, rfl⟩
  · rw [hu]
    exact ⟨rfl, rfl, rfl, rfl, rfl, rfl⟩

/-- The review of the run touches runs, tasks and agents only. -/
theorem review_run_frame (u : Db) (run : Run) (task_id : Uuid) (b : Bool) :
    ∃ runs tasks agents, (if b then u.review_run run task_id else u)
      = { u with runs := runs, tasks := tasks, agents := agents } := by
  cases b with
  | true => exact ⟨_, _, _, rfl⟩
  | false => exact ⟨_, _, _, rfl⟩

theorem readied_artifacts_kept {artifact_id : Uuid} {a' : Artifact}
    (h : a' ∈ s.readied_artifacts artifact_id) :
    ∃ a ∈ s.artifacts, a'.id = a.id ∧ a'.run_id = a.run_id ∧ a'.task_id = a.task_id
      ∧ a'.sha256 = a.sha256 ∧ a'.artifact_role = a.artifact_role
      ∧ (a' = a ∨ (a.id = artifact_id ∧ a.status = .staged ∧ a'.status = .ready)) := by
  obtain ⟨a, ha, rfl⟩ := mem_updateWhere.mp h
  by_cases hp : (a.id == artifact_id && a.status == .staged) = true
  · rw [if_pos hp]
    simp only [Bool.and_eq_true, beq_iff_eq] at hp
    exact ⟨a, ha, rfl, rfl, rfl, rfl, rfl, Or.inr ⟨hp.1, hp.2, rfl⟩⟩
  · rw [if_neg hp]
    exact ⟨a, ha, rfl, rfl, rfl, rfl, rfl, Or.inl rfl⟩

/-- A report ties new rows to its own run. -/
theorem ReportEffect.ties {row : RunnerRow} {payload : Json} {event_type : EventType}
    {corp_id run_id : Uuid} (hj : Joined s corp_id run_id row.run row.task row.mission)
    (h : ReportEffect s t row payload event_type) (hg : Grows s t) : Ties s t := by
  cases h with
  | calm _ h => exact h.toAside.ties
  | ended _ h => exact h.toAside.ties
  | asked _ p hrun htask hagent h happ hworks =>
    refine ⟨?_, ?_, ?_⟩
    · intro p' hp'
      rw [happ] at hp'
      rcases List.mem_append.mp hp' with hp' | hp'
      · exact Or.inl ⟨p', hp', ActionApproval.Kept.refl p'⟩
      · rw [List.mem_singleton] at hp'
        subst hp'
        obtain ⟨r', hr', hk, -, -⟩ := hg.runs row.run hj.run_mem
        have hworking := hworks r' hr' hk.id
        refine Or.inr ⟨r', hr', ?_, ?_, ?_, hworking.2, hworking.1⟩
        · rw [hrun, hk.id]
        · rw [htask, hk.task_id, hj.task_id]
        · rw [hagent, hk.agent_id]
    · intro a' ha'
      exact Or.inl ⟨a', h.artifacts ▸ ha', rfl, rfl⟩
    · intro q' hq'
      exact Or.inl (h.verification_requests.exists_old hq')
  | usage _ h =>
    unfold run_usage at h
    simp only [bind_eq_ok, pure_eq_ok] at h
    obtain ⟨_, -, rfl⟩ := h
    exact Ties.of_same rfl rfl rfl
  | evidence _ h =>
    obtain ⟨e, rfl, -⟩ := run_verification_evidence_ok h
    exact Ties.of_same rfl rfl rfl
  | passed _ h =>
    obtain ⟨_, _, _, -, -, -, rfl⟩ := run_verification_passed_ok h
    exact Ties.of_same rfl rfl rfl
  | waiting _ _ hadv => exact hadv.ties hj.run_mem
  | completed _ _ hadv => exact hadv.ties hj.run_mem

theorem Effect.ties {op : Op} (h : Effect s op t) (hg : Grows s t) : Ties s t := by
  cases h with
  | calm h => exact h.toAside.ties
  | settled command_id _ h => exact h.toAside.ties
  | admitted r _ h => exact h.toAside.ties
  | raised now corp_id run_id run task mission stage i c e _ _ _ _ h =>
    have ht := h.state
    exact Ties.of_same (by rw [ht]) (by rw [ht]) (by rw [ht])
  | shelved l h ht =>
    subst ht
    refine ⟨?_, ?_, ?_⟩
    · intro p hp
      exact Or.inl ⟨p, hp, ActionApproval.Kept.refl p⟩
    · intro a' ha'
      cases h with
      | updated h =>
        obtain ⟨a, ha, hk⟩ := h.exists_old ha'
        exact Or.inl ⟨a, ha, hk.run_id, hk.task_id⟩
      | dropped p _ => exact Or.inl ⟨a', List.mem_of_mem_filter ha', rfl, rfl⟩
      | staged run a hrun _ _ _ hid htask _ =>
        rcases List.mem_append.mp ha' with ha' | ha'
        · exact Or.inl ⟨a', ha', rfl, rfl⟩
        · rw [List.mem_singleton] at ha'
          subst ha'
          exact Or.inr ⟨run, hrun, hid.symm, htask.symm⟩
    · intro q hq
      exact Or.inl ⟨q, hq, VerificationRequest.Kept.refl q⟩
  | readied corp_id artifact_id a run task mission u _ _ _ h ht =>
    obtain ⟨runs, tasks, agents, hr⟩ := review_run_frame u run task.id run.active
    rw [hr] at ht
    obtain ⟨hart, happ, hreq, -⟩ := h.frame
    subst ht
    refine ⟨?_, ?_, ?_⟩
    · intro p hp
      exact Or.inl ⟨p, happ ▸ hp, ActionApproval.Kept.refl p⟩
    · intro a' ha'
      have ha'' : a' ∈ s.readied_artifacts a.id := hart ▸ ha'
      obtain ⟨b, hb, -, hrun, htask, -⟩ := readied_artifacts_kept ha''
      exact Or.inl ⟨b, hb, hrun, htask⟩
    · intro q hq
      exact Or.inl ⟨q, hreq ▸ hq, VerificationRequest.Kept.refl q⟩
  | approved now input row actor _ hdec _ hadv =>
    obtain ⟨-, -, -, hr, -⟩ := decision_row_eq_some hdec.row_eq
    exact hadv.ties hr
  | reported now input row scope payload _ hadm _ _ h =>
    have hties := h.ties (hadm.reported.joined.onEvents _) ⟨hg.runs, hg.tasks⟩
    exact ⟨hties.approvals, hties.artifacts, hties.requests⟩

/-! ## Every reachable state -/

/-- The invariants every later argument starts from. -/
structure Inv (s : Db) : Prop where
  life : Life s
  linked : Linked s

theorem exec_inv (hs : Inv s) {op : Op} (h : exec env s op = .ok t) : Inv t := by
  have hmoves := exec_moves hs.life hs.linked h
  exact ⟨hmoves.life hs.life,
    ((exec_effect hs.life hs.linked h).ties (hmoves.grows hs.life)).linked hs.linked
      (hmoves.grows hs.life)⟩

theorem exec_grows (hs : Inv s) {op : Op} (h : exec env s op = .ok t) : Grows s t :=
  (exec_moves hs.life hs.linked h).grows hs.life

theorem Initial.inv (h : Initial s) : Inv s where
  life := {
    runs_keyed := by simp [h.runs, Keyed]
    tasks_keyed := by simp [h.tasks, Keyed]
    missions_keyed := by simp [h.missions, Keyed]
    agents_keyed := h.agents_keyed
    run_task := by simp [h.runs]
    run_agent := by simp [h.runs]
    task_mission := by simp [h.tasks]
    task_agent := by simp [h.tasks]
    dependency_tasks := by simp [h.task_dependencies]
    task_exclusive := by simp [h.runs, UniqueWhere]
    agent_exclusive := by simp [h.runs, UniqueWhere]
    task_settled := by simp [h.tasks]
    task_earned := by simp [h.tasks]
    mission_settled := by simp [h.missions]
    agent_holds := by
      intro a ha id hid
      rw [(h.agents_free a ha).1] at hid
      cases hid
    run_held := by simp [h.runs]
    run_ready := by simp [h.runs]
    run_claimed := by simp [h.runs]
    run_origin := by simp [h.runs] }
  linked := {
    approvals := by simp [h.action_approvals]
    artifacts := by simp [h.artifacts]
    requests := by simp [h.verification_requests] }

/-- **The lifecycle invariant holds in every reachable state.** -/
theorem ReachableVia.invariants {ok : Db → Op → Prop} (h : ReachableVia env ok s) : Inv s :=
  ReachableVia.inv h (fun _ h0 => h0.inv) fun _ _ _ _ hI _ he => exec_inv hI he

/-! ## A small corp

One owner, one room and one worker: the setting of the examples that accompany the
results. -/

namespace Office

def digest : Env :=
  ⟨fun value => match value with
    | .obj fields => String.join (fields.map fun field => field.1 ++ (field.2.as_str.getD ""))
    | _ => ""⟩

def db : Db where
  actors := [{ id := 1, corp_id := 1, kind := .human, role := "owner" },
    { id := 2, corp_id := 1, kind := .agent, role := "worker" }]
  rooms := [{ id := 10, corp_id := 1 }]
  room_memberships := [{ room_id := 10, actor_id := 1 }]
  agents := [{ id := 100, corp_id := 1, actor_id := 2, adapter := "codex" }]

theorem initial : Initial db where
  agents_keyed := by simp [db, Keyed]
  agents_free := by simp [db, AgentStatus.is_busy]
  items_keyed := by simp [db, Keyed]
  items_unlinked := by simp [db]
  missions := rfl
  tasks := rfl
  task_dependencies := rfl
  runs := rfl
  artifacts := rfl
  source_deliverables := rfl
  verification_evidence := rfl
  verification_requests := rfl
  action_approvals := rfl
  runner_commands := rfl
  circuit_breaker_incidents := rfl
  factory_verification_recoveries := rfl
  events := rfl

/-- The state after some calls. -/
def after (calls : List Op) : Db := (system digest).run db calls

theorem reachable_after (calls : List Op) : Reachable digest (after calls) :=
  TransitionSystem.Reachable.run initial calls

def contract : ContractDocument where
  budget_tokens := 1000
  budget_cost_microusd := 1000
  model := none
  reasoning_effort := none
  source_repository := none
  source_base_ref := none
  source_base_commit := none
  deliverable := none
  objective := "repair the stairs"
  expected_output := "stairs without a gap"
  acceptance_tests := ["nobody trips"]
  allowed_tools := ["hammer"]
  prohibited_actions := ["use glue"]
  references := []
  write_scope := ["stairs/**"]
  escalation := "ask the owner"

/-- A task of the worker's. -/
def task (key : String) (depends_on : List String) (policy : VerificationPolicy) : PlannedTask where
  key := key
  assigned_agent_id := 100
  required_adapter := "codex"
  depends_on := depends_on
  depth := 0
  max_attempts := 3
  contract := contract
  verification_policy := policy

def plan (tasks : List PlannedTask) : TaskGraphPlan where
  max_nodes := 4
  max_depth := 2
  budget_tokens := 10000
  budget_cost_microusd := 10000
  tasks := tasks
  staffing := []

/-- The owner plans a mission. -/
def create_mission (plan : TaskGraphPlan) : Op :=
  .create_mission
    { corp_id := 1, requested_by := 1, title := "Mission", description := "", room_id := 10, plan }

/-- The owner dispatches a task of the first mission. -/
def dispatch (task_id run_id : Uuid) : Op :=
  .create_task_run 0
    { corp_id := 1, mission_id := 1, task_id, requested_by := some 1, runner_id := "runner"
      run_id, assignment_token := 7 }

/-- The runner reports on a run. -/
def report (run_id event_id : Uuid) (event_type : EventType) (payload : Json) : Op :=
  .apply_runner_event 0
    { event_id, runner_id := "runner", corp_id := 1, run_id, agent_id := 100
      assignment_token := 7, event_type, payload }

/-- The evidence of a passed check. -/
def evidence (check_index evidence_id : Nat) (kind : String) : Json :=
  .obj [("evidence_id", .uuid evidence_id), ("check_index", .int check_index), ("kind", .str kind),
    ("status", .str "passed"), ("summary", .str "ok")]

/-- A digest text. -/
def sha (c : Char) : String := String.ofList (List.replicate 64 c)

/-- An upload of a run's runner. -/
def artifact (run_id id : Uuid) (role : ArtifactRole) (c : Char) : Artifact where
  id := id
  corp_id := 1
  task_id := 1
  run_id := run_id
  producer_agent_id := 100
  producer_runner_id := "runner"
  verifier := "crony"
  object_key := "key"
  uri := "s3://bucket/key"
  sha256 := sha c
  media_type := "text/plain"
  bytes := 3
  artifact_role := role
  file_name := "report.txt"
  metadata := .obj []
  provenance_signature := sha 'f'
  retention_until := 1000

/-- The runner stages provider evidence of a run. -/
def stage (run_id id : Uuid) (c : Char) : Op :=
  .prepare_artifact_upload 0
    { event_id := id, runner_id := "runner", corp_id := 1, run_id, agent_id := 100
      assignment_token := 7, event_type := .run_artifact_upload, payload := .obj [] }
    (artifact run_id id .provider_evidence c)
    ("staging/corps/" ++ uuid_text 1 ++ "/" ++ uuid_text id) true

/-- Object storage calls back for an artifact. -/
def finalize (id : Uuid) : Op := .finalize_artifact_upload 1 id .allows .allows

/-- One file check and no gate. -/
def file_policy : VerificationPolicy := { checks := [.file "report.md" 1], manual_gate := none }

/-- A run of the first task up to its completion. -/
def completed_run : List Op :=
  [create_mission (plan [task "a" [] file_policy]), dispatch 1 50,
    report 50 201 .run_started (.obj []), report 50 202 .run_verification_started (.obj []),
    report 50 203 .run_verification_evidence (evidence 0 900 "file"),
    report 50 204 .run_verification_passed (.obj []), report 50 205 .run_completed (.obj [])]

end Office

end Crony.Store
