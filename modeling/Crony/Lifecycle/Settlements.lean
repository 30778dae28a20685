/-
Artifacts, decisions and runs that end without a report are moves.

An artifact may become ready while its run is active, which detaches the agent, or long
after. A human decision completes or fails a run. A dispatch that never happened, an
approval nobody gave and a lost runner end a run that has not reported its end itself.
-/
import Crony.Lifecycle.Reports
import Crony.Lifecycle.Calm

set_option autoImplicit false

open Crony.Lib

namespace Crony.Store

variable {env : Env} {s t : Db}

/-! ## Artifacts -/

/-- Staging adds a staged row of an active run, or changes nothing. -/
theorem prepare_artifact_upload_ok {now : Int} {input : RunnerEventInput} {artifact : Artifact}
    {staging_key : String} {receipt_allows : Bool}
    (h : prepare_artifact_upload s now input artifact staging_key receipt_allows = .ok t) :
    ∃ run task mission, Joined s input.corp_id input.run_id run task mission
      ∧ run.assigned input = true ∧ run.active = true ∧ breaker_is_hard run.breaker_stage = false
      ∧ (t = s ∨ ∃ a : Artifact, a.status = .staged ∧ a.run_id = run.id
        ∧ a.task_id = run.task_id
        ∧ (∀ b ∈ s.artifacts, b.id ≠ a.id
          ∧ ¬ (b.run_id = a.run_id ∧ b.artifact_role = .source_deliverable
            ∧ a.artifact_role = .source_deliverable ∧ b.status ≠ .rejected))
        ∧ t = s.onArtifacts (· ++ [a])) := by
  unfold prepare_artifact_upload at h
  simp only [bind_eq_ok, ensure_eq_ok, context_eq_ok] at h
  obtain ⟨role, -, _, ⟨-, -, -, hrun, -, -⟩, _, -, _, -, ⟨run, task, mission⟩, hrow, _, -, _, htask,
    h⟩ := h
  obtain ⟨hrow, hcond⟩ := Option.filter_eq_some_iff.mp hrow
  simp only [Bool.and_eq_true, Bool.not_eq_true'] at hcond
  have hj := Db.run_task_mission_eq_some hrow
  refine ⟨run, task, mission, hj, hcond.1.1, hcond.1.2, hcond.2, ?_⟩
  split at h
  · simp only [bind_eq_ok, pure_eq_ok] at h
    obtain ⟨_, -, rfl⟩ := h
    exact Or.inl rfl
  · split at h
    · simp only [bind_eq_ok, pure_eq_ok] at h
      obtain ⟨_, -, rfl⟩ := h
      exact Or.inl rfl
    · unfold insert_artifact at h
      simp only [bind_eq_ok, ensure_eq_ok, pure_eq_ok] at h
      obtain ⟨_, -, _, huniq, rfl⟩ := h
      refine Or.inr ⟨_, ?_, ?_, ?_, ?_, rfl⟩
      · rfl
      · exact hrun.trans hj.run_id.symm
      · exact htask.trans hj.task_id
      · intro b hb
        exact ⟨(huniq b hb).1, (huniq b hb).2.2⟩

/-- The staged row becomes ready. -/
def Db.readied_artifacts (s : Db) (artifact_id : Uuid) : List Artifact :=
  updateWhere (fun b => b.id == artifact_id && b.status == .staged)
    (fun b => { b with status := .ready, rejection_reason := none }) s.artifacts

/-- What a ready artifact writes to its run: the evidence columns, or the digest of the
deliverable together with the one row that links it. -/
structure Readying (s u : Db) (a : Artifact) : Prop where
  events : Appends Event.Routine s.events u.events
  state : (a.artifact_role = .provider_evidence ∧ u = { s with
        events := u.events
        artifacts := s.readied_artifacts a.id
        runs := updateWhere (fun r => r.id == a.run_id) (fun r =>
          { r with
            artifact_id := some a.id
            artifact_uri := some a.uri
            artifact_media_type := some a.media_type
            artifact_signature := some a.provenance_signature
            artifact_sha256 := some a.sha256 }) s.runs })
    ∨ (a.artifact_role = .source_deliverable ∧ ∃ row : SourceDeliverable,
      row.run_id = a.run_id ∧ row.artifact_id = a.id
      ∧ u = { s with
        events := u.events
        artifacts := s.readied_artifacts a.id
        source_deliverables :=
          if s.source_deliverables.any fun d => d.run_id == a.run_id then s.source_deliverables
          else s.source_deliverables ++ [row]
        runs := updateWhere (fun r => r.id == a.run_id) (fun r =>
          { r with deliverable_sha256 := some a.sha256 }) s.runs })

theorem insert_source_deliverable_ok {row : SourceDeliverable}
    (h : insert_source_deliverable s row = .ok t) : t = { s with
      source_deliverables :=
        if s.source_deliverables.any fun d => d.run_id == row.run_id then s.source_deliverables
        else s.source_deliverables ++ [row] } := by
  unfold insert_source_deliverable at h
  simp only [bind_eq_ok] at h
  obtain ⟨_, -, h⟩ := h
  split at h
  · rename_i hany
    rw [pure_eq_ok] at h
    rw [if_pos hany]
    exact h.symm
  · rename_i hany
    simp only [bind_eq_ok, pure_eq_ok] at h
    obtain ⟨_, -, rfl⟩ := h
    rw [if_neg hany]
    rfl

theorem source_deliverable_row_ok {a : Artifact} {row : SourceDeliverable}
    (h : source_deliverable_row a = .ok row) : row.run_id = a.run_id ∧ row.artifact_id = a.id := by
  unfold source_deliverable_row at h
  simp only [bind_eq_ok, pure_eq_ok] at h
  obtain ⟨_, -, _, -, _, -, _, -, _, -, rfl⟩ := h
  exact ⟨rfl, rfl⟩

theorem finalize_artifact_tx_ok {a : Artifact} {run : Run} {task : Task} {mission : Mission}
    (h : finalize_artifact_tx s a run task mission = .ok t) :
    ∃ u, Readying s u a ∧ t = if run.active then u.review_run run task.id else u := by
  unfold finalize_artifact_tx at h
  simp only [bind_eq_ok, append_new_event_tx_ok, pure_eq_ok] at h
  obtain ⟨_, ⟨-, rfl⟩, u, hu, rfl⟩ := h
  refine ⟨u, ?_, rfl⟩
  unfold record_ready_artifact at hu
  split at hu
  · rename_i hrole
    simp only [bind_eq_ok, pure_eq_ok] at hu
    obtain ⟨row, hrow, v, hv, rfl⟩ := hu
    obtain ⟨hrun, hid⟩ := source_deliverable_row_ok hrow
    have hv := insert_source_deliverable_ok hv
    subst hv
    refine ⟨Appends.one ⟨rfl, by simp [hrole, EventType.is_routine]⟩,
      Or.inr ⟨hrole, row, hrun, hid, ?_⟩⟩
    rw [hrun]
    rfl
  · rename_i hrole
    rw [pure_eq_ok] at hu
    subst hu
    exact ⟨Appends.one ⟨rfl, by simp [hrole, EventType.is_routine]⟩, Or.inl ⟨hrole, rfl⟩⟩

theorem finalize_row_eq_some {corp_id artifact_id : Uuid} {a : Artifact} {run : Run} {task : Task}
    {mission : Mission} (h : finalize_row s corp_id artifact_id = some (a, run, task, mission)) :
    a ∈ s.artifacts ∧ a.id = artifact_id ∧ a.corp_id = corp_id ∧ run ∈ s.runs ∧ run.id = a.run_id
      ∧ task ∈ s.tasks ∧ task.id = a.task_id := by
  unfold finalize_row at h
  simp only [Option.bind_eq_bind, Option.bind_eq_some_iff, Option.pure_def, Option.some.injEq,
    Prod.mk.injEq] at h
  obtain ⟨b, hb, r, hr, x, hx, m, -, rfl, rfl, rfl, -⟩ := h
  obtain ⟨hr, -⟩ := Option.filter_eq_some_iff.mp hr
  obtain ⟨hr, hrid⟩ := Db.run?_eq_some hr
  obtain ⟨hx, hxid⟩ := Db.task?_eq_some hx
  have hcond := List.find?_some hb
  simp only [Bool.and_eq_true, beq_iff_eq] at hcond
  exact ⟨List.mem_of_find?_eq_some hb, hcond.1, hcond.2, hr, hrid, hx, hxid⟩

/-- The three outcomes of a finalisation. -/
theorem finalize_artifact_upload_ok {corp_id artifact_id : Uuid} {fence authority : ReceiptVerdict}
    {c : Committed String Db Unit}
    (h : finalize_artifact_upload s corp_id artifact_id fence authority = .ok c) :
    c.state = s ∨ (∃ reason, c.state = s.reject_artifact corp_id artifact_id reason)
      ∨ ∃ a run task mission u, fence = .allows ∧ authority = .allows
        ∧ finalize_row s corp_id artifact_id = some (a, run, task, mission)
        ∧ a.status = .staged ∧ Readying s u a
        ∧ c.state = if run.active then u.review_run run task.id else u := by
  unfold finalize_artifact_upload at h
  simp only [bind_eq_ok] at h
  obtain ⟨_, -, h⟩ := h
  split at h
  · cases h
  · rw [pure_eq_ok] at h
    subst h
    exact Or.inr (Or.inl ⟨_, rfl⟩)
  · simp only [bind_eq_ok, context_eq_ok, ensure_eq_ok] at h
    obtain ⟨⟨a, run, task, mission⟩, hrow, _, hstatus, h⟩ := h
    split at h
    · cases h
    · rw [pure_eq_ok] at h
      subst h
      exact Or.inr (Or.inl ⟨_, rfl⟩)
    · split at h
      · rw [pure_eq_ok] at h
        subst h
        exact Or.inl rfl
      · rename_i hready
        simp only [bind_eq_ok, pure_eq_ok] at h
        obtain ⟨v, hv, rfl⟩ := h
        obtain ⟨u, hu, rfl⟩ := finalize_artifact_tx_ok hv
        exact Or.inr (Or.inr ⟨a, run, task, mission, u, rfl, rfl, hrow,
          hstatus.resolve_right hready, hu, rfl⟩)

/-- Approvals, artifacts and requests name a run together with its task. -/
structure Linked (s : Db) : Prop where
  approvals : ∀ p ∈ s.action_approvals, ∃ r ∈ s.runs, r.id = p.run_id ∧ r.task_id = p.task_id
    ∧ r.agent_id = p.agent_id ∧ r.started = true
  artifacts : ∀ a ∈ s.artifacts, ∃ r ∈ s.runs, r.id = a.run_id ∧ r.task_id = a.task_id
  requests : ∀ q ∈ s.verification_requests, ∃ r ∈ s.runs, r.id = q.run_id ∧ r.task_id = q.task_id

/-- What readying an artifact does to the lifecycle tables: nothing. -/
theorem Readying.quiet {u : Db} {a : Artifact} (h : Readying s u a) : Quiet s u := by
  rcases h.state with ⟨-, hu⟩ | ⟨-, row, -, -, hu⟩
  · rw [hu]
    exact Quiet.of_run_write rfl rfl rfl rfl rfl fun x =>
      ⟨Run.Kept.of_identity rfl, rfl⟩
  · rw [hu]
    exact Quiet.of_run_write rfl rfl rfl rfl rfl fun x =>
      ⟨Run.Kept.of_identity rfl, rfl⟩

/-- Moving an active run on to verification is work on it. -/
theorem review_run_work (run : Run) (task_id : Uuid)
    (hrun : ∃ x ∈ s.runs, run.Kept x ∧ x.active = true)
    (htask : task_id = run.task_id) :
    ∃ r ∈ s.runs, run.Kept r ∧ Work s (s.review_run run task_id) r := by
  obtain ⟨x, hx, hk, hactive⟩ := hrun
  refine ⟨x, hx, hk,
    Work.of_writes hx hactive rfl rfl rfl (by rw [hk.agent_id]; rfl) rfl ?_ ?_ ?_ ?_ ?_ ?_⟩
  · intro y hy
    rw [beq_iff_eq] at hy
    rw [hy, hk.id]
  · intro y hy
    rw [beq_iff_eq] at hy
    rw [hy, htask, hk.task_id]
  · intro y
    exact ⟨Run.Kept.of_identity rfl, rfl, rfl⟩
  · intro y
    exact ⟨⟨rfl, rfl, rfl, rfl, rfl, rfl, rfl, rfl⟩, rfl, by simp⟩
  · intro y _ _ z hz
    rw [beq_iff_eq, hz, hk.id]
  · intro a
    refine ⟨⟨rfl, rfl, rfl⟩, Or.inr ⟨rfl, fun y hy => ?_⟩⟩
    rw [beq_iff_eq, hy, hk.id]

/-- Rejecting, dropping or cleaning staged artifacts touches no other table. -/
theorem artifacts_quiet {f : List Artifact → List Artifact} : Quiet s (s.onArtifacts f) :=
  Quiet.of_same rfl rfl rfl rfl rfl

theorem finalize_artifact_upload_moves (hs : Life s) (hl : Linked s) {corp_id artifact_id : Uuid}
    {fence authority : ReceiptVerdict} {c : Committed String Db Unit}
    (h : finalize_artifact_upload s corp_id artifact_id fence authority = .ok c) :
    Turnovers s c.state := by
  rcases finalize_artifact_upload_ok h with
    hsame | ⟨reason, hrej⟩ | ⟨a, run, task, mission, u, -, -, hrow, hstaged, hready, hc⟩
  · rw [hsame]
    exact Relation.ReflTransGen.refl
  · rw [hrej]
    exact .single (.quiet artifacts_quiet)
  · obtain ⟨ha, -, -, hrun, hrid, -, htid⟩ := finalize_row_eq_some hrow
    have hquiet := hready.quiet
    rw [hc]
    cases hact : run.active with
    | false => exact .single (.quiet hquiet)
    | true =>
      obtain ⟨r, hr, hrid', hrtask⟩ := hl.artifacts a ha
      have hrr : r = run := hs.eq_of_id hr hrun (hrid'.trans hrid.symm)
      subst hrr
      obtain ⟨x, hx, hk, hst⟩ := hquiet.runs.exists_new hrun
      obtain ⟨y, hy, -, hwork⟩ := review_run_work (s := u) r task.id
        ⟨x, hx, hk, by rw [Run.active_congr hst, hact]⟩ (htid.trans hrtask.symm)
      exact .tail (.single (.quiet hquiet)) (.work y hwork)

/-! ## Action approvals -/

theorem insert_runner_command_once_eq (s : Db) (c : RunnerCommand) :
    ∃ new, insert_runner_command_once s c
        = { s with runner_commands := s.runner_commands ++ new }
      ∧ ∀ x ∈ new, x.command_kind = c.command_kind := by
  unfold insert_runner_command_once
  split
  · exact ⟨[], by rw [List.append_nil], by simp⟩
  · exact ⟨_, rfl, by simp⟩

/-- An expiry changes nothing, or closes a pending approval and the run that waits for
it. -/
theorem expire_action_approval_ok {now : Int} {approval_id : Uuid}
    (h : expire_action_approval s now approval_id = .ok t) :
    t = s ∨ ∃ approval new evs, approval ∈ s.action_approvals ∧ approval.id = approval_id
      ∧ approval.status = .pending ∧ approval.expires_at ≤ now
      ∧ (∀ x ∈ new, x.command_kind = .approval_decision)
      ∧ t = { s.expire_run approval with
          action_approvals := updateWhere (fun p => p.id == approval_id) (fun p =>
            { p with status := .expired, decision_note := some expiry_reason }) s.action_approvals
          runner_commands := s.runner_commands ++ new
          events := evs }
      ∧ Appends Event.Routine s.events evs := by
  unfold expire_action_approval at h
  dsimp only at h
  split at h
  · rw [pure_eq_ok] at h
    exact Or.inl h.symm
  · rename_i approval run hdue
    simp only [Option.bind_eq_bind, Option.bind_eq_some_iff, Option.pure_def, Option.some.injEq,
      Prod.mk.injEq, Option.guard_eq_some'] at hdue
    obtain ⟨p, hp, r, hr, _, hcond, rfl, rfl⟩ := hdue
    have hpid := List.find?_some hp
    rw [beq_iff_eq] at hpid
    rw [append_new_event_tx_ok] at h
    obtain ⟨-, h⟩ := h
    obtain ⟨new, hnew, hkind⟩ := insert_runner_command_once_eq
      ((s.onActionApprovals (updateWhere (fun p => p.id == approval_id) fun p =>
        { p with status := .expired, decision_note := some expiry_reason })).expire_run p)
      { id := 0, corp_id := p.corp_id, runner_id := r.runner_id, run_id := r.id
        command_kind := .approval_decision
        payload := .obj [("approval_id", .uuid approval_id), ("approved", .bool false),
          ("note", .str expiry_reason)]
        idempotency_key := .approval_expired approval_id }
    rw [hnew] at h
    exact Or.inr ⟨p, new, _, List.mem_of_find?_eq_some hp, hpid, hcond.1, hcond.2, hkind, h,
      Appends.one ⟨rfl, rfl⟩⟩

/-- The run that waited for the approval is cancelled; if it went on without it, only its
task and mission may be. -/
theorem expire_run_move (hl : Linked s) {approval : ActionApproval}
    (happ : approval ∈ s.action_approvals)
    (hruns : t.runs = (s.expire_run approval).runs)
    (htasks : t.tasks = (s.expire_run approval).tasks)
    (hmissions : t.missions = (s.expire_run approval).missions)
    (hagents : t.agents = (s.expire_run approval).agents)
    (hdeps : t.task_dependencies = s.task_dependencies) (hs : Life s) :
    ∃ r ∈ s.runs, r.id = approval.run_id
      ∧ ((r.status = .waiting_for_approval ∧ Stop s t r)
        ∨ (r.status ≠ .waiting_for_approval ∧ Lapse s t r)) := by
  obtain ⟨r, hr, hrid, hrtask, hragent, hstarted⟩ := hl.approvals approval happ
  refine ⟨r, hr, hrid, ?_⟩
  have htask : Updated (fun x x' => x.Kept x' ∧ x'.attempt_count = x.attempt_count
      ∧ (x'.status = x.status ∨ (x.id = r.task_id ∧ x.status = .awaiting_approval
        ∧ x'.status = .cancelled))) s.tasks t.tasks := by
    rw [htasks]
    refine Updated.of_updateWhere ?_ fun x _ _ => ⟨Task.Kept.refl x, rfl, Or.inl rfl⟩
    intro x _ hx
    simp only [Bool.and_eq_true, beq_iff_eq] at hx
    exact ⟨⟨rfl, rfl, rfl, rfl, rfl, rfl, rfl, rfl⟩, rfl, Or.inr ⟨by rw [hx.1, hrtask], hx.2, rfl⟩⟩
  have hmission : Updated (fun m m' => m.Kept m' ∧ (m'.status = m.status ∨ m'.status ≠ .completed))
      s.missions t.missions := by
    rw [hmissions]
    exact Updated.of_updateWhere
      (fun m _ _ => ⟨⟨rfl, rfl, rfl, rfl, rfl, rfl, rfl, rfl⟩, Or.inr (by simp)⟩)
      fun m _ _ => ⟨Mission.Kept.refl m, Or.inl rfl⟩
  by_cases hwait : r.status = .waiting_for_approval
  · refine Or.inl ⟨hwait, hr, by rw [Run.active, hwait]; rfl, ?_, ?_, hmission, ?_, hdeps⟩
    · rw [hruns]
      refine Updated.of_updateWhere ?_ ?_
      · intro x _ hx
        simp only [Bool.and_eq_true, beq_iff_eq] at hx
        refine ⟨Run.Kept.of_identity rfl, fun _ => ⟨rfl, by simp⟩, fun hne => ?_⟩
        exact absurd (hx.1.trans hrid.symm) hne
      · intro x hx hnot
        refine ⟨Run.Kept.refl x, fun hid => ?_, fun _ => rfl⟩
        obtain rfl := hs.eq_of_id hx hr hid
        simp [hrid, hwait] at hnot
    · refine htask.mono ?_
      rintro x - x' ⟨hk, hat, hst | ⟨hid, -, hst⟩⟩
      · exact ⟨hk, hat, Or.inl hst⟩
      · exact ⟨hk, hat, Or.inr ⟨hid, by simp [hst]⟩⟩
    · rw [hagents]
      refine Updated.of_updateWhere ?_ ?_
      · intro a _ ha
        simp only [Bool.and_eq_true, beq_iff_eq] at ha
        exact ⟨Or.inr ⟨ha.1.trans hragent.symm, rfl⟩, fun _ _ => rfl⟩
      · intro a _ ha
        refine ⟨Or.inl rfl, fun hcur hid => ?_⟩
        simp [hcur, hid, hrid, hragent] at ha
  · refine Or.inr ⟨hwait, hr, hstarted, ?_, ?_, hmission, ?_, hdeps⟩
    · rw [hruns]
      refine updateWhere_of_none fun x hx => ?_
      by_cases hid : x.id = approval.run_id
      · obtain rfl := hs.eq_of_id hx hr (hid.trans hrid.symm)
        simp [hwait]
      · simp [hid]
    · refine htask.mono ?_
      rintro x - x' ⟨hk, hat, hst | ⟨-, hold, hnew⟩⟩
      · exact ⟨hk, hat, Or.inl hst⟩
      · exact ⟨hk, hat, Or.inr ⟨hold, hnew⟩⟩
    · rw [hagents]
      refine Updated.of_updateWhere ?_ fun a _ _ => Or.inl rfl
      intro a _ ha
      simp only [Bool.and_eq_true, beq_iff_eq] at ha
      exact Or.inr ⟨by rw [ha.2, hrid], rfl⟩

theorem expire_action_approval_move (hs : Life s) (hl : Linked s) {now : Int} {approval_id : Uuid}
    (h : expire_action_approval s now approval_id = .ok t) : Turnover s t := by
  rcases expire_action_approval_ok h with rfl | ⟨approval, new, evs, happ, -, -, -, -, ht, -⟩
  · exact .quiet (Quiet.of_same rfl rfl rfl rfl rfl)
  · obtain ⟨r, -, -, ⟨-, hstop⟩ | ⟨-, hlapse⟩⟩ := expire_run_move (t := t) hl happ (by rw [ht])
      (by rw [ht]) (by rw [ht]) (by rw [ht]) (by rw [ht]; rfl) hs
    · exact .stop r hstop
    · exact .lapse r hlapse

theorem expire_action_approval_calm {now : Int} {approval_id : Uuid}
    (h : expire_action_approval s now approval_id = .ok t) : Calm Event.Routine s t := by
  rcases expire_action_approval_ok h with rfl | ⟨approval, new, evs, -, -, -, -, hnew, rfl, hevs⟩
  · exact Calm.refl
  · refine ⟨⟨rfl, requests_kept _, ?_, rfl, rfl, rfl, ?_, hevs⟩, ?_⟩
    · exact Updated.of_updateWhere (fun p _ _ => ⟨rfl, rfl, rfl, rfl, rfl, by simp⟩)
        fun p _ _ => ActionApproval.Kept.refl p
    · unfold Db.breaker_keys
      have hnone : new.filter (fun c => c.command_kind == .circuit_breaker) = [] := by
        refine List.filter_eq_nil_iff.mpr fun c hc => ?_
        simp [hnew c hc]
      change (List.filter _ (s.runner_commands ++ new)).map _ = _
      rw [List.filter_append, hnone, List.append_nil]
    · exact calm_updateWhere fun x => Run.Calm.of_columns rfl rfl (by simp)

/-- What a decision in time writes. -/
theorem record_action_decision_ok {input : ApprovalDecision} {approval : ActionApproval} {run : Run}
    (h : record_action_decision s input approval run = .ok t) :
    ∃ (c : RunnerCommand) (evs : List Event), c.command_kind = .approval_decision
      ∧ t = { s with
          action_approvals := updateWhere (fun p => p.id == approval.id) (fun p =>
            { p with
              status := requested_status input.approved
              decided_by := some input.actor_id
              decision_note := some (trim input.note)
              decision_key := some input.decision_key }) s.action_approvals
          runner_commands := s.runner_commands ++ [c]
          events := evs }
      ∧ Appends Event.Routine s.events evs := by
  unfold record_action_decision insert_runner_command at h
  simp only [bind_eq_ok, ensure_eq_ok, context_eq_ok, pure_eq_ok] at h
  obtain ⟨_, -, _, -, _, -, _, -, u, ⟨_, -, rfl⟩, h⟩ := h
  obtain ⟨evs, rfl, hevs⟩ := record_event_tx_appends h (P := Event.Routine) ⟨rfl, rfl⟩
  exact ⟨_, evs, rfl, rfl, hevs⟩

/-- The outcomes of `decide_action_approval`. -/
theorem decide_action_approval_ok {now : Int} {input : ApprovalDecision}
    {c : Committed String Db Unit} (h : decide_action_approval s now input = .ok c) :
    ∃ approval run, approval ∈ s.action_approvals ∧ approval.id = input.approval_id
      ∧ run ∈ s.runs ∧ run.id = approval.run_id
      ∧ ((approval.status ≠ .pending ∧ c.state = s)
        ∨ (breaker_is_hard run.breaker_stage = false
          ∧ (expire_action_approval s now approval.id = .ok c.state
            ∨ record_action_decision s input approval run = .ok c.state))) := by
  unfold decide_action_approval at h
  simp only [bind_eq_ok, ensure_eq_ok, context_eq_ok] at h
  obtain ⟨_, -, approval, happ, run, hrun, h⟩ := h
  have hid := List.find?_some happ
  simp only [Bool.and_eq_true, beq_iff_eq] at hid
  obtain ⟨hrun, hrid⟩ := Db.run?_eq_some hrun
  refine ⟨approval, run, List.mem_of_find?_eq_some happ, hid.1, hrun, hrid, ?_⟩
  split at h
  · rename_i hst
    simp only [bind_eq_ok, pure_eq_ok] at h
    obtain ⟨_, -, rfl⟩ := h
    exact Or.inl ⟨hst, rfl⟩
  · obtain ⟨_, hblock, h⟩ := bind_eq_ok.mp h
    unfold ensure_run_not_hard_blocked_tx ensure_breaker_allows_human_progress at hblock
    simp only [bind_eq_ok, ensure_eq_ok] at hblock
    obtain ⟨_, hhard, -⟩ := hblock
    refine Or.inr ⟨hhard, ?_⟩
    split at h
    · simp only [bind_eq_ok, pure_eq_ok] at h
      obtain ⟨u, hu, rfl⟩ := h
      exact Or.inl hu
    · simp only [bind_eq_ok, pure_eq_ok] at h
      obtain ⟨u, hu, rfl⟩ := h
      exact Or.inr hu

theorem decide_action_approval_move (hs : Life s) (hl : Linked s) {now : Int}
    {input : ApprovalDecision} {c : Committed String Db Unit}
    (h : decide_action_approval s now input = .ok c) : Turnover s c.state := by
  obtain ⟨approval, run, -, -, -, -, ⟨-, hsame⟩ | ⟨-, hexp | hrec⟩⟩ := decide_action_approval_ok h
  · rw [hsame]
    exact .quiet (Quiet.of_same rfl rfl rfl rfl rfl)
  · exact expire_action_approval_move hs hl hexp
  · obtain ⟨x, evs, -, hstate, -⟩ := record_action_decision_ok hrec
    rw [hstate]
    exact .quiet (Quiet.of_same rfl rfl rfl rfl rfl)

theorem decide_action_approval_calm {now : Int} {input : ApprovalDecision}
    {c : Committed String Db Unit} (h : decide_action_approval s now input = .ok c) :
    Calm Event.Routine s c.state := by
  obtain ⟨approval, run, -, -, -, -, ⟨-, hsame⟩ | ⟨-, hexp | hrec⟩⟩ := decide_action_approval_ok h
  · rw [hsame]
    exact Calm.refl
  · exact expire_action_approval_calm hexp
  · obtain ⟨x, evs, hkind, hstate, hevs⟩ := record_action_decision_ok hrec
    rw [hstate]
    refine ⟨⟨rfl, requests_kept _, ?_, rfl, rfl, rfl, ?_, hevs⟩, ?_⟩
    · refine Updated.of_updateWhere (fun p _ _ => ⟨rfl, rfl, rfl, rfl, rfl, fun hp => ?_⟩)
        fun p _ _ => ActionApproval.Kept.refl p
      revert hp
      unfold requested_status
      split <;> simp
    · exact breaker_keys_of_append rfl (by simp [hkind])
    · exact Updated.refl fun r _ => Run.Calm.refl r

/-! ## Runner commands -/

/-- Settling a command writes the command, the message it carries and the journal. -/
theorem settle_runner_command_ok {command_id : Uuid} {runner_id : String}
    {settle : RunnerCommand → RunnerCommand} {message : QueuedMessage → QueuedMessage}
    {event_type : String} {key : EventKey} {existed : String}
    (h : settle_runner_command s command_id runner_id settle message event_type key existed
      = .ok t) :
    t = s ∨ ∃ msgs evs, t = { s with
        runner_commands := updateWhere
          (fun c => c.id == command_id && c.runner_id == runner_id && c.status == .pending) settle
          s.runner_commands
        queued_messages := msgs
        events := evs }
      ∧ Appends (fun e => e.idempotency_key = key ∧ e.type.is_routine = true) s.events evs := by
  unfold settle_runner_command at h
  split at h
  · rw [pure_eq_ok] at h
    exact Or.inl h.symm
  · simp only [bind_eq_ok, context_eq_ok, append_new_event_tx_ok] at h
    obtain ⟨message_id, -, ⟨run, task, mission⟩, -, -, rfl⟩ := h
    refine Or.inr ?_
    cases message_id with
    | none => exact ⟨_, _, rfl, Appends.one ⟨rfl, rfl⟩⟩
    | some id => exact ⟨_, _, rfl, Appends.one ⟨rfl, rfl⟩⟩

theorem settle_runner_command_quiet {command_id : Uuid} {runner_id : String}
    {settle : RunnerCommand → RunnerCommand} {message : QueuedMessage → QueuedMessage}
    {event_type : String} {key : EventKey} {existed : String}
    (h : settle_runner_command s command_id runner_id settle message event_type key existed
      = .ok t) : Quiet s t := by
  rcases settle_runner_command_ok h with rfl | ⟨msgs, evs, rfl, -⟩
  · exact Quiet.of_same rfl rfl rfl rfl rfl
  · exact Quiet.of_same rfl rfl rfl rfl rfl

theorem settle_runner_command_calm {command_id : Uuid} {runner_id : String}
    {settle : RunnerCommand → RunnerCommand} {message : QueuedMessage → QueuedMessage}
    {event_type : String} {key : EventKey} {existed : String}
    (h : settle_runner_command s command_id runner_id settle message event_type key existed
      = .ok t)
    (hsettle : ∀ c, (settle c).command_kind = c.command_kind
      ∧ (settle c).idempotency_key = c.idempotency_key) :
    Calm (fun e => e.idempotency_key = key ∧ e.type.is_routine = true) s t := by
  rcases settle_runner_command_ok h with rfl | ⟨msgs, evs, rfl, hevs⟩
  · exact Calm.refl
  · exact ⟨⟨rfl, requests_kept _, approvals_kept _, rfl, rfl, rfl,
      breaker_keys_of_settle rfl hsettle, hevs⟩, Updated.refl fun r _ => Run.Calm.refl r⟩

/-! ## Manual verification -/

theorem decision_row_eq_some {corp_id run_id : Uuid} {row : DecisionRow}
    (h : decision_row s corp_id run_id = some row) :
    row.request ∈ s.verification_requests ∧ row.request.run_id = run_id
      ∧ row.request.corp_id = corp_id ∧ row.run ∈ s.runs ∧ row.run.id = run_id
      ∧ row.task ∈ s.tasks ∧ row.task.id = row.request.task_id
      ∧ row.mission ∈ s.missions ∧ row.mission.id = row.task.mission_id
      ∧ row.producer ∈ s.agents ∧ row.producer.id = row.run.agent_id := by
  unfold decision_row at h
  simp only [Option.bind_eq_bind, Option.bind_eq_some_iff, Option.pure_def, Option.some.injEq] at h
  obtain ⟨q, hq, r, hr, x, hx, m, hm, a, ha, rfl⟩ := h
  have hcond := List.find?_some hq
  simp only [Bool.and_eq_true, beq_iff_eq] at hcond
  obtain ⟨hr, hrid⟩ := Db.run?_eq_some hr
  obtain ⟨hx, hxid⟩ := Db.task?_eq_some hx
  obtain ⟨hm, hmid⟩ := Db.mission?_eq_some hm
  obtain ⟨ha, haid⟩ := Db.agent?_eq_some ha
  exact ⟨List.mem_of_find?_eq_some hq, hcond.1, hcond.2, hr, hrid.trans hcond.1, hx, hxid, hm, hmid,
    ha, haid⟩

/-- What a decision on a pending request has established. -/
structure Deciding (s : Db) (input : VerificationDecision) (row : DecisionRow) (actor : Actor) :
    Prop where
  row_eq : decision_row s input.corp_id input.run_id = some row
  actor_eq : s.actor? input.corp_id input.actor_id = some actor
  admits : gate_admits row.request.gate actor row.mission.requested_by row.producer.actor_id
  pending : row.request.status = .pending
  run_waiting : row.run.status = .waiting_for_approval
  task_waiting : row.task.status = .awaiting_approval
  soft : breaker_is_hard row.run.breaker_stage = false

/-- The outcomes of `decide_verification`: a replay, or a decision. -/
theorem decide_verification_ok {now : Int} {input : VerificationDecision}
    (h : decide_verification s now input = .ok t) :
    t = s ∨ ∃ row actor, Deciding s input row actor
      ∧ record_verification_decision s input row = .ok t := by
  unfold decide_verification at h
  simp only [bind_eq_ok, ensure_eq_ok, context_eq_ok] at h
  obtain ⟨_, -, scope, -, row, hrow, _, -, _, -, actor, hactor, _, hgate, h⟩ := h
  split at h
  · simp only [bind_eq_ok, pure_eq_ok] at h
    obtain ⟨_, -, rfl⟩ := h
    exact Or.inl rfl
  · rename_i hst
    simp only [bind_eq_ok, ensure_eq_ok] at h
    obtain ⟨_, ⟨hrun, htask⟩, _, hblock, _, -, h⟩ := h
    unfold ensure_run_not_hard_blocked_tx ensure_breaker_allows_human_progress at hblock
    simp only [bind_eq_ok, ensure_eq_ok] at hblock
    obtain ⟨_, hhard, -⟩ := hblock
    exact Or.inr ⟨row, actor, ⟨hrow, hactor, hgate, by simpa using hst, hrun, htask, hhard⟩, h⟩

/-- The rows of a decision are those of the run it is about. -/
theorem Deciding.joined (hs : Life s) (hl : Linked s) {input : VerificationDecision}
    {row : DecisionRow} {actor : Actor} (h : Deciding s input row actor) :
    Joined s row.run.corp_id input.run_id row.run row.task row.mission := by
  obtain ⟨hq, hqrun, -, hr, hrid, hx, hxid, hm, hmid, -, -⟩ := decision_row_eq_some h.row_eq
  obtain ⟨r, hr', hrid', hrtask⟩ := hl.requests row.request hq
  have hrr : r = row.run := hs.eq_of_id hr' hr (by rw [hrid', hqrun, hrid])
  exact ⟨hr, hrid, rfl, hx, by rw [hxid, ← hrtask, hrr], hm, hmid⟩

theorem Deciding.active {input : VerificationDecision} {row : DecisionRow} {actor : Actor}
    (h : Deciding s input row actor) : row.run.active = true := by
  rw [Run.active, h.run_waiting]
  rfl

/-- The requests after a decision. -/
def Db.decided_requests (s : Db) (input : VerificationDecision) : List VerificationRequest :=
  updateWhere (fun q => q.run_id == input.run_id) (fun q =>
    { q with
      status := decision_status input.approved
      decided_by := some input.actor_id
      decision_note := stored_note input.note
      decision_key := input.decision_key }) s.verification_requests

/-- An approving decision completes the run, a rejecting one fails its verification. -/
theorem record_verification_decision_ok {input : VerificationDecision} {row : DecisionRow}
    (h : record_verification_decision s input row = .ok t) :
    ∃ u evs, t = { u.release_agent row.run.agent_id with events := evs }
      ∧ Appends Event.Routine u.events evs
      ∧ ((input.approved = true
          ∧ approve_verification { s with verification_requests := s.decided_requests input } row
            input.actor_id = .ok u)
        ∨ (input.approved = false
          ∧ reject_verification { s with verification_requests := s.decided_requests input } row
            input.actor_id input.note = .ok u)) := by
  unfold record_verification_decision at h
  simp only [bind_eq_ok, ensure_eq_ok, append_new_event_tx_ok] at h
  obtain ⟨_, -, u, hu, -, rfl⟩ := h
  unfold apply_decision at hu
  refine ⟨u, _, rfl, Appends.one ⟨rfl, ?_⟩, ?_⟩
  · rfl
  by_cases happ : input.approved = true
  · rw [if_pos happ] at hu
    exact Or.inl ⟨happ, hu⟩
  · rw [if_neg happ] at hu
    exact Or.inr ⟨by simpa using happ, hu⟩

theorem reject_verification_ok {row : DecisionRow} {actor_id : Uuid} {note : String}
    (h : reject_verification s row actor_id note = .ok t) :
    ∃ summary, FactoryOnly Event.Routine
      (s.fail_verification { run := row.run, task := row.task, mission := row.mission } summary)
      t := by
  unfold reject_verification at h
  dsimp only at h
  refine ⟨_, (reconcile_factory_verification_failure_tx_frame h).mono ?_⟩
  rintro e ⟨⟨item, hkey⟩, htype⟩
  exact ⟨by rw [hkey]; rfl, htype⟩

theorem approve_complete (hs : Life s) (hl : Linked s) {input : VerificationDecision}
    {row : DecisionRow} {actor : Actor} {u : Db} {evs : List Event}
    (hdec : Deciding s input row actor)
    (h : approve_verification { s with verification_requests := s.decided_requests input } row
      input.actor_id = .ok u)
    (ht : t = { u.release_agent row.run.agent_id with events := evs }) :
    Complete s t row.run := by
  have hj := hdec.joined hs hl
  unfold approve_verification at h
  subst ht
  refine Complete.of_writes { run := row.run, task := row.task, mission := row.mission }
    (u := (({ s with verification_requests := s.decided_requests input } : Db).onRuns _).onTasks _)
    hj hdec.active rfl rfl rfl rfl rfl ?_ ?_ h rfl rfl rfl rfl rfl
  · intro x
    exact ⟨Run.Kept.of_identity rfl, rfl⟩
  · intro x
    exact ⟨⟨rfl, rfl, rfl, rfl, rfl, rfl, rfl, rfl⟩, rfl, rfl⟩

theorem reject_stop (hs : Life s) (hl : Linked s) {input : VerificationDecision}
    {row : DecisionRow} {actor : Actor} {u : Db} {evs : List Event}
    (hdec : Deciding s input row actor)
    (h : reject_verification { s with verification_requests := s.decided_requests input } row
      input.actor_id input.note = .ok u)
    (ht : t = { u.release_agent row.run.agent_id with events := evs }) : Stop s t row.run := by
  have hj := hdec.joined hs hl
  obtain ⟨summary, items, recs, evs', hu, -⟩ := reject_verification_ok h
  subst hu ht
  exact fail_verification_stop { run := row.run, task := row.task, mission := row.mission } summary
    hj
    hdec.active rfl rfl rfl rfl rfl

theorem decide_verification_move (hs : Life s) (hl : Linked s) {now : Int}
    {input : VerificationDecision} (h : decide_verification s now input = .ok t) :
    Turnover s t := by
  rcases decide_verification_ok h with rfl | ⟨row, actor, hdec, hrec⟩
  · exact .quiet (Quiet.of_same rfl rfl rfl rfl rfl)
  · obtain ⟨u, evs, ht, -, ⟨-, happ⟩ | ⟨-, hrej⟩⟩ := record_verification_decision_ok hrec
    · exact .complete row.run (approve_complete hs hl hdec happ ht)
    · exact .stop row.run (reject_stop hs hl hdec hrej ht)

end Crony.Store
