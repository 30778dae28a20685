/-
What the calls do to runner commands and to messages.

A command is what the store asks a runner to do; a message is what a person says to an
agent. Both tables wait for a run: a command until the runner has taken it, a message until
it is delivered. The calls that write them are few, and `Outbox` lists what each of them
does; every other call leaves both tables alone.
-/
import Crony.Lifecycle.Reach

set_option autoImplicit false

open Crony.Lib

namespace Crony.Store

variable {env : Env} {s t u : Db}

/-- The two tables. -/
def Db.outbox (s : Db) := (s.runner_commands, s.queued_messages)

theorem Db.outbox_commands (h : t.outbox = s.outbox) : t.runner_commands = s.runner_commands :=
  congrArg Prod.fst h

theorem Db.outbox_messages (h : t.outbox = s.outbox) : t.queued_messages = s.queued_messages :=
  congrArg Prod.snd h

theorem FactoryOnly.outbox {P : Event → Prop} (h : FactoryOnly P s t) : t.outbox = s.outbox := by
  obtain ⟨items, recs, evs, rfl, -⟩ := h
  rfl

/-! ## Reports -/

section Reports

variable {row : RunnerRow} {payload : Json}

/-- `run.started` delivers the messages reserved for the run. -/
def Db.deliver_messages (s : Db) (run_id : Uuid) : Db :=
  s.onQueuedMessages (updateWhere (fun m => m.run_id == some run_id && m.status == .reserved)
    fun m => { m with status := .delivered })

/-- The end of a recovery run writes off its command. -/
theorem terminalize_outbox {corp_id recovery_id run_id task_id mission_id room_id : Uuid}
    {summary : String} {run_status : RunStatus} {cause : FailureCause}
    (h : terminalize_factory_recovery_run_tx s corp_id recovery_id run_id task_id mission_id room_id
      summary run_status cause = .ok t) :
    t.outbox = (s.settle_recovery_command corp_id run_id).outbox := by
  obtain ⟨-, note, recs, u, hu, hfactory⟩ := terminalize_factory_recovery_run_tx_ok h
  rw [hfactory.outbox, hu]
  rfl

theorem run_verification_failed_outbox (h : run_verification_failed s row payload = .ok t) :
    t.outbox = s.outbox := by
  obtain ⟨summary, hfactory⟩ := run_verification_failed_ok h
  exact hfactory.outbox

/-- A report that ends the run writes off the command of its recovery, if it has one. -/
theorem run_failed_outbox {scope : Option RunScope}
    (h : run_failed env s row scope payload = .ok t) :
    t.outbox = s.outbox
      ∨ (s.recovery_id_of row.run.corp_id row.run.id).isSome = true
        ∧ t.outbox = (s.settle_recovery_command row.run.corp_id row.run.id).outbox := by
  unfold run_failed at h
  simp only [bind_eq_ok, pure_eq_ok] at h
  obtain ⟨u, hu, rfl⟩ := h
  have hrelease : (release_failed_run_agent_tx u row.run.corp_id row.run.agent_id row.run.id).outbox
      = u.outbox := by
    unfold release_failed_run_agent_tx
    split
    · rfl
    · split
      · rfl
      · rfl
  rw [hrelease]
  unfold end_failed_run at hu
  split at hu
  case h_1 recovery_id hrecovery =>
    exact Or.inr ⟨by rw [hrecovery]; rfl, terminalize_outbox hu⟩
  case h_2 =>
    obtain ⟨task_status, mission_status, -, -, hfactory⟩ := fail_run_tx_ok hu
    exact Or.inl hfactory.outbox

theorem run_cancelled_outbox (h : run_cancelled s row payload = .ok t) :
    t.outbox = s.outbox
      ∨ (s.recovery_id_of row.run.corp_id row.run.id).isSome = true
        ∧ t.outbox = (s.settle_recovery_command row.run.corp_id row.run.id).outbox := by
  unfold run_cancelled at h
  simp only [bind_eq_ok, pure_eq_ok] at h
  obtain ⟨u, hu, rfl⟩ := h
  have hrelease : (u.release_agent row.run.agent_id).outbox = u.outbox := rfl
  rw [hrelease]
  unfold end_cancelled_run at hu
  split at hu
  case h_1 recovery_id hrecovery =>
    exact Or.inr ⟨by rw [hrecovery]; rfl, terminalize_outbox hu⟩
  case h_2 =>
    obtain rfl := Except.ok.inj hu
    exact Or.inl rfl

theorem complete_task_tx_outbox {actor_id : Option Uuid}
    (h : complete_task_tx s row actor_id = .ok t) : t.outbox = s.outbox := by
  obtain ⟨recs, u, hu, hfactory⟩ := complete_task_tx_ok h
  rw [hfactory.outbox, hu]
  rfl

theorem run_completed_outbox (h : run_completed s row payload = .ok t) :
    t.outbox = s.outbox := by
  unfold run_completed at h
  simp only [bind_eq_ok, pure_eq_ok] at h
  obtain ⟨_, -, _, -, u, hu, rfl⟩ := h
  have hrelease : (u.release_agent row.run.agent_id).outbox = u.outbox := rfl
  rw [hrelease]
  have hcomplete := complete_task_tx_outbox hu
  exact hcomplete

theorem run_verification_waiting_outbox (h : run_verification_waiting s row payload = .ok t) :
    t.outbox = s.outbox := by
  obtain ⟨q, verification_summary, completion_summary, u, -, -, -, -, -, -, -, hu, h⟩ :=
    run_verification_waiting_ok h
  rw [h.outbox, hu]
  rfl

/-- What a report does to the two tables. -/
inductive ReportOutbox (s t : Db) (run : Run) (event_type : EventType) : Prop where
  | still (h : t.outbox = s.outbox)
  | delivered (htype : event_type = .run_started)
      (h : t.outbox = (s.deliver_messages run.id).outbox)
  | closed (htype : event_type = .run_failed ∨ event_type = .run_cancelled)
      (hrecovery : (s.recovery_id_of run.corp_id run.id).isSome = true)
      (h : t.outbox = (s.settle_recovery_command run.corp_id run.id).outbox)

theorem runner_event_effect_outbox {now : Int} {scope : Option RunScope} {event_type : EventType}
    (h : runner_event_effect env s now row scope event_type payload = .ok t) :
    ReportOutbox s t row.run event_type := by
  unfold runner_event_effect at h
  split at h
  case h_1 =>
    unfold run_session at h
    simp only [bind_eq_ok, pure_eq_ok] at h
    obtain ⟨_, -, rfl⟩ := h
    exact .still rfl
  case h_2 =>
    unfold run_started at h
    rw [pure_eq_ok] at h
    subst h
    exact .delivered rfl rfl
  case h_3 =>
    obtain ⟨status, station, -, ⟨-, rfl⟩ | ⟨-, rfl⟩⟩ := run_status_ok h
    · exact .still rfl
    · exact .still rfl
  case h_4 =>
    obtain ⟨p, -, -, -, -, -, -, -, rfl⟩ := run_approval_requested_ok h
    exact .still rfl
  case h_5 =>
    unfold run_tool_activity at h
    split at h
    · rw [pure_eq_ok] at h
      exact .still (by rw [h])
    · split at h
      · rw [pure_eq_ok] at h
        subst h
        exact .still rfl
      · simp only [bind_eq_ok, pure_eq_ok] at h
        obtain ⟨_, -, rfl⟩ := h
        exact .still rfl
  case h_6 => cases h
  case h_7 => cases h
  case h_8 => cases h
  case h_9 => cases h
  case h_10 =>
    unfold run_usage at h
    simp only [bind_eq_ok, pure_eq_ok] at h
    obtain ⟨_, -, rfl⟩ := h
    exact .still rfl
  case h_11 =>
    unfold run_verification_started at h
    rw [pure_eq_ok] at h
    subst h
    exact .still rfl
  case h_12 =>
    obtain ⟨e, rfl, -⟩ := run_verification_evidence_ok h
    exact .still rfl
  case h_13 =>
    obtain ⟨_, _, _, -, -, -, rfl⟩ := run_verification_passed_ok h
    exact .still rfl
  case h_14 => exact .still (run_verification_waiting_outbox h)
  case h_15 => exact .still (run_verification_failed_outbox h)
  case h_16 =>
    unfold run_teardown_uncertain at h
    simp only [bind_eq_ok, pure_eq_ok] at h
    obtain ⟨_, -, _, -, rfl⟩ := h
    exact .still rfl
  case h_17 =>
    obtain ⟨f, rfl, -⟩ := run_workspace_retained_ok h
    exact .still rfl
  case h_18 =>
    obtain ⟨f, rfl, -⟩ := run_workspace_retained_ok h
    exact .still rfl
  case h_19 => exact .still (run_completed_outbox h)
  case h_20 =>
    rcases run_failed_outbox h with h | ⟨hrecovery, h⟩
    · exact .still h
    · exact .closed (Or.inl rfl) hrecovery h
  case h_21 =>
    rcases run_cancelled_outbox h with h | ⟨hrecovery, h⟩
    · exact .still h
    · exact .closed (Or.inr rfl) hrecovery h
  all_goals
    rw [pure_eq_ok] at h
    exact .still (by rw [h])

end Reports

/-! ## What a call may do -/

/-- The recovery run was never dispatched, or its failure is only repeated. -/
def Db.recovery_undispatched (s : Db) (corp_id run_id : Uuid) : Bool :=
  match s.run_task_mission corp_id run_id, s.recovery_of corp_id run_id with
  | some (run, _, _), some recovery =>
    (recovery.status == .failed && run.status == .failed)
      || run.status == .provisioning || run.status == .starting
  | _, _ => false

/-- The call ends the recovery run of `(corp_id, run_id)` and so writes off its command,
whatever became of that command: a new report of the run's end, the failure of its dispatch,
or the loss of its runner. -/
def Op.writes_off (s : Db) (corp_id run_id : Uuid) : Op → Bool
  | .apply_runner_event now input =>
    (input.event_type == .run_failed || input.event_type == .run_cancelled)
      && (admit_runner_event s now input).isOk
      && !s.recorded input.corp_id (.runner_event input.runner_id input.event_id)
      && input.corp_id == corp_id && input.run_id == run_id
      && (s.recovery_id_of corp_id run_id).isSome
  | .fail_factory_recovery_before_dispatch corp run _ =>
    corp == corp_id && run == run_id && s.recovery_undispatched corp_id run_id
  | .mark_runner_runs_lost _ input => (lost_rows s input).any fun row =>
    row.recovery.isSome && row.run.corp_id == corp_id && row.run.id == run_id
  | _ => false

/-- The run a call admits. -/
def Op.opens : Op → Option Uuid
  | .create_task_run _ input => some input.run_id
  | .create_resume_run _ input => some input.run_id
  | .create_factory_verification_recovery _ input => some input.run_id
  | _ => none

/-- **What a call may do to a command**: nothing, decide it while it is pending, or write it
off. -/
inductive RunnerCommand.Step (closes : Uuid → Uuid → Prop) (c : RunnerCommand) :
    RunnerCommand → Prop where
  | same : RunnerCommand.Step closes c c
  | decided (status : CommandStatus) (detail : Option String) (h : c.status = .pending) :
    RunnerCommand.Step closes c { c with status := status, failure_detail := detail }
  | written_off (hkind : c.command_kind = .factory_verification_recovery)
      (h : closes c.corp_id c.run_id) : RunnerCommand.Step closes c { c with status := .dispatched }

theorem RunnerCommand.Step.id_eq {closes : Uuid → Uuid → Prop} {c c' : RunnerCommand}
    (h : c.Step closes c') : c'.id = c.id := by
  cases h <;> rfl

theorem RunnerCommand.Step.trans {closes : Uuid → Uuid → Prop} {a b c : RunnerCommand}
    (h : a.Step closes b) (h' : b.Step closes c) : a.Step closes c := by
  rcases h with _ | ⟨status, detail, hpending⟩ | ⟨hkind, hclose⟩
  · exact h'
  · -- a decided command was pending, so whatever follows is its decision
    rcases h' with _ | ⟨status', detail', -⟩ | ⟨-, -⟩
    · exact .decided _ _ hpending
    · exact .decided _ _ hpending
    · exact .decided _ _ hpending
  · rcases h' with _ | ⟨status', detail', hpending⟩ | ⟨-, -⟩
    · exact .written_off hkind hclose
    · cases hpending
    · exact .written_off hkind hclose

/-- The command table after a call: no row goes, and a call adds at most one row, which is
pending and new. -/
def Commands (closes : Uuid → Uuid → Prop) (s t : Db) : Prop :=
  ∃ l new, Updated (RunnerCommand.Step closes) s.runner_commands l
    ∧ t.runner_commands = l ++ new ∧ new.length ≤ 1
    ∧ ∀ c ∈ new, c.status = .pending ∧ ∀ x ∈ s.runner_commands, x.id ≠ c.id

/-- A message is reserved for the run. -/
def Db.reserves (s : Db) (run_id : Uuid) : Prop :=
  ∃ m ∈ s.queued_messages, m.status = .reserved ∧ m.run_id = some run_id

/-- What a call does to the two tables, given the runs whose commands it may write off and
the run it admits. -/
structure Outbox (closes : Uuid → Uuid → Prop) (opens : Option Uuid) (s t : Db) : Prop where
  commands : Commands closes s t
  messages : ∀ x, t.reserves x → s.reserves x ∨ opens = some x

section Rules

variable {closes closes' : Uuid → Uuid → Prop} {opens : Option Uuid}

theorem Commands.of_updated (h : Updated (RunnerCommand.Step closes) s.runner_commands
    t.runner_commands) : Commands closes s t :=
  ⟨_, [], h, (List.append_nil _).symm, by simp, by simp⟩

theorem Commands.of_eq (h : t.runner_commands = s.runner_commands) : Commands closes s t := by
  apply Commands.of_updated
  rw [h]
  exact Updated.refl fun c _ => .same

theorem Commands.of_append {c : RunnerCommand} (hstatus : c.status = .pending)
    (hfresh : ∀ x ∈ s.runner_commands, x.id ≠ c.id)
    (h : t.runner_commands = s.runner_commands ++ [c]) : Commands closes s t := by
  refine ⟨_, [c], Updated.refl fun c _ => .same, h, by simp, ?_⟩
  intro x hx
  obtain rfl := List.mem_singleton.mp hx
  exact ⟨hstatus, hfresh⟩

theorem reserves_of_messages (h : t.queued_messages = s.queued_messages) {x : Uuid}
    (hx : t.reserves x) : s.reserves x := by
  unfold Db.reserves at hx
  rwa [h] at hx

/-- Nothing is reserved by a call that only delivers, drops or puts back messages. -/
theorem reserves_of_write {p : QueuedMessage → Bool} {f : QueuedMessage → QueuedMessage}
    (h : t.queued_messages = updateWhere p f s.queued_messages)
    (hf : ∀ m, (f m).status = .reserved → m.status = .reserved ∧ (f m).run_id = m.run_id) {x : Uuid}
    (hx : t.reserves x) : s.reserves x := by
  obtain ⟨m', hm', hst, hrun⟩ := hx
  rw [h] at hm'
  obtain ⟨m, hm, rfl⟩ := mem_updateWhere.mp hm'
  by_cases hp : p m = true
  · rw [if_pos hp] at hst hrun
    obtain ⟨hst', hrun'⟩ := hf m hst
    exact ⟨m, hm, hst', hrun'.symm.trans hrun⟩
  · rw [if_neg hp] at hst hrun
    exact ⟨m, hm, hst, hrun⟩

theorem Outbox.of_eq (h : t.outbox = s.outbox) : Outbox closes opens s t where
  commands := Commands.of_eq (Db.outbox_commands h)
  messages _ hx := Or.inl (reserves_of_messages (Db.outbox_messages h) hx)

theorem Outbox.of_commands (h : Commands closes s t)
    (hmessages : t.queued_messages = s.queued_messages) : Outbox closes opens s t where
  commands := h
  messages _ hx := Or.inl (reserves_of_messages hmessages hx)

theorem next_command_id_fresh (s : Db) : ∀ x ∈ s.runner_commands, x.id ≠ s.next_command_id := by
  intro x hx hid
  have hmem : x.id ∈ s.runner_commands.map RunnerCommand.id := List.mem_map_of_mem hx
  rw [hid] at hmem
  exact s.new_v4_notMem _ hmem

theorem insert_runner_command_outbox {c : RunnerCommand} (hstatus : c.status = .pending)
    (h : insert_runner_command s c = .ok t) : Outbox closes opens s t := by
  unfold insert_runner_command at h
  simp only [bind_eq_ok, pure_eq_ok] at h
  obtain ⟨_, -, rfl⟩ := h
  exact Outbox.of_commands (Commands.of_append (by exact hstatus) (next_command_id_fresh s) rfl) rfl

theorem insert_runner_command_once_outbox {c : RunnerCommand} (hstatus : c.status = .pending) :
    Outbox closes opens s (insert_runner_command_once s c) := by
  unfold insert_runner_command_once
  split
  · exact Outbox.of_eq rfl
  · have hcommands : Commands closes s
        (s.onRunnerCommands (· ++ [{ c with id := s.next_command_id }])) :=
      Commands.of_append (by exact hstatus) (next_command_id_fresh s) rfl
    exact Outbox.of_commands hcommands rfl

/-- Only the two tables count. -/
theorem Outbox.congr {s' t' : Db} (h : Outbox closes opens s t) (hs : s'.outbox = s.outbox)
    (ht : t'.outbox = t.outbox) : Outbox closes opens s' t' := by
  obtain ⟨⟨l, new, hold, hnew, hlen, hpending⟩, hmessages⟩ := h
  rw [← Db.outbox_commands hs] at hold hpending
  refine ⟨⟨l, new, hold, (Db.outbox_commands ht).trans hnew, hlen, hpending⟩, fun x hx => ?_⟩
  rcases hmessages x (reserves_of_messages (Db.outbox_messages ht) hx) with hx | hx
  · exact Or.inl (reserves_of_messages (Db.outbox_messages hs).symm hx)
  · exact Or.inr hx

/-- Writing off the command of a recovery. -/
theorem settle_recovery_updated {corp_id run_id : Uuid} (hclose : closes corp_id run_id) :
    Updated (RunnerCommand.Step closes) s.runner_commands
      (s.settle_recovery_command corp_id run_id).runner_commands := by
  apply Updated.of_updateWhere
  · intro c _ hc
    simp only [Bool.and_eq_true, beq_iff_eq] at hc
    obtain ⟨⟨hcorp, hrun⟩, hkind⟩ := hc
    exact .written_off hkind (by rwa [hcorp, hrun])
  · intro c _ _
    exact .same

theorem Outbox.of_settle {corp_id run_id : Uuid} (hclose : closes corp_id run_id)
    (h : t.outbox = (s.settle_recovery_command corp_id run_id).outbox) :
    Outbox closes opens s t := by
  have hcommands := Db.outbox_commands h
  have hmessages := Db.outbox_messages h
  rw [Db.settle_recovery_command, Db.onRunnerCommands_queued_messages] at hmessages
  refine .of_commands (Commands.of_updated ?_) hmessages
  rw [hcommands]
  exact settle_recovery_updated hclose

end Rules

/-! ## Calls -/

section Calls

variable {closes : Uuid → Uuid → Prop} {opens : Option Uuid}

/-- A redelivered report changes nothing; a new one is one of the three. -/
theorem apply_runner_event_outbox {now : Int} {input : RunnerEventInput} {o : Option Event}
    (h : apply_runner_event env s now input = .ok (o, t)) :
    Outbox (fun corp_id run_id =>
      (Op.apply_runner_event now input).writes_off s corp_id run_id = true) opens s t := by
  obtain ⟨row, scope, payload, hadm, ⟨-, -, rfl⟩ | ⟨hnew, -, -, heff⟩⟩ := apply_runner_event_ok h
  · exact Outbox.of_eq rfl
  have hj := hadm.reported.joined
  rcases runner_event_effect_outbox heff with hstill | ⟨-, hdelivered⟩ | ⟨htype, hrecovery, hclosed⟩
  · exact Outbox.of_eq hstill
  · have hcommands := Db.outbox_commands hdelivered
    have hmessages := Db.outbox_messages hdelivered
    refine ⟨Commands.of_eq hcommands, fun x hx => Or.inl ?_⟩
    exact reserves_of_write hmessages (by simp) hx
  · have hcloses : (Op.apply_runner_event now input).writes_off s row.run.corp_id row.run.id
        = true := by
      have hrun := hj.run_id
      have hcorp := hj.corp_id
      have hrecovery' : (s.recovery_id_of row.run.corp_id row.run.id).isSome = true := hrecovery
      have hadmitted : (admit_runner_event s now input).isOk = true := by
        rw [admit_runner_event_ok.mpr hadm]
        rfl
      rcases htype with htype | htype
      · simpa [Op.writes_off, hadmitted, htype, hnew, hcorp, hrun] using hrecovery'
      · simpa [Op.writes_off, hadmitted, htype, hnew, hcorp, hrun] using hrecovery'
    have hsettle : t.outbox = (s.settle_recovery_command row.run.corp_id row.run.id).outbox :=
      hclosed
    exact Outbox.of_settle hcloses hsettle

/-- Admission reserves messages for the new run only. -/
theorem reserve_queued_messages_tx_reserves {corp_id agent_id run_id x : Uuid}
    (hx : (reserve_queued_messages_tx s corp_id agent_id run_id).reserves x) :
    s.reserves x ∨ some run_id = some x := by
  obtain ⟨m', hm', hst, hrun⟩ := hx
  rw [reserve_queued_messages_tx, Db.onQueuedMessages_queued_messages] at hm'
  obtain ⟨m, hm, rfl⟩ := mem_updateWhere.mp hm'
  split at hrun
  · exact Or.inr hrun
  · rename_i hp
    rw [if_neg hp] at hst
    exact Or.inl ⟨m, hm, hst, hrun⟩

theorem create_task_run_outbox {now : Int} {input : TaskRunInput}
    (h : create_task_run s now input = .ok t) : Outbox closes (some input.run_id) s t := by
  unfold create_task_run insert_run at h
  simp only [bind_eq_ok, ensure_eq_ok, context_eq_ok, pure_eq_ok, append_new_event_tx_ok] at h
  obtain ⟨_, -, ⟨mission, task, agent⟩, -, _, -, _, -, _, -, _, -, _, -, _, -, _, -, _, -, _, -, u,
    ⟨_, -, rfl⟩, -, rfl⟩ := h
  exact ⟨Commands.of_eq rfl, fun x hx => reserve_queued_messages_tx_reserves hx⟩

theorem create_resume_run_outbox {now : Int} {input : ResumeInput}
    (h : create_resume_run env s now input = .ok t) : Outbox closes (some input.run_id) s t := by
  unfold create_resume_run insert_run at h
  simp only [bind_eq_ok, ensure_eq_ok, context_eq_ok, pure_eq_ok, append_new_event_tx_ok] at h
  obtain ⟨⟨source, task, mission⟩, -, scope, -, agent, -, _, -, session, -, _, -, _, -, _, -, _, -,
    _, -, budget, -, u, ⟨_, -, rfl⟩, v, hv, -, rfl⟩ := h
  obtain ⟨items, recs, evs, rfl, -⟩ := resume_tx_frame hv
  exact ⟨Commands.of_eq rfl, fun x hx => reserve_queued_messages_tx_reserves hx⟩

/-- The messages of a source correction are reserved. -/
theorem start_recovery_outbox {input : RecoveryInput} {reason : String} {run : Run} {task : Task}
    {mission : Mission} {attempt : Int} {authority : Option CheckpointAuthority}
    {policies : VerificationPolicy × VerificationPolicy}
    (h : start_recovery s input reason run task mission attempt authority policies = .ok t) :
    t.runner_commands = s.runner_commands
      ∧ ∀ x, t.reserves x → s.reserves x ∨ some run.id = some x := by
  unfold start_recovery insert_run insert_recovery reserve_recovery_messages at h
  simp only [bind_eq_ok, pure_eq_ok] at h
  obtain ⟨u, ⟨_, -, rfl⟩, _, -, rfl⟩ := h
  by_cases hmode : input.mode = .source_correction
  · simp only [hmode, if_true]
    exact ⟨rfl, fun x hx => reserve_queued_messages_tx_reserves hx⟩
  · simp only [hmode, if_false]
    exact ⟨rfl, fun x hx => Or.inl hx⟩

theorem announce_recovery_outbox {input : RecoveryInput} {recovery_id : Uuid} {run : Run}
    {mission : Mission} (h : announce_recovery s input recovery_id run mission = .ok t) :
    Outbox closes none s t := by
  unfold announce_recovery at h
  simp only [bind_eq_ok, context_eq_ok, append_new_event_tx_ok] at h
  obtain ⟨u, hinsert, _, ⟨-, rfl⟩, _, ⟨-, rfl⟩, _, -, -, rfl⟩ := h
  have hqueued : Outbox closes none s u := insert_runner_command_outbox rfl hinsert
  exact ⟨hqueued.commands, hqueued.messages⟩

theorem create_factory_verification_recovery_outbox {now : Int} {input : RecoveryInput}
    (h : create_factory_verification_recovery env s now input = .ok t) :
    Outbox closes (some input.run_id) s t := by
  unfold create_factory_verification_recovery at h
  simp only [bind_eq_ok, ensure_eq_ok] at h
  obtain ⟨⟨reason, revision⟩, -, _, -, _, -, h⟩ := h
  split at h
  · unfold replay_recovery at h
    simp only [bind_eq_ok, pure_eq_ok] at h
    obtain ⟨_, -, _, -, rfl⟩ := h
    exact Outbox.of_eq rfl
  · simp only [bind_eq_ok, context_eq_ok] at h
    obtain ⟨item, -, _, -, mission_id, -, ⟨source, task, mission, agent⟩, -, _, -,
      ⟨u, run, attempt, authority, policies⟩, hadm, v, hstart, hannounce⟩ := h
    obtain ⟨hfactory, ⟨session, budget, rfl⟩, -, -, -⟩ := admit_recovery_ok hadm
    obtain ⟨hcommands, hreserved⟩ := start_recovery_outbox hstart
    have hqueued : Outbox closes none v t := announce_recovery_outbox hannounce
    have hu : u.outbox = s.outbox := hfactory.outbox
    have hv : v.runner_commands = s.runner_commands := hcommands.trans (Db.outbox_commands hu)
    constructor
    · have hc := hqueued.commands
      unfold Commands at hc ⊢
      rwa [hv] at hc
    · intro x hx
      rcases hqueued.messages x hx with hx | hx
      · rcases hreserved x hx with hx | hx
        · exact Or.inl (reserves_of_messages (Db.outbox_messages hu) hx)
        · exact Or.inr hx
      · cases hx

theorem evaluate_circuit_breaker_outbox {now : Int} {corp_id run_id : Uuid}
    (h : evaluate_circuit_breaker s now corp_id run_id = .ok t) : Outbox closes opens s t := by
  rcases evaluate_circuit_breaker_ok h with
    rfl | ⟨run, task, mission, stage, incident, command, event, -, -, -, -, hraise⟩
  · exact Outbox.of_eq rfl
  · have hfresh : ∀ x ∈ s.runner_commands, x.id ≠ command.id := by
      rw [hraise.command_id]
      exact next_command_id_fresh s
    have hcommands := congrArg Db.runner_commands hraise.state
    have hmessages := congrArg Db.queued_messages hraise.state
    exact Outbox.of_commands (Commands.of_append hraise.command_status hfresh hcommands) hmessages

theorem expire_action_approval_outbox {now : Int} {approval_id : Uuid}
    (h : expire_action_approval s now approval_id = .ok t) : Outbox closes opens s t := by
  unfold expire_action_approval at h
  dsimp only at h
  split at h
  · rw [pure_eq_ok] at h
    exact Outbox.of_eq (by rw [h])
  · generalize hu : insert_runner_command_once _ _ = u at h
    have hqueued : Outbox closes opens _ u := hu ▸ insert_runner_command_once_outbox rfl
    obtain ⟨-, rfl⟩ := append_new_event_tx_ok.mp h
    exact hqueued.congr rfl rfl

theorem record_action_decision_outbox {input : ApprovalDecision} {approval : ActionApproval}
    {run : Run} (h : record_action_decision s input approval run = .ok t) :
    Outbox closes opens s t := by
  unfold record_action_decision at h
  simp only [bind_eq_ok, context_eq_ok] at h
  obtain ⟨_, -, actor, -, _, -, _, -, u, hinsert, h⟩ := h
  have hqueued : Outbox closes opens _ u := insert_runner_command_outbox rfl hinsert
  obtain ⟨evs, rfl, -⟩ := record_event_tx_appends h (P := Event.Routine) ⟨rfl, rfl⟩
  exact hqueued.congr rfl rfl

theorem decide_action_approval_outbox {now : Int} {input : ApprovalDecision}
    {c : Committed String Db Unit} (h : decide_action_approval s now input = .ok c) :
    Outbox closes opens s c.state := by
  obtain ⟨approval, run, -, -, -, -, ⟨-, hsame⟩ | ⟨-, hexpire | hrecord⟩⟩ :=
    decide_action_approval_ok h
  · exact Outbox.of_eq (by rw [hsame])
  · exact expire_action_approval_outbox hexpire
  · exact record_action_decision_outbox hrecord

/-- A decision on a verification leaves both tables alone. -/
theorem record_verification_decision_outbox {input : VerificationDecision} {row : DecisionRow}
    (h : record_verification_decision s input row = .ok t) : t.outbox = s.outbox := by
  obtain ⟨u, evs, rfl, -, ⟨-, hu⟩ | ⟨-, hu⟩⟩ := record_verification_decision_ok h
  · unfold approve_verification at hu
    have hcomplete := complete_task_tx_outbox hu
    exact hcomplete
  · obtain ⟨summary, hfactory⟩ := reject_verification_ok hu
    have hreject := hfactory.outbox
    exact hreject

/-- A pending command of the runner is decided, and its message with it. -/
theorem settle_runner_command_outbox {command_id : Uuid} {runner_id : String}
    {status : CommandStatus} {message : QueuedMessage → QueuedMessage}
    {settle : RunnerCommand → RunnerCommand} {event_type : String} {key : EventKey}
    {existed : String}
    (hsettle : ∀ c, c.status = .pending →
      settle c = { c with status := status, failure_detail := (settle c).failure_detail })
    (hmessage : ∀ m, (message m).status = .reserved →
      m.status = .reserved ∧ (message m).run_id = m.run_id)
    (h : settle_runner_command s command_id runner_id settle message event_type key existed
      = .ok t) : Outbox closes opens s t := by
  unfold settle_runner_command at h
  split at h
  · rw [pure_eq_ok] at h
    exact Outbox.of_eq (by rw [h])
  · rename_i command hfind
    simp only [bind_eq_ok, context_eq_ok, append_new_event_tx_ok] at h
    obtain ⟨message_id, -, _, -, -, rfl⟩ := h
    have hcommands : Updated (RunnerCommand.Step closes) s.runner_commands (updateWhere
        (fun c => c.id == command_id && c.runner_id == runner_id && c.status == .pending) settle
        s.runner_commands) := by
      apply Updated.of_updateWhere
      · intro c _ hc
        simp only [Bool.and_eq_true, beq_iff_eq] at hc
        rw [hsettle c hc.2]
        exact .decided _ _ hc.2
      · intro c _ _
        exact .same
    cases message_id with
    | none => exact ⟨Commands.of_updated hcommands, fun x hx => Or.inl hx⟩
    | some id =>
      exact ⟨Commands.of_updated hcommands, fun x hx => Or.inl (reserves_of_write rfl hmessage hx)⟩

/-! ### Runs that end without a report -/

theorem requeued_reserves {p : QueuedMessage → Bool} {x : Uuid}
    (h : t.queued_messages = updateWhere p (fun m => { m with status := .queued, run_id := none })
      s.queued_messages) (hx : t.reserves x) : s.reserves x :=
  reserves_of_write h (by simp) hx

theorem fail_run_before_dispatch_outbox {corp_id run_id : Uuid} {reason : String}
    (h : fail_run_before_dispatch s corp_id run_id reason = .ok t) : Outbox closes opens s t := by
  rcases fail_run_before_dispatch_ok h with
    hfactory | ⟨run, task, mission, text, u, -, -, -, hfail, hfactory⟩
  · exact Outbox.of_eq hfactory.outbox
  · unfold fail_dispatch at hfail
    obtain ⟨evs, rfl, -⟩ := record_event_tx_appends hfail (P := Event.Routine) ⟨rfl, rfl⟩
    have hcommands := Db.outbox_commands hfactory.outbox
    have hmessages := Db.outbox_messages hfactory.outbox
    exact ⟨Commands.of_eq hcommands, fun x hx => Or.inl (requeued_reserves hmessages hx)⟩

theorem fail_factory_recovery_before_dispatch_outbox {corp_id run_id : Uuid} {reason : String}
    (h : fail_factory_recovery_before_dispatch s corp_id run_id reason = .ok t) :
    Outbox (fun corp run =>
      (Op.fail_factory_recovery_before_dispatch corp_id run_id reason).writes_off
      s corp run = true) opens s t := by
  unfold fail_factory_recovery_before_dispatch at h
  simp only [bind_eq_ok, context_eq_ok] at h
  obtain ⟨text, -, ⟨run, task, mission⟩, hrow, recovery, hrecovery, h⟩ := h
  split at h
  · rename_i hrepeat
    rw [pure_eq_ok] at h
    obtain ⟨hrecovery_failed, hrun_failed⟩ := hrepeat
    have hcloses : (Op.fail_factory_recovery_before_dispatch corp_id run_id reason).writes_off
        s corp_id run_id = true := by
      dsimp only at hrun_failed
      simp [Op.writes_off, Db.recovery_undispatched, hrow, hrecovery, hrecovery_failed, hrun_failed]
    exact Outbox.of_settle hcloses (by rw [← h])
  · simp only [bind_eq_ok, ensure_eq_ok] at h
    obtain ⟨_, hst, h⟩ := h
    have hcloses : (Op.fail_factory_recovery_before_dispatch corp_id run_id reason).writes_off
        s corp_id run_id = true := by
      rcases hst with hst | hst
      · simp [Op.writes_off, Db.recovery_undispatched, hrow, hrecovery, hst]
      · simp [Op.writes_off, Db.recovery_undispatched, hrow, hrecovery, hst]
    have hrun : run.id = run_id := (Db.run_task_mission_eq_some hrow).run_id
    have hout := (fail_recovery_dispatch_ok h).outbox
    have hmessages := Db.outbox_messages hout
    constructor
    · refine Commands.of_updated ?_
      rw [Db.outbox_commands hout, Db.fail_recovery_run]
      exact settle_recovery_updated (by rwa [hrun])
    · intro x hx
      exact Or.inl (requeued_reserves hmessages hx)

/-- The loss of one run writes off the command of its recovery and requeues its messages. -/
theorem lose_row_outbox {now : Int} {reason : String} {row : LostRow}
    (hclose : row.recovery.isSome = true → closes row.run.corp_id row.run.id)
    (h : lose_row now reason s row = .ok t) :
    Updated (RunnerCommand.Step closes) s.runner_commands t.runner_commands
      ∧ ∀ x, t.reserves x → s.reserves x := by
  unfold lose_row at h
  obtain ⟨ready, -, h⟩ := bind_eq_ok.mp h
  split at h
  · rw [pure_eq_ok] at h
    rw [← h]
    exact ⟨Updated.refl fun c _ => .same, fun x hx => hx⟩
  · unfold lose_run_tx at h
    obtain ⟨u, hu, h⟩ := bind_eq_ok.mp h
    obtain ⟨evs, rfl, -⟩ := record_event_tx_appends h (P := Event.Routine) ⟨rfl, rfl⟩
    have hrequeue : ∀ x, (u.requeue_messages row.run.id).reserves x → u.reserves x :=
      fun x hx => requeued_reserves rfl hx
    unfold end_lost_run at hu
    split at hu
    · rename_i recovery hrecovery
      have hout := terminalize_outbox hu
      have hmessages := Db.outbox_messages hout
      constructor
      · have hcommands : u.runner_commands
            = (s.settle_recovery_command row.run.corp_id row.run.id).runner_commands :=
          Db.outbox_commands hout
        have hstep : Updated (RunnerCommand.Step closes) s.runner_commands u.runner_commands := by
          rw [hcommands]
          exact settle_recovery_updated (hclose (by rw [hrecovery]; rfl))
        exact hstep
      · intro x hx
        exact reserves_of_messages hmessages (hrequeue x hx)
    · obtain rfl := Except.ok.inj hu
      exact ⟨Updated.refl fun c _ => .same, fun x hx => hrequeue x hx⟩

/-- Induction on the rows of the sweep. -/
theorem lose_rows_outbox {now : Int} {reason : String} (rows : List LostRow)
    (hclose : ∀ row ∈ rows, row.recovery.isSome = true → closes row.run.corp_id row.run.id)
    (h : rows.foldlM (lose_row now reason) s = .ok t) :
    Updated (RunnerCommand.Step closes) s.runner_commands t.runner_commands
      ∧ ∀ x, t.reserves x → s.reserves x := by
  induction rows generalizing s with
  | nil =>
    rw [List.foldlM_nil, pure_eq_ok] at h
    rw [← h]
    exact ⟨Updated.refl fun c _ => .same, fun x hx => hx⟩
  | cons row rows ih =>
    rw [List.foldlM_cons] at h
    obtain ⟨u, hu, h⟩ := bind_eq_ok.mp h
    obtain ⟨hstep, hreserved⟩ := lose_row_outbox (hclose row List.mem_cons_self) hu
    obtain ⟨hsteps, hreserved'⟩ := ih (fun row hrow => hclose row (List.mem_cons_of_mem _ hrow)) h
    refine ⟨hstep.trans hsteps ?_, fun x hx => hreserved x (hreserved' x hx)⟩
    exact fun a _ b c hab hbc => hab.trans hbc

theorem mark_runner_runs_lost_tx_outbox {now : Int} {input : LostRunner}
    (h : mark_runner_runs_lost_tx s now input = .ok t) :
    Outbox (fun corp_id run_id =>
      (Op.mark_runner_runs_lost now input).writes_off s corp_id run_id = true) opens s t := by
  have hrows : ∀ row ∈ lost_rows s input, row.recovery.isSome = true →
      (Op.mark_runner_runs_lost now input).writes_off s row.run.corp_id row.run.id = true := by
    intro row hrow hrecovery
    refine List.any_eq_true.mpr ⟨row, hrow, ?_⟩
    simp [hrecovery]
  have hfold := @lose_rows_outbox _ _ (fun corp_id run_id =>
    (Op.mark_runner_runs_lost now input).writes_off s corp_id run_id = true) _ _ _ hrows h
  exact ⟨Commands.of_updated hfold.1, fun x hx => Or.inl (hfold.2 x hx)⟩

theorem create_mission_tx_outbox {input : CreateMissionInput} {mission_id : Uuid}
    (h : create_mission_tx s input = .ok (mission_id, t)) : t.outbox = s.outbox := by
  obtain ⟨_, _, _, _, _, _, _, -, rfl, -⟩ := create_mission_tx_ok h
  rfl

theorem finalize_artifact_upload_outbox {corp_id artifact_id : Uuid}
    {fence authority : ReceiptVerdict}
    {c : Committed String Db Unit}
    (h : finalize_artifact_upload s corp_id artifact_id fence authority = .ok c) :
    c.state.outbox = s.outbox := by
  rcases finalize_artifact_upload_ok h with
    hc | ⟨reason, hc⟩ | ⟨a, run, task, mission, u, -, -, -, -, hready, hc⟩
  · rw [hc]
  · rw [hc]
    rfl
  · have hsu : u.outbox = s.outbox := by
      rcases hready.state with ⟨-, hu⟩ | ⟨-, row, -, -, hu⟩
      · rw [hu]
        rfl
      · rw [hu]
        rfl
    rw [hc]
    split
    · exact hsu
    · exact hsu

end Calls

/-- **What each call does to the two tables.** -/
theorem exec_outbox {op : Op} (h : exec env s op = .ok t) :
    Outbox (fun corp_id run_id => op.writes_off s corp_id run_id = true) op.opens s t := by
  cases op with
  | apply_runner_event now input =>
    obtain ⟨⟨o, u⟩, hu, rfl⟩ := map_eq_ok.mp h
    exact apply_runner_event_outbox hu
  | evaluate_circuit_breaker now corp_id run_id => exact evaluate_circuit_breaker_outbox h
  | set_budget_policy input =>
    obtain ⟨policies, evs, rfl, -⟩ := set_budget_policy_ok h
    exact Outbox.of_eq rfl
  | create_mission input =>
    obtain ⟨mission_id, h⟩ := create_mission_ok h
    exact Outbox.of_eq (create_mission_tx_outbox h)
  | materialize_factory_mission now input =>
    rcases materialize_factory_mission_ok h with rfl | ⟨mission_id, u, items, ops, evs, hu, rfl, -⟩
    · exact Outbox.of_eq rfl
    · have hplan := create_mission_tx_outbox hu
      exact Outbox.of_eq hplan
  | transition_factory_work_item now input =>
    obtain ⟨items, ops, evs, rfl, -⟩ := transition_factory_work_item_ok h
    exact Outbox.of_eq rfl
  | create_task_run now input => exact create_task_run_outbox h
  | create_resume_run now input => exact create_resume_run_outbox h
  | create_factory_verification_recovery now input =>
    exact create_factory_verification_recovery_outbox h
  | prepare_artifact_upload now input artifact staging_key receipt_allows =>
    obtain ⟨_, _, _, -, -, -, -, rfl | ⟨a, -, -, -, -, rfl⟩⟩ := prepare_artifact_upload_ok h
    · exact Outbox.of_eq rfl
    · exact Outbox.of_eq rfl
  | finalize_artifact_upload corp_id artifact_id fence authority =>
    obtain ⟨c, hc, rfl⟩ := map_eq_ok.mp h
    exact Outbox.of_eq (finalize_artifact_upload_outbox hc)
  | reject_staged_artifact corp_id artifact_id reason =>
    obtain rfl := Except.ok.inj h
    exact Outbox.of_eq rfl
  | abandon_staged_artifact corp_id artifact_id =>
    obtain rfl := Except.ok.inj h
    exact Outbox.of_eq rfl
  | clear_artifact_staging_key corp_id artifact_id staging_key =>
    obtain rfl := Except.ok.inj h
    exact Outbox.of_eq rfl
  | decide_action_approval now input =>
    obtain ⟨c, hc, rfl⟩ := map_eq_ok.mp h
    exact decide_action_approval_outbox hc
  | expire_action_approval now approval_id => exact expire_action_approval_outbox h
  | decide_verification now input =>
    rcases decide_verification_ok h with rfl | ⟨row, actor, -, hrecord⟩
    · exact Outbox.of_eq rfl
    · exact Outbox.of_eq (record_verification_decision_outbox hrecord)
  | acknowledge_runner_command command_id runner_id =>
    exact settle_runner_command_outbox (fun _ _ => rfl) (fun m hm => ⟨hm, rfl⟩) h
  | fail_runner_command command_id runner_id detail =>
    exact settle_runner_command_outbox (fun _ _ => rfl) (by simp) h
  | fail_run_before_dispatch corp_id run_id reason => exact fail_run_before_dispatch_outbox h
  | fail_factory_recovery_before_dispatch corp_id run_id reason =>
    exact fail_factory_recovery_before_dispatch_outbox h
  | mark_runner_runs_lost now input => exact mark_runner_runs_lost_tx_outbox h

end Crony.Store
