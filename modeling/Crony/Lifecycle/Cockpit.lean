/-
The calls of the cockpit, seen from the run lifecycle.

Taking, passing on or giving up a control lease, sending a message and retiring workers
change no run, no task and no mission. `Sideline` says once what such a call may do to the
database of the lifecycle; with it the invariants of the lifecycle hold in every state of
the cockpit.
-/
import Crony.Lifecycle.Outbox
import Crony.Store.Cockpit

set_option autoImplicit false

open Crony.Lib

namespace Crony.Store

variable {env : Env}

/-- A call beside the run lifecycle: agents keep their run and their status, messages may
be added and one command queued. -/
structure Sideline (s t : Db) : Prop where
  state : ∃ agents messages commands events, t = { s with
    agents := agents, queued_messages := messages, runner_commands := commands, events := events }
  agents : Updated (fun a a' => a.Kept a' ∧ a'.current_run_id = a.current_run_id) s.agents t.agents
  outbox : Outbox (fun _ _ => False) none s t
  breaker_keys : t.breaker_keys = s.breaker_keys
  events : Appends Event.Routine s.events t.events

section Sideline

variable {s t : Db}

theorem agents_kept (l : List Agent) :
    Updated (fun a a' : Agent => a.Kept a' ∧ a'.current_run_id = a.current_run_id) l l :=
  Updated.refl fun a _ => ⟨Agent.Kept.refl a, rfl⟩

theorem Sideline.of_events {evs : List Event} (h : t = { s with events := evs })
    (hevents : Appends Event.Routine s.events evs) : Sideline s t where
  state := ⟨s.agents, s.queued_messages, s.runner_commands, evs, h⟩
  agents := by
    rw [h]
    exact agents_kept s.agents
  outbox := Outbox.of_eq (by rw [h]; rfl)
  breaker_keys := by
    rw [h]
    rfl
  events := by
    rw [h]
    exact hevents

theorem Sideline.refl (s : Db) : Sideline s s := Sideline.of_events rfl Appends.refl

theorem Sideline.runs (h : Sideline s t) : t.runs = s.runs := by
  obtain ⟨agents, messages, commands, events, ht⟩ := h.state
  rw [ht]

/-- The run lifecycle does not see it. -/
theorem Sideline.life (hs : Life s) (h : Sideline s t) : Life t := by
  have hagents := h.agents
  obtain ⟨agents, messages, commands, events, rfl⟩ := h.state
  have hkept : Updated Agent.Kept s.agents agents := hagents.mono fun _ _ _ hx => hx.1
  have hages : Ages s { s with
      agents := agents, queued_messages := messages, runner_commands := commands, events :=
        events } :=
    ⟨Updated.refl fun x _ => ⟨Run.Kept.refl x, id, id⟩, Updated.refl fun x _ => Task.Kept.refl x,
      Updated.refl fun x _ => Mission.Kept.refl x, hkept, rfl⟩
  exact {
    toWellFormed := hages.wellFormed hs.toWellFormed
    task_exclusive := hs.task_exclusive
    agent_exclusive := hs.agent_exclusive
    task_settled := hs.task_settled
    task_earned := hs.task_earned
    mission_settled := hs.mission_settled
    agent_holds := by
      intro a' ha' id hid
      obtain ⟨a, ha, hk, hrun⟩ := hagents.exists_old ha'
      obtain ⟨x, hx, hxid, hagent, hactive⟩ := hs.agent_holds a ha id (hrun ▸ hid)
      exact ⟨x, hx, hxid, hagent.trans hk.id.symm, hactive⟩
    run_held := by
      intro x hx hstart a' ha' hagent
      obtain ⟨a, ha, hk, hrun⟩ := hagents.exists_old ha'
      rw [hrun]
      exact hs.run_held x hx hstart a ha (hk.id.symm.trans hagent)
    run_ready := hages.run_ready hs
    run_claimed := hs.run_claimed
    run_origin := hs.run_origin }

theorem Sideline.calm (h : Sideline s t) : Calm Event.Routine s t := by
  have hevents := h.events
  have hkeys := h.breaker_keys
  obtain ⟨agents, messages, commands, events, rfl⟩ := h.state
  exact ⟨⟨rfl, requests_kept _, approvals_kept _, rfl, rfl, rfl, hkeys, hevents⟩,
    Updated.refl fun r _ => Run.Calm.refl r⟩

theorem Sideline.inv (hs : Inv s) (h : Sideline s t) : Inv t where
  life := h.life hs.life
  linked := by
    obtain ⟨agents, messages, commands, events, rfl⟩ := h.state
    exact ⟨hs.linked.approvals, hs.linked.artifacts, hs.linked.requests⟩

end Sideline

/-! ## Leases -/

section Leases

variable {s t : Cockpit}

theorem record_control_event_sideline {u : Db} {event : Event} {v : Db}
    (h : record_event_tx u event = .ok v) (hkey : event.idempotency_key.is_routine = true)
    (htype : event.type.is_routine = true) : Sideline u v := by
  obtain ⟨evs, rfl, hevs⟩ := record_event_tx_appends h (P := Event.Routine) ⟨hkey, htype⟩
  exact Sideline.of_events rfl hevs

theorem acquire_lease_sideline {now : Int} {input : LeaseInput} {token : Uuid} {o : LeaseOutcome}
    (h : acquire_lease s now input token = .ok o) : Sideline s.toDb o.state.toDb := by
  have hacquired : ∀ {u v : Cockpit}, u.toDb = s.toDb → lease_acquired u input = .ok v →
      Sideline s.toDb v.toDb := by
    intro u v hu hv
    obtain ⟨w, hw, rfl⟩ := map_eq_ok.mp hv
    rw [hu] at hw
    exact record_control_event_sideline hw rfl rfl
  unfold acquire_lease at h
  obtain ⟨_, -, h⟩ := bind_eq_ok.mp h
  obtain ⟨_, -, h⟩ := bind_eq_ok.mp h
  split at h
  · simp only [bind_eq_ok, pure_eq_ok] at h
    obtain ⟨_, -, v, hv, rfl⟩ := h
    exact hacquired (u := s.onLeases _) rfl hv
  · split at h
    · simp only [bind_eq_ok, pure_eq_ok] at h
      obtain ⟨_, -, v, hv, rfl⟩ := h
      exact hacquired (u := s.onLeases _) rfl hv
    · rw [pure_eq_ok] at h
      rw [← h]
      exact Sideline.refl _

theorem append_control_event_sideline {u : Db} {event : Event} {existed : String} {v : Db}
    (h : append_new_event_tx u event existed = .ok v)
    (hkey : event.idempotency_key.is_routine = true) (htype : event.type.is_routine = true) :
    Sideline u v := by
  obtain ⟨-, rfl⟩ := append_new_event_tx_ok.mp h
  exact Sideline.of_events rfl (Appends.one ⟨hkey, htype⟩)

theorem release_lease_sideline {now : Int} {input : LeaseInput} {token : Uuid}
    (h : release_lease s now input token = .ok t) : Sideline s.toDb t.toDb := by
  unfold release_lease at h
  simp only [bind_eq_ok] at h
  obtain ⟨_, -, _, -, h⟩ := h
  obtain ⟨v, hv, rfl⟩ := map_eq_ok.mp h
  exact append_control_event_sideline hv rfl rfl

theorem transfer_lease_sideline {now : Int} {input : LeaseInput}
    {token to_actor_id new_token : Uuid}
    (h : transfer_lease s now input token to_actor_id new_token = .ok t) :
    Sideline s.toDb t.toDb := by
  unfold transfer_lease at h
  simp only [bind_eq_ok] at h
  obtain ⟨_, -, _, -, _, -, _, -, _, -, lease, -, _, -, _, -, h⟩ := h
  obtain ⟨v, hv, rfl⟩ := map_eq_ok.mp h
  exact append_control_event_sideline hv rfl rfl

end Leases

/-! ## Messages and retirement -/

section Messages

variable {s t : Cockpit}

/-- The command of a message delivered at once is new and pending. -/
theorem queue_control_command_sideline {u v : Db} {input : MessageInput} {run : Option Run}
    {message_id : Uuid} {lease_version : Option Int} {command_id : Option Uuid}
    (h : queue_control_command u input run message_id lease_version = .ok (command_id, v)) :
    Sideline u v := by
  unfold queue_control_command at h
  split at h
  · obtain ⟨-, rfl⟩ := Prod.mk.inj (Except.ok.inj h)
    exact Sideline.refl _
  · simp only [bind_eq_ok, context_eq_ok, pure_eq_ok, Prod.mk.injEq] at h
    obtain ⟨version, -, w, hinsert, -, rfl⟩ := h
    have hout : Outbox (fun _ _ => False) none u w := insert_runner_command_outbox rfl hinsert
    unfold insert_runner_command at hinsert
    simp only [bind_eq_ok, pure_eq_ok] at hinsert
    obtain ⟨_, -, rfl⟩ := hinsert
    exact ⟨⟨_, _, _, _, rfl⟩, agents_kept _, hout,
      breaker_keys_of_append rfl (by simp [control_command]), Appends.refl⟩

theorem Sideline.trans_message {u v w : Db} {message : QueuedMessage} (h : Sideline u v)
    (hstatus : message.status ≠ .reserved)
    (hw : Sideline (v.onQueuedMessages (· ++ [message])) w) (hcommands : w.runner_commands
      = v.runner_commands) (hmessages : w.queued_messages = v.queued_messages ++ [message])
    (hagents : w.agents = v.agents) : Sideline u w where
  state := by
    obtain ⟨agents, messages, commands, events, rfl⟩ := h.state
    obtain ⟨agents', messages', commands', events', rfl⟩ := hw.state
    exact ⟨agents', messages', commands', events', rfl⟩
  agents := by
    rw [hagents]
    exact h.agents
  outbox := by
    constructor
    · have hc := h.outbox.commands
      unfold Commands at hc ⊢
      rwa [hcommands]
    · intro x hx
      obtain ⟨m, hm, hst, hrun⟩ := hx
      rw [hmessages] at hm
      rcases List.mem_append.mp hm with hm | hm
      · exact h.outbox.messages x ⟨m, hm, hst, hrun⟩
      · -- the new message is queued or already on its way
        obtain rfl := List.mem_singleton.mp hm
        exact absurd hst hstatus
  breaker_keys := hw.breaker_keys.trans h.breaker_keys
  events := h.events.trans hw.events

theorem accept_message_sideline {now : Int} {input : MessageInput} {run : Option Run}
    {lease_version : Option Int} {o : MessageOutcome}
    (h : accept_message s now input run lease_version = .ok o) :
    Sideline s.toDb o.state.toDb := by
  unfold accept_message at h
  simp only [bind_eq_ok, append_new_event_tx_ok, pure_eq_ok] at h
  obtain ⟨⟨command_id, v⟩, hcommand, w, ⟨-, rfl⟩, rfl⟩ := h
  have hstatus : (input.message now s.next_message_id run command_id).status ≠ .reserved := by
    cases run
    · simp [MessageInput.message]
    · simp [MessageInput.message]
  have hkey : EventKey.is_routine (.control_message s.next_message_id) = true := rfl
  refine (queue_control_command_sideline hcommand).trans_message hstatus
    (Sideline.of_events rfl (Appends.one ⟨hkey, ?_⟩)) rfl rfl rfl
  rfl

theorem queue_message_sideline {now : Int} {input : MessageInput} {o : MessageOutcome}
    (h : queue_message s now input = .ok o) : Sideline s.toDb o.state.toDb := by
  unfold queue_message at h
  simp only [bind_eq_ok] at h
  obtain ⟨_, -, _, -, _, -, _, -, h⟩ := h
  split at h
  · unfold replay_message at h
    simp only [bind_eq_ok, pure_eq_ok] at h
    obtain ⟨_, -, rfl⟩ := h
    exact Sideline.refl _
  · simp only [bind_eq_ok] at h
    obtain ⟨holds, -, h⟩ := h
    exact accept_message_sideline h

theorem retire_terminal_mission_agents_sideline {now : Int} {taken : List Uuid}
    (h : retire_terminal_mission_agents s now taken = .ok t) : Sideline s.toDb t.toDb := by
  unfold retire_terminal_mission_agents at h
  obtain ⟨v, hv, rfl⟩ := map_eq_ok.mp h
  obtain ⟨evs, rfl, hevs⟩ := foldlM_journal (P := Event.Routine) (fun u v a ha => by
    unfold retire_event at ha
    exact record_event_tx_appends ha ⟨rfl, rfl⟩) _ hv
  refine ⟨⟨_, _, _, _, rfl⟩, ?_, Outbox.of_eq rfl, rfl, hevs⟩
  exact Updated.of_updateWhere (fun a _ _ => ⟨⟨rfl, rfl, rfl⟩, rfl⟩)
    fun a _ _ => ⟨Agent.Kept.refl a, rfl⟩

end Messages

/-! ## The system -/

/-- **A call of the cockpit is one of the lifecycle or stays beside it.** -/
theorem Cockpit.exec_cases {s t : Cockpit} {op : CockpitOp} (h : Cockpit.exec env s op = .ok t) :
    (∃ o, op = .lifecycle o ∧ Store.exec env s.toDb o = .ok t.toDb
        ∧ t.control_leases = s.control_leases)
      ∨ Sideline s.toDb t.toDb := by
  cases op with
  | lifecycle o =>
    obtain ⟨u, hu, rfl⟩ := map_eq_ok.mp h
    exact Or.inl ⟨o, rfl, hu, rfl⟩
  | acquire_lease now input token =>
    obtain ⟨o, ho, rfl⟩ := map_eq_ok.mp h
    exact Or.inr (acquire_lease_sideline ho)
  | release_lease now input token => exact Or.inr (release_lease_sideline h)
  | transfer_lease now input token to_actor_id new_token =>
    exact Or.inr (transfer_lease_sideline h)
  | queue_message now input =>
    obtain ⟨o, ho, rfl⟩ := map_eq_ok.mp h
    exact Or.inr (queue_message_sideline ho)
  | retire_terminal_mission_agents now taken =>
    exact Or.inr (retire_terminal_mission_agents_sideline h)

theorem Cockpit.exec_inv {s t : Cockpit} (hs : Inv s.toDb) {op : CockpitOp}
    (h : Cockpit.exec env s op = .ok t) : Inv t.toDb := by
  rcases Cockpit.exec_cases h with ⟨o, -, ho, -⟩ | hside
  · exact Store.exec_inv hs ho
  · exact hside.inv hs

/-! ## The sample office at work on a Factory item -/

namespace Office

/-- An issue the owner has claimed. -/
def item : FactoryWorkItem where
  id := 60
  corp_id := 1
  source := {
    source_project_owner := "office"
    source_project_number := 1
    source_project_item_id := "item"
    source_repository_owner := "office"
    source_repository_name := "stairs"
    source_issue_node_id := "node"
    source_issue_url := "https://example.invalid/7"
    source_title := "The stairs have a gap" }
  source_issue_number := 7
  source_revision := "r1"
  policy := "policy"
  state := .claimed
  version := 1
  claim_owner_id := 1
  claim_token := 8
  lease_expires_at := 1000

def factory_desk : Cockpit := { db with factory_work_items := [item], control_leases := [] }

theorem factory_desk_initial : factory_desk.Initial where
  db := { initial with
    items_keyed := by simp [factory_desk, Keyed]
    items_unlinked := by simp [factory_desk, item] }
  queued_messages := rfl
  control_leases := rfl

/-- The state after some calls. -/
def desk_after (calls : List CockpitOp) : Cockpit := (cockpit digest).run factory_desk calls

theorem reachable_desk (calls : List CockpitOp) : (cockpit digest).Reachable (desk_after calls) :=
  TransitionSystem.Reachable.run factory_desk_initial calls

/-- The owner plans the mission of the item. -/
def materialize (plan : TaskGraphPlan) : Op :=
  .materialize_factory_mission 0
    { mission := { corp_id := 1, requested_by := 1, title := "Mission", description := ""
                   room_id := 10, plan }
      work_item_id := 60, claim_token := 8, expected_version := 1, idempotency_key := "plan"
      request := "plan", policy_allows := true }

/-- The owner has the checks of a failed run run again. -/
def recover (source_run_id run_id : Uuid) (version : Int) : Op :=
  .create_factory_verification_recovery 0
    { corp_id := 1, actor_id := 1, work_item_id := 60, claim_token := 8
      expected_factory_version := version, source_run_id, mode := .verifier_only
      reason := "try the checks again", observed_source_revision := "r1"
      reviewed_source_snapshot := .obj [("source_revision", .str "r1"), ("issue_number", .int 7)]
      snapshot_bytes := 10, contract_revision_id := none
      expected_workspace_fingerprint := sha 'a', expected_head_commit := none
      idempotency_key := 70, run_id, assignment_token := 7
      verdicts := {
        checkpoint_authority := none
        correction_required := false
        correction_authority := none
        revised_from := none
        policy_allows := true
        receipt_allows := true
        replay_allows := true } }

/-- The evidence of a failed check. -/
def failed_evidence : Json :=
  .obj [("evidence_id", .uuid 900), ("check_index", .int 0), ("kind", .str "file"),
    ("status", .str "failed"), ("summary", .str "no report")]

/-- A run of the item's mission up to its failed verification, with its workspace kept. -/
def failed_run : List Op :=
  [materialize (plan [task "a" [] file_policy]), dispatch 1 50,
    report 50 201 .run_started
      (.obj [("workspace", .str "/work"), ("workspace_base_commit", .str "base")]),
    report 50 202 .run_verification_started (.obj []),
    report 50 203 .run_verification_evidence failed_evidence,
    report 50 204 .run_verification_failed (.obj []),
    report 50 300 .run_workspace_preserved (.obj [("workspace_fingerprint", .str (sha 'a'))])]

end Office

end Crony.Store
