/-
Direct control of a worker: control leases and messages, and the retirement of workers
whose mission is over.

An actor who takes the control lease of an agent may steer its active run; the message then
travels as a `control_message` command of that run, fenced by the version of the lease.
Without a lease a message waits for the agent's next run. Retirement is the server's own
sweep: a worker is retired once nothing that could still need it is left.

The leases are read by no statement of the run lifecycle, so the state here is the database
of the lifecycle with the table beside it.
-/
import Crony.Store.Revisions
import Crony.Store.System

set_option autoImplicit false

open Crony.Lib

namespace Crony.Store

/-! ## The table -/

/-- The primary key is `agent_id`; `token` is unique. -/
structure ControlLease where
  agent_id : Uuid
  corp_id : Uuid
  actor_id : Uuid
  token : Uuid
  lease_version : Int := 1
  expires_at : Int
  deriving DecidableEq, Repr

structure Cockpit extends Db where
  control_leases : List ControlLease := []

namespace Cockpit

def onDb (s : Cockpit) (db : Db) : Cockpit := { s with toDb := db }

def onLeases (s : Cockpit) (f : List ControlLease → List ControlLease) : Cockpit :=
  { s with control_leases := f s.control_leases }

@[simp] theorem onDb_toDb (s : Cockpit) (db : Db) : (s.onDb db).toDb = db := rfl

@[simp] theorem onLeases_toDb (s : Cockpit) (f : List ControlLease → List ControlLease) :
    (s.onLeases f).toDb = s.toDb := rfl

end Cockpit

/-! ## Shared checks -/

/-- `assert_actor_agent_scope_tx`. -/
def assert_actor_agent_scope_tx (s : Db) (corp_id actor_id agent_id : Uuid) :
    Except String Unit := do
  assert_actor_scope_tx s corp_id actor_id
  let agent ← context ((s.agent? agent_id).filter fun a => a.corp_id == corp_id)
    "agent does not belong to the requested Corp"
  ensure (agent.retired_at = none) "conflict: agent is retired; historical work remains available"
  match agent.mission_id with
  | none => return ()
  | some mission_id => do
    let mission ← context ((s.mission? mission_id).filter fun m => m.corp_id == corp_id)
      "no rows returned"
    assert_room_membership_tx s corp_id mission.room_id actor_id

/-- `lock_agent_for_grant_tx`. -/
def lock_agent_for_grant_tx (s : Db) (corp_id agent_id : Uuid) : Except String Unit :=
  ensure (∃ a ∈ s.agents, a.id = agent_id ∧ a.corp_id = corp_id ∧ a.retired_at = none)
    "conflict: agent was retired before the authority grant"

/-- The lease of an agent, whatever its Corp and its age. -/
def Cockpit.lease? (s : Cockpit) (agent_id : Uuid) : Option ControlLease :=
  s.control_leases.find? fun l => l.agent_id == agent_id

/-- `UNIQUE (token)`. -/
def ensure_lease_token (s : Cockpit) (agent_id token : Uuid) : Except String Unit :=
  ensure (∀ l ∈ s.control_leases, l.agent_id ≠ agent_id → l.token ≠ token)
    "duplicate key value violates unique constraint control_leases_token_key"

/-- An event about the control of an agent. -/
def control_event (corp_id actor_id agent_id : Uuid) (event_type : String) (key : EventKey) :
    Event :=
  { id := 0, corp_id, actor_id := some actor_id, type := .other event_type
    aggregate_type := .agent, aggregate_id := agent_id, idempotency_key := key }

/-! ## Leases

`now() + 5 minutes` is when a lease granted now expires. -/

structure LeaseInput where
  corp_id : Uuid
  agent_id : Uuid
  actor_id : Uuid
  deriving DecidableEq, Repr

structure LeaseOutcome where
  acquired : Bool
  lease : ControlLease
  state : Cockpit

/-- The row of a new lease. -/
def LeaseInput.lease (input : LeaseInput) (now : Int) (token : Uuid) : ControlLease where
  agent_id := input.agent_id
  corp_id := input.corp_id
  actor_id := input.actor_id
  token := token
  expires_at := now + 300

/-- The `DO UPDATE` of a lease that is taken over or renewed. -/
def LeaseInput.renewed (input : LeaseInput) (now : Int) (token : Uuid) (l : ControlLease) :
    ControlLease :=
  { l with corp_id := input.corp_id, actor_id := input.actor_id, token
           lease_version := l.lease_version + 1, expires_at := now + 300 }

/-- The event of an acquired lease. -/
def lease_acquired (s : Cockpit) (input : LeaseInput) : Except String Cockpit :=
  s.onDb <$> record_event_tx s.toDb
    (control_event input.corp_id input.actor_id input.agent_id "control.lease_acquired"
      (.lease_acquire input.agent_id s.next_event_id))

/-- `acquire_lease`: another actor's lease that has not expired is left alone. -/
def acquire_lease (s : Cockpit) (now : Int) (input : LeaseInput) (token : Uuid) :
    Except String LeaseOutcome := do
  assert_actor_agent_scope_tx s.toDb input.corp_id input.actor_id input.agent_id
  lock_agent_for_grant_tx s.toDb input.corp_id input.agent_id
  match s.lease? input.agent_id with
  | none => do
    ensure_lease_token s input.agent_id token
    let lease := input.lease now token
    let state ← lease_acquired (s.onLeases (· ++ [lease])) input
    return { acquired := true, lease, state }
  | some lease =>
    if lease.expires_at ≤ now ∨ lease.actor_id = input.actor_id then do
      ensure_lease_token s input.agent_id token
      let state ← lease_acquired (s.onLeases (updateWhere (fun l => l.agent_id == input.agent_id)
        (input.renewed now token))) input
      return { acquired := true, lease := input.renewed now token lease, state }
    else return { acquired := false, lease, state := s }

/-- `release_lease`. -/
def release_lease (s : Cockpit) (now : Int) (input : LeaseInput) (token : Uuid) :
    Except String Cockpit := do
  assert_actor_agent_scope_tx s.toDb input.corp_id input.actor_id input.agent_id
  let held := fun (l : ControlLease) => l.agent_id == input.agent_id && l.corp_id == input.corp_id
    && l.actor_id == input.actor_id && l.token == token && decide (now < l.expires_at)
  ensure (s.control_leases.any held = true) "stale or unauthorized control lease"
  let s := s.onLeases (List.filter fun l => !held l)
  s.onDb <$> append_new_event_tx s.toDb
    (control_event input.corp_id input.actor_id input.agent_id "control.lease_released"
      (.lease_release input.agent_id s.next_event_id))
    "lease release event unexpectedly existed"

/-- `transfer_lease`. -/
def transfer_lease (s : Cockpit) (now : Int) (input : LeaseInput) (token to_actor_id : Uuid)
    (new_token : Uuid) : Except String Cockpit := do
  assert_actor_agent_scope_tx s.toDb input.corp_id input.actor_id input.agent_id
  assert_actor_scope_tx s.toDb input.corp_id to_actor_id
  assert_actor_agent_scope_tx s.toDb input.corp_id to_actor_id input.agent_id
  lock_agent_for_grant_tx s.toDb input.corp_id input.agent_id
  ensure (input.actor_id ≠ to_actor_id) "lease transfer target must be another actor"
  let existing ← context ((s.lease? input.agent_id).filter fun l => l.corp_id == input.corp_id)
    "agent has no active control lease"
  ensure (existing.actor_id = input.actor_id ∧ existing.token = token ∧ now < existing.expires_at)
    "stale or unauthorized control lease"
  ensure_lease_token s input.agent_id new_token
  let s := s.onLeases (updateWhere
    (fun l => l.agent_id == input.agent_id && l.corp_id == input.corp_id) fun l =>
      { l with actor_id := to_actor_id, token := new_token, lease_version := l.lease_version + 1
               expires_at := now + 300 })
  s.onDb <$> append_new_event_tx s.toDb
    (control_event input.corp_id input.actor_id input.agent_id "control.lease_transferred"
      (.lease_transfer input.agent_id s.next_event_id))
    "lease transfer event unexpectedly existed"

/-! ## Messages -/

structure MessageInput where
  corp_id : Uuid
  agent_id : Uuid
  actor_id : Uuid
  lease_token : Option Uuid
  text : String
  idempotency_key : Uuid
  deriving DecidableEq, Repr

/-- `delivery` is the status of the message. -/
structure MessageOutcome where
  message : QueuedMessage
  run_id : Option Uuid
  runner_id : Option String
  replayed : Bool
  command_queued : Bool
  state : Cockpit

def Db.next_message_id (s : Db) : Uuid := s.new_v4 (s.queued_messages.map QueuedMessage.id)

/-- A message under this key is repeated to the same agent, by the same actor, with the same
text, or not at all. -/
def replay_message (s : Cockpit) (input : MessageInput) (message : QueuedMessage) :
    Except String MessageOutcome := do
  ensure (message.agent_id = input.agent_id ∧ message.actor_id = input.actor_id
      ∧ message.text = trim input.text)
    "control message idempotency key was reused with another request"
  return {
    message
    run_id := message.run_id
    runner_id := (message.run_id.bind s.run?).map Run.runner_id
    replayed := true
    command_queued := s.runner_commands.any fun c =>
      message.command_id == some c.id && c.status == .pending
    state := s }

/-- The lease of the agent, unless it has expired. -/
def Cockpit.active_lease (s : Cockpit) (now : Int) (corp_id agent_id : Uuid) :
    Option ControlLease :=
  (s.lease? agent_id).filter fun l => l.corp_id == corp_id && decide (now < l.expires_at)

/-- Whether the sender holds the lease: a token must be the current one, and the holder
must present it. -/
def holds_lease (active_lease : Option ControlLease) (actor_id : Uuid) (lease_token : Option Uuid) :
    Except String Bool :=
  match active_lease, lease_token with
  | some lease, some supplied =>
    if lease.actor_id = actor_id ∧ lease.token = supplied then .ok true
    else .error "stale or unauthorized control lease token"
  | some lease, none =>
    if lease.actor_id = actor_id then .error "stale or unauthorized control lease token"
    else .ok false
  | none, none => .ok false
  | none, some _ => .error "stale or unauthorized control lease token"

/-- `run.status IN ('starting', 'running', 'waiting_for_input', 'waiting_for_approval',
'verifying')`. -/
def Run.steerable (r : Run) : Bool := r.active && !(r.status == .provisioning)

/-- The latest run of the agent that may be steered, with the agent's adapter. -/
def Db.active_run_of (s : Db) (corp_id agent_id : Uuid) : Option (Run × String) := do
  let run ← ((s.runs.filter fun r => r.agent_id == agent_id && r.corp_id == corp_id
    && r.steerable).insertionSort fun a b => b.created_at ≤ a.created_at).head?
  let agent ← s.agent? run.agent_id
  return (run, agent.adapter)

/-- The adapters whose sessions take messages. -/
def adapter_supports_steer (adapter : String) : Bool :=
  ["codex", "github-copilot", "fake-process"].contains adapter

/-- The run a message is delivered to at once. -/
def steered_run (s : Db) (input : MessageInput) (holds : Bool) : Option Run :=
  ((s.active_run_of input.corp_id input.agent_id).filter fun (_, adapter) =>
    holds && adapter_supports_steer adapter).map Prod.fst

/-- The command that carries a message. -/
def control_command (input : MessageInput) (run : Run) (message_id : Uuid)
    (lease_version : Int) : RunnerCommand :=
  { id := 0, corp_id := input.corp_id, runner_id := run.runner_id, run_id := run.id
    command_kind := .control_message
    payload := .obj [("message_id", .uuid message_id), ("agent_id", .uuid input.agent_id),
      ("actor_id", .uuid input.actor_id), ("lease_version", .int lease_version),
      ("text", .str (trim input.text))]
    idempotency_key := .control_message message_id }

/-- The command of a message delivered at once. -/
def queue_control_command (s : Db) (input : MessageInput) (run : Option Run) (message_id : Uuid)
    (lease_version : Option Int) : Except String (Option Uuid × Db) :=
  match run with
  | none => return (none, s)
  | some run => do
    let version ← context lease_version "immediate control message omitted its lease fence"
    let t ← insert_runner_command s (control_command input run message_id version)
    return (some s.next_command_id, t)

/-- The row of a new message. -/
def MessageInput.message (input : MessageInput) (now : Int) (id : Uuid) (run : Option Run)
    (command_id : Option Uuid) : QueuedMessage where
  id := id
  corp_id := input.corp_id
  agent_id := input.agent_id
  actor_id := input.actor_id
  text := trim input.text
  idempotency_key := some input.idempotency_key
  run_id := run.map Run.id
  command_id := command_id
  status := if run.isSome then .immediate else .queued
  created_at := now

/-- The statements of a new message. -/
def accept_message (s : Cockpit) (now : Int) (input : MessageInput) (run : Option Run)
    (lease_version : Option Int) : Except String MessageOutcome := do
  let message_id := s.next_message_id
  let (command_id, db) ← queue_control_command s.toDb input run message_id lease_version
  let message := input.message now message_id run command_id
  let db := db.onQueuedMessages (· ++ [message])
  let db ← append_new_event_tx db
    (control_event input.corp_id input.actor_id input.agent_id
      (if run.isSome then "control.message_accepted" else "control.message_queued")
      (.control_message message_id))
    "control message event unexpectedly existed"
  return { message, run_id := run.map Run.id, runner_id := run.map Run.runner_id, replayed := false
           command_queued := command_id.isSome, state := s.onDb db }

/-- `queue_message`. -/
def queue_message (s : Cockpit) (now : Int) (input : MessageInput) :
    Except String MessageOutcome := do
  ensure (trim input.text ≠ "") "message cannot be empty"
  ensure (byteLen (trim input.text) ≤ 4000) "message cannot exceed 4,000 characters"
  assert_actor_agent_scope_tx s.toDb input.corp_id input.actor_id input.agent_id
  lock_agent_for_grant_tx s.toDb input.corp_id input.agent_id
  match s.queued_messages.find? fun m =>
      m.corp_id == input.corp_id && m.idempotency_key == some input.idempotency_key with
  | some message => replay_message s input message
  | none => do
    let active_lease := s.active_lease now input.corp_id input.agent_id
    let holds ← holds_lease active_lease input.actor_id input.lease_token
    let lease_version := (active_lease.filter fun l => l.actor_id == input.actor_id).map
      ControlLease.lease_version
    accept_message s now input (steered_run s.toDb input holds) lease_version

/-! ## Retirement -/

/-- A run of the agent. -/
def Db.run_of_agent (s : Db) (agent_id run_id : Uuid) : Bool :=
  s.runs.any fun r => r.id == run_id && r.agent_id == agent_id

/-- `queued_messages`, `action_approvals`, `verification_requests` and `runner_commands`
hold nothing that still needs the agent. -/
def Db.nothing_left (s : Db) (a : Agent) : Bool :=
  !(s.queued_messages.any fun m => m.agent_id == a.id && m.corp_id == a.corp_id
      && (m.status == .queued || m.status == .reserved))
    && !(s.action_approvals.any fun p => s.run_of_agent a.id p.run_id && p.corp_id == a.corp_id
      && p.status == .pending)
    && !(s.verification_requests.any fun q => s.run_of_agent a.id q.run_id
      && q.corp_id == a.corp_id && q.status == .pending)
    && !(s.runner_commands.any fun c => s.run_of_agent a.id c.run_id && c.corp_id == a.corp_id
      && c.status == .pending)

/-- A run of the agent was torn down uncertainly and no later report ended its session. -/
def Db.teardown_unresolved (s : Db) (a : Agent) : Bool :=
  s.events.zipIdx.any fun (e, seq) => s.run_of_agent a.id e.aggregate_id && e.corp_id == a.corp_id
    && e.type == .run_teardown_uncertain
    && !(s.events.zipIdx.any fun (done, later) => done.aggregate_id == e.aggregate_id
      && done.corp_id == a.corp_id && done.type == .run_session_terminated && decide (seq < later))

/-- The select of `retire_terminal_mission_agents`. -/
def Cockpit.retirable (s : Cockpit) (now : Int) (a : Agent) : Bool :=
  (s.missions.any fun m => a.mission_id == some m.id && m.corp_id == a.corp_id
      && (m.status == .completed || m.status == .failed || m.status == .cancelled))
    && a.retired_at.isNone && !a.pinned && a.current_run_id.isNone && a.status == .idle
    && !(s.runs.any fun r => r.agent_id == a.id && r.corp_id == a.corp_id && r.active)
    && !(s.control_leases.any fun l => l.agent_id == a.id && l.corp_id == a.corp_id
      && decide (now < l.expires_at))
    && s.nothing_left a && !s.teardown_unresolved a

/-- The event of a retired agent. -/
def retire_event (s : Db) (a : Agent) : Except String Db :=
  record_event_tx s
    { id := 0, corp_id := a.corp_id
      room_id := (a.mission_id.bind s.mission?).map Mission.room_id, type := .other "agent.retired"
      aggregate_type := .agent, aggregate_id := a.id, correlation_id := a.mission_id
      idempotency_key := .agent_retired a.id s.next_event_id }

/-- `retire_terminal_mission_agents`. Which of the candidates a call takes is left to the
database: at most a hundred, and none that another transaction has locked. -/
def retire_terminal_mission_agents (s : Cockpit) (now : Int) (taken : List Uuid) :
    Except String Cockpit :=
  let retired := s.agents.filter fun a => taken.contains a.id && s.retirable now a
  let db := s.toDb.onAgents (updateWhere (fun a => taken.contains a.id && s.retirable now a)
    fun a =>
    { a with retired_at := some now, station := none })
  s.onDb <$> retired.foldlM retire_event db

/-! ## The transition system -/

/-- The calls of the cockpit, and those of the lifecycle. -/
inductive CockpitOp where
  | lifecycle (op : Op)
  | acquire_lease (now : Int) (input : LeaseInput) (token : Uuid)
  | release_lease (now : Int) (input : LeaseInput) (token : Uuid)
  | transfer_lease (now : Int) (input : LeaseInput) (token to_actor_id new_token : Uuid)
  | queue_message (now : Int) (input : MessageInput)
  | retire_terminal_mission_agents (now : Int) (taken : List Uuid)

/-- The committed state of a call, or the error that rolled it back. -/
def Cockpit.exec (env : Env) (s : Cockpit) : CockpitOp → Except String Cockpit
  | .lifecycle op => s.onDb <$> Store.exec env s.toDb op
  | .acquire_lease now input token => LeaseOutcome.state <$> Store.acquire_lease s now input token
  | .release_lease now input token => Store.release_lease s now input token
  | .transfer_lease now input token to_actor_id new_token =>
    Store.transfer_lease s now input token to_actor_id new_token
  | .queue_message now input => MessageOutcome.state <$> Store.queue_message s now input
  | .retire_terminal_mission_agents now taken => Store.retire_terminal_mission_agents s now taken

/-- No mission has been planned, no message sent and no lease taken. -/
structure Cockpit.Initial (s : Cockpit) : Prop where
  db : Store.Initial s.toDb
  queued_messages : s.queued_messages = []
  control_leases : s.control_leases = []

/-- The transition system of the cockpit. -/
def cockpit (env : Env) : TransitionSystem Cockpit CockpitOp :=
  .ofExec Cockpit.Initial (Cockpit.exec env)

end Crony.Store
