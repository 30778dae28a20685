/-
The runners of a Corp: enrolment, credentials, connections.

An owner or admin enrols a runner with a one-time token; the first registration exchanges
it for a credential, and each later one exchanges the credential for the next. A node row
follows the connection: connected, in grace after it broke, offline once the grace is
over, and whoever finds a runner gone loses the runs it was executing
(`mark_runner_runs_lost_tx`). The three tables are read by no statement of the run
lifecycle, so the state here is the database of the lifecycle with the tables beside it.

The store sees the hex digests of tokens only, so a token is its digest here. `now()` is
the database's clock, which is part of the state; an environment lets time pass between
the transactions. Creation and rotation times, which nothing reads, are left out.
-/
import Crony.Lib.Tokens
import Crony.Store.System

set_option autoImplicit false

open Crony.Lib

namespace Crony.Store

/-! ## The tables -/

structure RunnerEnrollmentToken where
  id : Uuid
  corp_id : Uuid
  runner_id : String
  token_hash : String
  created_by : Uuid
  expires_at : Int
  used_at : Option Int := none
  deriving DecidableEq, Repr

/-- The primary key is `runner_id`; `id` and `token_hash` are unique as well. -/
structure RunnerCredential where
  id : Uuid
  runner_id : String
  corp_id : Uuid
  token_hash : String
  expires_at : Int
  revoked_at : Option Int := none
  enrolled_by : Uuid
  deriving DecidableEq, Repr

inductive RunnerNodeStatus where
  | connected | grace | offline
  deriving DecidableEq, Repr

/-- `capabilities` stands for the document of that column. -/
structure RunnerNode where
  id : String
  corp_id : Uuid
  hostname : String
  os : String
  capabilities : String
  connection_epoch : Uuid
  status : RunnerNodeStatus
  connected_at : Int
  last_seen_at : Int
  disconnected_at : Option Int := none
  grace_expires_at : Option Int := none
  deriving DecidableEq, Repr

structure Fleet extends Db where
  clock : Int := 0
  runner_enrollment_tokens : List RunnerEnrollmentToken := []
  runner_credentials : List RunnerCredential := []
  runner_nodes : List RunnerNode := []

namespace Fleet

def onDb (s : Fleet) (db : Db) : Fleet := { s with toDb := db }

def onEnrollments (s : Fleet)
    (f : List RunnerEnrollmentToken → List RunnerEnrollmentToken) : Fleet :=
  { s with runner_enrollment_tokens := f s.runner_enrollment_tokens }

def onCredentials (s : Fleet) (f : List RunnerCredential → List RunnerCredential) : Fleet :=
  { s with runner_credentials := f s.runner_credentials }

def onNodes (s : Fleet) (f : List RunnerNode → List RunnerNode) : Fleet :=
  { s with runner_nodes := f s.runner_nodes }

end Fleet

/-! ## Enrolment -/

/-- `SELECT role FROM actors WHERE id = $1 AND corp_id = $2 AND kind = 'human'` is `owner` or
`admin`. -/
def Db.manages_runners (s : Db) (corp_id actor_id : Uuid) : Prop :=
  ∃ a ∈ s.actors, a.id = actor_id ∧ a.corp_id = corp_id ∧ a.kind = .human
    ∧ a.role ∈ ["owner", "admin"]

instance (s : Db) (corp_id actor_id : Uuid) : Decidable (s.manages_runners corp_id actor_id) :=
  inferInstanceAs (Decidable (∃ a ∈ s.actors, a.id = actor_id ∧ a.corp_id = corp_id
    ∧ a.kind = .human ∧ a.role ∈ ["owner", "admin"]))

structure RunnerEnrollmentInput where
  corp_id : Uuid
  actor_id : Uuid
  runner_id : String
  token_hash : String
  expires_at : Int
  deriving DecidableEq, Repr

/-- The row `create_runner_enrollment` inserts. -/
def RunnerEnrollmentInput.row (input : RunnerEnrollmentInput) (id : Uuid) :
    RunnerEnrollmentToken where
  id := id
  corp_id := input.corp_id
  runner_id := trim input.runner_id
  token_hash := input.token_hash
  created_by := input.actor_id
  expires_at := input.expires_at

/-- `create_runner_enrollment`. -/
def create_runner_enrollment (s : Fleet) (input : RunnerEnrollmentInput) : Except String Fleet := do
  ensure (trim input.runner_id ≠ "" ∧ byteLen (trim input.runner_id) ≤ 128)
    "runner id must contain between 1 and 128 characters"
  ensure (s.manages_runners input.corp_id input.actor_id)
    "forbidden: only a Corp owner or admin can enroll a runner"
  let enrollment_id := s.new_v4 (s.runner_enrollment_tokens.map RunnerEnrollmentToken.id)
  ensure (∀ e ∈ s.runner_enrollment_tokens, e.token_hash ≠ input.token_hash)
    "duplicate key value violates unique constraint runner_enrollment_tokens_token_hash_key"
  let s := s.onEnrollments (· ++ [input.row enrollment_id])
  s.onDb <$> append_new_event_tx s.toDb
    { id := 0, corp_id := input.corp_id, actor_id := some input.actor_id
      type := .other "runner.enrollment_created", aggregate_type := .runner_enrollment
      aggregate_id := enrollment_id, idempotency_key := .runner_enrollment_created enrollment_id
      payload := .obj [("runner_id", .str (trim input.runner_id)),
        ("expires_at", .int input.expires_at)] }
    "new runner enrollment event was unexpectedly deduplicated"

/-! ## Authentication -/

/-- `nonce` is the random end of the event's key. -/
structure RunnerAuthentication where
  corp_id : Uuid
  runner_id : String
  presented_token_hash : String
  next_token_hash : String
  next_expires_at : Int
  nonce : Uuid
  deriving DecidableEq, Repr

/-- The `WHERE` clause of the credential. -/
def RunnerAuthentication.credential_matches (input : RunnerAuthentication) (now : Int)
    (c : RunnerCredential) : Bool :=
  c.runner_id == input.runner_id && c.corp_id == input.corp_id
    && c.token_hash == input.presented_token_hash && c.revoked_at.isNone
      && decide (now < c.expires_at)

/-- The `WHERE` clause of the enrolment. -/
def RunnerAuthentication.enrollment_matches (input : RunnerAuthentication) (now : Int)
    (e : RunnerEnrollmentToken) : Bool :=
  e.corp_id == input.corp_id && e.runner_id == input.runner_id
    && e.token_hash == input.presented_token_hash && e.used_at.isNone && decide (now < e.expires_at)

/-- The row an enrolment leads to. -/
def RunnerAuthentication.credential (input : RunnerAuthentication) (id enrolled_by : Uuid) :
    RunnerCredential where
  id := id
  runner_id := input.runner_id
  corp_id := input.corp_id
  token_hash := input.next_token_hash
  expires_at := input.next_expires_at
  enrolled_by := enrolled_by

/-- `INSERT … ON CONFLICT (runner_id) DO UPDATE`: the row of the runner identifier, whose ever
it is, becomes this one. -/
def upsert_credential (row : RunnerCredential) (l : List RunnerCredential) :
    List RunnerCredential :=
  if l.any fun c => c.runner_id == row.runner_id then
    updateWhere (fun c => c.runner_id == row.runner_id) (fun _ => row) l
  else l ++ [row]

/-- The event of an authentication. -/
def record_authentication (s : Fleet) (input : RunnerAuthentication) (actor_id : Uuid)
    (event_type : String) (credential_id : Uuid) (key : EventKey) : Except String Fleet :=
  s.onDb <$> append_new_event_tx s.toDb
    { id := 0, corp_id := input.corp_id, actor_id := some actor_id, type := .other event_type
      aggregate_type := .runner, aggregate_id := credential_id, idempotency_key := key
      payload := .obj [("runner_id", .str input.runner_id),
        ("credential_expires_at", .int input.next_expires_at)] }
    "runner authentication event was unexpectedly deduplicated"

/-- A current credential is exchanged for the next one. -/
def rotate_credential (s : Fleet) (input : RunnerAuthentication) (c : RunnerCredential) :
    Except String Fleet := do
  ensure (∀ d ∈ s.runner_credentials, d.id ≠ c.id → d.token_hash ≠ input.next_token_hash)
    "duplicate key value violates unique constraint runner_credentials_token_hash_key"
  record_authentication
    (s.onCredentials (updateWhere (fun d => d.id == c.id) fun d =>
      { d with token_hash := input.next_token_hash, expires_at := input.next_expires_at }))
    input c.enrolled_by "runner.credential_rotated" c.id
      (.runner_credential_rotated c.id input.nonce)

/-- An enrolment is consumed. -/
def consume_enrollment (s : Fleet) (input : RunnerAuthentication) (e : RunnerEnrollmentToken) :
    Except String Fleet := do
  let credential_id := s.new_v4 (s.runner_credentials.map RunnerCredential.id)
  ensure (∀ d ∈ s.runner_credentials, d.runner_id ≠ input.runner_id →
      d.token_hash ≠ input.next_token_hash)
    "duplicate key value violates unique constraint runner_credentials_token_hash_key"
  record_authentication
    ((s.onEnrollments (updateWhere (fun d => d.id == e.id && d.used_at.isNone) fun d =>
        { d with used_at := some s.clock })).onCredentials
      (upsert_credential (input.credential credential_id e.created_by)))
    input e.created_by "runner.enrolled" credential_id (.runner_enrolled credential_id input.nonce)

/-- `authenticate_and_rotate_runner`. -/
def authenticate_and_rotate_runner (s : Fleet) (input : RunnerAuthentication) :
    Except String Fleet :=
  match s.runner_credentials.find? (input.credential_matches s.clock) with
  | some c => rotate_credential s input c
  | none => do
    let e ← context (s.runner_enrollment_tokens.find? (input.enrollment_matches s.clock))
      "forbidden: unknown, expired, replayed, or revoked runner credential"
    consume_enrollment s input e

/-! ## Revocation -/

structure RunnerRevocation where
  corp_id : Uuid
  actor_id : Uuid
  runner_id : String
  reason : String
  deriving DecidableEq, Repr

/-- The `WHERE` clause of the revocation. -/
def RunnerRevocation.revokes (input : RunnerRevocation) (c : RunnerCredential) : Bool :=
  c.runner_id == input.runner_id && c.corp_id == input.corp_id && c.revoked_at.isNone

/-- The loss a revocation leads to. -/
def RunnerRevocation.loss (input : RunnerRevocation) : LostRunner where
  runner_id := input.runner_id
  excluded_run_ids := []
  created_before := none
  reason := "runner credential revoked: " ++ input.reason

/-- The statements after the credential was found. -/
def revoke_credential (s : Fleet) (input : RunnerRevocation) (credential_id : Uuid) :
    Except String Fleet := do
  let db ← mark_runner_runs_lost_tx s.toDb s.clock input.loss
  let s := (s.onDb db).onNodes (updateWhere
    (fun n => n.id == input.runner_id && n.corp_id == input.corp_id) fun n =>
      { n with status := .offline })
  s.onDb <$> record_event_tx s.toDb
    { id := 0, corp_id := input.corp_id, actor_id := some input.actor_id
      type := .other "runner.revoked", aggregate_type := .runner, aggregate_id := credential_id
      idempotency_key := .runner_revoked credential_id
      payload := .obj [("runner_id", .str input.runner_id), ("reason", .str input.reason)] }

/-- `revoke_runner`; the outcome tells whether there was a credential to revoke. -/
def revoke_runner (s : Fleet) (input : RunnerRevocation) : Except String (Bool × Fleet) := do
  ensure (s.manages_runners input.corp_id input.actor_id)
    "forbidden: only a Corp owner or admin can revoke a runner"
  match s.runner_credentials.find? input.revokes with
  | none => return (false, s)
  | some c =>
    let s := s.onCredentials (updateWhere input.revokes fun d =>
      { d with revoked_at := some s.clock })
    Prod.mk true <$> revoke_credential s input c.id

/-! ## Connections -/

structure RunnerConnectInput where
  id : String
  corp_id : Uuid
  hostname : String
  os : String
  capabilities : String
  connection_epoch : Uuid
  deriving DecidableEq, Repr

/-- The node of a new connection. -/
def RunnerConnectInput.node (input : RunnerConnectInput) (now : Int) : RunnerNode where
  id := input.id
  corp_id := input.corp_id
  hostname := input.hostname
  os := input.os
  capabilities := input.capabilities
  connection_epoch := input.connection_epoch
  status := .connected
  connected_at := now
  last_seen_at := now

/-- `runner_connected`: `INSERT … ON CONFLICT (id) DO UPDATE`, which writes every column. -/
def runner_connected (s : Fleet) (input : RunnerConnectInput) : Fleet :=
  s.onNodes fun l =>
    if l.any fun n => n.id == input.id then
      updateWhere (fun n => n.id == input.id) (fun _ => input.node s.clock) l
    else l ++ [input.node s.clock]

/-- The node of a connection with a status. -/
def RunnerNode.is (n : RunnerNode) (runner_id : String) (connection_epoch : Uuid)
    (status : RunnerNodeStatus) : Bool :=
  n.id == runner_id && n.connection_epoch == connection_epoch && n.status == status

/-- `runner_heartbeat`. -/
def runner_heartbeat (s : Fleet) (runner_id : String) (connection_epoch : Uuid) : Fleet :=
  s.onNodes (updateWhere (fun n => n.is runner_id connection_epoch .connected) fun n =>
    { n with last_seen_at := s.clock })

/-- `active_runner_run_rows`. -/
def active_runner_run_rows (s : Db) (runner_id : String) : List (Run × Task × Mission) :=
  ((s.runs.filter fun r => r.runner_id == runner_id && r.active).insertionSort
    fun a b => a.created_at ≤ b.created_at).filterMap fun r => s.run_task_mission r.corp_id r.id

/-- The event of one run whose runner is in grace. -/
def start_grace (runner_id : String) (connection_epoch : Uuid) (grace_expires_at : Int) (s : Db)
    (row : Run × Task × Mission) : Except String Db :=
  record_event_tx s
    { id := 0, corp_id := row.1.corp_id, room_id := some row.2.2.room_id
      type := .other "runner.grace_started", aggregate_type := .run, aggregate_id := row.1.id
      correlation_id := some row.2.2.id
      idempotency_key := .runner_grace runner_id connection_epoch row.1.id
      payload := .obj [("runner_id", .str runner_id), ("grace_expires_at", .int grace_expires_at)] }

/-- `runner_disconnected`. -/
def runner_disconnected (s : Fleet) (runner_id : String) (connection_epoch : Uuid)
    (grace_seconds : Int) : Except String Fleet := do
  let grace_expires_at := s.clock + max grace_seconds 1
  if s.runner_nodes.any fun n => n.is runner_id connection_epoch .connected then
    let s := s.onNodes (updateWhere (fun n => n.is runner_id connection_epoch .connected) fun n =>
      { n with status := .grace, disconnected_at := some s.clock
               grace_expires_at := some grace_expires_at })
    s.onDb <$> (active_runner_run_rows s.toDb runner_id).foldlM
      (start_grace runner_id connection_epoch grace_expires_at) s.toDb
  else return s

/-- The `WHERE` clause of `expire_runner_grace`. -/
def RunnerNode.grace_over (n : RunnerNode) (now : Int) (runner_id : String)
    (connection_epoch : Uuid) : Bool :=
  n.is runner_id connection_epoch .grace && n.grace_expires_at.any fun t => decide (t ≤ now)

/-- The loss of a runner whose grace is over. -/
def grace_loss (runner_id : String) : LostRunner where
  runner_id := runner_id
  excluded_run_ids := []
  created_before := none
  reason := "runner grace period expired"

/-- `expire_runner_grace`. -/
def expire_runner_grace (s : Fleet) (runner_id : String) (connection_epoch : Uuid) :
    Except String Fleet := do
  if s.runner_nodes.any fun n => n.grace_over s.clock runner_id connection_epoch then
    let s := s.onNodes (updateWhere (fun n => n.grace_over s.clock runner_id connection_epoch)
      fun n => { n with status := .offline, grace_expires_at := none })
    s.onDb <$> mark_runner_runs_lost_tx s.toDb s.clock (grace_loss runner_id)
  else return s

/-! ## Reconnection -/

structure RunClaim where
  run_id : Uuid
  assignment_token : Uuid
  deriving DecidableEq, Repr

/-- The run a claim is about: an active run of the runner, with its task and mission. -/
def claimed_run (s : Db) (runner_id : String) (claim : RunClaim) :
    Option (Run × Task × Mission) := do
  let run ← (s.run? claim.run_id).filter fun r => r.runner_id == runner_id && r.active
  s.run_task_mission run.corp_id run.id

/-- Which claims `reconcile_runner_claims` accepted, and which are stale. -/
structure Reconciled where
  accepted : List Uuid := []
  stale : List Uuid := []
  state : Db

/-- One claim. -/
def reconcile_claim (runner_id : String) (connection_epoch : Uuid) (acc : Reconciled)
    (claim : RunClaim) : Except String Reconciled :=
  match (claimed_run acc.state runner_id claim).filter
      fun row => row.1.assignment_token == claim.assignment_token with
  | none => .ok { acc with stale := acc.stale ++ [claim.run_id] }
  | some row => do
    let state ← record_event_tx acc.state
      { id := 0, corp_id := row.1.corp_id, room_id := some row.2.2.room_id
        type := .other "run.reconciled", aggregate_type := .run, aggregate_id := claim.run_id
        correlation_id := some row.2.2.id
        idempotency_key := .run_reconciled claim.run_id connection_epoch
        payload := .obj [("runner_id", .str runner_id)] }
    return { acc with accepted := acc.accepted ++ [claim.run_id], state }

/-- `reconcile_runner_claims`. -/
def reconcile_runner_claims (s : Fleet) (runner_id : String) (connection_epoch : Uuid)
    (claims : List RunClaim) : Except String (List Uuid × List Uuid × Fleet) := do
  ensure (∃ n ∈ s.runner_nodes, n.is runner_id connection_epoch .connected = true)
    "runner connection epoch is not active"
  let acc ← claims.foldlM (reconcile_claim runner_id connection_epoch) { state := s.toDb }
  return (acc.accepted, acc.stale, s.onDb acc.state)

/-- The loss of the runs a runner came back without. -/
def unclaimed_loss (runner_id : String) (accepted_claims : List Uuid) (connected_at : Int) :
    LostRunner where
  runner_id := runner_id
  excluded_run_ids := accepted_claims
  created_before := some connected_at
  reason := "runner reconnected without an active claim"

/-- `mark_unclaimed_runner_runs_lost`. -/
def mark_unclaimed_runner_runs_lost (s : Fleet) (runner_id : String) (connection_epoch : Uuid)
    (accepted_claims : List Uuid) : Except String Fleet :=
  match s.runner_nodes.find? fun n => n.is runner_id connection_epoch .connected with
  | none => .ok s
  | some node =>
    s.onDb <$> mark_runner_runs_lost_tx s.toDb s.clock
      (unclaimed_loss runner_id accepted_claims node.connected_at)

/-! ## The transition system -/

/-- The calls about runners, and those of the lifecycle. `pass` is the time between two
transactions. -/
inductive FleetOp where
  | lifecycle (op : Op)
  | pass (seconds : Nat)
  | create_runner_enrollment (input : RunnerEnrollmentInput)
  | authenticate_and_rotate_runner (input : RunnerAuthentication)
  | revoke_runner (input : RunnerRevocation)
  | runner_connected (input : RunnerConnectInput)
  | runner_heartbeat (runner_id : String) (connection_epoch : Uuid)
  | runner_disconnected (runner_id : String) (connection_epoch : Uuid) (grace_seconds : Int)
  | expire_runner_grace (runner_id : String) (connection_epoch : Uuid)
  | reconcile_runner_claims (runner_id : String) (connection_epoch : Uuid) (claims : List RunClaim)
  | mark_unclaimed_runner_runs_lost (runner_id : String) (connection_epoch : Uuid)
      (accepted_claims : List Uuid)

/-- The loss of a runner is part of a call about the runner. -/
def Op.sweeps : Op → Bool
  | .mark_runner_runs_lost .. => true
  | _ => false

/-- The committed state of a call, or the error that rolled it back. -/
def Fleet.exec (env : Env) (s : Fleet) : FleetOp → Except String Fleet
  | .lifecycle op => do
    ensure (op.sweeps = false) "runs are lost by the calls about their runner"
    s.onDb <$> Store.exec env s.toDb op
  | .pass seconds => .ok { s with clock := s.clock + seconds }
  | .create_runner_enrollment input => Store.create_runner_enrollment s input
  | .authenticate_and_rotate_runner input => Store.authenticate_and_rotate_runner s input
  | .revoke_runner input => Prod.snd <$> Store.revoke_runner s input
  | .runner_connected input => .ok (Store.runner_connected s input)
  | .runner_heartbeat runner_id connection_epoch =>
    .ok (Store.runner_heartbeat s runner_id connection_epoch)
  | .runner_disconnected runner_id connection_epoch grace_seconds =>
    Store.runner_disconnected s runner_id connection_epoch grace_seconds
  | .expire_runner_grace runner_id connection_epoch =>
    Store.expire_runner_grace s runner_id connection_epoch
  | .reconcile_runner_claims runner_id connection_epoch claims =>
    (fun outcome => outcome.2.2) <$> Store.reconcile_runner_claims s runner_id connection_epoch
      claims
  | .mark_unclaimed_runner_runs_lost runner_id connection_epoch accepted_claims =>
    Store.mark_unclaimed_runner_runs_lost s runner_id connection_epoch accepted_claims

/-- What a committed call adds to the history of the tokens. A party is a Corp and a runner
identifier. -/
def FleetOp.entries : FleetOp → List (TokenEntry (Uuid × String) String)
  | .create_runner_enrollment input => [.issued input.token_hash]
  | .authenticate_and_rotate_runner input =>
    [.presented (input.corp_id, input.runner_id) input.presented_token_hash,
      .issued input.next_token_hash]
  | .revoke_runner input => [.revoked (input.corp_id, input.runner_id)]
  | _ => []

/-- The fleet with its history, which no call reads. -/
structure Roll extends Fleet where
  log : List (TokenEntry (Uuid × String) String) := []

def Roll.exec (env : Env) (s : Roll) (op : FleetOp) : Except String Roll := do
  let t ← s.toFleet.exec env op
  return { t with log := s.log ++ op.entries }

/-- No mission has been planned and no runner enrolled. -/
structure Roll.Initial (s : Roll) : Prop where
  db : Store.Initial s.toDb
  runner_enrollment_tokens : s.runner_enrollment_tokens = []
  runner_credentials : s.runner_credentials = []
  runner_nodes : s.runner_nodes = []
  log : s.log = []

/-- The transition system of the runners. -/
def runners (env : Env) : TransitionSystem Roll FleetOp := .ofExec Roll.Initial (Roll.exec env)

end Crony.Store
