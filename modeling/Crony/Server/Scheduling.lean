/-
Fair scheduling over the ready runners: `reconcile_ready_corps`.

Every tick visits at most a hundred Corps, one runner of each. Two cursors make the rotation:
`after_corp` names the Corp visited last, and `after_runner` names, for a Corp with several
ready runners, the runner visited last. Both name rather than count, because Corps and
runners come and go between ticks; a name that is gone still tells where to go on.

The connections are the map of the server, keyed by the runner, in whatever order it is
enumerated. The callback decides nothing about the rotation; what it returns is only reported.
-/
import Crony.Lib.Rotation
import Crony.Lib.Sort
import Crony.Domain
import Mathlib.Data.Prod.Lex
import Mathlib.Data.String.Basic

set_option autoImplicit false

open Crony.Lib

namespace Crony.Server

/-- What the scheduler reads of a `RunnerConnection`, with the key it is filed under. -/
structure RunnerConnection where
  runner_id : String
  corp_id : Uuid
  connection_epoch : Uuid
  dispatch_ready : Bool
  deriving DecidableEq, Repr

/-- `DashMap<String, RunnerConnection>`: one connection for each runner. -/
structure Runners where
  connections : List RunnerConnection
  keyed : Keyed RunnerConnection.runner_id connections

structure ReadyCorpSchedule where
  corp_id : Uuid
  runner_id : String
  connection_epoch : Uuid
  deriving DecidableEq, Repr

/-- The schedule entry of a connection. -/
def RunnerConnection.schedule (c : RunnerConnection) : ReadyCorpSchedule :=
  { corp_id := c.corp_id, runner_id := c.runner_id, connection_epoch := c.connection_epoch }

/-- `ReadyCorpSchedule::is_current`. -/
def ReadyCorpSchedule.is_current (scope : ReadyCorpSchedule) (runners : Runners) : Bool :=
  (runners.connections.find? fun c => c.runner_id == scope.runner_id).any fun c =>
    c.corp_id == scope.corp_id && c.connection_epoch == scope.connection_epoch && c.dispatch_ready

/-- `CorpScheduleCursor`. -/
structure CorpScheduleCursor where
  after_corp : Option Uuid := none
  after_runner : Uuid → Option String := fun _ => none

/-- The ready connections, sorted by Corp and runner. -/
def ready_scopes (runners : Runners) : List ReadyCorpSchedule :=
  sort_by_key (fun scope : ReadyCorpSchedule => toLex (scope.corp_id, scope.runner_id))
    ((runners.connections.filter RunnerConnection.dispatch_ready).map RunnerConnection.schedule)

/-- The ready connections of each Corp. -/
def ready_peers (runners : Runners) : List (List ReadyCorpSchedule) :=
  chunk_by (fun a b => a.corp_id == b.corp_id) (ready_scopes runners)

/-- The position of the peer whose turn it is, given the runner visited last. -/
def next_peer (last : Option String) (peers : List ReadyCorpSchedule) : Nat :=
  match last with
  | none => 0
  | some last => partition_point (fun scope => decide (scope.runner_id ≤ last)) peers % peers.length

/-- The peer that stands for its Corp in this tick. -/
def representative (cursor : CorpScheduleCursor) (peers : List ReadyCorpSchedule) :
    Option ReadyCorpSchedule := do
  let first ← peers.head?
  peers[next_peer (cursor.after_runner first.corp_id) peers]?

/-- The Corps of the tick in the order they are visited, each with its representative. -/
def representatives (runners : Runners) (cursor : CorpScheduleCursor) : List ReadyCorpSchedule :=
  let representatives := (ready_peers runners).filterMap (representative cursor)
  let representatives := match cursor.after_corp with
    | some after =>
      representatives.rotate (partition_point
        (fun scope : ReadyCorpSchedule => decide (scope.corp_id ≤ after)) representatives)
    | none => representatives
  representatives.take 100

/-- A tick so far: the cursor, the scopes handed to the callback and its failures. -/
structure Tick where
  cursor : CorpScheduleCursor
  handed : List ReadyCorpSchedule := []
  failures : List (Uuid × String) := []

/-- The visit of one scope. -/
def visit (runners : Runners) (multi_runner : Uuid → Bool)
    (reconcile : ReadyCorpSchedule → Except String Bool) (tick : Tick) (scope : ReadyCorpSchedule) :
    Tick :=
  let after_runner := Function.update tick.cursor.after_runner scope.corp_id (some scope.runner_id)
  if scope.is_current runners then
    { cursor := { tick.cursor with
        after_runner := if multi_runner scope.corp_id then after_runner
          else Function.update after_runner scope.corp_id none }
      handed := tick.handed ++ [scope]
      failures := match reconcile scope with
        | .ok _ => tick.failures
        | .error error => tick.failures ++ [(scope.corp_id, error)] }
  else { tick with cursor := { tick.cursor with after_runner } }

/-- `reconcile_ready_corps`. -/
def reconcile_ready_corps (runners : Runners) (cursor : CorpScheduleCursor)
    (reconcile : ReadyCorpSchedule → Except String Bool) : Tick :=
  let ready_corp := fun corp_id => (ready_scopes runners).any fun scope => scope.corp_id == corp_id
  let multi_runner := fun corp_id =>
    (ready_peers runners).any fun peers =>
      peers.head?.any (fun first => first.corp_id == corp_id) && decide (1 < peers.length)
  let visited := representatives runners cursor
  let cursor : CorpScheduleCursor :=
    { after_corp := match visited.getLast? with
        | some last => some last.corp_id
        | none => cursor.after_corp
      after_runner := fun corp_id => if ready_corp corp_id then cursor.after_runner corp_id
        else none }
  visited.foldl (visit runners multi_runner reconcile) { cursor }

/-- What the ticks hand to their callbacks, tick by tick. -/
def schedule (runners : Runners) :
    CorpScheduleCursor → List (ReadyCorpSchedule → Except String Bool) →
      List (List ReadyCorpSchedule)
  | _, [] => []
  | cursor, reconcile :: rest =>
    let tick := reconcile_ready_corps runners cursor reconcile
    tick.handed :: schedule runners tick.cursor rest

end Crony.Server
