/-
The runner's outbound path: `OutboundBus`, the channel of each connection, its writer.

Every task of the runner that reports something hands its message to the one
`OutboundBus`, which either puts it into the channel of the current connection or queues
it in `pending`. A writer task per connection takes messages from that connection's
channel and puts them on its socket; the server receives what is on the socket, in order,
until the connection drops.

The bus is behind a mutex, so `send`, `send_live`, `attach` and `detach` are single steps.
The writer, the socket and the server are not: they move between any two of these. What
they do while `attach` drains the queue makes a difference only if the writer stops there,
since a send of the loop fails for no other reason: the channel's receiver is gone, and the
messages it held with it (`WriterStop`). Whatever else they do in between they might as
well do after the `attach`. `run_connection` opens the channel, puts its `Register` into it
and attaches it to the bus in one go; nobody else knows the channel before.
-/
import Crony.Lib.Transition
import Crony.Domain

set_option autoImplicit false

open Crony.Lib

namespace Crony.Runner

/-! ## Messages -/

/-- The fields of `RunnerToServer::RunEvent`. -/
structure RunEvent where
  event_id : Uuid
  runner_id : String
  corp_id : Uuid
  connection_epoch : Uuid
  run_id : Uuid
  agent_id : Uuid
  assignment_token : Uuid
  event_type : String
  payload : Json

/-- `RunnerToServer`, with what the bus reads of each kind. -/
inductive RunnerToServer where
  | run_event (event : RunEvent)
  | command_ack (connection_epoch command_id : Uuid) (applied : Bool) (detail : String)
  | workspace_setup_report (connection_epoch operation_id : Uuid)
  | workspace_sign_in_ack (connection_epoch operation_id request_id : Uuid) (applied : Bool)
  | capabilities_updated (connection_epoch : Uuid)
  | register (connection_epoch : Uuid)
  | heartbeat (connection_epoch : Uuid)

/-- `bind_connection_epoch`; registrations and heartbeats keep theirs. -/
def bind_connection_epoch (message : RunnerToServer) (epoch : Uuid) : RunnerToServer :=
  match message with
  | .run_event event => .run_event { event with connection_epoch := epoch }
  | .command_ack _ command_id applied detail => .command_ack epoch command_id applied detail
  | .workspace_setup_report _ operation_id => .workspace_setup_report epoch operation_id
  | .workspace_sign_in_ack _ operation_id request_id applied =>
    .workspace_sign_in_ack epoch operation_id request_id applied
  | .capabilities_updated _ => .capabilities_updated epoch
  | .register connection_epoch => .register connection_epoch
  | .heartbeat connection_epoch => .heartbeat connection_epoch

/-- The run event a message carries, whatever connection it is bound to. -/
def RunnerToServer.event? : RunnerToServer → Option RunEvent
  | .run_event event => some { event with connection_epoch := 0 }
  | _ => none

/-- The run events of a list of messages, in order. -/
def events (messages : List RunnerToServer) : List RunEvent :=
  messages.filterMap RunnerToServer.event?

@[simp] theorem events_nil : events [] = [] := by rfl

@[simp] theorem events_append (l m : List RunnerToServer) :
    events (l ++ m) = events l ++ events m := List.filterMap_append

theorem events_cons (message : RunnerToServer) (l : List RunnerToServer) :
    events (message :: l) = events [message] ++ events l :=
  events_append [message] l

/-- Rebinding a message leaves the event it carries alone. -/
@[simp] theorem event?_bind_connection_epoch (message : RunnerToServer) (epoch : Uuid) :
    (bind_connection_epoch message epoch).event? = message.event? := by
  cases message <;> rfl

@[simp] theorem events_bind_connection_epoch (message : RunnerToServer) (epoch : Uuid) :
    events [bind_connection_epoch message epoch] = events [message] := by
  simp only [events, List.filterMap_cons, event?_bind_connection_epoch]

/-! ## One connection -/

/-- A connection: the channel `out_tx` feeds and its writer drains, what the writer has
put on the socket, and what the server has received of it. -/
structure Connection where
  connection_epoch : Uuid
  /-- The writer task still holds `out_rx`. -/
  listening : Bool := true
  channel : List RunnerToServer := []
  /-- The socket still carries messages. -/
  up : Bool := true
  wire : List RunnerToServer := []
  received : List RunnerToServer := []

/-- `UnboundedSender::send`, which fails once the receiver is gone. -/
def Connection.send (c : Connection) (message : RunnerToServer) : Option Connection :=
  if c.listening then some { c with channel := c.channel ++ [message] } else none

/-- What the writer does with the message it took: `socket_tx.send` may fail, and a message
that cannot be serialised is skipped. -/
inductive WriteResult where
  | sent
  | failed
  | unserializable
  deriving DecidableEq, Repr

/-- What happens on a connection without the bus. -/
inductive ConnectionStep where
  | heartbeat
  | write (result : WriteResult)
  | receive
  | drop
  | abort
  deriving DecidableEq, Repr

/-- The connection after the step. A writer that stops drops `out_rx` and with it whatever
is still in the channel; a dropped socket loses what was on it. -/
def Connection.step (c : Connection) : ConnectionStep → Connection
  | .heartbeat => (c.send (.heartbeat c.connection_epoch)).getD c
  | .write result =>
    match c.listening, c.channel with
    | true, message :: rest =>
      match result with
      | .sent => { c with channel := rest, wire := c.wire ++ [message] }
      | .failed => { c with listening := false, channel := [] }
      | .unserializable => { c with channel := rest }
    | _, _ => c
  | .receive =>
    match c.up, c.wire with
    | true, message :: rest => { c with wire := rest, received := c.received ++ [message] }
    | _, _ => c
  | .drop => { c with up := false, wire := [] }
  | .abort => { c with listening := false, channel := [] }

/-- Everything that was handed to the connection and not lost, oldest first. -/
def Connection.flow (c : Connection) : List RunnerToServer := c.received ++ c.wire ++ c.channel

/-- What was handed to the connection and the server has not received. -/
def Connection.outstanding (c : Connection) : List RunnerToServer := c.wire ++ c.channel

/-- The messages a step of the connection loses. -/
def Connection.loses (c : Connection) : ConnectionStep → List RunnerToServer
  | .write .failed => if c.listening then c.channel else []
  | .write .unserializable => if c.listening then c.channel.take 1 else []
  | .drop => c.wire
  | .abort => c.channel
  | _ => []

/-- The connection after some steps. -/
def Connection.run (c : Connection) (steps : List ConnectionStep) : Connection :=
  steps.foldl Connection.step c

/-- The messages some steps of the connection lose. -/
def Connection.run_loses (c : Connection) : List ConnectionStep → List RunnerToServer
  | [] => []
  | step :: steps => c.loses step ++ (c.step step).run_loses steps

/-- The connection with messages put into its channel. -/
def Connection.hand (c : Connection) (messages : List RunnerToServer) : Connection :=
  { c with channel := c.channel ++ messages }

/-! ## The bus -/

/-- `OutboundState`; the connection is the position of its channel. -/
structure OutboundState where
  connection : Option Nat := none
  connection_epoch : Option Uuid := none
  pending : List RunnerToServer := []

/-- The bus, every connection opened so far, and what was given to `OutboundBus::send`. -/
structure Transport where
  bus : OutboundState := {}
  connections : List Connection := []
  given : List RunnerToServer := []

/-- `connection.send(message)` for the connection at a position. -/
def Transport.offer (t : Transport) (i : Nat) (message : RunnerToServer) : Option Transport := do
  let c ← t.connections[i]?
  let c ← c.send message
  return { t with connections := t.connections.set i c }

/-- `OutboundBus::send_live`. -/
def send_live (t : Transport) (message : RunnerToServer) : Transport :=
  match t.bus.connection, t.bus.connection_epoch with
  | some i, some epoch => (t.offer i (bind_connection_epoch message epoch)).getD t
  | _, _ => t

/-- The writer stops while `attach` drains the queue: after how many sends, and what has
happened on the connection by then. -/
structure WriterStop where
  accepted : Nat
  before : List ConnectionStep

/-- The steps of the connection up to the end of its writer. -/
def WriterStop.steps (stop : WriterStop) : List ConnectionStep := stop.before ++ [.abort]

/-- The transport when `attach` has made that many sends: this is where the writer may
stop. -/
def Transport.interrupted (t : Transport) (i sends : Nat) (stop : Option WriterStop) : Transport :=
  match stop with
  | some stop =>
    if stop.accepted = sends then
      { t with connections := t.connections.modify i fun c => c.run stop.steps }
    else t
  | none => t

/-- The loop of `OutboundBus::attach` over the queue, after that many sends. -/
def attach_loop (i : Nat) (connection_epoch : Uuid) (stop : Option WriterStop) :
    Nat → List RunnerToServer → Transport → Transport
  | _, [], t => { t with bus := { t.bus with pending := [] } }
  | sends, message :: rest, t =>
    let message := bind_connection_epoch message connection_epoch
    let t := t.interrupted i sends stop
    match t.offer i message with
    | some t => attach_loop i connection_epoch stop (sends + 1) rest t
    | none => { t with bus := { pending := message :: rest } }

/-- `OutboundBus::attach`. -/
def attach (t : Transport) (i : Nat) (connection_epoch : Uuid) (stop : Option WriterStop) :
    Transport :=
  attach_loop i connection_epoch stop 0 t.bus.pending
    { t with bus := { t.bus with connection := some i, connection_epoch := some connection_epoch } }

/-- `OutboundBus::detach`. -/
def detach (t : Transport) : Transport :=
  { t with bus := { t.bus with connection := none, connection_epoch := none } }

/-- The message as `send` hands it on, bound to the current epoch if there is one. -/
def OutboundState.bound (bus : OutboundState) (message : RunnerToServer) : RunnerToServer :=
  match bus.connection_epoch with
  | some epoch => bind_connection_epoch message epoch
  | none => message

@[simp] theorem OutboundState.events_bound (bus : OutboundState) (message : RunnerToServer) :
    events [bus.bound message] = events [message] := by
  unfold OutboundState.bound
  split
  · exact events_bind_connection_epoch message _
  · rfl

/-- `OutboundBus::send`. -/
def send (t : Transport) (message : RunnerToServer) : Transport :=
  let t := { t with given := t.given ++ [message] }
  let message := t.bus.bound message
  match t.bus.connection.bind fun i => t.offer i message with
  | some t => t
  | none =>
    { t with bus := { t.bus with connection := none, pending := t.bus.pending ++ [message] } }

/-! ## The system -/

/-- A message `send_live` is called with: none of them reports on a run. -/
inductive LiveMessage where
  | workspace_setup_report (operation_id : Uuid)
  | workspace_sign_in_ack (operation_id request_id : Uuid) (applied : Bool)
  | capabilities_updated
  deriving DecidableEq, Repr

/-- The message as it is built, bound to the epoch it is sent under. -/
def LiveMessage.message (epoch : Uuid) : LiveMessage → RunnerToServer
  | .workspace_setup_report operation_id => .workspace_setup_report epoch operation_id
  | .workspace_sign_in_ack operation_id request_id applied =>
    .workspace_sign_in_ack epoch operation_id request_id applied
  | .capabilities_updated => .capabilities_updated epoch

/-- The steps of the runner's outbound path. -/
inductive OutboundStep where
  | send (message : RunnerToServer)
  | send_live (epoch : Uuid) (message : LiveMessage)
  | attach (connection_epoch : Uuid) (stop : Option WriterStop)
  | detach
  | on (i : Nat) (step : ConnectionStep)

/-- The channel `run_connection` opens, with its registration in it. -/
def Connection.opened (connection_epoch : Uuid) : Connection :=
  { connection_epoch, channel := [.register connection_epoch] }

/-- `run_connection` opens a channel, registers through it and attaches it. -/
def connect (t : Transport) (connection_epoch : Uuid) (stop : Option WriterStop) : Transport :=
  attach { t with connections := t.connections ++ [Connection.opened connection_epoch] }
    t.connections.length connection_epoch stop

/-- The transport after a step. -/
def outbound_step (t : Transport) : OutboundStep → Transport
  | .send message => send t message
  | .send_live epoch message => send_live t (message.message epoch)
  | .attach connection_epoch stop => connect t connection_epoch stop
  | .detach => detach t
  | .on i step => { t with connections := t.connections.modify i fun c => c.step step }

/-- The runner's outbound path as a transition system, from the start of the process. -/
def outbound : TransitionSystem Transport OutboundStep where
  init := fun t => t = {}
  step := outbound_step

/-- The run events the server has received, over whatever connection. -/
def Transport.received (t : Transport) : List RunEvent :=
  t.connections.flatMap fun c => events c.received

/-- The new connection when `attach` has made that many sends. -/
def Transport.handed (t : Transport) (connection_epoch : Uuid) (sends : Nat) : Connection :=
  (Connection.opened connection_epoch).hand
    ((t.bus.pending.take sends).map fun message => bind_connection_epoch message connection_epoch)

/-- What `attach` loses when the writer stops before the queue is drained, and leaves behind
on the socket of a connection that the bus turns away from. -/
def Transport.stop_strands (t : Transport) (connection_epoch : Uuid) (stop : WriterStop) :
    List RunnerToServer :=
  if stop.accepted < t.bus.pending.length then
    let c := t.handed connection_epoch stop.accepted
    c.run_loses stop.steps ++ (c.run stop.steps).wire
  else []

/-- The messages a step takes from a connection, or leaves behind on one that the bus turns
away from, although the server has not received them. -/
def Transport.strands (t : Transport) : OutboundStep → List RunnerToServer
  | .attach connection_epoch stop =>
    t.connections.flatMap Connection.outstanding
      ++ match stop with
        | some stop => t.stop_strands connection_epoch stop
        | none => []
  | .on i step => match t.connections[i]? with
    | some c => c.loses step
    | none => []
  | _ => []

/-- A step that strands no run event. -/
def Spares (t : Transport) (step : OutboundStep) : Prop := events (t.strands step) = []

instance (t : Transport) (step : OutboundStep) : Decidable (Spares t step) :=
  inferInstanceAs (Decidable (events (t.strands step) = []))

end Crony.Runner
