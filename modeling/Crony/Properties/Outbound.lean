/-
What the runner's outbound path keeps, and where it loses events.

`docs/ARCHITECTURE.md` promises that the complete outbound queue lives outside any
individual connection, so that a reconnect discards no event. The queue does, but a message
leaves it for good when it enters the channel of a connection: nothing acknowledges it, and
the channel, the writer and the socket are gone when the connection is. What the bus does
keep it keeps in order, so a connection delivers the events of a run as they were sent,
whatever else was lost.

Two invariants carry this. `Ordered`: what a connection still carries, followed by what is
queued, is a subsequence of what was sent. `Kept`: while no step strands a run event, every
event sent is queued, carried or received.
-/
import Crony.Runner.Outbound

set_option autoImplicit false

open Crony.Lib

namespace Crony.Runner

/-! ## One connection -/

theorem Connection.send_eq_some {c c' : Connection} {message : RunnerToServer}
    (h : c.send message = some c') :
    c.listening = true ∧ c' = { c with channel := c.channel ++ [message] } := by
  unfold Connection.send at h
  split at h
  · rename_i hl
    exact ⟨hl, (Option.some.inj h).symm⟩
  · cases h

/-- A message put into the channel is the newest the connection carries. -/
theorem Connection.flow_send {c c' : Connection} {message : RunnerToServer}
    (h : c.send message = some c') : c'.flow = c.flow ++ [message] := by
  obtain ⟨-, rfl⟩ := Connection.send_eq_some h
  simp only [Connection.flow, List.append_assoc]

/-- A step of a connection never reorders or invents the events it carries. -/
theorem Connection.flow_step (c : Connection) (step : ConnectionStep) :
    (events (c.step step).flow).Sublist (events c.flow) := by
  cases step with
  | heartbeat =>
    have hbeat : events (c.step .heartbeat).flow = events c.flow := by
      simp only [Connection.step]
      cases hs : c.send (.heartbeat c.connection_epoch) with
      | none => rfl
      | some c' =>
        rw [Option.getD_some, Connection.flow_send hs, events_append]
        exact List.append_nil _
    rw [hbeat]
  | write result =>
    simp only [Connection.step]
    split
    · rename_i message rest _ hchannel
      have hflow : c.flow = c.received ++ c.wire ++ (message :: rest) := by
        rw [Connection.flow, hchannel]
      cases result with
      | sent =>
        rw [hflow]
        simp only [Connection.flow, List.append_assoc, List.cons_append, List.nil_append]
        exact List.Sublist.refl _
      -- a failed write stops the writer: the channel goes, what was written stays
      | failed =>
        simp only [Connection.flow, events_append, List.append_nil]
        exact List.sublist_append_left _ _
      -- the writer skips this one message and goes on
      | unserializable =>
        rw [hflow, events_append, events_cons]
        simp only [Connection.flow, events_append]
        exact (List.sublist_append_right _ _).append_left _
    · exact List.Sublist.refl _
  | receive =>
    simp only [Connection.step]
    split
    · rename_i message rest _ hwire
      simp only [Connection.flow, hwire, List.append_assoc, List.cons_append, List.nil_append]
      exact List.Sublist.refl _
    · exact List.Sublist.refl _
  | drop =>
    simp only [Connection.step, Connection.flow, events_append, List.append_nil]
    exact (List.sublist_append_left _ _).append_right _
  | abort =>
    simp only [Connection.step, Connection.flow, events_append, List.append_nil]
    exact List.sublist_append_left _ _

/-- What a connection carries it still carries after a step, unless the step loses it. -/
theorem Connection.mem_flow_step {c : Connection} {step : ConnectionStep} {e : RunEvent}
    (he : e ∈ events c.flow) (hloses : events (c.loses step) = []) :
    e ∈ events (c.step step).flow := by
  cases step with
  | heartbeat =>
    simp only [Connection.step]
    cases hs : c.send (.heartbeat c.connection_epoch) with
    | none => exact he
    | some c' =>
      rw [Option.getD_some, Connection.flow_send hs, events_append]
      exact List.mem_append_left _ he
  | write result =>
    simp only [Connection.step]
    split
    · rename_i message rest hl hchannel
      rw [Connection.flow, hchannel] at he
      cases result with
      | sent =>
        simp only [Connection.flow, List.append_assoc, List.cons_append, List.nil_append] at he ⊢
        exact he
      | failed =>
        have hlost : events (message :: rest) = [] := by
          simpa only [Connection.loses, hl, if_true, hchannel] using hloses
        rw [events_append, hlost] at he
        simpa only [Connection.flow, events_append, events_nil] using he
      | unserializable =>
        have hlost : events [message] = [] := by
          simpa only [Connection.loses, hl, if_true, hchannel, List.take_succ_cons, List.take_zero]
            using hloses
        rw [events_append, events_cons, hlost, List.nil_append] at he
        simpa only [Connection.flow, events_append] using he
    · exact he
  | receive =>
    simp only [Connection.step]
    split
    · rename_i message rest _ hwire
      simp only [Connection.flow, hwire, List.append_assoc, List.cons_append,
        List.nil_append] at he ⊢
      exact he
    · exact he
  | drop =>
    have hlost : events c.wire = [] := hloses
    simpa only [Connection.step, Connection.flow, events_append, hlost, events_nil] using he
  | abort =>
    have hlost : events c.channel = [] := hloses
    simpa only [Connection.step, Connection.flow, events_append, hlost, events_nil] using he

theorem Connection.flow_run (c : Connection) (steps : List ConnectionStep) :
    (events (c.run steps).flow).Sublist (events c.flow) := by
  induction steps generalizing c with
  | nil => exact List.Sublist.refl _
  | cons step steps ih => exact (ih (c.step step)).trans (Connection.flow_step c step)

theorem Connection.mem_flow_run {c : Connection} {steps : List ConnectionStep} {e : RunEvent}
    (he : e ∈ events c.flow) (hloses : events (c.run_loses steps) = []) :
    e ∈ events (c.run steps).flow := by
  induction steps generalizing c with
  | nil => exact he
  | cons step steps ih =>
    rw [run_loses, events_append, List.append_eq_nil_iff] at hloses
    exact ih (Connection.mem_flow_step he hloses.1) hloses.2

/-- When its writer has stopped the connection takes nothing more, and its channel is gone. -/
theorem Connection.run_stop (c : Connection) (stop : WriterStop) :
    (c.run stop.steps).listening = false ∧ (c.run stop.steps).channel = [] := by
  rw [WriterStop.steps, Connection.run, List.foldl_append]
  exact ⟨rfl, rfl⟩

@[simp] theorem Connection.hand_nil (c : Connection) : c.hand [] = c := by
  rw [Connection.hand, List.append_nil]

@[simp] theorem Connection.hand_hand (c : Connection) (l m : List RunnerToServer) :
    (c.hand l).hand m = c.hand (l ++ m) := by
  rw [Connection.hand, Connection.hand, Connection.hand, List.append_assoc]

theorem Connection.flow_hand (c : Connection) (messages : List RunnerToServer) :
    (c.hand messages).flow = c.flow ++ messages := by
  simp only [Connection.flow, Connection.hand, List.append_assoc]

theorem Connection.send_of_listening {c : Connection} (h : c.listening = true)
    (message : RunnerToServer) : c.send message = some (c.hand [message]) := by
  rw [Connection.send, if_pos h, Connection.hand]

theorem Connection.send_of_not_listening {c : Connection} (h : c.listening = false)
    (message : RunnerToServer) : c.send message = none := by
  rw [Connection.send, h]
  rfl

/-! ## Attaching -/

/-- Rebinding messages leaves the events they carry alone. -/
theorem events_map_bind (messages : List RunnerToServer) (epoch : Uuid) :
    events (messages.map fun message => bind_connection_epoch message epoch) = events messages := by
  induction messages with
  | nil => rfl
  | cons message rest ih =>
    rw [List.map_cons, events_cons, events_bind_connection_epoch, ih, ← events_cons]

theorem events_bind_cons (message : RunnerToServer) (rest : List RunnerToServer) (epoch : Uuid) :
    events (bind_connection_epoch message epoch :: rest) = events (message :: rest) := by
  rw [events_cons, events_bind_connection_epoch, ← events_cons]

section Attach

variable {t : Transport} {others : List Connection} {c : Connection} {sends : Nat}

theorem Transport.offer_last (hc : t.connections = others ++ [c]) (message : RunnerToServer) :
    t.offer others.length message
      = (c.send message).map fun c' => { t with connections := others ++ [c'] } := by
  rw [Transport.offer, hc, List.getElem?_concat_length]
  simp only [Option.bind_eq_bind, Option.bind_some]
  cases c.send message with
  | none => rfl
  | some c' =>
    have hset : (others ++ [c]).set others.length c' = others ++ [c'] := by
      rw [List.set_append_right others.length _ (le_refl _), Nat.sub_self]
      rfl
    rw [Option.map_some, ← hset]
    rfl

theorem Transport.interrupted_of_ne {i : Nat} {stop : Option WriterStop}
    (h : ∀ w ∈ stop, w.accepted ≠ sends) : t.interrupted i sends stop = t := by
  cases stop with
  | none => rfl
  | some w => exact if_neg (h w rfl)

/-- The loop drains the queue when the writer outlives it. -/
theorem attach_loop_drained (epoch : Uuid) (pending : List RunnerToServer)
    (stop : Option WriterStop) (sends : Nat) (hc : t.connections = others ++ [c])
    (hlistening : c.listening = true)
    (hstop : ∀ w ∈ stop, w.accepted < sends ∨ sends + pending.length ≤ w.accepted) :
    attach_loop others.length epoch stop sends pending t
      = { t with
          bus := { t.bus with pending := [] }
          connections := others
            ++ [c.hand (pending.map fun message => bind_connection_epoch message epoch)] } := by
  induction pending generalizing t c sends with
  | nil =>
    rw [List.map_nil, Connection.hand_nil, ← hc]
    cases sends <;> rfl
  | cons message rest ih =>
    -- this message is not the one the writer stops at
    have hgoes : t.interrupted others.length sends stop = t := by
      refine Transport.interrupted_of_ne fun w hw => ?_
      have := hstop w hw
      rw [List.length_cons] at this
      omega
    simp only [attach_loop]
    rw [hgoes, Transport.offer_last hc, Connection.send_of_listening hlistening, Option.map_some]
    refine (ih (c := c.hand [bind_connection_epoch message epoch]) (sends + 1) rfl hlistening
      ?_).trans ?_
    · intro w hw
      have := hstop w hw
      rw [List.length_cons] at this
      omega
    · rw [Connection.hand_hand, List.map_cons]
      rfl

/-- The loop stops at the first message the writer does not live to take. -/
theorem attach_loop_stopped (epoch : Uuid) (pending : List RunnerToServer) (stop : WriterStop)
    (hc : t.connections = others ++ [c]) (hlistening : c.listening = true)
    (hfrom : sends ≤ stop.accepted) (hupto : stop.accepted < sends + pending.length) :
    ∃ message rest, pending.drop (stop.accepted - sends) = message :: rest
      ∧ attach_loop others.length epoch (some stop) sends pending t
        = { t with
            bus := { pending := bind_connection_epoch message epoch :: rest }
            connections := others ++ [(c.hand ((pending.take (stop.accepted - sends)).map
              fun message => bind_connection_epoch message epoch)).run stop.steps] } := by
  induction pending generalizing t c sends with
  | nil =>
    rw [List.length_nil] at hupto
    omega
  | cons message rest ih =>
    -- the writer stops at this message or at a later one
    by_cases hhere : stop.accepted = sends
    · refine ⟨message, rest, by rw [hhere, Nat.sub_self, List.drop_zero], ?_⟩
      have hstopped : t.interrupted others.length sends (some stop)
          = { t with connections := others ++ [c.run stop.steps] } := by
        have hmodify : (others ++ [c]).modify others.length (fun c => c.run stop.steps)
            = others ++ [c.run stop.steps] := by
          rw [List.modify_eq_set_getElem?, List.getElem?_concat_length, Option.map_eq_map,
            Option.map_some, Option.getD_some, List.set_append_right others.length _ (le_refl _),
            Nat.sub_self]
          rfl
        rw [Transport.interrupted]
        simp only [if_pos hhere]
        rw [hc, hmodify]
      -- the send fails, and the loop puts the message back in front of the rest
      simp only [attach_loop]
      rw [hstopped, Transport.offer_last rfl,
        Connection.send_of_not_listening (Connection.run_stop c stop).1, Option.map_none, hhere,
        Nat.sub_self, List.take_zero, List.map_nil, Connection.hand_nil]
    · have hgoes : t.interrupted others.length sends (some stop) = t := by
        refine Transport.interrupted_of_ne fun w hw => ?_
        rw [← Option.some.inj hw]
        exact hhere
      have hstep : stop.accepted - sends = stop.accepted - (sends + 1) + 1 := by omega
      rw [List.length_cons] at hupto
      obtain ⟨first, later, hdrop, hloop⟩ :=
        @ih { t with connections := others ++ [c.hand [bind_connection_epoch message epoch]] }
          (c.hand [bind_connection_epoch message epoch]) (sends + 1) rfl hlistening
          (by omega) (by omega)
      refine ⟨first, later, by rw [hstep, List.drop_succ_cons, hdrop], ?_⟩
      simp only [attach_loop]
      rw [hgoes, Transport.offer_last hc, Connection.send_of_listening hlistening, Option.map_some]
      refine hloop.trans ?_
      rw [hstep, List.take_succ_cons, List.map_cons, Connection.hand_hand]
      rfl

end Attach

/-- What a reconnect leaves: either the whole queue is in the new channel, or the writer has
stopped before, and the rest is queued again. -/
inductive Connected (t : Transport) (epoch : Uuid) : Option WriterStop → Transport → Prop
  | drained (stop : Option WriterStop) : Connected t epoch stop
      { t with
        bus := { connection := some t.connections.length, connection_epoch := some epoch }
        connections := t.connections ++ [t.handed epoch t.bus.pending.length] }
  | stopped (stop : WriterStop) (message : RunnerToServer) (rest : List RunnerToServer)
      (hupto : stop.accepted < t.bus.pending.length)
      (hrest : t.bus.pending.drop stop.accepted = message :: rest) : Connected t epoch (some stop)
      { t with
        bus := { pending := bind_connection_epoch message epoch :: rest }
        connections := t.connections ++ [(t.handed epoch stop.accepted).run stop.steps] }

theorem connect_connected (t : Transport) (epoch : Uuid) (stop : Option WriterStop) :
    Connected t epoch stop (connect t epoch stop) := by
  -- the writer takes the whole queue unless it stops within it
  by_cases hupto : ∃ w ∈ stop, w.accepted < t.bus.pending.length
  · obtain ⟨w, hw, hupto⟩ := hupto
    obtain rfl : stop = some w := hw
    obtain ⟨message, rest, hrest, hloop⟩ :=
      attach_loop_stopped (t := { t with
          bus := { t.bus with
            connection := some t.connections.length
            connection_epoch := some epoch }
          connections := t.connections ++ [Connection.opened epoch] })
        epoch t.bus.pending w rfl rfl (Nat.zero_le _) (by rw [Nat.zero_add]; exact hupto)
    rw [Nat.sub_zero] at hrest hloop
    rw [connect, attach, hloop]
    exact Connected.stopped w message rest hupto hrest
  · have hloop := attach_loop_drained (t := { t with
          bus := { t.bus with
            connection := some t.connections.length
            connection_epoch := some epoch }
          connections := t.connections ++ [Connection.opened epoch] })
        epoch t.bus.pending stop 0 rfl rfl ?_
    · rw [connect, attach, hloop]
      have hdrained : Connected t epoch stop _ := Connected.drained stop
      rw [Transport.handed, List.take_length] at hdrained
      exact hdrained
    · intro w hw
      exact Or.inr (by rw [Nat.zero_add]; exact Nat.le_of_not_lt fun h => hupto ⟨w, hw, h⟩)

/-- The new connection carries the events of the messages it was sent. -/
theorem Transport.events_handed (t : Transport) (epoch : Uuid) (sends : Nat) :
    events (t.handed epoch sends).flow = events (t.bus.pending.take sends) := by
  rw [Transport.handed, Connection.flow_hand, events_append, events_map_bind]
  rfl

/-! ## Order -/

/-- **The order invariant.** Nothing is queued while a connection is attached, and what a
connection carries, followed by what is queued, is a subsequence of what was sent. -/
structure Ordered (t : Transport) : Prop where
  attached : t.bus.connection.isSome = true → t.bus.pending = []
  pending : (events t.bus.pending).Sublist (events t.given)
  flow : ∀ c ∈ t.connections,
    (events c.flow ++ events t.bus.pending).Sublist (events t.given)

theorem Transport.offer_eq_some {t t' : Transport} {i : Nat} {message : RunnerToServer}
    (h : t.offer i message = some t') :
    ∃ c c', t.connections[i]? = some c ∧ c.send message = some c'
      ∧ t' = { t with connections := t.connections.set i c' } := by
  unfold Transport.offer at h
  obtain ⟨c, hc, h⟩ := Option.bind_eq_some_iff.mp h
  obtain ⟨c', hc', h⟩ := Option.bind_eq_some_iff.mp h
  exact ⟨c, c', hc, hc', (Option.some.inj h).symm⟩

/-- Each connection after an `offer` is one there was, or the one the message entered. -/
theorem Transport.mem_offer {t t' : Transport} {i : Nat} {message : RunnerToServer}
    (h : t.offer i message = some t') {c : Connection} (hc : c ∈ t'.connections) :
    c ∈ t.connections ∨ ∃ c₀ ∈ t.connections, c.flow = c₀.flow ++ [message] := by
  obtain ⟨c₀, c', hget, hsend, rfl⟩ := Transport.offer_eq_some h
  rcases List.mem_or_eq_of_mem_set hc with hmem | rfl
  · exact Or.inl hmem
  · exact Or.inr ⟨c₀, List.mem_of_getElem? hget, Connection.flow_send hsend⟩

theorem Ordered.connect {t : Transport} (h : Ordered t) (epoch : Uuid)
    (stop : Option WriterStop) : Ordered (connect t epoch stop) := by
  have hconnected := connect_connected t epoch stop
  generalize Runner.connect t epoch stop = t' at hconnected ⊢
  cases hconnected with
  | drained =>
    refine ⟨fun _ => rfl, List.nil_sublist _, ?_⟩
    intro c hc
    rw [events_nil, List.append_nil]
    rcases List.mem_append.mp hc with hold | hnew
    · exact (List.sublist_append_left _ _).trans (h.flow c hold)
    · rw [List.mem_singleton.mp hnew, Transport.events_handed, List.take_length]
      exact h.pending
  -- the queue is cut where the writer stopped: what is before went into the new channel, in order,
  -- and what is behind is queued
  | stopped w message rest _ hrest =>
    have hqueued : events (bind_connection_epoch message epoch :: rest)
        = events (t.bus.pending.drop w.accepted) := by rw [events_bind_cons, hrest]
    have hsplit : events (t.bus.pending.take w.accepted) ++ events (t.bus.pending.drop w.accepted)
        = events t.bus.pending := by rw [← events_append, List.take_append_drop]
    refine ⟨fun hnone => Bool.noConfusion hnone, ?_, ?_⟩
    · rw [hqueued]
      refine List.Sublist.trans ?_ h.pending
      rw [← hsplit]
      exact List.sublist_append_right _ _
    · intro c hc
      rw [hqueued]
      rcases List.mem_append.mp hc with hold | hnew
      · refine List.Sublist.trans ?_ (h.flow c hold)
        rw [← hsplit]
        exact (List.sublist_append_right _ _).append_left _
      · rw [List.mem_singleton.mp hnew]
        refine List.Sublist.trans ?_ h.pending
        rw [← hsplit, ← Transport.events_handed t epoch]
        exact (Connection.flow_run _ _).append_right _

theorem Ordered.send {t : Transport} (h : Ordered t) (message : RunnerToServer) :
    Ordered (send t message) := by
  unfold Runner.send
  dsimp only
  split
  -- a connection is attached: nothing is queued, and the message is the newest it carries
  · rename_i t' hoffer
    obtain ⟨i, hi, hoffer⟩ := Option.bind_eq_some_iff.mp hoffer
    have hempty : t.bus.pending = [] := h.attached (by rw [hi]; rfl)
    obtain ⟨c₀, c', hget, hsend, rfl⟩ := Transport.offer_eq_some hoffer
    refine ⟨fun _ => hempty, ?_, ?_⟩
    · rw [hempty]
      exact List.nil_sublist _
    · intro c hc
      rw [hempty, events_nil, List.append_nil, events_append]
      rcases Transport.mem_offer hoffer hc with hold | ⟨c₁, hold, hentered⟩
      · have hsub := h.flow c hold
        rw [hempty, events_nil, List.append_nil] at hsub
        exact hsub.trans (List.sublist_append_left _ _)
      · have hsub := h.flow c₁ hold
        rw [hempty, events_nil, List.append_nil] at hsub
        rw [hentered, events_append, OutboundState.events_bound]
        exact hsub.append_right _
  · refine ⟨fun hnone => Bool.noConfusion hnone, ?_, ?_⟩
    · rw [events_append, events_append, OutboundState.events_bound]
      exact h.pending.append_right _
    · intro c hc
      rw [events_append, events_append, OutboundState.events_bound, ← List.append_assoc]
      exact (h.flow c hc).append_right _

/-- A message that carries no event leaves what the connections carry alone. -/
theorem Ordered.send_live {t : Transport} (h : Ordered t) (epoch : Uuid) (message : LiveMessage) :
    Ordered (send_live t (message.message epoch)) := by
  unfold Runner.send_live
  split
  · rename_i i epoch' hi _
    cases hoffer : t.offer i (bind_connection_epoch (message.message epoch) epoch') with
    | none => exact h
    | some t' =>
      have hnone : events [bind_connection_epoch (message.message epoch) epoch'] = [] := by
        rw [events_bind_connection_epoch]
        cases message <;> rfl
      have hflow := fun c => Transport.mem_offer (c := c) hoffer
      obtain ⟨_, _, _, _, rfl⟩ := Transport.offer_eq_some hoffer
      rw [Option.getD_some]
      refine ⟨h.attached, h.pending, ?_⟩
      intro c hc
      rcases hflow c hc with hold | ⟨c₀, hold, hentered⟩
      · exact h.flow c hold
      · rw [hentered, events_append, hnone, List.append_nil]
        exact h.flow c₀ hold
  · exact h

/-- Each connection after a step of one of them is one there was, or that one stepped. -/
theorem mem_modify {l : List Connection} {i : Nat} {f : Connection → Connection} {c : Connection}
    (h : c ∈ l.modify i f) : c ∈ l ∨ ∃ c₀ ∈ l, c = f c₀ := by
  obtain ⟨j, hj, rfl⟩ := List.getElem_of_mem h
  rw [List.length_modify] at hj
  rw [List.getElem_modify]
  split
  · exact Or.inr ⟨l[j], List.getElem_mem hj, rfl⟩
  · exact Or.inl (List.getElem_mem hj)

theorem Ordered.step {t : Transport} (h : Ordered t) (step : OutboundStep) :
    Ordered (outbound.step t step) := by
  cases step with
  | send message => exact h.send message
  | send_live epoch message => exact h.send_live epoch message
  | attach epoch stop => exact h.connect epoch stop
  | detach => exact ⟨fun hnone => Bool.noConfusion hnone, h.pending, h.flow⟩
  | on i step =>
    refine ⟨h.attached, h.pending, ?_⟩
    intro c hc
    rcases mem_modify hc with hold | ⟨c₀, hold, rfl⟩
    · exact h.flow c hold
    · exact ((Connection.flow_step c₀ step).append_right _).trans (h.flow c₀ hold)

theorem ordered_init : Ordered {} :=
  ⟨fun _ => rfl, List.nil_sublist _, fun _ hc => absurd hc List.not_mem_nil⟩

theorem outbound_ordered {t : Transport} (h : outbound.Reachable t) : Ordered t :=
  TransitionSystem.ReachableVia.invariant h (fun _ hs => hs ▸ ordered_init)
    fun _ step hs _ => hs.step step

/-! ## What is kept -/

/-- Every event sent is queued, or some connection carries it or has delivered it. -/
def Kept (t : Transport) : Prop :=
  ∀ e ∈ events t.given, e ∈ events t.bus.pending ∨ ∃ c ∈ t.connections, e ∈ events c.flow

/-- What a connection carries it carries after an `offer` as well, and the message with it. -/
theorem Transport.offer_flow {t t' : Transport} {i : Nat} {message : RunnerToServer}
    (h : t.offer i message = some t') {e : RunEvent}
    (he : e ∈ events [message] ∨ ∃ c ∈ t.connections, e ∈ events c.flow) :
    ∃ c ∈ t'.connections, e ∈ events c.flow := by
  obtain ⟨c₀, c', hget, hsend, rfl⟩ := Transport.offer_eq_some h
  have hlt : i < t.connections.length := (List.getElem?_eq_some_iff.mp hget).1
  have hflow : events c'.flow = events c₀.flow ++ events [message] := by
    rw [Connection.flow_send hsend, events_append]
  have hnew : c' ∈ t.connections.set i c' := List.mem_set hlt _
  rcases he with he | ⟨c, hc, he⟩
  · exact ⟨c', hnew, hflow ▸ List.mem_append_right _ he⟩
  · obtain ⟨j, hj, rfl⟩ := List.getElem_of_mem hc
    -- the connection the message entered is another one now; all others are as they were
    by_cases hij : i = j
    · subst hij
      have hc₀ : t.connections[i] = c₀ := (List.getElem?_eq_some_iff.mp hget).2
      refine ⟨c', hnew, ?_⟩
      rw [hflow, ← hc₀]
      exact List.mem_append_left _ he
    · refine ⟨t.connections[j], ?_, he⟩
      have hj' : j < (t.connections.set i c').length := by rwa [List.length_set]
      have hsame : (t.connections.set i c')[j] = t.connections[j] := by
        rw [List.getElem_set, if_neg hij]
      exact hsame ▸ List.getElem_mem hj'

/-- What an attach must spare. -/
theorem spares_attach {t : Transport} {epoch : Uuid} {stop : Option WriterStop} :
    Spares t (.attach epoch stop) ↔ events (t.connections.flatMap Connection.outstanding) = []
      ∧ ∀ w ∈ stop, events (t.stop_strands epoch w) = [] := by
  unfold Spares
  simp only [Transport.strands, events_append, List.append_eq_nil_iff]
  refine and_congr_right fun _ => ?_
  cases stop with
  | none =>
    constructor
    · intro _ w hw
      cases hw
    · exact fun _ => rfl
  | some w => exact ⟨fun h _ hw => Option.some.inj hw ▸ h, fun h => h w rfl⟩

theorem Kept.connect {t : Transport} (h : Kept t) {epoch : Uuid} {stop : Option WriterStop}
    (hok : Spares t (.attach epoch stop)) : Kept (connect t epoch stop) := by
  have hconnected := connect_connected t epoch stop
  generalize Runner.connect t epoch stop = t' at hconnected ⊢
  cases hconnected with
  | drained =>
    intro e he
    refine Or.inr ?_
    rcases h e he with hpending | ⟨c, hc, hcarried⟩
    · refine ⟨_, List.mem_append_right _ (List.mem_singleton_self _), ?_⟩
      rwa [Transport.events_handed, List.take_length]
    · exact ⟨c, List.mem_append_left _ hc, hcarried⟩
  | stopped w message rest hupto hrest =>
    have hstrands := (spares_attach.mp hok).2 w rfl
    simp only [Transport.stop_strands, if_pos hupto, events_append, List.append_eq_nil_iff]
      at hstrands
    intro e he
    rcases h e he with hpending | ⟨c, hc, hcarried⟩
    · rw [← List.take_append_drop w.accepted t.bus.pending, events_append, List.mem_append]
        at hpending
      -- what the writer was handed before it stopped it has not lost, by the condition
      rcases hpending with htaken | hleft
      · refine Or.inr ⟨_, List.mem_append_right _ (List.mem_singleton_self _), ?_⟩
        rw [← Transport.events_handed t epoch] at htaken
        exact Connection.mem_flow_run htaken hstrands.1
      · refine Or.inl ?_
        rwa [events_bind_cons, ← hrest]
    · exact Or.inr ⟨c, List.mem_append_left _ hc, hcarried⟩

theorem Kept.send {t : Transport} (h : Kept t) (message : RunnerToServer) :
    Kept (send t message) := by
  unfold Runner.send
  dsimp only
  split
  · rename_i t' hoffer
    obtain ⟨i, _, hoffer⟩ := Option.bind_eq_some_iff.mp hoffer
    have hflow := fun e => Transport.offer_flow (e := e) hoffer
    obtain ⟨_, _, _, _, rfl⟩ := Transport.offer_eq_some hoffer
    intro e he
    rw [events_append, List.mem_append] at he
    rcases he with he | he
    · rcases h e he with hpending | hcarried
      · exact Or.inl hpending
      · exact Or.inr (hflow e (Or.inr hcarried))
    · exact Or.inr (hflow e (Or.inl (by rwa [OutboundState.events_bound])))
  · intro e he
    rw [events_append, List.mem_append] at he
    rw [events_append, OutboundState.events_bound, List.mem_append]
    rcases he with he | he
    · rcases h e he with hpending | hcarried
      · exact Or.inl (Or.inl hpending)
      · exact Or.inr hcarried
    · exact Or.inl (Or.inr he)

theorem Kept.send_live {t : Transport} (h : Kept t) (epoch : Uuid) (message : LiveMessage) :
    Kept (send_live t (message.message epoch)) := by
  unfold Runner.send_live
  split
  · rename_i i epoch' _ _
    cases hoffer : t.offer i (bind_connection_epoch (message.message epoch) epoch') with
    | none => exact h
    | some t' =>
      have hflow := fun e => Transport.offer_flow (e := e) hoffer
      obtain ⟨_, _, _, _, rfl⟩ := Transport.offer_eq_some hoffer
      rw [Option.getD_some]
      intro e he
      rcases h e he with hpending | hcarried
      · exact Or.inl hpending
      · exact Or.inr (hflow e (Or.inr hcarried))
  · exact h

/-- A step that strands no run event keeps every event. -/
theorem Kept.step {t : Transport} (h : Kept t) {step : OutboundStep} (hok : Spares t step) :
    Kept (outbound.step t step) := by
  cases step with
  | send message => exact h.send message
  | send_live epoch message => exact h.send_live epoch message
  | attach epoch stop => exact h.connect hok
  | detach => exact h
  | on i step =>
    intro e he
    rcases h e he with hpending | ⟨c, hc, hcarried⟩
    · exact Or.inl hpending
    · refine Or.inr ?_
      obtain ⟨j, hj, rfl⟩ := List.getElem_of_mem hc
      have hj' : j < (t.connections.modify i fun c => c.step step).length := by
        rwa [List.length_modify]
      refine ⟨(t.connections.modify i fun c => c.step step)[j], List.getElem_mem hj', ?_⟩
      rw [List.getElem_modify]
      by_cases hij : i = j
      · subst hij
        rw [if_pos rfl]
        have hloses : events (t.connections[i].loses step) = [] := by
          simpa only [Spares, Transport.strands, List.getElem?_eq_getElem hj] using hok
        exact Connection.mem_flow_step hcarried hloses
      · rw [if_neg hij]
        exact hcarried

theorem outbound_kept {t : Transport} (h : outbound.ReachableVia Spares t) : Kept t :=
  TransitionSystem.ReachableVia.invariant h
    (fun _ hs => hs ▸ fun _ he => absurd he List.not_mem_nil) fun _ _ hs hok => hs.step hok

/-! ## The property -/

/-- On each connection the server receives the events of one run in the order they were
sent. -/
def InOrder (t : Transport) : Prop :=
  ∀ c ∈ t.connections, ∀ run_id : Uuid,
    ((events c.received).filter fun e => e.run_id == run_id).Sublist
      ((events t.given).filter fun e => e.run_id == run_id)

/-- Every run event given to `send` that the server has not received is queued, or in the
channel of the newest connection. -/
def Requeued (t : Transport) : Prop :=
  ∀ e ∈ events t.given, e ∉ t.received →
    e ∈ events t.bus.pending ∨ ∃ c, t.connections.getLast? = some c ∧ e ∈ events c.channel

theorem Ordered.inOrder {t : Transport} (h : Ordered t) : InOrder t := by
  intro c hc run_id
  refine List.Sublist.filter _ (List.Sublist.trans ?_ (h.flow c hc))
  have hflow : events c.flow = events c.received ++ (events c.wire ++ events c.channel) := by
    simp only [Connection.flow, events_append, List.append_assoc]
  rw [hflow, List.append_assoc]
  exact List.sublist_append_left _ _

/-- The run events a connection carries are those it delivered and those outstanding. -/
theorem Connection.mem_flow {c : Connection} {e : RunEvent} :
    e ∈ events c.flow ↔ e ∈ events c.received ∨ e ∈ events c.outstanding := by
  simp only [Connection.flow, Connection.outstanding, events_append, List.mem_append, or_assoc]

/-- **What a reconnect restores.** When no earlier connection has run events outstanding, and
no writer that stops takes some with it, every event that is neither received nor queued is in
the new channel. -/
theorem Kept.requeued {t : Transport} (h : Kept t) {epoch : Uuid} {stop : Option WriterStop}
    (hok : Spares t (.attach epoch stop)) : Requeued (Runner.connect t epoch stop) := by
  have hkept := h.connect hok
  obtain ⟨hearlier, hstop⟩ := spares_attach.mp hok
  -- an earlier connection has nothing outstanding
  have hold : ∀ c ∈ t.connections, ∀ e, e ∉ events c.outstanding := by
    intro c hc e hout
    obtain ⟨message, hmessage, hevent⟩ := List.mem_filterMap.mp hout
    have hstranded : e ∈ events (t.connections.flatMap Connection.outstanding) :=
      List.mem_filterMap.mpr ⟨message, List.mem_flatMap.mpr ⟨c, hc, hmessage⟩, hevent⟩
    rw [hearlier] at hstranded
    exact absurd hstranded List.not_mem_nil
  have hconnected := connect_connected t epoch stop
  generalize Runner.connect t epoch stop = t' at hconnected hkept ⊢
  intro e he hunreceived
  rcases hkept e he with hpending | ⟨c, hc, hcarried⟩
  · exact Or.inl hpending
  -- not received, so it is in the channel or on the socket of a connection
  have hout : e ∈ events c.outstanding := by
    refine (Connection.mem_flow.mp hcarried).resolve_left ?_
    intro hgot
    exact hunreceived (List.mem_flatMap.mpr ⟨c, hc, hgot⟩)
  cases hconnected with
  | drained =>
    have hnew := (List.mem_append.mp hc).resolve_left fun hc => hold c hc e hout
    rw [List.mem_singleton.mp hnew] at hout
    exact Or.inr ⟨_, List.getLast?_concat, hout⟩
  -- a connection whose writer has stopped has no channel, and by the condition nothing on its
  -- socket
  | stopped w message rest hupto hrest =>
    have hnew := (List.mem_append.mp hc).resolve_left fun hc => hold c hc e hout
    have hstrands := hstop w rfl
    simp only [Transport.stop_strands, if_pos hupto, events_append, List.append_eq_nil_iff]
      at hstrands
    rw [List.mem_singleton.mp hnew, Connection.outstanding, (Connection.run_stop _ w).2,
      List.append_nil, hstrands.2] at hout
    exact absurd hout List.not_mem_nil

/-- **What the outbound path keeps.** Every connection delivers the events of a run in the
order they were sent, in every state of every run. And when no step of a run strands a run
event (no writer stops or skips, no socket drops and no connection is replaced while run
events it was handed are still unreceived), every event sent and not received is, after each
attach, queued or in the channel of the new connection. -/
theorem outbound_keeps_events (steps : List OutboundStep) :
    (∀ before, before <+: steps → InOrder (outbound.run {} before))
    ∧ (outbound.Meets Spares {} steps → ∀ before epoch stop,
        before ++ [.attach epoch stop] <+: steps →
        Requeued (outbound.run {} (before ++ [.attach epoch stop]))) := by
  constructor
  · intro before _
    exact (outbound_ordered (TransitionSystem.Reachable.run rfl before)).inOrder
  · intro hmeets before epoch stop hupto
    obtain ⟨after, rfl⟩ := hupto
    rw [List.append_assoc] at hmeets
    obtain ⟨hbefore, hrest⟩ := TransitionSystem.meets_append.mp hmeets
    -- the condition holds of the steps before the attach, and of the attach
    have hkept : Kept (outbound.run {} before) :=
      outbound_kept (TransitionSystem.ReachableVia.run rfl hbefore)
    have hrun : outbound.run {} (before ++ [.attach epoch stop])
        = connect (outbound.run {} before) epoch stop := by
      rw [TransitionSystem.run, List.foldl_append]
      rfl
    rw [hrun]
    exact hkept.requeued hrest.1

/-- A report of the run with this event id. -/
def run_report (event_id : Uuid) (event_type : String) : RunEvent :=
  { event_id, runner_id := "runner-east", corp_id := 1, connection_epoch := 100, run_id := 5
    agent_id := 6, assignment_token := 9, event_type, payload := .null }

/-- The first connection registers, and a report of the run reaches the server over it. -/
def delivered_report : List OutboundStep :=
  [.attach 100 none, .on 0 (.write .sent), .on 0 .receive,
    .send (.run_event (run_report 21 "run.started")), .on 0 (.write .sent), .on 0 .receive]

/-- A report sent while nothing is outstanding and the connection is being replaced is in
the new channel. -/
theorem outbound_keeps_events_offline :
    outbound.Meets Spares {} (delivered_report ++ [.on 0 .drop, .detach, .on 0 .abort,
        .send (.run_event (run_report 22 "run.completed")), .attach 101 none])
    ∧ Requeued (outbound.run {} (delivered_report ++ [.on 0 .drop, .detach, .on 0 .abort,
        .send (.run_event (run_report 22 "run.completed")), .attach 101 none])) := by
  have hmeets : outbound.Meets Spares {} (delivered_report ++ [.on 0 .drop, .detach, .on 0 .abort,
      .send (.run_event (run_report 22 "run.completed")), .attach 101 none]) := by decide
  exact ⟨hmeets, (outbound_keeps_events _).2 hmeets
    (delivered_report ++ [.on 0 .drop, .detach, .on 0 .abort,
      .send (.run_event (run_report 22 "run.completed"))]) 101 none (List.prefix_refl _)⟩

/-- **The final report of a run is lost in a reconnect.** It is on the socket when the
connection drops; the server has not received it, and neither the queue nor the channel of
the next connection has it. -/
theorem reconnect_loses_report :
    ¬ Requeued (outbound.run {} (delivered_report ++
      [.send (.run_event (run_report 22 "run.completed")), .on 0 (.write .sent), .on 0 .drop,
        .detach, .on 0 .abort, .attach 101 none])) := by
  intro h
  have hsent : { run_report 22 "run.completed" with connection_epoch := 0 }
      ∈ events (outbound.run {} (delivered_report ++
        [.send (.run_event (run_report 22 "run.completed")), .on 0 (.write .sent), .on 0 .drop,
          .detach, .on 0 .abort, .attach 101 none])).given :=
    List.mem_cons_of_mem _ List.mem_cons_self
  have hunreceived : { run_report 22 "run.completed" with connection_epoch := 0 }
      ∉ (outbound.run {} (delivered_report ++
        [.send (.run_event (run_report 22 "run.completed")), .on 0 (.write .sent), .on 0 .drop,
          .detach, .on 0 .abort, .attach 101 none])).received := by
    intro hreceived
    have hid := congrArg RunEvent.event_id (List.mem_singleton.mp hreceived)
    exact absurd hid (by decide)
  rcases h _ hsent hunreceived with hpending | ⟨c, hc, hchannel⟩
  · exact absurd hpending List.not_mem_nil
  · obtain rfl := (Option.some.inj hc).symm
    exact absurd hchannel List.not_mem_nil

end Crony.Runner
