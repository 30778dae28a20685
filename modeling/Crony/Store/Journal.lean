/-
The journal, and the queries every method starts with.

`append_event_tx` is where a redelivered runner event is recognised: the insert does
nothing when the corp already has the idempotency key. Everything the server itself
records goes through the same statement with an identifier of its own making; the
methods differ in whether an existing key is an error (`append_new_event_tx`) or is
passed over (`record_event_tx`).
-/
import Crony.Lib.Guard
import Crony.Text
import Crony.Store.Schema

set_option autoImplicit false

open Crony.Lib

namespace Crony.Store

/-! ## Appending to the journal -/

/-- The corp has an event under this idempotency key. -/
def Db.recorded (s : Db) (corp_id : Uuid) (key : EventKey) : Bool :=
  s.events.any fun e => e.corp_id == corp_id && e.idempotency_key == key

def Db.next_event_id (s : Db) : Uuid := s.new_v4 (s.events.map Event.id)

/-- `append_event_tx`: `ON CONFLICT (corp_id, idempotency_key) DO NOTHING`; a clash of
the event identifier alone is an error. -/
def append_event_tx (s : Db) (event : Event) : Except String (Option Event × Db) :=
  if s.recorded event.corp_id event.idempotency_key then .ok (none, s)
  else if s.events.any fun e => e.id == event.id then
    .error "duplicate key value violates unique constraint events_id_key"
  else .ok (some event, s.onEvents (· ++ [event]))

/-- An event of the server's own that must be new, with the error text of a key that
already exists. -/
def append_new_event_tx (s : Db) (event : Event) (existed : String) : Except String Db := do
  let (event, s) ← append_event_tx s { event with id := s.next_event_id }
  let _ ← context event existed
  return s

/-- An event of the server's own that is passed over when its key exists. -/
def record_event_tx (s : Db) (event : Event) : Except String Db := do
  let (_, s) ← append_event_tx s { event with id := s.next_event_id }
  return s

/-- `append_event_tx` either finds the key and changes nothing, or appends the event. -/
theorem append_event_tx_ok {s s' : Db} {event : Event} {r : Option Event} :
    append_event_tx s event = .ok (r, s') ↔
      (s.recorded event.corp_id event.idempotency_key = true ∧ r = none ∧ s' = s)
      ∨ (s.recorded event.corp_id event.idempotency_key = false
          ∧ (∀ e ∈ s.events, e.id ≠ event.id)
          ∧ r = some event ∧ s' = s.onEvents (· ++ [event])) := by
  unfold append_event_tx
  by_cases hk : s.recorded event.corp_id event.idempotency_key = true
  · simp only [hk, if_true, Except.ok.injEq, Prod.mk.injEq, true_and, Bool.true_eq_false,
      false_and, or_false]
    exact ⟨fun h => ⟨h.1.symm, h.2.symm⟩, fun h => ⟨h.1.symm, h.2.symm⟩⟩
  · have hk' : s.recorded event.corp_id event.idempotency_key = false := by simpa using hk
    by_cases hid : (s.events.any fun e => e.id == event.id) = true
    · obtain ⟨e, he, hei⟩ := List.any_eq_true.mp hid
      simp only [hk', hid, if_true, Bool.false_eq_true, if_false, reduceCtorEq, false_and,
        false_or, true_and, false_iff]
      rintro ⟨hall, -⟩
      exact hall e he (by simpa using hei)
    · have hall : ∀ e ∈ s.events, e.id ≠ event.id := by
        intro e he hei
        exact hid (List.any_eq_true.mpr ⟨e, he, by simpa using hei⟩)
      have hid' : (s.events.any fun e => e.id == event.id) = false := by simpa using hid
      simp only [hk', hid', Bool.false_eq_true, if_false, Except.ok.injEq, Prod.mk.injEq,
        false_and, false_or, true_and]
      exact ⟨fun h => ⟨hall, h.1.symm, h.2.symm⟩, fun h => ⟨h.2.1.symm, h.2.2.symm⟩⟩

theorem next_event_id_fresh (s : Db) : ∀ e ∈ s.events, e.id ≠ s.next_event_id := by
  intro e he h
  have hmem : e.id ∈ s.events.map Event.id := List.mem_map_of_mem he
  rw [h] at hmem
  exact s.new_v4_notMem _ hmem

/-- A server event that must be new is appended exactly when its key is new. -/
@[simp] theorem append_new_event_tx_ok {s s' : Db} {event : Event} {existed : String} :
    append_new_event_tx s event existed = .ok s' ↔
      s.recorded event.corp_id event.idempotency_key = false
      ∧ s' = s.onEvents (· ++ [{ event with id := s.next_event_id }]) := by
  unfold append_new_event_tx
  constructor
  · intro h
    obtain ⟨⟨r, t⟩, happ, hrest⟩ := bind_eq_ok.mp h
    simp only [bind_eq_ok, context_eq_ok, pure_eq_ok] at hrest
    obtain ⟨_, hr, rfl⟩ := hrest
    rcases append_event_tx_ok.mp happ with ⟨-, hnone, -⟩ | ⟨hk, -, -, ht⟩
    · simp [hnone] at hr
    · exact ⟨hk, ht⟩
  · rintro ⟨hk, rfl⟩
    have happ : append_event_tx s { event with id := s.next_event_id }
        = .ok (some { event with id := s.next_event_id },
            s.onEvents (· ++ [{ event with id := s.next_event_id }])) :=
      append_event_tx_ok.mpr (Or.inr ⟨hk, next_event_id_fresh s, rfl, rfl⟩)
    rw [happ]
    rfl

/-- A server event that may exist leaves the journal as it is or one event longer. -/
@[simp] theorem record_event_tx_ok {s s' : Db} {event : Event} :
    record_event_tx s event = .ok s' ↔
      s' = (if s.recorded event.corp_id event.idempotency_key then s
        else s.onEvents (· ++ [{ event with id := s.next_event_id }])) := by
  unfold record_event_tx
  by_cases hk : s.recorded event.corp_id event.idempotency_key = true
  · have happ : append_event_tx s { event with id := s.next_event_id } = .ok (none, s) :=
      append_event_tx_ok.mpr (Or.inl ⟨hk, rfl, rfl⟩)
    rw [happ, if_pos hk]
    simp [bind, Except.bind, pure, Except.pure, eq_comm]
  · have hk' : s.recorded event.corp_id event.idempotency_key = false := by simpa using hk
    have happ : append_event_tx s { event with id := s.next_event_id }
        = .ok (some { event with id := s.next_event_id },
            s.onEvents (· ++ [{ event with id := s.next_event_id }])) :=
      append_event_tx_ok.mpr (Or.inr ⟨hk', next_event_id_fresh s, rfl, rfl⟩)
    rw [happ, if_neg hk]
    simp [bind, Except.bind, pure, Except.pure, eq_comm]

/-! ## Joins

`JOIN tasks ON tasks.id = runs.task_id` and so on: identifiers are primary keys, so a
join finds at most one row. -/

def Db.run? (s : Db) (run_id : Uuid) : Option Run := s.runs.find? fun r => r.id == run_id

def Db.task? (s : Db) (task_id : Uuid) : Option Task := s.tasks.find? fun t => t.id == task_id

def Db.mission? (s : Db) (mission_id : Uuid) : Option Mission :=
  s.missions.find? fun m => m.id == mission_id

def Db.agent? (s : Db) (agent_id : Uuid) : Option Agent :=
  s.agents.find? fun a => a.id == agent_id

/-- `runs run JOIN tasks task ON task.id = run.task_id JOIN missions mission ON
mission.id = task.mission_id WHERE run.id = $1 AND run.corp_id = $2`. -/
def Db.run_task_mission (s : Db) (corp_id run_id : Uuid) : Option (Run × Task × Mission) := do
  let run ← (s.run? run_id).filter fun r => r.corp_id == corp_id
  let task ← s.task? run.task_id
  let mission ← s.mission? task.mission_id
  return (run, task, mission)

/-- The same join with `task.corp_id = run.corp_id` and `mission.corp_id =
task.corp_id` in its `ON` clauses. -/
def Db.run_task_mission_scoped (s : Db) (corp_id run_id : Uuid) :
    Option (Run × Task × Mission) :=
  (s.run_task_mission corp_id run_id).filter fun (run, task, mission) =>
    task.corp_id == run.corp_id && mission.corp_id == task.corp_id

/-- `SELECT id FROM runs WHERE task_id = $1 AND corp_id = $2 ORDER BY created_at DESC,
id DESC LIMIT 1`. -/
def Db.latest_run (s : Db) (task_id corp_id : Uuid) : Option Uuid :=
  (s.runs.foldl (fun best r =>
    if r.task_id == task_id && r.corp_id == corp_id then
      match best with
      | none => some r
      | some b =>
        if b.created_at < r.created_at ∨ (b.created_at = r.created_at ∧ b.id < r.id)
        then some r else best
    else best) none).map Run.id

/-! ## Authorisation queries -/

/-- `assert_mission_operator_tx`. -/
def assert_mission_operator_tx (s : Db) (corp_id actor_id : Uuid) : Except String Unit :=
  ensure (∃ a ∈ s.actors, a.id = actor_id ∧ a.corp_id = corp_id
      ∧ a.role ∈ ["owner", "admin", "manager", "member"])
    "forbidden: actor cannot dispatch missions in this Corp"

/-- `assert_room_membership_tx`. -/
def assert_room_membership_tx (s : Db) (corp_id room_id actor_id : Uuid) : Except String Unit :=
  ensure (∃ m ∈ s.room_memberships, m.room_id = room_id ∧ m.actor_id = actor_id
      ∧ ∃ r ∈ s.rooms, r.id = room_id ∧ r.corp_id = corp_id)
    "forbidden: actor is not a member of this room"

/-- The actor row a decision is checked against. -/
def Db.actor? (s : Db) (corp_id actor_id : Uuid) : Option Actor :=
  s.actors.find? fun a => a.id == actor_id && a.corp_id == corp_id

end Crony.Store
