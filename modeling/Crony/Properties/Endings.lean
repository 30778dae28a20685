/-
Reports that end a run.

`run.failed` and `run.cancelled` reach into the mission and into its Factory item, and every
check on the way can take the whole report back, which leaves the run active. An ordinary
run is ended whatever became of the item: its projection keeps an outcome it does not
recognise. The one thing left to show is that the entry it makes in the journal is new: keys
that name the end of a run are entered by the report that ends it, and a run that is over
stays over.
-/
import Crony.Properties.Delivery

set_option autoImplicit false

open Crony.Lib

namespace Crony.Store

variable {env : Env} {s t u : Db}

/-! ## The end of a run is entered once -/

/-- The journal names the end of runs that are over. -/
def EndsRecorded (s : Db) : Prop :=
  ∀ e ∈ s.events, ∀ run_id, e.idempotency_key.names_end run_id →
    ∃ r ∈ s.runs, r.id = run_id ∧ r.active = false

/-- The end of an active run has not been entered. -/
theorem EndsRecorded.unrecorded (h : EndsRecorded s) (hs : Life s) {r : Run} (hr : r ∈ s.runs)
    (hactive : r.active = true) {key : EventKey} (hkey : key.names_end r.id) (corp_id : Uuid) :
    s.recorded corp_id key = false := by
  by_contra hrec
  rw [Bool.not_eq_false, Db.recorded, List.any_eq_true] at hrec
  obtain ⟨e, he, hek⟩ := hrec
  simp only [Bool.and_eq_true, beq_iff_eq] at hek
  obtain ⟨x, hx, hid, hidle⟩ := h e he r.id (hek.2 ▸ hkey)
  rw [hs.eq_of_id hx hr hid, hactive] at hidle
  cases hidle

/-! ## The projections return -/

/-- The end of a run leaves its agent without a run. -/
theorem Stop.agent_idle (hs : Life s) {r : Run} (h : Stop s t r) {a : Agent} (ha : a ∈ t.agents)
    (hid : a.id = r.agent_id) : a.current_run_id = none := by
  cases hcur : a.current_run_id with
  | none => rfl
  | some id =>
    -- The run it would hold is active and, being another one, was so before.
    obtain ⟨x', hx', hxid, hxagent, hxactive⟩ := (h.life hs).agent_holds a ha id hcur
    obtain ⟨x, hx, hk, hself, hother⟩ := h.runs.exists_old hx'
    by_cases hxr : x.id = r.id
    · rw [(hself hxr).1] at hxactive
      cases hxactive
    · rw [Run.active_congr (hother hxr)] at hxactive
      have hsame : x = r := hs.eq_of_agent hx h.mem hxactive h.active
        (by rw [← hk.agent_id, hxagent, hid])
      rw [hsame] at hxr
      exact absurd rfl hxr

/-- A run that has started. -/
def Office.started_run : List Op :=
  [Office.create_mission (Office.plan [Office.task "a" [] Office.file_policy]),
    Office.dispatch 1 50, Office.report 50 201 .run_started (.obj [])]

/-- The failure of that run. -/
def Office.failure (run_id agent_id event_id : Uuid) : RunnerEventInput where
  event_id := event_id
  runner_id := "runner"
  corp_id := 1
  run_id := run_id
  agent_id := agent_id
  assignment_token := 7
  event_type := .run_failed
  payload := .obj [("error", .str "provider exited")]

/-- A corp with a second worker. -/
def Office.pair : Db :=
  { Office.db with
    agents := Office.db.agents ++ [{ id := 101, corp_id := 1, actor_id := 2, adapter := "codex" }] }

end Crony.Store
