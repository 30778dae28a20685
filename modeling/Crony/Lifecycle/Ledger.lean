/-
What the budget gate reads.

The gate sums the tokens and the cost of the runs of a mission, of an actor and of a Corp.
These sums are over columns that only usage reports write: the statuses of runs, tasks and
missions do not enter. Two states with the same ledger therefore give the same answer, and
they agree on who is a member of which room.
-/
import Crony.Store.Decisions

set_option autoImplicit false

open Crony.Lib

namespace Crony.Store

variable {s t u : Db}

/-- The columns of a run the budget sums read, and its place in the lineage. -/
def Run.spending (r : Run) :=
  (r.id, r.corp_id, r.workspace_run_id, r.task_id, r.created_at, r.input_tokens, r.output_tokens,
    r.cost_microusd)

/-- The states agree on what was spent and on who may read it. -/
structure SameLedger (s t : Db) : Prop where
  runs : t.runs.map Run.spending = s.runs.map Run.spending
  tasks : (t.tasks.map fun x => (x.id, x.mission_id)) = s.tasks.map fun x => (x.id, x.mission_id)
  missions : (t.missions.map fun m => (m.id, m.corp_id, m.requested_by))
    = s.missions.map fun m => (m.id, m.corp_id, m.requested_by)
  corp_budget_policies : t.corp_budget_policies = s.corp_budget_policies
  actors : t.actors = s.actors
  rooms : t.rooms = s.rooms
  room_memberships : t.room_memberships = s.room_memberships

theorem SameLedger.refl : SameLedger s s := ⟨rfl, rfl, rfl, rfl, rfl, rfl, rfl⟩

theorem SameLedger.trans (h : SameLedger s t) (h' : SameLedger t u) : SameLedger s u where
  runs := h'.runs.trans h.runs
  tasks := h'.tasks.trans h.tasks
  missions := h'.missions.trans h.missions
  corp_budget_policies := h'.corp_budget_policies.trans h.corp_budget_policies
  actors := h'.actors.trans h.actors
  rooms := h'.rooms.trans h.rooms
  room_memberships := h'.room_memberships.trans h.room_memberships

/-! ## The sums -/

theorem sum_tokens_congr {l m : List Run} (h : l.map Run.spending = m.map Run.spending) :
    sum_tokens l = sum_tokens m := by
  have htokens : l.mapM run_tokens = m.mapM run_tokens := by
    refine mapM_congr_columns h ?_
    intro a b hab
    simp only [Run.spending, Prod.mk.injEq] at hab
    rw [run_tokens, run_tokens, hab.2.2.2.2.2.1, hab.2.2.2.2.2.2.1]
  rw [sum_tokens, sum_tokens, htokens]

theorem sum_cost_congr {l m : List Run} (h : l.map Run.spending = m.map Run.spending) :
    sum_cost l = sum_cost m := by
  have hcost := congrArg (List.map fun columns => columns.2.2.2.2.2.2.2) h
  rw [List.map_map, List.map_map] at hcost
  exact congrArg (fun costs : List Int => bigint costs.sum) hcost

variable (h : SameLedger s t)

include h

theorem SameLedger.task_mission (id : Uuid) :
    ((t.task? id).map fun x => (x.id, x.mission_id)) = (s.task? id).map fun x =>
      (x.id, x.mission_id) := by
  refine map_find?_congr h.tasks ?_
  intro a b hab
  simp only [Prod.mk.injEq] at hab
  rw [hab.1]

theorem SameLedger.mission_requester (id : Uuid) :
    ((t.mission? id).map fun m => (m.id, m.corp_id, m.requested_by))
      = (s.mission? id).map fun m => (m.id, m.corp_id, m.requested_by) := by
  refine map_find?_congr h.missions ?_
  intro a b hab
  simp only [Prod.mk.injEq] at hab
  rw [hab.1]

/-- The mission of a task is found for both or for none, and it is the same. -/
theorem SameLedger.task_any (id mission_id : Uuid) :
    (t.task? id).any (fun x => x.mission_id == mission_id)
      = (s.task? id).any fun x => x.mission_id == mission_id := by
  have hany := congrArg (Option.any fun columns : Uuid × Uuid => columns.2 == mission_id)
    (h.task_mission id)
  rw [Option.any_map, Option.any_map] at hany
  exact hany

theorem SameLedger.requester_any (id corp_id requester : Uuid) :
    ((t.task? id).bind fun x => t.mission? x.mission_id).any
        (fun m => m.corp_id == corp_id && m.requested_by == requester)
      = ((s.task? id).bind fun x => s.mission? x.mission_id).any
        fun m => m.corp_id == corp_id && m.requested_by == requester := by
  have htask := h.task_mission id
  cases ht : t.task? id with
  | none =>
    rw [ht, Option.map_none] at htask
    rw [Option.map_eq_none_iff.mp htask.symm]
    rfl
  | some x =>
    rw [ht, Option.map_some] at htask
    obtain ⟨y, hy, hxy⟩ := Option.map_eq_some_iff.mp htask.symm
    rw [Prod.mk.injEq] at hxy
    rw [hy, Option.bind_some, Option.bind_some, hxy.2]
    have hany := congrArg
      (Option.any fun columns : Uuid × Uuid × Uuid => columns.2.1 == corp_id
        && columns.2.2 == requester)
      (h.mission_requester x.mission_id)
    rw [Option.any_map, Option.any_map] at hany
    exact hany

theorem SameLedger.mission_runs (mission_id : Uuid) :
    (t.mission_runs mission_id).map Run.spending = (s.mission_runs mission_id).map
      Run.spending := by
  refine map_filter_congr h.runs ?_
  intro a b hab
  simp only [Run.spending, Prod.mk.injEq] at hab
  rw [hab.2.2.2.1]
  exact h.task_any b.task_id mission_id

theorem SameLedger.actor_runs (now : Int) (corp_id requester : Uuid) :
    (t.actor_runs now corp_id requester).map Run.spending
      = (s.actor_runs now corp_id requester).map Run.spending := by
  refine map_filter_congr h.runs ?_
  intro a b hab
  simp only [Run.spending, Prod.mk.injEq] at hab
  rw [hab.2.2.2.1, hab.2.2.2.2.1, h.requester_any]

theorem SameLedger.corp_runs (now : Int) (corp_id : Uuid) :
    (t.corp_runs now corp_id).map Run.spending = (s.corp_runs now corp_id).map Run.spending := by
  refine map_filter_congr h.runs ?_
  intro a b hab
  simp only [Run.spending, Prod.mk.injEq] at hab
  rw [hab.2.1, hab.2.2.2.2.1]

/-- **The budget gate computes the same sums.** -/
theorem SameLedger.usage (now : Int) (run : Run) (mission : Mission) :
    usage_tx t now run mission = usage_tx s now run mission := by
  have hmission := h.mission_runs mission.id
  have hactor := h.actor_runs now run.corp_id mission.requested_by
  have hcorp := h.corp_runs now run.corp_id
  unfold usage_tx
  rw [sum_tokens_congr hmission, sum_cost_congr hmission, sum_tokens_congr hactor,
    sum_cost_congr hactor, sum_tokens_congr hcorp, sum_cost_congr hcorp]

theorem SameLedger.budget_policy (corp_id : Uuid) :
    t.budget_policy corp_id = s.budget_policy corp_id := by
  unfold Db.budget_policy
  rw [h.corp_budget_policies]

theorem SameLedger.actor (corp_id actor_id : Uuid) :
    t.actor? corp_id actor_id = s.actor? corp_id actor_id := by
  unfold Db.actor?
  rw [h.actors]

theorem SameLedger.room_membership (corp_id room_id actor_id : Uuid) :
    assert_room_membership_tx t corp_id room_id actor_id
      = assert_room_membership_tx s corp_id room_id actor_id := by
  unfold assert_room_membership_tx
  rw [h.room_memberships, h.rooms]

end Crony.Store
