/-
The order of the roster.

`ordered_candidates` sorts by a key that ends in the agent's identifier, so agents with
different identifiers are never tied and the sorted list is the same for every arrangement of
the roster. The strategies see the roster only through this list; `validate_plan` looks agents
up by their identifiers.
-/
import Crony.Properties.Planning
import Crony.Server.Strategies

set_option autoImplicit false

open Crony.Lib

namespace Crony.Server

/-! ## What the strategies see -/

/-- Agents with the same key are the same agent. -/
theorem candidate_key_injective {l : List Agent} (hids : Keyed (fun a : Agent => a.id) l) :
    ∀ a ∈ l, ∀ b ∈ l, candidate_key a = candidate_key b → a = b := by
  intro a ha b hb hkey
  have hid : a.id = b.id := by
    simp only [candidate_key, EmbeddingLike.apply_eq_iff_eq, Prod.mk.injEq] at hkey
    exact hkey.2.2.2.2.2
  exact hids.eq_of_mem ha hb hid

/-- **The candidates forget the order of the roster.** -/
theorem ordered_candidates_perm {l m : List Agent} (hperm : l.Perm m)
    (hids : Keyed (fun a : Agent => a.id) l) : ordered_candidates l = ordered_candidates m := by
  rw [ordered_candidates, ordered_candidates]
  refine sort_by_key_congr (hperm.filter _) ?_
  intro a ha b hb hkey
  exact candidate_key_injective hids a (List.mem_of_mem_filter ha) b (List.mem_of_mem_filter hb)
    hkey

theorem studio_candidates_congr {l m : List Agent}
    (h : ordered_candidates l = ordered_candidates m) :
    studio_candidates l = studio_candidates m := by
  rw [studio_candidates, studio_candidates, h]

theorem verification_plan_congr {l m : List Agent} (h : ordered_candidates l = ordered_candidates m)
    (strategy : String) (request : PlanningRequest) (instruction : String)
    (policy : VerificationPolicy) :
    verification_plan strategy request l instruction policy
      = verification_plan strategy request m instruction policy := by
  rw [verification_plan, verification_plan, h]

/-- **A strategy reads the roster through the candidates.** -/
theorem strategy_congr {l m : List Agent} (h : ordered_candidates l = ordered_candidates m)
    {strategy : PlanningRequest → List Agent → Except PlanError TaskGraphPlan}
    (hmem : strategy ∈ StrategyRegistry.strategies.map Prod.snd) (request : PlanningRequest) :
    strategy request l = strategy request m := by
  simp only [StrategyRegistry.strategies, List.map_cons, List.map_nil, List.mem_cons,
    List.not_mem_nil, or_false] at hmem
  rcases hmem with rfl | rfl | rfl | rfl | rfl | rfl | rfl
  · rw [SingleTaskStrategy.plan, SingleTaskStrategy.plan, h]
  · rw [ParallelSpecialistsStrategy.plan, ParallelSpecialistsStrategy.plan, h]
  · rw [StudioSwarmStrategy.plan, StudioSwarmStrategy.plan, studio_candidates_congr h]
  · exact verification_plan_congr h _ _ _ _
  · exact verification_plan_congr h _ _ _ _
  · exact verification_plan_congr h _ _ _ _
  · exact verification_plan_congr h _ _ _ _

theorem draft_congr {l m : List Agent} (h : ordered_candidates l = ordered_candidates m)
    (strategy_id : String) (request : PlanningRequest) :
    StrategyRegistry.draft strategy_id request l = StrategyRegistry.draft strategy_id request
      m := by
  rw [StrategyRegistry.draft, StrategyRegistry.draft]
  rcases hlook : StrategyRegistry.strategies.lookup strategy_id with _ | strategy
  · rfl
  · have hmem : (strategy_id, strategy) ∈ StrategyRegistry.strategies := by
      obtain ⟨before, after, happend, -⟩ := List.lookup_eq_some_iff.mp hlook
      rw [happend]
      simp
    have hsame : strategy request l = strategy request m :=
      strategy_congr h (List.mem_map_of_mem hmem) request
    simp only [context, ok_bind, hsame]

/-! ## What the validation sees -/

theorem roster_agent_perm {l m : List Store.Agent} (hperm : l.Perm m)
    (hids : Keyed (fun a : Store.Agent => a.id) l) (id : Uuid) :
    roster_agent l id = roster_agent m id := by
  have hrev : l.reverse.Perm m.reverse :=
    (List.reverse_perm l).trans (hperm.trans (List.reverse_perm m).symm)
  have hkeyed : Keyed (fun a : Store.Agent => a.id) l.reverse :=
    ((List.reverse_perm l).map _).nodup_iff.mpr hids
  rw [roster_agent, roster_agent]
  exact hkeyed.find?_perm hrev id

variable {agents agents' : List Store.Agent}

theorem validate_task_congr (h : roster_agent agents = roster_agent agents')
    (keys : List (String × Nat)) (task : PlannedTask) :
    validate_task agents keys task = validate_task agents' keys task := by
  rw [validate_task, validate_task, h]

/-- By induction on the tasks: each is checked against the same agent. -/
theorem validate_tasks_congr (h : roster_agent agents = roster_agent agents')
    (tasks : List PlannedTask) (index : Nat) (keys : List (String × Nat)) :
    validate_tasks agents tasks index keys = validate_tasks agents' tasks index keys := by
  induction tasks generalizing index keys with
  | nil => rfl
  | cons task rest ih =>
    rw [validate_tasks, validate_tasks, validate_task_congr h]
    simp only [ih]

theorem validate_plan_congr (h : roster_agent agents = roster_agent agents') (calls : Nat)
    (plan : TaskGraphPlan) :
    validate_plan calls plan agents = validate_plan calls plan agents' := by
  rw [validate_plan, validate_plan, validate_shape, validate_shape, validate_tasks_congr h]

/-! ## Planning -/

/-- `StrategyRegistry.plan` always returns: the depth search has enough calls. -/
theorem StrategyRegistry.plan_returns (strategy_id : String) (request : PlanningRequest)
    (agents : List Agent) : ∃ r, StrategyRegistry.plan strategy_id request agents = some r := by
  rw [StrategyRegistry.plan]
  rcases draft strategy_id request agents with e | plan
  · exact ⟨.error e, rfl⟩
  · obtain ⟨r, hr⟩ := validate_plan_terminates plan (agents.map Agent.toAgent)
    dsimp only
    rw [hr (plan.tasks.length + 1) (by omega)]
    exact ⟨_, rfl⟩

/-- **Planning does not depend on the order of the roster.** Whatever the strategy and the
request, two arrangements of agents with distinct identifiers get the same plan, or the same
error. -/
theorem plan_order_independent (strategy_id : String) (request : PlanningRequest)
    {roster roster' : List Agent} (hperm : roster.Perm roster')
    (hids : Keyed (fun agent : Agent => agent.id) roster) :
    ∃ r, StrategyRegistry.plan strategy_id request roster = some r
      ∧ StrategyRegistry.plan strategy_id request roster' = some r := by
  have hcandidates := ordered_candidates_perm hperm hids
  have hlookup : roster_agent (roster.map Agent.toAgent) = roster_agent
      (roster'.map Agent.toAgent) := by
    funext id
    refine roster_agent_perm (hperm.map _) ?_ id
    rw [Keyed, List.map_map]
    exact hids
  have hsame : StrategyRegistry.plan strategy_id request roster
      = StrategyRegistry.plan strategy_id request roster' := by
    rw [StrategyRegistry.plan, StrategyRegistry.plan, draft_congr hcandidates]
    simp only [validate_plan_congr hlookup]
  obtain ⟨r, hr⟩ := StrategyRegistry.plan_returns strategy_id request roster
  exact ⟨r, hr, hsame ▸ hr⟩

namespace Studio

def agent (id : Uuid) (name role adapter : String) : Agent :=
  { id, corp_id := 1, actor_id := 2, adapter, name, role }

/-- Two explicit roles, one generic worker, and two agents the studio cannot use. -/
def roster : List Agent :=
  [agent 11 "Ada" "manager" "fake-process", agent 12 "Bea" "quality-verification" "github-copilot",
    agent 13 "Cleo" "worker" "github-copilot", agent 14 "Dan" "visual-direction" "github-copilot",
    agent 15 "Eve" "worker" "fake-process"]

def request : PlanningRequest := { mission_title := "Build a game" }

end Studio

/-- The explicit roles are reserved first; the generic worker gets the one that is left. -/
example : (studio_workers (studio_candidates Studio.roster)).map (Option.map fun a => a.id)
    = [some 14, some 13, some 12] := by
  decide +kernel

set_option maxRecDepth 20000 in
/-- The theorem at a roster and its reverse, which both get a plan. -/
theorem plan_order_independent_reversed :
    ∃ r, StrategyRegistry.plan "single" Studio.request Studio.roster = some r
      ∧ StrategyRegistry.plan "single" Studio.request Studio.roster.reverse = some r
      ∧ ∀ e, r ≠ .error e := by
  have hids : (Studio.roster.map fun agent => agent.id).Nodup := by decide
  obtain ⟨r, hr, hr'⟩ := plan_order_independent "single" Studio.request
    (List.reverse_perm Studio.roster).symm hids
  refine ⟨r, hr, hr', fun e he => ?_⟩
  have hplanned : (StrategyRegistry.plan "single" Studio.request Studio.roster).any
      (fun r => r.toOption.isSome) = true := by
    decide +kernel
  rw [hr, he] at hplanned
  cases hplanned

end Crony.Server
