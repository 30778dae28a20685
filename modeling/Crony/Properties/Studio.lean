/-
The workers of the studio.

Three roles are filled from a list of candidates with distinct identities: first every role gets
the first candidate that bears it, then the roles that are left get the first candidates that
are still free. The loop keeps the identities of the workers distinct, and it fails only when
every candidate has been taken.
-/
import Mathlib.Data.Finset.Card
import Crony.Properties.Strategies

set_option autoImplicit false

open Crony.Lib

namespace Crony.Server

/-! ## The candidates -/

/-- An agent the studio can use. -/
def studio_eligible (agent : Agent) : Bool :=
  decide (agent.status ≠ .offline) && agent.retired_at.isNone
    && decide (agent.role ≠ "manager") && decide (agent.adapter = "github-copilot")

/-- By induction on the list: the kept agents have distinct identities, new ones, and every
identity that is not kept was there before. -/
theorem distinct_identities_spec (agents : List Agent) (identities : List Uuid) :
    ((distinct_identities agents identities).map fun agent => agent.id).Nodup
      ∧ (∀ agent ∈ distinct_identities agents identities, agent ∈ agents ∧ agent.id ∉ identities)
      ∧ ∀ agent ∈ agents, agent.id ∈ identities
        ∨ ∃ kept ∈ distinct_identities agents identities, kept.id = agent.id := by
  induction agents generalizing identities with
  | nil => exact ⟨List.nodup_nil, by simp [distinct_identities], by simp⟩
  | cons first rest ih =>
    by_cases hold : first.id ∈ identities
    · obtain ⟨hnodup, hkept, hall⟩ := ih identities
      rw [distinct_identities, if_pos hold]
      refine ⟨hnodup, ?_, ?_⟩
      · intro agent hagent
        obtain ⟨hmem, hnew⟩ := hkept agent hagent
        exact ⟨List.mem_cons_of_mem first hmem, hnew⟩
      · intro agent hagent
        rcases List.mem_cons.mp hagent with rfl | hagent
        · exact Or.inl hold
        · exact hall agent hagent
    · obtain ⟨hnodup, hkept, hall⟩ := ih (first.id :: identities)
      rw [distinct_identities, if_neg hold]
      refine ⟨?_, ?_, ?_⟩
      · rw [List.map_cons, List.nodup_cons]
        refine ⟨?_, hnodup⟩
        intro hmem
        obtain ⟨agent, hagent, hsame⟩ := List.mem_map.mp hmem
        exact (hkept agent hagent).2 (hsame ▸ List.mem_cons_self)
      · intro agent hagent
        rcases List.mem_cons.mp hagent with rfl | hagent
        · exact ⟨List.mem_cons_self, hold⟩
        · obtain ⟨hmem, hnew⟩ := hkept agent hagent
          exact ⟨List.mem_cons_of_mem first hmem, fun h => hnew (List.mem_cons_of_mem _ h)⟩
      · intro agent hagent
        rcases List.mem_cons.mp hagent with rfl | hagent
        · exact Or.inr ⟨agent, List.mem_cons_self, rfl⟩
        · rcases hall agent hagent with h | ⟨kept, hkept, hsame⟩
          · rcases List.mem_cons.mp h with h | h
            · exact Or.inr ⟨first, List.mem_cons_self, h.symm⟩
            · exact Or.inl h
          · exact Or.inr ⟨kept, List.mem_cons_of_mem first hkept, hsame⟩

theorem mem_eligible_candidates {agents : List Agent} {agent : Agent} :
    agent ∈ ((ordered_candidates agents).filter fun agent =>
        decide (agent.role ≠ "manager" ∧ agent.adapter = "github-copilot"))
      ↔ agent ∈ agents ∧ studio_eligible agent = true := by
  rw [List.mem_filter, ordered_candidates, mem_sort_by_key, List.mem_filter, studio_eligible]
  simp only [Bool.and_eq_true, decide_eq_true_eq]
  tauto

theorem studio_candidates_nodup (agents : List Agent) :
    ((studio_candidates agents).map fun agent => agent.id).Nodup :=
  (distinct_identities_spec _ []).1

theorem mem_of_mem_studio_candidates {agents : List Agent} {agent : Agent}
    (h : agent ∈ studio_candidates agents) : agent ∈ agents ∧ studio_eligible agent = true :=
  mem_eligible_candidates.mp ((distinct_identities_spec _ []).2.1 agent h).1

/-- Every agent the studio can use is among the candidates by its identity. -/
theorem exists_studio_candidate {agents : List Agent} {agent : Agent} (h : agent ∈ agents)
    (heligible : studio_eligible agent = true) :
    ∃ candidate ∈ studio_candidates agents, candidate.id = agent.id := by
  have hmem := mem_eligible_candidates.mpr ⟨h, heligible⟩
  rcases (distinct_identities_spec _ []).2.2 agent hmem with hnone | hkept
  · cases hnone
  · exact hkept

/-! ## The loop -/

/-- The workers that have been found. -/
def found (workers : List (Option Agent)) : List Agent := workers.filterMap id

@[simp] theorem found_some (worker : Agent) (rest : List (Option Agent)) :
    found (some worker :: rest) = worker :: found rest := rfl

@[simp] theorem found_none (rest : List (Option Agent)) : found (none :: rest) = found rest := rfl

variable {candidates : List Agent}

/-- **The loop keeps what is reserved and adds candidates that are free.** By induction on the
roles; what is added is not assigned yet. -/
theorem fill_roles_spec {workers : List (Option Agent)} {assigned : List Uuid}
    (hcandidates : ∀ worker ∈ found workers, worker ∈ candidates ∧ worker.id ∈ assigned)
    (hnodup : ((found workers).map fun agent => agent.id).Nodup) :
    ((found (fill_roles candidates workers assigned)).map fun agent => agent.id).Nodup
      ∧ ∀ worker ∈ found (fill_roles candidates workers assigned), worker ∈ candidates
        ∧ (worker.id ∈ (found workers).map (fun agent => agent.id) ∨ worker.id ∉ assigned) := by
  induction workers generalizing assigned with
  | nil => exact ⟨List.nodup_nil, by simp [fill_roles, found]⟩
  | cons first rest ih =>
    cases first with
    | some worker =>
      rw [found_some] at hcandidates
      rw [found_some, List.map_cons, List.nodup_cons] at hnodup
      obtain ⟨hrest_nodup, hrest⟩ := ih
        (fun w hw => hcandidates w (List.mem_cons_of_mem worker hw)) hnodup.2
      rw [fill_roles, found_some, found_some]
      refine ⟨?_, ?_⟩
      · rw [List.map_cons, List.nodup_cons]
        refine ⟨?_, hrest_nodup⟩
        intro hmem
        obtain ⟨other, hother, hsame⟩ := List.mem_map.mp hmem
        rcases (hrest other hother).2 with h | h
        · exact hnodup.1 (hsame ▸ h)
        · rw [hsame] at h
          exact h (hcandidates worker List.mem_cons_self).2
      · intro other hother
        rcases List.mem_cons.mp hother with rfl | hother
        · exact ⟨(hcandidates other List.mem_cons_self).1, Or.inl List.mem_cons_self⟩
        · obtain ⟨hmem, h⟩ := hrest other hother
          exact ⟨hmem, h.imp_left (List.mem_cons_of_mem _)⟩
    | none =>
      rw [found_none] at hcandidates hnodup
      rw [fill_roles, found_none]
      cases hfree : candidates.find? fun agent => decide (agent.id ∉ assigned) with
      | none =>
        rw [found_none]
        exact ih hcandidates hnodup
      | some worker =>
        have hworker : worker.id ∉ assigned := by simpa using List.find?_some hfree
        obtain ⟨hrest_nodup, hrest⟩ := @ih (worker.id :: assigned)
          (fun w hw => ⟨(hcandidates w hw).1, List.mem_cons_of_mem _ (hcandidates w hw).2⟩) hnodup
        rw [found_some]
        refine ⟨?_, ?_⟩
        · rw [List.map_cons, List.nodup_cons]
          refine ⟨?_, hrest_nodup⟩
          intro hmem
          obtain ⟨other, hother, hsame⟩ := List.mem_map.mp hmem
          rcases (hrest other hother).2 with h | h
          · obtain ⟨reserved, hreserved, hid⟩ := List.mem_map.mp h
            exact hworker (by rw [← hsame, ← hid]; exact (hcandidates reserved hreserved).2)
          · exact h (hsame ▸ List.mem_cons_self)
        · intro other hother
          rcases List.mem_cons.mp hother with rfl | hother
          · exact ⟨List.mem_of_find?_eq_some hfree, Or.inr hworker⟩
          · obtain ⟨hmem, h⟩ := hrest other hother
            exact ⟨hmem, h.imp_right fun h hassigned => h (List.mem_cons_of_mem _ hassigned)⟩

/-- **The loop fails only when nobody is free.** By induction on the roles. -/
theorem fill_roles_complete {workers : List (Option Agent)} {assigned : List Uuid}
    (h : none ∈ fill_roles candidates workers assigned) :
    ∀ candidate ∈ candidates, candidate.id ∈ assigned
      ∨ candidate.id ∈ (found (fill_roles candidates workers assigned)).map fun agent =>
        agent.id := by
  induction workers generalizing assigned with
  | nil => cases h
  | cons first rest ih =>
    intro candidate hcandidate
    cases first with
    | some worker =>
      rw [fill_roles] at h ⊢
      have hrest : none ∈ fill_roles candidates rest assigned := by simpa using h
      rw [found_some]
      exact (ih hrest candidate hcandidate).imp_right (List.mem_cons_of_mem _)
    | none =>
      rw [fill_roles] at h ⊢
      cases hfree : candidates.find? fun agent => decide (agent.id ∉ assigned) with
      | none =>
        have htaken := List.find?_eq_none.mp hfree candidate hcandidate
        exact Or.inl (by simpa using htaken)
      | some worker =>
        rw [hfree] at h
        have hrest : none ∈ fill_roles candidates rest (worker.id :: assigned) := by simpa using h
        rw [found_some, List.map_cons]
        rcases ih hrest candidate hcandidate with hmem | hmem
        · rcases List.mem_cons.mp hmem with hmem | hmem
          · exact Or.inr (hmem ▸ List.mem_cons_self)
          · exact Or.inl hmem
        · exact Or.inr (List.mem_cons_of_mem _ hmem)

/-- A reserved role stays with its worker. -/
theorem fill_roles_reserved {workers : List (Option Agent)} {assigned : List Uuid} {i : Nat}
    {worker : Agent} (h : workers[i]? = some (some worker)) :
    (fill_roles candidates workers assigned)[i]? = some (some worker) := by
  induction workers generalizing assigned i with
  | nil => cases h
  | cons first rest ih =>
    cases i with
    | zero =>
      injection h with h
      rw [h, fill_roles]
      rfl
    | succ i =>
      rw [List.getElem?_cons_succ] at h
      cases first with
      | some other =>
        rw [fill_roles, List.getElem?_cons_succ]
        exact ih h
      | none =>
        rw [fill_roles]
        split
        · rw [List.getElem?_cons_succ]
          exact ih h
        · rw [List.getElem?_cons_succ]
          exact ih h

theorem length_fill_roles (workers : List (Option Agent)) (assigned : List Uuid) :
    (fill_roles candidates workers assigned).length = workers.length := by
  induction workers generalizing assigned with
  | nil => rfl
  | cons first rest ih =>
    cases first with
    | some other => rw [fill_roles, List.length_cons, List.length_cons, ih]
    | none =>
      rw [fill_roles]
      split
      · rw [List.length_cons, List.length_cons, ih]
      · rw [List.length_cons, List.length_cons, ih]

/-! ## The three roles -/

/-- The workers that are reserved for the roles they bear. -/
def reserved (candidates : List Agent) : List (Option Agent) :=
  studio_roles.map fun role => candidates.find? fun agent => agent.role == role.key

theorem mem_found {workers : List (Option Agent)} {worker : Agent} :
    worker ∈ found workers ↔ some worker ∈ workers := by
  rw [found, List.mem_filterMap]
  simp

/-- Who is reserved bears the role, so nobody is reserved for two of them. -/
theorem reserved_nodup (hids : (candidates.map fun agent => agent.id).Nodup) :
    ((found (reserved candidates)).map fun agent => agent.id).Nodup := by
  have hroles : (studio_roles.map fun role => role.key).Nodup := by decide
  rw [reserved]
  generalize studio_roles = roles at hroles ⊢
  induction roles with
  | nil => exact List.nodup_nil
  | cons role rest ih =>
    rw [List.map_cons, List.nodup_cons] at hroles
    have hrest := ih hroles.2
    rw [List.map_cons]
    cases hfind : candidates.find? fun agent => agent.role == role.key with
    | none => exact hrest
    | some worker =>
      rw [found_some, List.map_cons, List.nodup_cons]
      refine ⟨?_, hrest⟩
      intro hmem
      obtain ⟨other, hother, hsame⟩ := List.mem_map.mp hmem
      rw [mem_found, List.mem_map] at hother
      obtain ⟨other_role, hrole, hother⟩ := hother
      have hworker : worker.role = role.key := by simpa using List.find?_some hfind
      have hother_role : other.role = other_role.key := by simpa using List.find?_some hother
      have hagents : other = worker := Keyed.eq_of_mem hids (List.mem_of_find?_eq_some hother)
        (List.mem_of_find?_eq_some hfind) hsame
      apply hroles.1
      rw [← hworker, ← hagents, hother_role]
      exact List.mem_map_of_mem hrole

/-- **The workers of the studio**: candidates with distinct identities, of which the bearer of a
role has it if there is one; and when a role is not filled there are fewer than three. -/
theorem studio_workers_spec (hids : (candidates.map fun agent => agent.id).Nodup) :
    ((found (studio_workers candidates)).map fun agent => agent.id).Nodup
      ∧ (∀ worker ∈ found (studio_workers candidates), worker ∈ candidates)
      ∧ (∀ (i : Nat) (role : StudioRole) (bearer : Agent), studio_roles[i]? = some role →
        bearer ∈ candidates → bearer.role = role.key →
        ∃ worker, (studio_workers candidates)[i]? = some (some worker) ∧ worker.role = role.key)
      ∧ (none ∈ studio_workers candidates → candidates.length < 3) := by
  have hreserved : ∀ worker ∈ found (reserved candidates), worker ∈ candidates
      ∧ worker.id ∈ (found (reserved candidates)).map fun agent => agent.id := by
    intro worker hworker
    refine ⟨?_, List.mem_map_of_mem hworker⟩
    rw [mem_found, reserved, List.mem_map] at hworker
    obtain ⟨role, -, hfind⟩ := hworker
    exact List.mem_of_find?_eq_some hfind
  have hfill : studio_workers candidates = fill_roles candidates (reserved candidates)
      ((found (reserved candidates)).map fun agent => agent.id) := rfl
  obtain ⟨hnodup, hmem⟩ := fill_roles_spec hreserved (reserved_nodup hids)
  rw [hfill]
  refine ⟨hnodup, fun worker hworker => (hmem worker hworker).1, ?_, ?_⟩
  · intro i role bearer hrole hbearer hkey
    have hsome : (candidates.find? fun agent => agent.role == role.key).isSome = true := by
      rw [List.find?_isSome]
      exact ⟨bearer, hbearer, by simpa using hkey⟩
    obtain ⟨worker, hworker⟩ := Option.isSome_iff_exists.mp hsome
    refine ⟨worker, fill_roles_reserved ?_, by simpa using List.find?_some hworker⟩
    rw [reserved, List.getElem?_map, hrole, Option.map_some, hworker]
  · intro hnone
    have htaken := fill_roles_complete hnone
    have hsubset : ∀ id ∈ candidates.map fun agent => agent.id,
        id ∈ (found (fill_roles candidates (reserved candidates)
          ((found (reserved candidates)).map fun agent => agent.id))).map fun agent =>
            agent.id := by
      intro id hid
      obtain ⟨candidate, hcandidate, rfl⟩ := List.mem_map.mp hid
      rcases htaken candidate hcandidate with hassigned | hfound
      · -- who is reserved is found
        obtain ⟨worker, hworker, hsame⟩ := List.mem_map.mp hassigned
        rw [mem_found, List.mem_iff_getElem?] at hworker
        obtain ⟨i, hi⟩ := hworker
        rw [← hsame]
        refine List.mem_map_of_mem (mem_found.mpr ?_)
        exact List.mem_of_getElem? (fill_roles_reserved hi)
      · exact hfound
    have hle : (candidates.map fun agent => agent.id).length
        ≤ ((found (fill_roles candidates (reserved candidates)
          ((found (reserved candidates)).map fun agent => agent.id))).map
            fun agent => agent.id).length :=
      (List.Nodup.subperm hids hsubset).length_le
    have hlt : (found (fill_roles candidates (reserved candidates)
        ((found (reserved candidates)).map fun agent => agent.id))).length
          < (fill_roles candidates (reserved candidates)
            ((found (reserved candidates)).map fun agent => agent.id)).length := by
      rw [found, List.length_filterMap_lt_length_iff_exists]
      exact ⟨none, hnone, rfl⟩
    rw [length_fill_roles] at hlt
    rw [List.length_map, List.length_map] at hle
    have hthree : (reserved candidates).length = 3 := rfl
    omega

/-! ## The plan -/

/-- The error of a studio without three workers. -/
def too_few_workers : PlanError :=
  .invalid "studio-swarm requires three distinct non-retired github-copilot workers"

theorem studio_budget_split_error {total : Int} {e : PlanError}
    (h : studio_budget_split total = .error e) : e ≠ too_few_workers := by
  rw [studio_budget_split] at h
  simp only [bind_eq_error, ensure_eq_error] at h
  rcases h with ⟨-, rfl⟩ | ⟨_, _, ⟨-, rfl⟩ | ⟨_, _, h⟩⟩
  · decide
  · decide
  · cases h

theorem studio_handoff_path_error {root role : String} {e : PlanError}
    (h : studio_handoff_path root role = .error e) : e ≠ too_few_workers := by
  rw [studio_handoff_path] at h
  simp only [bind_eq_error, ensure_eq_error] at h
  rcases h with ⟨-, rfl⟩ | ⟨_, _, ⟨-, rfl⟩ | ⟨_, _, h⟩⟩
  · decide
  · decide
  · cases h

theorem handoff_task_error {request : PlanningRequest} {root : String} {budget cost : Int}
    {role : StudioRole} {agent : Agent} {e : PlanError}
    (h : handoff_task request root budget cost role agent = .error e) : e ≠ too_few_workers := by
  rw [handoff_task, bind_eq_error] at h
  rcases h with h | ⟨_, _, h⟩
  · exact studio_handoff_path_error h
  · cases h

/-- With three workers the plan can fail for other reasons only. -/
theorem studio_plan_error {request : PlanningRequest} {visual gameplay quality : Agent}
    {e : PlanError}
    (h : studio_plan request visual gameplay quality = .error e) : e ≠ too_few_workers := by
  rw [studio_plan] at h
  simp only [bind_eq_error] at h
  rcases h with h | ⟨_, _, h | ⟨_, _, h | ⟨_, _, h⟩⟩⟩
  · exact studio_budget_split_error h
  · exact studio_budget_split_error h
  · obtain ⟨pair, -, hpair⟩ := of_mapM_eq_error h
    exact handoff_task_error hpair
  · cases h

/-- A specialist's task has the key of the role and no dependencies, and is the worker's. -/
theorem handoff_task_ok {request : PlanningRequest} {root : String} {budget cost : Int}
    {role : StudioRole} {agent : Agent} {task : PlannedTask}
    (h : handoff_task request root budget cost role agent = .ok task) :
    task.key = role.key ∧ task.depends_on = [] ∧ task.assigned_agent_id = agent.id := by
  rw [handoff_task] at h
  simp only [bind_eq_ok, pure_eq_ok] at h
  obtain ⟨path, -, rfl⟩ := h
  exact ⟨rfl, rfl, rfl⟩

/-- The roots of a plan, each with its worker. -/
def roots (plan : TaskGraphPlan) : List (String × Uuid) :=
  (plan.tasks.filter fun task => task.depends_on.isEmpty).map fun task =>
    (task.key, task.assigned_agent_id)

theorem studio_plan_roots {request : PlanningRequest} {visual gameplay quality : Agent}
    {plan : TaskGraphPlan} (h : studio_plan request visual gameplay quality = .ok plan) :
    roots plan = [("visual-direction", visual.id), ("gameplay-systems", gameplay.id),
      ("quality-verification", quality.id)] := by
  rw [studio_plan] at h
  simp only [bind_eq_ok, pure_eq_ok, studio_roles, List.zip_cons_cons, List.zip_nil_right,
    List.mapM_cons, List.mapM_nil] at h
  obtain ⟨_, _, _, _, tasks, ⟨t₁, h₁, ts₁, ⟨t₂, h₂, ts₂, ⟨t₃, h₃, ts₃, rfl, rfl⟩, rfl⟩, rfl⟩,
    rfl⟩ := h
  obtain ⟨hkey₁, hdeps₁, hagent₁⟩ := handoff_task_ok h₁
  obtain ⟨hkey₂, hdeps₂, hagent₂⟩ := handoff_task_ok h₂
  obtain ⟨hkey₃, hdeps₃, hagent₃⟩ := handoff_task_ok h₃
  simp only [roots, integration_task, List.cons_append, List.nil_append, List.filter_cons, hdeps₁,
    hdeps₂, hdeps₃, List.isEmpty_nil, List.isEmpty_cons, List.map_cons, List.map_nil, hkey₁, hkey₂,
    hkey₃, hagent₁, hagent₂, hagent₃, if_true, List.filter_nil]
  rfl

/-- Each role with the worker that has it. -/
def assignment (visual gameplay quality : Agent) : List (String × Agent) :=
  [("visual-direction", visual), ("gameplay-systems", gameplay), ("quality-verification", quality)]

/-- Where a worker bears the role of a root, the root's own worker bears it. -/
theorem assignment_roles {visual gameplay quality : Agent}
    (hids : (candidates.map fun agent => agent.id).Nodup)
    (hworkers : studio_workers candidates = [some visual, some gameplay, some quality]) :
    ∀ given ∈ assignment visual gameplay quality, ∀ root ∈ assignment visual gameplay quality,
      given.2.role = root.1 → root.2.role = root.1 := by
  obtain ⟨-, hmem, hroles, -⟩ := studio_workers_spec hids
  rw [hworkers] at hmem hroles
  intro given hgiven root hroot hrole
  have hcandidate : given.2 ∈ candidates := by
    apply hmem
    simp only [assignment, List.mem_cons, List.not_mem_nil, or_false] at hgiven
    rcases hgiven with rfl | rfl | rfl
    · simp [found]
    · simp [found]
    · simp [found]
  simp only [assignment, List.mem_cons, List.not_mem_nil, or_false] at hroot
  rcases hroot with rfl | rfl | rfl
  · obtain ⟨worker, hworker, hkey⟩ := hroles 0 _ given.2 rfl hcandidate hrole
    simp only [List.getElem?_cons_zero, Option.some.injEq] at hworker
    rw [hworker]
    exact hkey
  · obtain ⟨worker, hworker, hkey⟩ := hroles 1 _ given.2 rfl hcandidate hrole
    simp only [List.getElem?_cons_succ, List.getElem?_cons_zero, Option.some.injEq] at hworker
    rw [hworker]
    exact hkey
  · obtain ⟨worker, hworker, hkey⟩ := hroles 2 _ given.2 rfl hcandidate hrole
    simp only [List.getElem?_cons_succ, List.getElem?_cons_zero, Option.some.injEq] at hworker
    rw [hworker]
    exact hkey

/-- There are always three places. -/
theorem studio_workers_cases (candidates : List Agent) :
    (∃ visual gameplay quality, studio_workers candidates =
      [some visual, some gameplay, some quality])
      ∨ none ∈ studio_workers candidates := by
  have hlength : (studio_workers candidates).length = 3 := length_fill_roles _ _
  by_cases hnone : none ∈ studio_workers candidates
  · exact Or.inr hnone
  · obtain ⟨first, second, third, hthree⟩ := List.length_eq_three.mp hlength
    rw [hthree] at hnone ⊢
    cases first with
    | none => exact absurd (by simp) hnone
    | some visual =>
      cases second with
      | none => exact absurd (by simp) hnone
      | some gameplay =>
        cases third with
        | none => exact absurd (by simp) hnone
        | some quality => exact Or.inl ⟨visual, gameplay, quality, rfl⟩

/-- **The three workers of a studio plan.** The roots go to three distinct usable agents of the
roster, and an agent with the role of a root has another one only when that root has an agent of
its role; the error about the workers means that there are fewer than three. -/
theorem studio_plan_workers (request : PlanningRequest) (agents : List Agent) :
    (∀ plan, StudioSwarmStrategy.plan request agents = .ok plan →
      ∃ visual gameplay quality : Agent,
        roots plan = (assignment visual gameplay quality).map (fun given => (given.1, given.2.id))
          ∧ (∀ given ∈ assignment visual gameplay quality,
            given.2 ∈ agents ∧ studio_eligible given.2 = true)
          ∧ ((assignment visual gameplay quality).map fun given => given.2.id).Nodup
          ∧ ∀ given ∈ assignment visual gameplay quality,
            ∀ root ∈ assignment visual gameplay quality,
              given.2.role = root.1 → root.2.role = root.1)
      ∧ (StudioSwarmStrategy.plan request agents = .error too_few_workers →
        (((agents.filter studio_eligible).map fun agent => agent.id).toFinset).card < 3) := by
  have hids := studio_candidates_nodup agents
  obtain ⟨hnodup, hmem, -, hfew⟩ := studio_workers_spec hids
  rw [StudioSwarmStrategy.plan]
  rcases studio_workers_cases (studio_candidates agents) with ⟨visual, gameplay, quality, hthree⟩ |
    hnone
  · have hroles := assignment_roles hids hthree
    rw [hthree] at hnodup hmem ⊢
    refine ⟨?_, ?_⟩
    · intro plan h
      simp only [bind_eq_ok] at h
      obtain ⟨-, -, hplan⟩ := h
      refine ⟨visual, gameplay, quality, studio_plan_roots hplan, ?_, hnodup, hroles⟩
      intro given hgiven
      apply mem_of_mem_studio_candidates
      apply hmem
      simp only [assignment, List.mem_cons, List.not_mem_nil, or_false] at hgiven
      rcases hgiven with rfl | rfl | rfl
      · simp [found]
      · simp [found]
      · simp [found]
    · intro h
      rw [bind_eq_error] at h
      rcases h with h | ⟨_, _, h⟩
      · rw [ensure_eq_error] at h
        exact absurd h.2 (by decide)
      · exact absurd rfl (studio_plan_error h)
  · refine ⟨?_, ?_⟩
    · intro plan h
      simp only [bind_eq_ok] at h
      obtain ⟨-, -, h⟩ := h
      split at h
      · rename_i hthree
        rw [hthree] at hnone
        simp at hnone
      · cases h
    · intro _
      have hsubset : ((agents.filter studio_eligible).map fun agent => agent.id).toFinset
          ⊆ ((studio_candidates agents).map fun agent => agent.id).toFinset := by
        intro id hid
        rw [List.mem_toFinset, List.mem_map] at hid ⊢
        obtain ⟨agent, hagent, rfl⟩ := hid
        obtain ⟨hagent, heligible⟩ := List.mem_filter.mp hagent
        exact exists_studio_candidate hagent heligible
      have hcard := Finset.card_le_card hsubset
      have hlength := List.toFinset_card_le ((studio_candidates agents).map fun agent => agent.id)
      rw [List.length_map] at hlength
      have hthree := hfew hnone
      omega

namespace Studio

/-- Two agents for the visual direction and one for the quality. -/
def twins : List Agent :=
  [agent 21 "Ada" "visual-direction" "github-copilot",
    agent 22 "Bea" "visual-direction" "github-copilot",
      agent 23 "Cleo" "quality-verification" "github-copilot"]

set_option maxRecDepth 20000 in
/-- The second of two agents of one role gets another root. -/
theorem studio_second_bearer :
    ∃ plan, StudioSwarmStrategy.plan request twins = .ok plan
      ∧ ∃ ada ∈ twins, ∃ bea ∈ twins, ada.id ≠ bea.id ∧ bea.role = "visual-direction"
        ∧ ("visual-direction", ada.id) ∈ roots plan
          ∧ ("gameplay-systems", bea.id) ∈ roots plan := by
  have hplanned : ∃ plan, StudioSwarmStrategy.plan request twins = .ok plan
      ∧ roots plan = [("visual-direction", 21), ("gameplay-systems", 22),
        ("quality-verification", 23)] := by
    have hworkers : studio_workers (studio_candidates twins)
        = [some (agent 21 "Ada" "visual-direction" "github-copilot"),
          some (agent 22 "Bea" "visual-direction" "github-copilot"),
          some (agent 23 "Cleo" "quality-verification" "github-copilot")] := by decide +kernel
    cases hplan : StudioSwarmStrategy.plan request twins with
    | error e =>
      have hok : (StudioSwarmStrategy.plan request twins).toOption.isSome = true := by
        decide +kernel
      rw [hplan] at hok
      cases hok
    | ok plan =>
      refine ⟨plan, rfl, ?_⟩
      rw [StudioSwarmStrategy.plan, hworkers] at hplan
      simp only [bind_eq_ok] at hplan
      obtain ⟨-, -, hplan⟩ := hplan
      exact studio_plan_roots hplan
  obtain ⟨plan, hplan, hroots⟩ := hplanned
  refine ⟨plan, hplan, agent 21 "Ada" "visual-direction" "github-copilot", by decide,
    agent 22 "Bea" "visual-direction" "github-copilot", by decide, by decide, rfl, ?_, ?_⟩
  · rw [hroots]
    decide
  · rw [hroots]
    decide

end Studio

end Crony.Server
