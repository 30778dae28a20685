/-
What a revision writes.

A revision changes what a task demands and what a mission may spend; statuses, assignments
and runs stay as they are. So the lifecycle invariant survives it, and conversely the calls
of the lifecycle leave contracts and budgets alone. The inversion lemmas of the three calls
say what an accepted one has checked and written; everything proved about revisions starts
from them.
-/
import Crony.Lifecycle.Reach
import Crony.Store.RevisionSystem

set_option autoImplicit false

open Crony.Lib

namespace Crony.Store

variable {env : Env} {s t : Db}

/-! ## The lifecycle leaves the terms alone -/

theorem Mission.Kept.trans {a b c : Mission} (h : a.Kept b) (h' : b.Kept c) : a.Kept c where
  id := h'.id.trans h.id
  corp_id := h'.corp_id.trans h.corp_id
  room_id := h'.room_id.trans h.room_id
  requested_by := h'.requested_by.trans h.requested_by
  budget_tokens := h'.budget_tokens.trans h.budget_tokens
  budget_cost_microusd := h'.budget_cost_microusd.trans h.budget_cost_microusd
  description := h'.description.trans h.description
  specification_version := h'.specification_version.trans h.specification_version

/-- Contracts, budgets and their versions are the same. -/
structure SameTerms (s t : Db) : Prop where
  tasks : Updated Task.Kept s.tasks t.tasks
  missions : Updated Mission.Kept s.missions t.missions

theorem SameTerms.refl : SameTerms s s :=
  ⟨Updated.refl fun x _ => Task.Kept.refl x, Updated.refl fun m _ => Mission.Kept.refl m⟩

theorem SameTerms.trans {u : Db} (h : SameTerms s t) (h' : SameTerms t u) : SameTerms s u :=
  ⟨h.tasks.trans h'.tasks fun _ _ _ _ hx hx' => hx.trans hx',
    h.missions.trans h'.missions fun _ _ _ _ hm hm' => hm.trans hm'⟩

theorem Turnover.sameTerms (hs : Life s) (h : Turnover s t) : SameTerms s t := by
  cases h with
  | quiet h => exact ⟨h.ages.tasks, h.ages.missions⟩
  | work r h => exact ⟨(h.ages hs).tasks, (h.ages hs).missions⟩
  | complete r h => exact ⟨h.ages.tasks, h.ages.missions⟩
  | stop r h => exact ⟨(h.ages hs).tasks, (h.ages hs).missions⟩
  | lapse r h => exact ⟨h.tasks.mono fun _ _ _ hx => hx.1, h.missions.mono fun _ _ _ hm => hm.1⟩
  | admission r task h =>
    exact ⟨h.tasks.mono fun _ _ _ hx => hx.1, h.missions.mono fun _ _ _ hm => hm.1⟩

theorem Turnovers.sameTerms (hs : Life s) (h : Turnovers s t) : SameTerms s t := by
  induction h with
  | refl => exact SameTerms.refl
  | tail hrun hst ih => exact ih.trans (hst.sameTerms (Turnovers.moves hrun |>.life hs))

/-- A call of the lifecycle that plans nothing changes no contract and no budget. -/
theorem exec_sameTerms (hs : Inv s) {op : Op} (hop : op.plans = false)
    (h : exec env s op = .ok t) : SameTerms s t :=
  (exec_turnovers hs.life hs.linked hop h).sameTerms hs.life

/-! ## Planning a mission -/

/-- The mission and the tasks a plan becomes. -/
structure Planned (s t : Db) (input : CreateMissionInput) (mission : Mission) : Prop where
  missions : t.missions = s.missions ++ [mission]
  fresh : ∀ m ∈ s.missions, m.id ≠ mission.id
  budget_tokens : mission.budget_tokens = input.plan.budget_tokens
  budget_cost_microusd : mission.budget_cost_microusd = input.plan.budget_cost_microusd
  tasks : t.tasks = s.tasks ++ input.plan.tasks.zipIdx.map fun (task, index) =>
    planned_task_row s input mission.id task index

theorem create_mission_tx_planned {input : CreateMissionInput} {mission_id : Uuid}
    (h : create_mission_tx s input = .ok (mission_id, t)) :
    ∃ mission, Planned s t input mission := by
  unfold create_mission_tx at h
  simp only [bind_eq_ok, ensure_eq_ok, context_eq_ok, append_new_event_tx_ok, pure_eq_ok,
    Prod.mk.injEq] at h
  obtain ⟨_, -, _, -, _, -, _, -, _, -, _, -, _, ⟨-, rfl⟩, u, hu, _, -, _, -, v, hv,
    dependencies, -, _, -, w, ⟨-, rfl⟩, rfl, rfl⟩ := h
  obtain ⟨-, actors, memberships, evs, agents, rfl, -, -, -⟩ := persist_staffing_tx_ok hu
  obtain ⟨evs', rfl, -⟩ := foldlM_journal (P := fun _ => True) (fun u v p hp => by
    rw [append_new_event_tx_ok] at hp
    exact ⟨_, hp.2, Appends.one trivial⟩) _ hv
  refine ⟨_, rfl, ?_, rfl, rfl, rfl⟩
  intro m hm he
  exact s.new_v4_notMem _ (he ▸ List.mem_map_of_mem (f := Mission.id) hm)

theorem create_mission_planned {input : CreateMissionInput} (h : create_mission s input = .ok t) :
    ∃ mission, Planned s t input mission := by
  obtain ⟨mission_id, h⟩ := create_mission_ok h
  exact create_mission_tx_planned h

/-- A materialised item is replayed, or its mission is planned. -/
theorem materialize_factory_mission_planned {now : Int} {input : MaterializeInput}
    (h : materialize_factory_mission s now input = .ok t) :
    t = s ∨ ∃ mission, Planned s t input.mission mission := by
  rcases materialize_factory_mission_ok h with rfl | ⟨mission_id, u, items, ops, evs, hu, rfl, -⟩
  · exact Or.inl rfl
  · obtain ⟨mission, hplan⟩ := create_mission_tx_planned hu
    exact Or.inr ⟨mission, hplan.missions, hplan.fresh, hplan.budget_tokens,
      hplan.budget_cost_microusd, hplan.tasks⟩

/-- The plan the server hands over is one it accepted. -/
theorem plan_mission_ok {agents : List Agent} {plan : Server.TaskGraphPlan}
    {stored : TaskGraphPlan} (h : plan_mission agents plan = .ok stored) :
    stored = plan.stored
      ∧ Server.validate_plan (plan.tasks.length + 1) plan agents = some (.ok ()) := by
  unfold plan_mission at h
  split at h
  · rename_i hplan
    exact ⟨(Except.ok.inj h).symm, hplan⟩
  · cases h
  · cases h

/-! ## Revisions leave the lifecycle alone -/

/-- A task keeps its place in the lifecycle. -/
structure Task.Placed (x x' : Task) : Prop where
  id : x'.id = x.id
  corp_id : x'.corp_id = x.corp_id
  mission_id : x'.mission_id = x.mission_id
  status : x'.status = x.status
  assigned_agent_id : x'.assigned_agent_id = x.assigned_agent_id

/-- A mission keeps its place in the lifecycle. -/
structure Mission.Placed (m m' : Mission) : Prop where
  id : m'.id = m.id
  corp_id : m'.corp_id = m.corp_id
  status : m'.status = m.status

/-- What a revision does to the tables of the lifecycle. -/
structure Respecified (s t : Db) : Prop where
  runs : t.runs = s.runs
  tasks : Updated Task.Placed s.tasks t.tasks
  missions : Updated Mission.Placed s.missions t.missions
  agents : t.agents = s.agents
  task_dependencies : t.task_dependencies = s.task_dependencies
  action_approvals : t.action_approvals = s.action_approvals
  artifacts : t.artifacts = s.artifacts
  verification_requests : t.verification_requests = s.verification_requests

theorem Task.Placed.refl (x : Task) : x.Placed x := ⟨rfl, rfl, rfl, rfl, rfl⟩

theorem Mission.Placed.refl (m : Mission) : m.Placed m := ⟨rfl, rfl, rfl⟩

theorem Respecified.refl : Respecified s s :=
  ⟨rfl, Updated.refl fun x _ => Task.Placed.refl x, Updated.refl fun m _ => Mission.Placed.refl m,
    rfl, rfl, rfl, rfl, rfl⟩

theorem Respecified.wellFormed (h : Respecified s t) (hs : WellFormed s) : WellFormed t where
  runs_keyed := h.runs ▸ hs.runs_keyed
  tasks_keyed := h.tasks.keyed hs.tasks_keyed fun _ _ hx => hx.id
  missions_keyed := h.missions.keyed hs.missions_keyed fun _ _ hm => hm.id
  agents_keyed := h.agents ▸ hs.agents_keyed
  run_task := by
    intro r hr
    obtain ⟨x, hx, hid, hcorp⟩ := hs.run_task r (h.runs ▸ hr)
    obtain ⟨x', hx', hp⟩ := h.tasks.exists_new hx
    exact ⟨x', hx', hp.id.trans hid, hp.corp_id.trans hcorp⟩
  run_agent := by
    rw [h.runs, h.agents]
    exact hs.run_agent
  task_mission := by
    intro x' hx'
    obtain ⟨x, hx, hp⟩ := h.tasks.exists_old hx'
    obtain ⟨m, hm, hid, hcorp⟩ := hs.task_mission x hx
    obtain ⟨m', hm', hq⟩ := h.missions.exists_new hm
    exact ⟨m', hm', by rw [hq.id, hid, hp.mission_id], by rw [hq.corp_id, hcorp, hp.corp_id]⟩
  task_agent := by
    intro x' hx' agent_id hagent
    obtain ⟨x, hx, hp⟩ := h.tasks.exists_old hx'
    rw [h.agents, hp.corp_id]
    exact hs.task_agent x hx agent_id (hp.assigned_agent_id ▸ hagent)
  dependency_tasks := by
    have hnew : ∀ id, (∃ x ∈ s.tasks, x.id = id) → ∃ x ∈ t.tasks, x.id = id := by
      rintro id ⟨x, hx, hid⟩
      obtain ⟨x', hx', hp⟩ := h.tasks.exists_new hx
      exact ⟨x', hx', hp.id.trans hid⟩
    intro d hd
    obtain ⟨hchild, hparent⟩ := hs.dependency_tasks d (h.task_dependencies ▸ hd)
    exact ⟨hnew _ hchild, hnew _ hparent⟩

/-- **Revisions keep the lifecycle invariant.** -/
theorem Respecified.life (h : Respecified s t) (hs : Life s) : Life t where
  toWellFormed := h.wellFormed hs.toWellFormed
  task_exclusive := h.runs ▸ hs.task_exclusive
  agent_exclusive := h.runs ▸ hs.agent_exclusive
  task_settled := by
    intro x' hx' hc r hr hid
    obtain ⟨x, hx, hp⟩ := h.tasks.exists_old hx'
    exact hs.task_settled x hx (hp.status ▸ hc) r (h.runs ▸ hr) (hid.trans hp.id)
  task_earned := by
    intro x' hx' hc
    obtain ⟨x, hx, hp⟩ := h.tasks.exists_old hx'
    rw [h.runs, hp.id]
    exact hs.task_earned x hx (hp.status ▸ hc)
  mission_settled := by
    intro m' hm' hc x' hx' hid
    obtain ⟨m, hm, hq⟩ := h.missions.exists_old hm'
    obtain ⟨x, hx, hp⟩ := h.tasks.exists_old hx'
    rw [hp.status]
    exact hs.mission_settled m hm (hq.status ▸ hc) x hx (by rw [← hp.mission_id, hid, hq.id])
  agent_holds := by
    rw [h.agents, h.runs]
    exact hs.agent_holds
  run_held := by
    rw [h.agents, h.runs]
    exact hs.run_held
  run_ready := by
    rw [h.runs, h.task_dependencies]
    exact hs.run_ready
  run_claimed := by
    intro r hr hstart x' hx' hid
    obtain ⟨x, hx, hp⟩ := h.tasks.exists_old hx'
    rw [hp.status]
    exact hs.run_claimed r (h.runs ▸ hr) hstart x hx (hp.id.symm.trans hid)
  run_origin := by
    rw [h.runs]
    exact hs.run_origin

theorem Respecified.linked (h : Respecified s t) (hs : Linked s) : Linked t where
  approvals := by
    rw [h.action_approvals, h.runs]
    exact hs.approvals
  artifacts := by
    rw [h.artifacts, h.runs]
    exact hs.artifacts
  requests := by
    rw [h.verification_requests, h.runs]
    exact hs.requests

theorem Respecified.inv (h : Respecified s t) (hs : Inv s) : Inv t :=
  ⟨h.life hs.life, h.linked hs.linked⟩

/-! ## Contract revisions -/

section Lookup

variable {α : Type} {p : α → Bool} {l : List α}

theorem any_of_find?_some {a : α} (h : l.find? p = some a) : l.any p = true :=
  List.any_eq_true.mpr ⟨a, List.mem_of_find?_eq_some h, List.find?_some h⟩

theorem any_of_find?_none (h : l.find? p = none) : l.any p = false :=
  List.any_eq_false.mpr (List.find?_eq_none.mp h)

end Lookup

/-- The row of an accepted contract revision's task. -/
def Task.recontracted (task : Task) (contract : ContractDocument) (version : Int)
    (policy : VerificationPolicy) : Task :=
  { task with contract, contract_version := version, verification_policy := policy
              verification_status := .pending }

/-- What an accepted contract revision has checked and written. -/
structure ContractRevised (s : Archive) (input : CreateMissionContractRevisionInput)
    (t : Archive) (mission : Mission) (task : Task) (replacement : ContractDocument) : Prop where
  mission_mem : mission ∈ s.missions
  mission_id : mission.id = input.mission_id
  mission_corp : mission.corp_id = input.corp_id
  task_mem : task ∈ s.tasks
  task_id : task.id = input.task_id
  task_mission : task.mission_id = input.mission_id
  task_corp : task.corp_id = input.corp_id
  write_scope : ∀ scope ∈ replacement.write_scope, write_scope_is_valid scope = true
  narrow : input.next_action = .resume →
    ensure_resume_contract_is_narrow task.contract replacement task.required_adapter = .ok ()
  fits : ensure_revised_task_budget_fits_mission_tx s.toDb input.corp_id input.mission_id
    input.task_id mission.budget_tokens mission.budget_cost_microusd replacement = .ok ()
  tasks : t.tasks = updateWhere
    (fun x => x.id == input.task_id && x.mission_id == input.mission_id
      && x.corp_id == input.corp_id)
    (fun x => x.recontracted replacement
      (max mission.specification_version task.contract_version + 1) input.verification_policy)
    s.tasks
  respecified : Respecified s.toDb t.toDb
  missions : Updated (fun m m' => m'.id = m.id ∧ m'.budget_tokens = m.budget_tokens
    ∧ m'.budget_cost_microusd = m.budget_cost_microusd) s.missions t.missions
  budget_revisions : t.mission_budget_revisions = s.mission_budget_revisions

theorem contract_revision_row_eq_some {corp_id mission_id task_id : Uuid} {mission : Mission}
    {task : Task}
    (h : contract_revision_row s corp_id mission_id task_id = some (mission, task)) :
    (mission ∈ s.missions ∧ mission.id = mission_id ∧ mission.corp_id = corp_id)
      ∧ task ∈ s.tasks ∧ task.id = task_id ∧ task.mission_id = mission_id
      ∧ task.corp_id = corp_id := by
  unfold contract_revision_row at h
  simp only [Option.bind_eq_bind, Option.bind_eq_some_iff, Option.pure_def, Option.some.injEq,
    Prod.mk.injEq] at h
  obtain ⟨m, hm, x, hx, rfl, rfl⟩ := h
  obtain ⟨hm, hcorp⟩ := Option.filter_eq_some_iff.mp hm
  obtain ⟨hx, hscope⟩ := Option.filter_eq_some_iff.mp hx
  obtain ⟨hmm, hmid⟩ := Db.mission?_eq_some hm
  obtain ⟨hxm, hxid⟩ := Db.task?_eq_some hx
  simp only [Bool.and_eq_true, beq_iff_eq] at hcorp hscope
  exact ⟨⟨hmm, hmid, hcorp⟩, hxm, hxid, hscope.1.trans hmid, hscope.2.trans hcorp⟩

theorem validate_revised_contract_write_scope {contract : ContractDocument}
    {policy : VerificationPolicy} (h : validate_revised_contract contract policy = .ok ()) :
    ∀ scope ∈ contract.write_scope, write_scope_is_valid scope = true := by
  unfold validate_revised_contract at h
  simp only [bind_eq_ok, ensure_eq_ok] at h
  obtain ⟨_, -, _, -, _, hscope, -⟩ := h
  exact hscope

/-- A resume revision narrows the contract. -/
theorem ensure_next_action_narrow {now : Int} {input : CreateMissionContractRevisionInput}
    {mission : Mission} {task : Task} {replacement : ContractDocument}
    (h : ensure_next_action s now input mission task replacement = .ok ())
    (hresume : input.next_action = .resume) :
    ensure_resume_contract_is_narrow task.contract replacement task.required_adapter = .ok () := by
  unfold ensure_next_action at h
  rw [hresume] at h
  simp only [bind_eq_ok] at h
  obtain ⟨_, -, _, -, _, hnarrow, -⟩ := h
  exact hnarrow

/-- A contract revision with the key of the call is on record. -/
def Archive.contract_revision_recorded (s : Archive)
    (input : CreateMissionContractRevisionInput) : Bool :=
  s.mission_contract_revisions.any fun r =>
    r.corp_id == input.corp_id && r.idempotency_key == input.idempotency_key

/-- A contract revision is replayed, or accepted. -/
theorem create_mission_contract_revision_ok {s : Archive} {now : Int}
    {input : CreateMissionContractRevisionInput} {o : RevisionOutcome MissionContractRevision}
    (h : create_mission_contract_revision s now input = .ok o) :
    (s.contract_revision_recorded input = true ∧ o.state = s)
      ∨ (s.contract_revision_recorded input = false
        ∧ ∃ mission task replacement,
          ContractRevised s input o.state mission task replacement) := by
  unfold create_mission_contract_revision at h
  simp only [bind_eq_ok, ensure_eq_ok, context_eq_ok] at h
  obtain ⟨_, -, reason, -, description, -, _, -, _, -, ⟨mission, task⟩, hrow, _, -, _, -, h⟩ := h
  split at h
  · rename_i row hfound
    simp only [bind_eq_ok, pure_eq_ok] at h
    obtain ⟨_, -, rfl⟩ := h
    exact Or.inl ⟨any_of_find?_some hfound, rfl⟩
  · rename_i hfound
    unfold fresh_contract_revision at h
    simp only [bind_eq_ok, ensure_eq_ok] at h
    obtain ⟨_, -, _, -, _, hvalid, _, -, _, haction, _, -, _, hfits, h⟩ := h
    unfold accept_contract_revision at h
    simp only [bind_eq_ok, ensure_eq_ok, append_new_event_tx_ok, pure_eq_ok] at h
    obtain ⟨_, -, db, ⟨-, rfl⟩, rfl⟩ := h
    obtain ⟨⟨hmm, hmid, hmcorp⟩, hxm, hxid, hxmission, hxcorp⟩ :=
      contract_revision_row_eq_some hrow
    refine Or.inr ⟨any_of_find?_none hfound, mission, task, _, hmm, hmid, hmcorp, hxm, hxid,
      hxmission, hxcorp,
      validate_revised_contract_write_scope hvalid, ensure_next_action_narrow haction, hfits, rfl,
      ?_, ?_, rfl⟩
    · exact ⟨rfl, Updated.of_updateWhere (fun _ _ _ => ⟨rfl, rfl, rfl, rfl, rfl⟩)
          fun x _ _ => Task.Placed.refl x,
        Updated.of_updateWhere (fun _ _ _ => ⟨rfl, rfl, rfl⟩) fun m _ _ => Mission.Placed.refl m,
        rfl, rfl, rfl, rfl, rfl⟩
    · exact Updated.of_updateWhere (fun _ _ _ => ⟨rfl, rfl, rfl⟩) fun _ _ _ => ⟨rfl, rfl, rfl⟩

/-! ## Proposals -/

/-- A finish scope gives the task no more than it had. -/
structure Replacement.Narrow (scope : Replacement) : Prop where
  budget_tokens : scope.replacement_contract.budget_tokens ≤ scope.previous_contract.budget_tokens
  budget_cost_microusd :
    scope.replacement_contract.budget_cost_microusd ≤ scope.previous_contract.budget_cost_microusd
  allowed_tools : scope.replacement_contract.allowed_tools = scope.previous_contract.allowed_tools
  prohibited_actions :
    scope.replacement_contract.prohibited_actions = scope.previous_contract.prohibited_actions
  contained : ∀ candidate ∈ scope.replacement_contract.write_scope,
    ∃ authorized ∈ scope.previous_contract.write_scope,
      write_scope_contains authorized candidate = true
  normalized : ∀ candidate ∈ scope.replacement_contract.write_scope,
    ∃ value, normalize_write_scope value = .ok candidate

/-- What a new proposal has checked and written. -/
structure BudgetProposed (s t : Archive) (revision : MissionBudgetRevision) (mission : Mission) :
    Prop where
  state : ∃ events, t = { s with
    toDb := { s.toDb with events := events }
    mission_budget_revisions := s.mission_budget_revisions ++ [revision] }
  mission_mem : mission ∈ s.missions
  mission_id : mission.id = revision.mission_id
  fresh : ∀ r ∈ s.mission_budget_revisions, r.id ≠ revision.id
  status : revision.status = .pending
  unique : ∀ r ∈ s.mission_budget_revisions, r.corp_id = revision.corp_id →
    r.mission_id = revision.mission_id → r.status ≠ .pending
  tokens_grow : revision.current_budget_tokens ≤ revision.proposed_budget_tokens
  cost_grows : revision.current_budget_cost_microusd ≤ revision.proposed_budget_cost_microusd
  narrow : ∀ scope ∈ revision.replacement, scope.Narrow

/-- The finish scope of a normalised proposal is normalised. -/
theorem normalize_proposal_ok {input n : ProposeMissionBudgetRevisionInput}
    (h : normalize_proposal input = .ok n) :
    n.expected_budget_tokens ≤ n.proposed_budget_tokens
      ∧ n.expected_budget_cost_microusd ≤ n.proposed_budget_cost_microusd
      ∧ ∀ scope ∈ n.finish_scope, ∀ candidate ∈ scope.write_scope,
        ∃ value, normalize_write_scope value = .ok candidate := by
  unfold normalize_proposal at h
  simp only [bind_eq_ok, ensure_eq_ok, pure_eq_ok] at h
  obtain ⟨_, -, _, hgrow, scope, hscope, rationale, -, rfl⟩ := h
  refine ⟨by simp only at hgrow ⊢; omega, by simp only at hgrow ⊢; omega, ?_⟩
  intro n hn candidate hc
  cases hin : input.finish_scope with
  | none =>
    rw [hin, normalize_optional_finish_scope, pure_eq_ok] at hscope
    subst hscope
    cases hn
  | some raw =>
    rw [hin, normalize_optional_finish_scope] at hscope
    simp only [bind_eq_ok, pure_eq_ok] at hscope
    obtain ⟨out, hout, rfl⟩ := hscope
    obtain rfl := Option.some.inj hn
    unfold normalize_finish_scope at hout
    simp only [bind_eq_ok, ensure_eq_ok, pure_eq_ok] at hout
    obtain ⟨_, -, _, -, _, -, _, -, scopes, hscopes, _, -, _, -, _, -, rfl⟩ := hout
    obtain ⟨value, -, hvalue⟩ := mem_of_mapM_eq_ok hscopes hc
    exact ⟨value, hvalue⟩

/-- The replacement a proposal records is narrow. -/
theorem propose_replacement_narrow {input : ProposeMissionBudgetRevisionInput}
    {suspended : Uuid} {tokens cost : Int} {replacement : Option Replacement}
    (hnorm : ∀ scope ∈ input.finish_scope, ∀ candidate ∈ scope.write_scope,
      ∃ value, normalize_write_scope value = .ok candidate)
    (h : propose_replacement s input suspended tokens cost = .ok replacement) :
    ∀ scope ∈ replacement, scope.Narrow := by
  unfold propose_replacement at h
  split at h
  · rw [pure_eq_ok] at h
    subst h
    intro scope hscope
    cases hscope
  · rename_i raw hraw
    obtain ⟨scope, hscope, rfl⟩ := map_eq_ok.mp h
    unfold propose_finish_scope at hscope
    simp only [bind_eq_ok, ensure_eq_ok, context_eq_ok, pure_eq_ok] at hscope
    obtain ⟨_, -, task, -, _, -, _, -, _, -, _, hbudget, _, hcontained, rfl⟩ := hscope
    intro x hx
    obtain rfl := Option.some.inj hx
    exact ⟨hbudget.1, hbudget.2, rfl, rfl, hcontained, hnorm raw hraw⟩

/-- A proposal is replayed, or recorded. -/
theorem propose_mission_budget_revision_ok {s : Archive}
    {input : ProposeMissionBudgetRevisionInput} {o : RevisionOutcome MissionBudgetRevision}
    (h : propose_mission_budget_revision s input = .ok o) :
    (o.replayed = true ∧ o.state = s)
      ∨ (o.replayed = false ∧ ∃ mission, BudgetProposed s o.state o.revision mission) := by
  unfold propose_mission_budget_revision at h
  simp only [bind_eq_ok] at h
  obtain ⟨n, hn, _, -, _, -, _, -, h⟩ := h
  obtain ⟨htokens, hcost, hnorm⟩ := normalize_proposal_ok hn
  split at h
  · simp only [bind_eq_ok, pure_eq_ok] at h
    obtain ⟨_, -, rfl⟩ := h
    exact Or.inl ⟨rfl, rfl⟩
  · unfold fresh_budget_proposal at h
    simp only [bind_eq_ok, ensure_eq_ok, context_eq_ok, append_new_event_tx_ok, pure_eq_ok] at h
    obtain ⟨mission, hm, _, -, _, hexpected, _, -, suspended, -, _, hnone, ⟨tokens, cost⟩, -, _, -,
      _, -, replacement, hrep, db, ⟨-, rfl⟩, rfl⟩ := h
    obtain ⟨hm, -⟩ := Option.filter_eq_some_iff.mp hm
    obtain ⟨hmm, hmid⟩ := Db.mission?_eq_some hm
    refine Or.inr ⟨rfl, mission, ⟨_, rfl⟩, hmm, hmid, ?_, rfl, ?_, ?_, ?_,
      propose_replacement_narrow hnorm hrep⟩
    · intro r hr he
      exact s.new_v4_notMem _ (he ▸ List.mem_map_of_mem (f := MissionBudgetRevision.id) hr)
    · intro r hr hcorp hmission hpending
      have := List.any_eq_false.mp hnone r hr
      simp only [Bool.and_eq_true, beq_iff_eq, not_and] at this
      exact this ⟨hcorp, hmission⟩ hpending
    · exact hexpected.1.trans_le htokens
    · exact hexpected.2.trans_le hcost

/-! ## Decisions -/

/-- The row of the task an approved finish scope is for. -/
def Task.rescoped (task : Task) (scope : Replacement) : Task :=
  { task with contract := scope.replacement_contract
              verification_policy := scope.replacement_verification_policy
              verification_status := .pending }

/-- What an approval has checked and written. -/
structure BudgetApproved (s t : Db) (input : DecideMissionBudgetRevisionInput)
    (revision : MissionBudgetRevision) (mission : Mission) : Prop where
  current_tokens : mission.budget_tokens = revision.current_budget_tokens
  current_cost : mission.budget_cost_microusd = revision.current_budget_cost_microusd
  consumed : ∃ tokens cost, mission_usage_tx s input.corp_id input.mission_id = .ok (tokens, cost)
    ∧ tokens < revision.proposed_budget_tokens ∧ cost < revision.proposed_budget_cost_microusd
  missions : t.missions = updateWhere
    (fun m => m.id == input.mission_id && m.corp_id == input.corp_id)
    (fun m => { m with
      budget_tokens := revision.proposed_budget_tokens
      budget_cost_microusd := revision.proposed_budget_cost_microusd }) s.missions
  tasks : (revision.replacement = none ∧ t.tasks = s.tasks)
    ∨ ∃ scope task, revision.replacement = some scope ∧ task ∈ s.tasks
      ∧ task.id = scope.task_id ∧ task.mission_id = input.mission_id
      ∧ task.corp_id = input.corp_id ∧ task.contract = scope.previous_contract
      ∧ t.tasks = updateWhere
        (fun x => x.id == scope.task_id && x.mission_id == input.mission_id
          && x.corp_id == input.corp_id)
        (fun x => x.rescoped scope) s.tasks

/-- What a new decision has checked and written. -/
structure BudgetDecided (s : Archive) (input : DecideMissionBudgetRevisionInput) (t : Archive)
    (revision : MissionBudgetRevision) (mission : Mission) : Prop where
  revision_mem : revision ∈ s.mission_budget_revisions
  revision_id : revision.id = input.revision_id
  revision_corp : revision.corp_id = input.corp_id
  revision_mission : revision.mission_id = input.mission_id
  pending : revision.status = .pending
  mission_mem : mission ∈ s.missions
  mission_id : mission.id = input.mission_id
  outcome : (input.approved = false ∧ t.missions = s.missions ∧ t.tasks = s.tasks)
    ∨ (input.approved = true ∧ BudgetApproved s.toDb t.toDb input revision mission)
  respecified : Respecified s.toDb t.toDb
  contract_revisions : t.mission_contract_revisions = s.mission_contract_revisions
  revisions : ∃ f : MissionBudgetRevision → MissionBudgetRevision,
    (∀ r, (f r).id = r.id ∧ (f r).corp_id = r.corp_id ∧ (f r).mission_id = r.mission_id
      ∧ (f r).status = decision_status input.approved
      ∧ (f r).current_budget_tokens = r.current_budget_tokens
      ∧ (f r).current_budget_cost_microusd = r.current_budget_cost_microusd
      ∧ (f r).proposed_budget_tokens = r.proposed_budget_tokens
      ∧ (f r).proposed_budget_cost_microusd = r.proposed_budget_cost_microusd
      ∧ (f r).replacement = r.replacement)
    ∧ t.mission_budget_revisions = updateWhere
      (fun r => r.id == input.revision_id && r.corp_id == input.corp_id) f
      s.mission_budget_revisions

theorem Db.mission_task_eq_some {corp_id mission_id task_id : Uuid} {task : Task}
    (h : s.mission_task corp_id mission_id task_id = some task) :
    task ∈ s.tasks ∧ task.id = task_id ∧ task.mission_id = mission_id ∧ task.corp_id = corp_id := by
  obtain ⟨h, hscope⟩ := Option.filter_eq_some_iff.mp h
  obtain ⟨hm, hid⟩ := Db.task?_eq_some h
  simp only [Bool.and_eq_true, beq_iff_eq] at hscope
  exact ⟨hm, hid, hscope.1, hscope.2⟩

/-- Where the replacement of a decided revision goes. -/
theorem apply_replacement_ok {input : DecideMissionBudgetRevisionInput} {suspended : Uuid}
    {replacement : Option Replacement}
    (h : apply_replacement s input suspended replacement = .ok t) :
    Respecified s t ∧ t.missions = s.missions
      ∧ ((replacement = none ∧ t.tasks = s.tasks)
        ∨ ∃ scope task, replacement = some scope ∧ task ∈ s.tasks
          ∧ task.id = scope.task_id ∧ task.mission_id = input.mission_id
          ∧ task.corp_id = input.corp_id ∧ task.contract = scope.previous_contract
          ∧ t.tasks = updateWhere
            (fun x => x.id == scope.task_id && x.mission_id == input.mission_id
              && x.corp_id == input.corp_id)
            (fun x => x.rescoped scope) s.tasks) := by
  cases replacement with
  | none =>
    rw [apply_replacement, pure_eq_ok] at h
    subst h
    exact ⟨Respecified.refl, rfl, Or.inl ⟨rfl, rfl⟩⟩
  | some scope =>
    rw [apply_replacement] at h
    simp only [bind_eq_ok, ensure_eq_ok, context_eq_ok, pure_eq_ok] at h
    obtain ⟨_, -, task, htask, _, -, _, hsame, rfl⟩ := h
    obtain ⟨hm, hid, hmission, hcorp⟩ := Db.mission_task_eq_some htask
    refine ⟨⟨rfl, ?_, Updated.refl fun m _ => Mission.Placed.refl m, rfl, rfl, rfl, rfl, rfl⟩, rfl,
      Or.inr ⟨scope, task, rfl, hm, hid, hmission, hcorp, hsame.1, rfl⟩⟩
    exact Updated.of_updateWhere (fun _ _ _ => ⟨rfl, rfl, rfl, rfl, rfl⟩)
      fun x _ _ => Task.Placed.refl x

theorem approve_budget_revision_ok {input : DecideMissionBudgetRevisionInput}
    {revision : MissionBudgetRevision} {mission : Mission}
    (h : approve_budget_revision s input revision mission = .ok t) :
    BudgetApproved s t input revision mission ∧ Respecified s t := by
  unfold approve_budget_revision at h
  simp only [bind_eq_ok, ensure_eq_ok] at h
  obtain ⟨_, hcurrent, _, -, suspended, -, ⟨tokens, cost⟩, husage, _, hexceeds, h⟩ := h
  obtain ⟨hresp, hmissions, htasks⟩ := apply_replacement_ok h
  refine ⟨⟨hcurrent.1, hcurrent.2, ⟨tokens, cost, husage, hexceeds⟩, hmissions, htasks⟩, ?_⟩
  refine ⟨hresp.runs, hresp.tasks, ?_, hresp.agents, hresp.task_dependencies,
    hresp.action_approvals, hresp.artifacts, hresp.verification_requests⟩
  rw [hmissions]
  exact Updated.of_updateWhere (fun _ _ _ => ⟨rfl, rfl, rfl⟩) fun m _ _ => Mission.Placed.refl m

/-- A decision with the key of the call is on record. -/
def Archive.decision_recorded (s : Archive) (input : DecideMissionBudgetRevisionInput) : Bool :=
  s.mission_budget_revisions.any fun r =>
    r.corp_id == input.corp_id && r.decision_key == some input.decision_key

/-- A decision is replayed, or made. -/
theorem decide_mission_budget_revision_ok {s : Archive} {input : DecideMissionBudgetRevisionInput}
    {o : RevisionOutcome MissionBudgetRevision}
    (h : decide_mission_budget_revision s input = .ok o) :
    (s.decision_recorded input = true ∧ o.state = s)
      ∨ (s.decision_recorded input = false
        ∧ ∃ revision mission, BudgetDecided s input o.state revision mission) := by
  unfold decide_mission_budget_revision at h
  simp only [bind_eq_ok, ensure_eq_ok] at h
  obtain ⟨_, -, note, -, _, -, _, -, _, -, h⟩ := h
  split at h
  · rename_i row hfound
    simp only [bind_eq_ok, pure_eq_ok] at h
    obtain ⟨_, -, rfl⟩ := h
    exact Or.inl ⟨any_of_find?_some hfound, rfl⟩
  · rename_i hfound
    unfold fresh_budget_decision at h
    simp only [bind_eq_ok, ensure_eq_ok, context_eq_ok, append_new_event_tx_ok, pure_eq_ok] at h
    obtain ⟨revision, hrev, mission, hm, _, hpending, _, -, _, -, db, hdb, db', ⟨-, rfl⟩, rfl⟩ := h
    have hmem := List.mem_of_find?_eq_some hrev
    have hkey := List.find?_some hrev
    simp only [Bool.and_eq_true, beq_iff_eq] at hkey
    obtain ⟨⟨hid, hcorp⟩, hmission⟩ := hkey
    obtain ⟨hmm, hmid⟩ := Db.mission?_eq_some hm
    have hout : ((input.approved = false ∧ db.missions = s.missions ∧ db.tasks = s.tasks)
        ∨ (input.approved = true ∧ BudgetApproved s.toDb db input revision mission))
        ∧ Respecified s.toDb db := by
      unfold decide_outcome at hdb
      by_cases happ : input.approved = true
      · rw [if_pos happ] at hdb
        obtain ⟨happroved, hresp⟩ := approve_budget_revision_ok hdb
        exact ⟨Or.inr ⟨happ, happroved⟩, hresp⟩
      · rw [if_neg happ, pure_eq_ok] at hdb
        subst hdb
        exact ⟨Or.inl ⟨Bool.eq_false_iff.mpr happ, rfl, rfl⟩, Respecified.refl⟩
    obtain ⟨houtcome, hresp⟩ := hout
    refine Or.inr ⟨any_of_find?_none hfound, revision, mission, hmem, hid, hcorp, hmission,
      hpending, hmm,
      hmid.trans hmission, ?_, ?_, rfl, ?_⟩
    · rcases houtcome with hrej | ⟨happ, happroved⟩
      · exact Or.inl hrej
      · exact Or.inr ⟨happ, happroved.current_tokens, happroved.current_cost, happroved.consumed,
          happroved.missions, happroved.tasks⟩
    · exact ⟨hresp.runs, hresp.tasks, hresp.missions, hresp.agents, hresp.task_dependencies,
        hresp.action_approvals, hresp.artifacts, hresp.verification_requests⟩
    · exact ⟨fun r => r.decided input note _,
        fun r => ⟨rfl, rfl, rfl, rfl, rfl, rfl, rfl, rfl, rfl⟩, rfl⟩

/-! ## Every call -/

/-- The ways a call replaces the contract of a task. -/
inductive Link where
  | redispatch | resume | finish_scope
  deriving DecidableEq, Repr

/-- How a call, if it is accepted, replaces the contract of the task. A call whose key is
on record is a replay and replaces nothing. -/
def Archive.link (s : Archive) (task_id : Uuid) : RevisionOp → Option Link
  | .create_mission_contract_revision _ input =>
    if input.task_id = task_id ∧ s.contract_revision_recorded input = false then
      match input.next_action with
      | .redispatch => some .redispatch
      | .resume => some .resume
    else none
  | .decide_mission_budget_revision input =>
    if input.approved = true ∧ s.decision_recorded input = false
        ∧ ∃ r ∈ s.mission_budget_revisions, r.id = input.revision_id
          ∧ ∃ scope ∈ r.replacement, scope.task_id = task_id then
      some .finish_scope
    else none
  | _ => none

/-- What a committed call does to contracts, budgets and revisions. -/
inductive RevisionEffect (s : Archive) (op : RevisionOp) (t : Archive) : Prop where
  | turned (db : Db) (hdb : t = s.onDb db) (hinv : Inv db) (hterms : SameTerms s.toDb db)
      (hlink : ∀ task_id, s.link task_id op = none)
  | planned (db : Db) (agents : List Agent) (plan : Server.TaskGraphPlan)
      (input : CreateMissionInput) (mission : Mission) (hdb : t = s.onDb db) (hinv : Inv db)
      (hplan : Server.validate_plan (plan.tasks.length + 1) plan agents = some (.ok ()))
      (hstored : input.plan = plan.stored) (hplanned : Planned s.toDb db input mission)
      (hlink : ∀ task_id, s.link task_id op = none)
  | revised (now : Int) (input : CreateMissionContractRevisionInput) (mission : Mission)
      (task : Task) (replacement : ContractDocument)
      (hop : op = .create_mission_contract_revision now input)
      (hnew : s.contract_revision_recorded input = false)
      (h : ContractRevised s input t mission task replacement)
  | proposed (input : ProposeMissionBudgetRevisionInput) (revision : MissionBudgetRevision)
      (mission : Mission) (hop : op = .propose_mission_budget_revision input)
      (h : BudgetProposed s t revision mission)
  | decided (input : DecideMissionBudgetRevisionInput) (revision : MissionBudgetRevision)
      (mission : Mission) (hop : op = .decide_mission_budget_revision input)
      (hnew : s.decision_recorded input = false)
      (h : BudgetDecided s input t revision mission)

theorem RevisionEffect.unchanged {s : Archive} {op : RevisionOp} (hs : Inv s.toDb)
    (hlink : ∀ task_id, s.link task_id op = none) : RevisionEffect s op s :=
  .turned s.toDb rfl hs SameTerms.refl hlink

/-- **What a call can do.** -/
theorem Archive.exec_effect {s t : Archive} (hs : Inv s.toDb) {op : RevisionOp}
    (h : Archive.exec env s op = .ok t) : RevisionEffect s op t := by
  cases op with
  | create_mission agents plan input =>
    simp only [Archive.exec, bind_eq_ok] at h
    obtain ⟨stored, hplan, h⟩ := h
    obtain ⟨rfl, haccepted⟩ := plan_mission_ok hplan
    obtain ⟨db, hdb, rfl⟩ := map_eq_ok.mp h
    obtain ⟨mission, hplanned⟩ := create_mission_planned hdb
    have hexec : Store.exec env s.toDb (.create_mission { input with plan := plan.stored })
        = .ok db := hdb
    exact .planned db agents plan _ mission rfl (exec_inv hs hexec) haccepted rfl hplanned
      fun _ => rfl
  | materialize_factory_mission now agents plan input =>
    simp only [Archive.exec, bind_eq_ok] at h
    obtain ⟨stored, hplan, h⟩ := h
    obtain ⟨rfl, haccepted⟩ := plan_mission_ok hplan
    obtain ⟨db, hdb, rfl⟩ := map_eq_ok.mp h
    rcases materialize_factory_mission_planned hdb with rfl | ⟨mission, hplanned⟩
    · exact .unchanged hs fun _ => rfl
    · have hexec : Store.exec env s.toDb (.materialize_factory_mission now
          { input with mission := { input.mission with plan := plan.stored } }) = .ok db := hdb
      exact .planned db agents plan _ mission rfl (exec_inv hs hexec) haccepted rfl hplanned
        fun _ => rfl
  | lifecycle op =>
    simp only [Archive.exec, bind_eq_ok, ensure_eq_ok] at h
    obtain ⟨_, hop, h⟩ := h
    obtain ⟨db, hdb, rfl⟩ := map_eq_ok.mp h
    exact .turned db rfl (exec_inv hs hdb) (exec_sameTerms hs hop hdb) fun _ => rfl
  | create_mission_contract_revision now input =>
    obtain ⟨o, ho, rfl⟩ := map_eq_ok.mp h
    rcases create_mission_contract_revision_ok ho with
      ⟨hold, hsame⟩ | ⟨hnew, mission, task, rep, hrev⟩
    · rw [hsame]
      refine .unchanged hs fun task_id => ?_
      rw [Archive.link, hold, if_neg (by simp)]
    · exact .revised now input mission task rep rfl hnew hrev
  | propose_mission_budget_revision input =>
    obtain ⟨o, ho, rfl⟩ := map_eq_ok.mp h
    rcases propose_mission_budget_revision_ok ho with ⟨-, hsame⟩ | ⟨-, mission, hprop⟩
    · rw [hsame]
      exact .unchanged hs fun _ => rfl
    · exact .proposed input o.revision mission rfl hprop
  | decide_mission_budget_revision input =>
    obtain ⟨o, ho, rfl⟩ := map_eq_ok.mp h
    rcases decide_mission_budget_revision_ok ho with
      ⟨hold, hsame⟩ | ⟨hnew, revision, mission, hdec⟩
    · rw [hsame]
      refine .unchanged hs fun task_id => ?_
      rw [Archive.link, hold, if_neg (by simp)]
    · exact .decided input revision mission rfl hnew hdec

/-- The lifecycle invariant holds along every run of the revisions. -/
theorem RevisionEffect.inv {s t : Archive} {op : RevisionOp} (hs : Inv s.toDb)
    (h : RevisionEffect s op t) : Inv t.toDb := by
  cases h with
  | turned db hdb hinv hterms hlink =>
    subst hdb
    exact hinv
  | planned db agents plan input mission hdb hinv hplan hstored hplanned hlink =>
    subst hdb
    exact hinv
  | revised now input mission task replacement hop hnew h => exact h.respecified.inv hs
  | proposed input revision mission hop h =>
    obtain ⟨events, rfl⟩ := h.state
    have hresp : Respecified s.toDb { s.toDb with events := events } :=
      ⟨rfl, Updated.refl fun x _ => Task.Placed.refl x,
        Updated.refl fun m _ => Mission.Placed.refl m, rfl, rfl, rfl, rfl, rfl⟩
    exact hresp.inv hs
  | decided input revision mission hop hnew h => exact h.respecified.inv hs

end Crony.Store
