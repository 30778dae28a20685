/-
Budget conservation.

The tasks of a mission never demand more than the mission may spend. Four calls touch one
side or the other: planning, which the server admits only within the plan's budget; a
contract revision, which adds up the other tasks and the new contract; an approved budget
revision, which raises the mission's limits and may lower one task's. The invariant is the
sum itself, together with what the revision table promises about proposals that are still
to be decided.
-/
import Crony.Lifecycle.Revised
import Crony.Properties.Planning

set_option autoImplicit false

open Crony.Lib

namespace Crony.Store

variable {env : Env}

/-! ## What the tasks of a mission demand -/

/-- The exact sum of a contract column over the tasks of a mission. -/
def Db.committed (s : Db) (column : ContractDocument → Int) (mission_id : Uuid) : Int :=
  ((s.tasks.filter fun x => x.mission_id == mission_id).map fun x => column x.contract).sum

section Committed

variable {s t : Db} {column : ContractDocument → Int} {mission_id : Uuid}

/-- A sum over all tasks that counts the tasks of other missions as 0. -/
theorem committed_rows (l : List Task) :
    ((l.filter fun x => x.mission_id == mission_id).map fun x => column x.contract).sum
      = (l.map fun x => if x.mission_id = mission_id then column x.contract else 0).sum := by
  induction l with
  | nil => rfl
  | cons x l ih =>
    rw [List.filter_cons, List.map_cons, List.sum_cons, ← ih]
    by_cases hx : x.mission_id = mission_id
    · rw [if_pos (by simpa using hx), if_pos hx, List.map_cons, List.sum_cons]
    · rw [if_neg (by simpa using hx), if_neg hx, zero_add]

/-- The sum depends on the missions and contracts of the tasks only. -/
theorem Db.committed_congr (h : Updated Task.Kept s.tasks t.tasks) :
    t.committed column mission_id = s.committed column mission_id := by
  unfold Db.committed
  rw [committed_rows, committed_rows, h.map_eq]
  intro x x' hk
  rw [hk.mission_id, hk.contract]

theorem Db.committed_append {tasks : List Task} (h : t.tasks = s.tasks ++ tasks) :
    t.committed column mission_id = s.committed column mission_id
      + ((tasks.filter fun x => x.mission_id == mission_id).map fun x =>
        column x.contract).sum := by
  unfold Db.committed
  rw [h, List.filter_append, List.map_append, List.sum_append]

/-- Replacing the contract of one task changes the sum of its mission by the difference. -/
theorem Db.committed_write {task : Task} {p : Task → Bool} {f : Task → Task}
    (hs : WellFormed s) (htask : task ∈ s.tasks) (hp : ∀ x ∈ s.tasks, p x = true ↔ x = task)
    (hf : ∀ x, (f x).mission_id = x.mission_id) (h : t.tasks = updateWhere p f s.tasks) :
    t.committed column mission_id = s.committed column mission_id
      + (if task.mission_id = mission_id then
          column (f task).contract - column task.contract else 0) := by
  have hnodup : s.tasks.Nodup := List.Nodup.of_map _ hs.tasks_keyed
  unfold Db.committed
  rw [committed_rows, committed_rows, h, sum_updateWhere _ hnodup htask hp, hf]
  split <;> omega

end Committed

/-! ## Sums the code computes -/

theorem bigint_ok {n m : Int} (h : bigint n = .ok m) : m = n := by
  unfold bigint at h
  simp only [bind_eq_ok, pure_eq_ok] at h
  obtain ⟨_, -, rfl⟩ := h
  rfl

/-- What `ensure_revised_task_budget_fits_mission_tx` adds up is the sum without the task. -/
theorem budget_with_ok {s : Db} (hs : WellFormed s) {corp_id mission_id : Uuid} {task : Task}
    (column : ContractDocument → Int) {value total : Int} {overflow : String}
    (hmission : ∃ m ∈ s.missions, m.id = mission_id ∧ m.corp_id = corp_id)
    (htask : task ∈ s.tasks) (htask_mission : task.mission_id = mission_id)
    (h : budget_with s corp_id mission_id task.id (fun x => column x.contract) value overflow
      = .ok total) :
    total = s.committed column mission_id - column task.contract + value := by
  unfold budget_with at h
  simp only [bind_eq_ok, ensure_eq_ok, pure_eq_ok] at h
  obtain ⟨others, hothers, _, -, rfl⟩ := h
  rw [bigint_ok hothers]
  -- The tasks of the mission all belong to its corp, and the task is one of them.
  have hfilter : (s.tasks.filter fun x => x.corp_id == corp_id && x.mission_id == mission_id
      && x.id != task.id)
      = (s.tasks.filter fun x => x.mission_id == mission_id).filter fun x => x != task := by
    rw [List.filter_filter]
    refine List.filter_congr fun x hx => ?_
    obtain ⟨m, hm, hmid, hmcorp⟩ := hmission
    rw [Bool.eq_iff_iff]
    simp only [Bool.and_eq_true, beq_iff_eq, bne_iff_ne]
    constructor
    · rintro ⟨⟨-, hxm⟩, hne⟩
      exact ⟨fun he => hne (he ▸ rfl), hxm⟩
    · rintro ⟨hne, hxm⟩
      obtain ⟨m', hm', hid', hcorp'⟩ := hs.task_mission x hx
      have hmm : m' = m := hs.missions_keyed.eq_of_mem hm' hm (hid'.trans (hxm.trans hmid.symm))
      subst hmm
      exact ⟨⟨hcorp'.symm.trans hmcorp, hxm⟩, fun he => hne (hs.tasks_keyed.eq_of_mem hx htask he)⟩
  have hmem : task ∈ s.tasks.filter fun x => x.mission_id == mission_id :=
    List.mem_filter.mpr ⟨htask, by simpa using htask_mission⟩
  have hnodup : (s.tasks.filter fun x => x.mission_id == mission_id).Nodup :=
    (List.Nodup.of_map _ hs.tasks_keyed).filter _
  rw [hfilter, sum_filter_ne _ hnodup hmem, Db.committed]

/-! ## The invariant -/

/-- The tasks of every mission demand at most what the mission may spend. -/
structure Budgeted (s : Db) : Prop where
  tokens : ∀ m ∈ s.missions, s.committed (fun c => c.budget_tokens) m.id ≤ m.budget_tokens
  cost : ∀ m ∈ s.missions,
    s.committed (fun c => c.budget_cost_microusd) m.id ≤ m.budget_cost_microusd

/-- What the table of budget revisions promises. -/
structure RevisionsSound (revisions : List MissionBudgetRevision) : Prop where
  keyed : Keyed MissionBudgetRevision.id revisions
  one_pending : UniqueWhere (fun r => r.status == .pending) (fun r => (r.corp_id, r.mission_id))
    revisions
  tokens_grow : ∀ r ∈ revisions, r.current_budget_tokens ≤ r.proposed_budget_tokens
  cost_grows : ∀ r ∈ revisions, r.current_budget_cost_microusd ≤ r.proposed_budget_cost_microusd
  narrow : ∀ r ∈ revisions, ∀ scope ∈ r.replacement, scope.Narrow

/-- The invariant of the revisions. -/
structure Archive.Sound (s : Archive) : Prop where
  inv : Inv s.toDb
  budgeted : Budgeted s.toDb
  revisions : RevisionsSound s.mission_budget_revisions

/-! ## Each kind of call -/

section Calls

variable {s t : Archive} {op : RevisionOp}

theorem Budgeted.of_sameTerms {s t : Db} (hs : Budgeted s) (h : SameTerms s t) : Budgeted t := by
  constructor
  · intro m' hm'
    obtain ⟨m, hm, hk⟩ := h.missions.exists_old hm'
    rw [Db.committed_congr h.tasks, hk.id, hk.budget_tokens]
    exact hs.tokens m hm
  · intro m' hm'
    obtain ⟨m, hm, hk⟩ := h.missions.exists_old hm'
    rw [Db.committed_congr h.tasks, hk.id, hk.budget_cost_microusd]
    exact hs.cost m hm

/-- The adapter decides about the model, not about the budget. -/
theorem normalize_for_adapter_budget (c : ContractDocument) (adapter : String) :
    (TaskContract.normalize_for_adapter c adapter).budget_tokens = c.budget_tokens
      ∧ (TaskContract.normalize_for_adapter c adapter).budget_cost_microusd
        = c.budget_cost_microusd := by
  unfold TaskContract.normalize_for_adapter
  split
  · exact ⟨rfl, rfl⟩
  · exact ⟨rfl, rfl⟩

/-- What the tasks of a new mission demand is what their plan says. -/
theorem Planned.committed_new {s t : Db} {input : CreateMissionInput} {mission : Mission}
    (hs : WellFormed s) (h : Planned s t input mission) {column : ContractDocument → Int}
    (hcolumn : ∀ c adapter, column (TaskContract.normalize_for_adapter c adapter) = column c) :
    t.committed column mission.id = (input.plan.tasks.map fun x => column x.contract).sum := by
  have hold : s.committed column mission.id = 0 := by
    have hnone : (s.tasks.filter fun x => x.mission_id == mission.id) = [] := by
      rw [List.filter_eq_nil_iff]
      intro x hx he
      obtain ⟨m, hm, hid, -⟩ := hs.task_mission x hx
      exact h.fresh m hm (hid.trans (by simpa using he))
    rw [Db.committed, hnone]
    rfl
  rw [Db.committed_append h.tasks, hold, zero_add]
  have hkeep : ∀ rows : List Task, (∀ x ∈ rows, x.mission_id = mission.id) →
      rows.filter (fun x => x.mission_id == mission.id) = rows := by
    intro rows hrows
    rw [List.filter_eq_self]
    intro x hx
    rw [hrows x hx]
    exact beq_self_eq_true mission.id
  rw [hkeep, List.map_map]
  swap
  · intro x hx
    obtain ⟨⟨task, index⟩, -, rfl⟩ := List.mem_map.mp hx
    rfl
  have hzip : ∀ (l : List PlannedTask) (k : Nat), ((l.zipIdx k).map
      ((fun x : Task => column x.contract) ∘ fun p : PlannedTask × Nat =>
        planned_task_row s input mission.id p.1 p.2)) = l.map fun x => column x.contract := by
    intro l
    induction l with
    | nil => intro k; rfl
    | cons x l ih =>
      intro k
      rw [List.zipIdx_cons, List.map_cons, List.map_cons, ih]
      simp only [Function.comp_apply, planned_task_row, hcolumn]
  rw [← hzip input.plan.tasks 0]

theorem Planned.committed_old {s t : Db} {input : CreateMissionInput} {mission : Mission}
    (h : Planned s t input mission) {column : ContractDocument → Int} {m : Mission}
    (hm : m ∈ s.missions) : t.committed column m.id = s.committed column m.id := by
  have hnone : ∀ rows : List Task, (∀ x ∈ rows, x.mission_id = mission.id) →
      rows.filter (fun x => x.mission_id == m.id) = [] := by
    intro rows hrows
    rw [List.filter_eq_nil_iff]
    intro x hx he
    rw [hrows x hx, beq_iff_eq] at he
    exact h.fresh m hm he.symm
  rw [Db.committed_append h.tasks, hnone]
  · simp
  · intro x hx
    obtain ⟨⟨task, index⟩, -, rfl⟩ := List.mem_map.mp hx
    rfl

/-- Planning a mission within its budget. -/
theorem Budgeted.of_planned {s t : Db} {input : CreateMissionInput} {mission : Mission}
    {plan : Server.TaskGraphPlan} (hw : WellFormed s) (hs : Budgeted s)
    (hplan : Server.Accepted plan) (hstored : input.plan = plan.stored)
    (h : Planned s t input mission) : Budgeted t := by
  have hnew : ∀ column : ContractDocument → Int,
      (input.plan.tasks.map fun x => column x.contract)
        = plan.tasks.map fun x => column x.contract := by
    intro column
    rw [hstored]
    simp only [Server.TaskGraphPlan.stored, List.map_map]
    rfl
  constructor
  · intro m hm
    rw [h.missions] at hm
    rcases List.mem_append.mp hm with hm | hm
    · rw [h.committed_old hm]
      exact hs.tokens m hm
    · obtain rfl := List.mem_singleton.mp hm
      have htotal : (input.plan.tasks.map fun x => x.contract.budget_tokens)
          = plan.tasks.map fun x => x.contract.budget_tokens := hnew fun c => c.budget_tokens
      rw [h.committed_new hw fun c a => (normalize_for_adapter_budget c a).1, h.budget_tokens,
        htotal, hstored]
      exact hplan.tokens
  · intro m hm
    rw [h.missions] at hm
    rcases List.mem_append.mp hm with hm | hm
    · rw [h.committed_old hm]
      exact hs.cost m hm
    · obtain rfl := List.mem_singleton.mp hm
      have htotal : (input.plan.tasks.map fun x => x.contract.budget_cost_microusd)
          = plan.tasks.map fun x => x.contract.budget_cost_microusd :=
        hnew fun c => c.budget_cost_microusd
      rw [h.committed_new hw fun c a => (normalize_for_adapter_budget c a).2,
        h.budget_cost_microusd, htotal, hstored]
      exact hplan.cost

/-- The row an update of one task's contract selects. -/
theorem WellFormed.selects_task {s : Db} (hs : WellFormed s) {task : Task} (htask : task ∈ s.tasks)
    {corp_id mission_id task_id : Uuid} (hid : task.id = task_id)
    (hmission : task.mission_id = mission_id) (hcorp : task.corp_id = corp_id) :
    ∀ x ∈ s.tasks, (x.id == task_id && x.mission_id == mission_id && x.corp_id == corp_id) = true
      ↔ x = task := by
  intro x hx
  simp only [Bool.and_eq_true, beq_iff_eq]
  constructor
  · rintro ⟨⟨hxid, -⟩, -⟩
    exact hs.tasks_keyed.eq_of_mem hx htask (hxid.trans hid.symm)
  · rintro rfl
    exact ⟨⟨hid, hmission⟩, hcorp⟩

/-- A contract revision stays within the mission's budget. -/
theorem Budgeted.of_contractRevised {input : CreateMissionContractRevisionInput}
    {mission : Mission} {task : Task} {replacement : ContractDocument} (hw : WellFormed s.toDb)
    (hs : Budgeted s.toDb) (h : ContractRevised s input t mission task replacement) :
    Budgeted t.toDb := by
  obtain ⟨total_tokens, htokens, total_cost, hcost, hle⟩ : ∃ total_tokens, _ ∧ ∃ total_cost, _ ∧
      (total_tokens ≤ mission.budget_tokens ∧ total_cost ≤ mission.budget_cost_microusd) := by
    have hfits := h.fits
    simp only [ensure_revised_task_budget_fits_mission_tx, bind_eq_ok, ensure_eq_ok] at hfits
    exact hfits
  have hmission : ∃ m ∈ s.missions, m.id = input.mission_id ∧ m.corp_id = input.corp_id :=
    ⟨mission, h.mission_mem, h.mission_id, h.mission_corp⟩
  rw [← h.task_id] at htokens hcost
  have htotal := budget_with_ok hw (fun c => c.budget_tokens) hmission h.task_mem h.task_mission
    htokens
  have hctotal := budget_with_ok hw (fun c => c.budget_cost_microusd) hmission h.task_mem
    h.task_mission hcost
  have hsel := hw.selects_task h.task_mem h.task_id h.task_mission h.task_corp
  have hwrite : ∀ column : ContractDocument → Int, ∀ mission_id,
      t.committed column mission_id = s.committed column mission_id
        + (if task.mission_id = mission_id then column replacement - column task.contract
          else 0) := by
    intro column mission_id
    have hf : ∀ x : Task, (x.recontracted replacement
        (max mission.specification_version task.contract_version + 1)
        input.verification_policy).mission_id = x.mission_id := fun _ => rfl
    exact Db.committed_write hw h.task_mem hsel hf h.tasks
  have hown : ∀ m ∈ s.missions, m.id = task.mission_id → m = mission := fun m hm hid =>
    hw.missions_keyed.eq_of_mem hm h.mission_mem
      (hid.trans (h.task_mission.trans h.mission_id.symm))
  constructor
  · intro m' hm'
    obtain ⟨m, hm, hid, hbudget, -⟩ := h.missions.exists_old hm'
    have := hs.tokens m hm
    rw [hwrite, hid, hbudget]
    by_cases hmine : task.mission_id = m.id
    · obtain rfl := hown m hm hmine.symm
      rw [← h.mission_id] at htotal
      rw [if_pos hmine]
      omega
    · rw [if_neg hmine]
      omega
  · intro m' hm'
    obtain ⟨m, hm, hid, -, hbudget⟩ := h.missions.exists_old hm'
    have := hs.cost m hm
    rw [hwrite, hid, hbudget]
    by_cases hmine : task.mission_id = m.id
    · obtain rfl := hown m hm hmine.symm
      rw [← h.mission_id] at hctotal
      rw [if_pos hmine]
      omega
    · rw [if_neg hmine]
      omega

/-- A mission whose limits did not fall. -/
def Mission.Raised (m m' : Mission) : Prop :=
  m'.id = m.id ∧ m.budget_tokens ≤ m'.budget_tokens
    ∧ m.budget_cost_microusd ≤ m'.budget_cost_microusd

theorem Mission.Raised.refl (m : Mission) : m.Raised m := ⟨rfl, le_refl _, le_refl _⟩

/-- No limit falls with an approval. -/
theorem BudgetApproved.limits {s t : Db} {input : DecideMissionBudgetRevisionInput}
    {revision : MissionBudgetRevision} {mission : Mission}
    (h : BudgetApproved s t input revision mission) (hw : WellFormed s)
    (hmem : mission ∈ s.missions) (hid : mission.id = input.mission_id)
    (htokens : revision.current_budget_tokens ≤ revision.proposed_budget_tokens)
    (hcost : revision.current_budget_cost_microusd ≤ revision.proposed_budget_cost_microusd) :
    Updated Mission.Raised s.missions t.missions := by
  rw [h.missions]
  refine Updated.of_updateWhere ?_ fun m _ _ => Mission.Raised.refl m
  intro m hm hsel
  simp only [Bool.and_eq_true, beq_iff_eq] at hsel
  obtain rfl := hw.missions_keyed.eq_of_mem hm hmem (hsel.1.trans hid.symm)
  have ht := h.current_tokens
  have hc := h.current_cost
  exact ⟨rfl, by simp only; omega, by simp only; omega⟩

/-- An approved budget revision raises the limits and lowers at most one contract. -/
theorem Budgeted.of_approved {s t : Db} {input : DecideMissionBudgetRevisionInput}
    {revision : MissionBudgetRevision} {mission : Mission} (hw : WellFormed s) (hs : Budgeted s)
    (hmem : mission ∈ s.missions) (hid : mission.id = input.mission_id)
    (htokens : revision.current_budget_tokens ≤ revision.proposed_budget_tokens)
    (hcost : revision.current_budget_cost_microusd ≤ revision.proposed_budget_cost_microusd)
    (hnarrow : ∀ scope ∈ revision.replacement, scope.Narrow)
    (h : BudgetApproved s t input revision mission) : Budgeted t := by
  -- No sum grows, whether or not the revision brings a finish scope.
  have hshrink : ∀ mission_id, t.committed (fun c => c.budget_tokens) mission_id
        ≤ s.committed (fun c => c.budget_tokens) mission_id
      ∧ t.committed (fun c => c.budget_cost_microusd) mission_id
        ≤ s.committed (fun c => c.budget_cost_microusd) mission_id := by
    intro mission_id
    rcases h.tasks with ⟨-, htasks⟩ | ⟨scope, task, hscope, htask, htid, htm, htc, hprev, htasks⟩
    · unfold Db.committed
      rw [htasks]
      exact ⟨le_refl _, le_refl _⟩
    · have hsel := hw.selects_task htask htid htm htc
      have hn := hnarrow scope hscope
      have hbt := hn.budget_tokens
      have hbc := hn.budget_cost_microusd
      have hf : ∀ x : Task, (x.rescoped scope).mission_id = x.mission_id := fun _ => rfl
      have hnew : (task.rescoped scope).contract = scope.replacement_contract := rfl
      rw [Db.committed_write hw htask hsel hf htasks, Db.committed_write hw htask hsel hf htasks,
        hprev, hnew]
      constructor <;> split <;> omega
  have hraise := h.limits hw hmem hid htokens hcost
  constructor
  · intro m' hm'
    obtain ⟨m, hm, hmid, hle, -⟩ := hraise.exists_old hm'
    have := hs.tokens m hm
    have := (hshrink m.id).1
    rw [hmid]
    omega
  · intro m' hm'
    obtain ⟨m, hm, hmid, -, hle⟩ := hraise.exists_old hm'
    have := hs.cost m hm
    have := (hshrink m.id).2
    rw [hmid]
    omega

/-- A new proposal. -/
theorem RevisionsSound.of_proposed {revision : MissionBudgetRevision} {mission : Mission}
    (hs : RevisionsSound s.mission_budget_revisions) (h : BudgetProposed s t revision mission) :
    RevisionsSound t.mission_budget_revisions := by
  obtain ⟨events, rfl⟩ := h.state
  have hmem : ∀ P : MissionBudgetRevision → Prop, (∀ r ∈ s.mission_budget_revisions, P r) →
      P revision → ∀ r ∈ s.mission_budget_revisions ++ [revision], P r := by
    intro P hold hnew r hr
    rcases List.mem_append.mp hr with hr | hr
    · exact hold r hr
    · rw [List.mem_singleton.mp hr]
      exact hnew
  refine ⟨hs.keyed.append_singleton ?_, hs.one_pending.append_singleton ?_,
    hmem _ hs.tokens_grow h.tokens_grow, hmem _ hs.cost_grows h.cost_grows,
    hmem _ hs.narrow h.narrow⟩
  · intro r hr
    exact h.fresh r hr
  · intro _ r hr hpending hkey
    simp only [Prod.mk.injEq, beq_iff_eq] at hkey hpending
    exact h.unique r hr hkey.1 hkey.2 hpending

/-- A decision. -/
theorem RevisionsSound.of_decided {input : DecideMissionBudgetRevisionInput}
    {revision : MissionBudgetRevision} {mission : Mission}
    (hs : RevisionsSound s.mission_budget_revisions)
    (h : BudgetDecided s input t revision mission) :
    RevisionsSound t.mission_budget_revisions := by
  obtain ⟨f, hf, hrevisions⟩ := h.revisions
  have hupd : Updated (fun r r' => r'.id = r.id ∧ r'.corp_id = r.corp_id
      ∧ r'.mission_id = r.mission_id ∧ (r'.status = .pending → r.status = .pending)
      ∧ r'.current_budget_tokens = r.current_budget_tokens
      ∧ r'.current_budget_cost_microusd = r.current_budget_cost_microusd
      ∧ r'.proposed_budget_tokens = r.proposed_budget_tokens
      ∧ r'.proposed_budget_cost_microusd = r.proposed_budget_cost_microusd
      ∧ r'.replacement = r.replacement) s.mission_budget_revisions t.mission_budget_revisions := by
    rw [hrevisions]
    refine Updated.of_updateWhere ?_ fun r _ _ => ⟨rfl, rfl, rfl, id, rfl, rfl, rfl, rfl, rfl⟩
    intro r _ _
    obtain ⟨hid, hcorp, hmission, hstatus, hrest⟩ := hf r
    refine ⟨hid, hcorp, hmission, fun hp => ?_, hrest⟩
    rw [hstatus, decision_status] at hp
    split at hp <;> cases hp
  refine ⟨hupd.keyed hs.keyed fun _ _ hr => hr.1, ?_, ?_, ?_, ?_⟩
  · refine hs.one_pending.updated hupd ?_ ?_
    · intro r r' hr
      rw [hr.2.1, hr.2.2.1]
    · intro r _ r' hr hp
      simp only [beq_iff_eq] at hp ⊢
      exact hr.2.2.2.1 hp
  · intro r' hr'
    obtain ⟨r, hr, -, -, -, -, hct, -, hpt, -⟩ := hupd.exists_old hr'
    rw [hct, hpt]
    exact hs.tokens_grow r hr
  · intro r' hr'
    obtain ⟨r, hr, -, -, -, -, -, hcc, -, hpc, -⟩ := hupd.exists_old hr'
    rw [hcc, hpc]
    exact hs.cost_grows r hr
  · intro r' hr'
    obtain ⟨r, hr, -, -, -, -, -, -, -, -, hrep⟩ := hupd.exists_old hr'
    rw [hrep]
    exact hs.narrow r hr

/-- **Every call keeps the invariant.** -/
theorem Archive.Sound.exec (hs : s.Sound) (h : Archive.exec env s op = .ok t) : t.Sound := by
  have heff := Archive.exec_effect hs.inv h
  have hinv := heff.inv hs.inv
  have hw := hs.inv.life.toWellFormed
  cases heff with
  | turned db hdb _ hterms _ =>
    subst hdb
    exact ⟨hinv, hs.budgeted.of_sameTerms hterms, hs.revisions⟩
  | planned db agents plan input mission hdb _ hplan hstored hplanned _ =>
    subst hdb
    exact ⟨hinv, hs.budgeted.of_planned hw (Server.validate_plan_accepted hplan) hstored hplanned,
      hs.revisions⟩
  | revised now input mission task replacement hop _ h =>
    exact ⟨hinv, hs.budgeted.of_contractRevised hw h, h.budget_revisions ▸ hs.revisions⟩
  | proposed input revision mission hop h =>
    have hrev := hs.revisions.of_proposed h
    obtain ⟨events, rfl⟩ := h.state
    exact ⟨hinv, ⟨hs.budgeted.tokens, hs.budgeted.cost⟩, hrev⟩
  | decided input revision mission hop _ h =>
    refine ⟨hinv, ?_, hs.revisions.of_decided h⟩
    rcases h.outcome with ⟨-, hmissions, htasks⟩ | ⟨-, happroved⟩
    · have hcommitted : ∀ column mission_id,
          t.committed column mission_id = s.committed column mission_id := by
        intro column mission_id
        unfold Db.committed
        rw [htasks]
      constructor
      · intro m hm
        rw [hcommitted]
        exact hs.budgeted.tokens m (hmissions ▸ hm)
      · intro m hm
        rw [hcommitted]
        exact hs.budgeted.cost m (hmissions ▸ hm)
    · exact hs.budgeted.of_approved hw h.mission_mem h.mission_id
        (hs.revisions.tokens_grow revision h.revision_mem)
        (hs.revisions.cost_grows revision h.revision_mem)
        (hs.revisions.narrow revision h.revision_mem) happroved

/-- No call lowers a mission's limits. -/
theorem Archive.Sound.limits (hs : s.Sound) (h : Archive.exec env s op = .ok t) :
    ∀ m ∈ s.missions, ∃ m' ∈ t.missions, m.Raised m' := by
  have hw := hs.inv.life.toWellFormed
  cases Archive.exec_effect hs.inv h with
  | turned db hdb _ hterms _ =>
    subst hdb
    intro m hm
    obtain ⟨m', hm', hk⟩ := hterms.missions.exists_new hm
    exact ⟨m', hm', hk.id, hk.budget_tokens.ge, hk.budget_cost_microusd.ge⟩
  | planned db agents plan input mission hdb _ _ _ hplanned _ =>
    subst hdb
    intro m hm
    refine ⟨m, ?_, Mission.Raised.refl m⟩
    change m ∈ db.missions
    rw [hplanned.missions]
    exact List.mem_append_left _ hm
  | revised now input mission task replacement hop _ h =>
    intro m hm
    obtain ⟨m', hm', hid, ht, hc⟩ := h.missions.exists_new hm
    exact ⟨m', hm', hid, ht.ge, hc.ge⟩
  | proposed input revision mission hop h =>
    obtain ⟨events, rfl⟩ := h.state
    exact fun m hm => ⟨m, hm, Mission.Raised.refl m⟩
  | decided input revision mission hop _ h =>
    intro m hm
    rcases h.outcome with ⟨-, hmissions, -⟩ | ⟨-, happroved⟩
    · exact ⟨m, hmissions ▸ hm, Mission.Raised.refl m⟩
    · exact (happroved.limits hw h.mission_mem h.mission_id
        (hs.revisions.tokens_grow revision h.revision_mem)
        (hs.revisions.cost_grows revision h.revision_mem)).exists_new hm

/-- A decided revision is never touched again. -/
theorem Archive.Sound.decided_stays (hs : s.Sound) (h : Archive.exec env s op = .ok t)
    {r : MissionBudgetRevision} (hr : r ∈ s.mission_budget_revisions)
    (hdone : r.status ≠ .pending) :
    r ∈ t.mission_budget_revisions := by
  cases Archive.exec_effect hs.inv h with
  | turned db hdb _ _ _ =>
    subst hdb
    exact hr
  | planned db agents plan input mission hdb _ _ _ _ _ =>
    subst hdb
    exact hr
  | revised now input mission task replacement hop _ h => exact h.budget_revisions ▸ hr
  | proposed input revision mission hop h =>
    obtain ⟨events, rfl⟩ := h.state
    exact List.mem_append_left _ hr
  | decided input revision mission hop _ h =>
    obtain ⟨f, -, hrevisions⟩ := h.revisions
    rw [hrevisions]
    refine mem_updateWhere.mpr ⟨r, hr, if_neg fun hsel => ?_⟩
    simp only [Bool.and_eq_true, beq_iff_eq] at hsel
    -- Only the pending revision of the decision is written.
    have hsame := hs.revisions.keyed.eq_of_mem hr h.revision_mem (hsel.1.trans h.revision_id.symm)
    rw [hsame] at hdone
    exact hdone h.pending

/-! ## Approvals -/

/-- The tokens the runs of a mission have used, exactly. -/
def Db.consumed_tokens (s : Db) (corp_id mission_id : Uuid) : Int :=
  (((s.mission_runs mission_id).filter fun r => r.corp_id == corp_id).map fun r =>
    r.input_tokens + r.output_tokens).sum

/-- The cost of the runs of a mission, exactly. -/
def Db.consumed_cost (s : Db) (corp_id mission_id : Uuid) : Int :=
  (((s.mission_runs mission_id).filter fun r => r.corp_id == corp_id).map
    Run.cost_microusd).sum

theorem mapM_run_tokens {runs : List Run} {tokens : List Int}
    (h : runs.mapM run_tokens = .ok tokens) :
    tokens = runs.map fun r => r.input_tokens + r.output_tokens := by
  induction runs generalizing tokens with
  | nil =>
    rw [List.mapM_nil, pure_eq_ok] at h
    exact h.symm
  | cons r runs ih =>
    simp only [List.mapM_cons, bind_eq_ok, pure_eq_ok] at h
    obtain ⟨n, hn, rest, hrest, rfl⟩ := h
    rw [List.map_cons, ← ih hrest, bigint_ok hn]

theorem mission_usage_tx_ok {s : Db} {corp_id mission_id : Uuid} {tokens cost : Int}
    (h : mission_usage_tx s corp_id mission_id = .ok (tokens, cost)) :
    tokens = s.consumed_tokens corp_id mission_id ∧ cost = s.consumed_cost corp_id mission_id := by
  unfold mission_usage_tx at h
  simp only [sum_tokens, sum_cost, bind_eq_ok, pure_eq_ok, Prod.mk.injEq] at h
  obtain ⟨n, ⟨rows, hrows, hn⟩, c, hc, rfl, rfl⟩ := h
  rw [bigint_ok hn, bigint_ok hc, mapM_run_tokens hrows]
  exact ⟨rfl, rfl⟩

/-- What an approval that takes effect has found: the limits are the recorded ones, and the
proposed ones exceed what has been consumed. -/
structure Approvable (s : Db) (r : MissionBudgetRevision) : Prop where
  pending : r.status = .pending
  current : ∃ m ∈ s.missions, m.id = r.mission_id
    ∧ m.budget_tokens = r.current_budget_tokens
    ∧ m.budget_cost_microusd = r.current_budget_cost_microusd
  tokens : s.consumed_tokens r.corp_id r.mission_id < r.proposed_budget_tokens
  cost : s.consumed_cost r.corp_id r.mission_id < r.proposed_budget_cost_microusd

theorem BudgetDecided.approvable {input : DecideMissionBudgetRevisionInput}
    {revision : MissionBudgetRevision} {mission : Mission}
    (h : BudgetDecided s input t revision mission) (happ : input.approved = true) :
    Approvable s.toDb revision := by
  rcases h.outcome with ⟨hrej, -⟩ | ⟨-, hok⟩
  · rw [happ] at hrej
    cases hrej
  · obtain ⟨tokens, cost, husage, htokens, hcost⟩ := hok.consumed
    obtain ⟨rfl, rfl⟩ := mission_usage_tx_ok husage
    rw [← h.revision_corp, ← h.revision_mission] at htokens hcost
    exact ⟨h.pending, ⟨mission, h.mission_mem, h.mission_id.trans h.revision_mission.symm,
      hok.current_tokens, hok.current_cost⟩, htokens, hcost⟩

/-- A revision that becomes approved was approvable. -/
theorem Archive.Sound.approval (hs : s.Sound) (h : Archive.exec env s op = .ok t)
    {r r' : MissionBudgetRevision} (hr : r ∈ s.mission_budget_revisions)
    (hr' : r' ∈ t.mission_budget_revisions) (hid : r'.id = r.id) (hbefore : r.status ≠ .approved)
    (hafter : r'.status = .approved) : Approvable s.toDb r := by
  -- A call that leaves the table alone approves nothing.
  have hsame : t.mission_budget_revisions = s.mission_budget_revisions → Approvable s.toDb r := by
    intro he
    rw [he] at hr'
    rw [hs.revisions.keyed.eq_of_mem hr' hr hid] at hafter
    exact absurd hafter hbefore
  cases Archive.exec_effect hs.inv h with
  | turned db hdb _ _ _ => exact hsame (by rw [hdb]; rfl)
  | planned db agents plan input mission hdb _ _ _ _ _ => exact hsame (by rw [hdb]; rfl)
  | revised now input mission task replacement hop _ h => exact hsame h.budget_revisions
  | proposed input revision mission hop h =>
    obtain ⟨events, rfl⟩ := h.state
    rcases List.mem_append.mp hr' with hold | hnew
    · rw [hs.revisions.keyed.eq_of_mem hold hr hid] at hafter
      exact absurd hafter hbefore
    · rw [List.mem_singleton.mp hnew] at hid
      exact absurd hid.symm (h.fresh r hr)
  | decided input revision mission hop _ h =>
    obtain ⟨f, hf, hrevisions⟩ := h.revisions
    rw [hrevisions] at hr'
    obtain ⟨x, hx, hxr'⟩ := mem_updateWhere.mp hr'
    by_cases hsel : (x.id == input.revision_id && x.corp_id == input.corp_id) = true
    · rw [if_pos hsel] at hxr'
      subst hxr'
      obtain ⟨hfid, -, -, hstatus, -⟩ := hf x
      simp only [Bool.and_eq_true, beq_iff_eq] at hsel
      obtain rfl := hs.revisions.keyed.eq_of_mem hx hr (hfid.symm.trans hid)
      obtain rfl := hs.revisions.keyed.eq_of_mem hx h.revision_mem
        (hsel.1.trans h.revision_id.symm)
      refine h.approvable ?_
      rw [hstatus, decision_status] at hafter
      by_contra happ
      rw [if_neg happ] at hafter
      cases hafter
    · rw [if_neg hsel] at hxr'
      subst hxr'
      rw [hs.revisions.keyed.eq_of_mem hx hr hid] at hafter
      exact absurd hafter hbefore

/-- A mission's limits change only by a revision that was approvable, to what it proposed. -/
theorem Archive.Sound.raise (hs : s.Sound) (h : Archive.exec env s op = .ok t) {m m' : Mission}
    (hm : m ∈ s.missions) (hm' : m' ∈ t.missions) (hid : m'.id = m.id)
    (hchange : ¬ (m'.budget_tokens = m.budget_tokens
      ∧ m'.budget_cost_microusd = m.budget_cost_microusd)) :
    ∃ r ∈ s.mission_budget_revisions, r.mission_id = m.id ∧ Approvable s.toDb r
      ∧ m'.budget_tokens = r.proposed_budget_tokens
      ∧ m'.budget_cost_microusd = r.proposed_budget_cost_microusd := by
  have hw := hs.inv.life.toWellFormed
  -- An old mission of the same identifier is `m` itself.
  have hold : ∀ x ∈ s.missions, m'.id = x.id → m'.budget_tokens = x.budget_tokens →
      m'.budget_cost_microusd = x.budget_cost_microusd → False := by
    intro x hx hxid ht hc
    obtain rfl := hw.missions_keyed.eq_of_mem hx hm (hxid.symm.trans hid)
    exact hchange ⟨ht, hc⟩
  cases Archive.exec_effect hs.inv h with
  | turned db hdb _ hterms _ =>
    subst hdb
    obtain ⟨x, hx, hk⟩ := hterms.missions.exists_old hm'
    exact (hold x hx hk.id hk.budget_tokens hk.budget_cost_microusd).elim
  | planned db agents plan input mission hdb _ _ _ hplanned _ =>
    subst hdb
    change m' ∈ db.missions at hm'
    rw [hplanned.missions] at hm'
    rcases List.mem_append.mp hm' with hx | hx
    · exact (hold m' hx rfl rfl rfl).elim
    · rw [List.mem_singleton.mp hx] at hid
      exact absurd hid.symm (hplanned.fresh m hm)
  | revised now input mission task replacement hop _ h =>
    obtain ⟨x, hx, hxid, ht, hc⟩ := h.missions.exists_old hm'
    exact (hold x hx hxid ht hc).elim
  | proposed input revision mission hop h =>
    obtain ⟨events, rfl⟩ := h.state
    exact (hold m' hm' rfl rfl rfl).elim
  | decided input revision mission hop _ h =>
    rcases h.outcome with ⟨-, hmissions, -⟩ | ⟨happ, hok⟩
    · exact (hold m' (hmissions ▸ hm') rfl rfl rfl).elim
    · rw [hok.missions] at hm'
      obtain ⟨x, hx, hxm⟩ := mem_updateWhere.mp hm'
      by_cases hsel : (x.id == input.mission_id && x.corp_id == input.corp_id) = true
      · rw [if_pos hsel] at hxm
        simp only [Bool.and_eq_true, beq_iff_eq] at hsel
        subst hxm
        refine ⟨revision, h.revision_mem, ?_, h.approvable happ, rfl, rfl⟩
        rw [h.revision_mission, ← hsel.1]
        exact hid
      · rw [if_neg hsel] at hxm
        subst hxm
        exact (hold x hx rfl rfl rfl).elim

end Calls

/-! ## Runs -/

theorem Archive.Initial.sound {s : Archive} (h : s.Initial) : s.Sound where
  inv := h.db.inv
  budgeted := by
    constructor
    · intro m hm
      rw [h.db.missions] at hm
      cases hm
    · intro m hm
      rw [h.db.missions] at hm
      cases hm
  revisions := by
    rw [h.mission_budget_revisions]
    refine ⟨List.nodup_nil, List.nodup_nil, ?_, ?_, ?_⟩ <;> intro r hr <;> cases hr

theorem Archive.sound {s : Archive} (h : (revisions env).Reachable s) : s.Sound :=
  TransitionSystem.ReachableVia.invariant_of_exec h (fun _ hs => hs.sound)
    fun _ _ _ hs _ he => hs.exec he

/-- **Budget conservation.** In every reachable state the tasks of a mission demand at most
its budget and it has at most one pending revision; from there on its limits never fall and
a decided revision is never decided again; and a revision is approved, and limits change,
only if the limits are the recorded ones and the proposed ones exceed what was consumed. -/
theorem budget_conservation {s : Archive} (h : (revisions env).Reachable s) :
    (∀ m ∈ s.missions, s.committed (fun c => c.budget_tokens) m.id ≤ m.budget_tokens
        ∧ s.committed (fun c => c.budget_cost_microusd) m.id ≤ m.budget_cost_microusd)
    ∧ (∀ t, (revisions env).Reaches (fun _ _ => True) s t →
        (∀ m ∈ s.missions, ∃ m' ∈ t.missions, m'.id = m.id ∧ m.budget_tokens ≤ m'.budget_tokens
          ∧ m.budget_cost_microusd ≤ m'.budget_cost_microusd)
        ∧ ∀ r ∈ s.mission_budget_revisions, r.status ≠ .pending →
          ∀ r' ∈ t.mission_budget_revisions, r'.id = r.id → r' = r)
    ∧ (∀ r ∈ s.mission_budget_revisions, ∀ r' ∈ s.mission_budget_revisions,
        r.status = .pending → r'.status = .pending → r.corp_id = r'.corp_id →
        r.mission_id = r'.mission_id → r = r')
    ∧ ∀ op t, Archive.exec env s op = .ok t →
        (∀ r ∈ s.mission_budget_revisions, ∀ r' ∈ t.mission_budget_revisions, r'.id = r.id →
          r.status ≠ .approved → r'.status = .approved → Approvable s.toDb r)
        ∧ ∀ m ∈ s.missions, ∀ m' ∈ t.missions, m'.id = m.id →
          ¬ (m'.budget_tokens = m.budget_tokens
            ∧ m'.budget_cost_microusd = m.budget_cost_microusd) →
          ∃ r ∈ s.mission_budget_revisions, r.mission_id = m.id ∧ Approvable s.toDb r
            ∧ m'.budget_tokens = r.proposed_budget_tokens
            ∧ m'.budget_cost_microusd = r.proposed_budget_cost_microusd := by
  have hs := Archive.sound h
  refine ⟨fun m hm => ⟨hs.budgeted.tokens m hm, hs.budgeted.cost m hm⟩, ?_, ?_, ?_⟩
  · intro t hrun
    -- Soundness comes along, because both facts about a step rest on it.
    have hkept : t.Sound ∧ (∀ m ∈ s.missions, ∃ m' ∈ t.missions, m.Raised m')
        ∧ ∀ r ∈ s.mission_budget_revisions, r.status ≠ .pending →
          r ∈ t.mission_budget_revisions := by
      refine TransitionSystem.Reaches.preserves_of_exec (I := fun u : Archive => u.Sound
        ∧ (∀ m ∈ s.missions, ∃ m' ∈ u.missions, m.Raised m')
        ∧ ∀ r ∈ s.mission_budget_revisions, r.status ≠ .pending →
          r ∈ u.mission_budget_revisions) hrun
        ⟨hs, fun m hm => ⟨m, hm, Mission.Raised.refl m⟩, fun r hr _ => hr⟩ ?_
      rintro a op b ⟨ha, hlimits, hdone⟩ - he
      refine ⟨ha.exec he, fun m hm => ?_, fun r hr hst => ha.decided_stays he (hdone r hr hst) hst⟩
      obtain ⟨x, hx, hxid, hxt, hxc⟩ := hlimits m hm
      obtain ⟨y, hy, hyid, hyt, hyc⟩ := ha.limits he x hx
      exact ⟨y, hy, hyid.trans hxid, hxt.trans hyt, hxc.trans hyc⟩
    obtain ⟨ht, hlimits, hdone⟩ := hkept
    refine ⟨fun m hm => hlimits m hm, fun r hr hst r' hr' hid => ?_⟩
    exact ht.revisions.keyed.eq_of_mem hr' (hdone r hr hst) hid
  · intro r hr r' hr' hp hp' hcorp hmission
    exact hs.revisions.one_pending.eq_of_mem hr hr' (by simpa using hp) (by simpa using hp')
      (by simp only [hcorp, hmission])
  · intro op t he
    exact ⟨fun r hr r' hr' hid hb ha => hs.approval he hr hr' hid hb ha,
      fun m hm m' hm' hid hch => hs.raise he hm hm' hid hch⟩

/-! ## A run

A mission of one task whose run is suspended by the breaker: the run is cancelled, the
workspace preserved, and from there the contract may be narrowed or the budget raised. -/

namespace Workshop

def archive : Archive := { toDb := Office.db }

theorem archive_initial : archive.Initial := ⟨Office.initial, rfl, rfl⟩

def suspended : List RevisionOp :=
  [.create_mission Server.Workshop.roster (Server.Workshop.plan [Server.Workshop.task "a" [] 0])
    { corp_id := 1, requested_by := 1, title := "Mission", description := "", room_id := 10
      plan := Office.plan [] },
   .lifecycle (Office.dispatch 1 50),
   .lifecycle (Office.report 50 201 .run_session (.obj [("session_id", .str "session")])),
   .lifecycle (Office.report 50 202 .run_started (.obj [("workspace", .str "/w")])),
   .lifecycle (Office.report 50 203 .run_usage (.obj [("input_tokens", .int 1000)])),
   .lifecycle (.evaluate_circuit_breaker 0 1 50),
   .lifecycle (Office.report 50 301 .run_cancelled (.obj [])),
   .lifecycle (Office.report 50 302 .run_workspace_preserved (.obj []))]

def propose (finish_scope : Option MissionFinishScopeInput) : RevisionOp :=
  .propose_mission_budget_revision
    { corp_id := 1, mission_id := 1, actor_id := 1, expected_budget_tokens := 5000
      expected_budget_cost_microusd := 5000, proposed_budget_tokens := 6000
      proposed_budget_cost_microusd := 5000, rationale := "finish", idempotency_key := 30
      finish_scope }

def approve : RevisionOp :=
  .decide_mission_budget_revision
    { corp_id := 1, mission_id := 1, revision_id := 1, actor_id := 1, expected_version := 1
      approved := true, note := "yes", decision_key := 31 }

def scope : MissionFinishScopeInput :=
  { task_id := 1, objective := "Finish", expected_output := "A report"
    acceptance_tests := ["report exists"], write_scope := ["out/report"], budget_tokens := 500
    budget_cost_microusd := 500
    verification_policy := { checks := [.artifact 1], manual_gate := none } }

def after (ops : List RevisionOp) : Archive := (revisions Office.digest).run archive ops

theorem after_reachable (ops : List RevisionOp) :
    (revisions Office.digest).Reachable (after ops) :=
  .run archive_initial ops

end Workshop

set_option maxRecDepth 20000 in
/-- The raise is approved, and the mission's tasks still fit its budget. -/
theorem budget_conservation_raised :
    let s := Workshop.after (Workshop.suspended ++ [Workshop.propose none, Workshop.approve])
    (s.missions.map fun m => m.budget_tokens) = [6000]
    ∧ ∀ m ∈ s.missions, s.committed (fun c => c.budget_tokens) m.id ≤ m.budget_tokens := by
  refine ⟨by decide +kernel, fun m hm => ?_⟩
  exact ((budget_conservation (Workshop.after_reachable _)).1 m hm).1

end Crony.Store
