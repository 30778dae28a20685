/-
Contract revisions only narrow.

A resume revision and a finish scope are compared with the contract they replace by
different functions, but both ask the same thing: each new scope pattern, read as a path,
is allowed by an old pattern. That this makes every path of the new scope a path of the old
one needs the old pattern's stem to be free of wildcards, which all three ways a contract
gets into the tables ensure; with it the relation composes along any chain of revisions.
-/
import Crony.Properties.Budgets
import Crony.Properties.Scopes

set_option autoImplicit false

open Crony.Lib

namespace Crony

/-! ## Narrowing -/

/-- The paths a contract allows to be written. -/
def ContractDocument.Allows (c : ContractDocument) (path : String) : Prop :=
  ∃ scope ∈ c.write_scope, write_scope_allows_path scope path = true

/-- The new contract gives no authority the old one did not. -/
structure ContractDocument.Narrows (old new : ContractDocument) : Prop where
  paths : ∀ path, new.Allows path → old.Allows path
  tools : ∀ tool ∈ new.allowed_tools, tool ∈ old.allowed_tools
  prohibitions : ∀ action ∈ old.prohibited_actions, action ∈ new.prohibited_actions

/-- All scopes of the contract are plain. -/
def ContractDocument.Plain (c : ContractDocument) : Prop :=
  ∀ scope ∈ c.write_scope, PlainScope scope

namespace ContractDocument

variable {a b c : ContractDocument}

theorem Narrows.refl : a.Narrows a := ⟨fun _ h => h, fun _ h => h, fun _ h => h⟩

theorem Narrows.trans (h : a.Narrows b) (h' : b.Narrows c) : a.Narrows c where
  paths := fun path hp => h.paths path (h'.paths path hp)
  tools := fun tool ht => h.tools tool (h'.tools tool ht)
  prohibitions := fun action hp => h'.prohibitions action (h.prohibitions action hp)

/-- The comparison of scopes the revisions make, from a plain contract. -/
theorem allows_of_contained (ha : a.Plain)
    (h : ∀ candidate ∈ b.write_scope, ∃ authorized ∈ a.write_scope,
      write_scope_allows_path authorized candidate = true) (path : String) (hp : b.Allows path) :
    a.Allows path := by
  obtain ⟨candidate, hc, hpath⟩ := hp
  obtain ⟨authorized, hauth, hallows⟩ := h candidate hc
  exact ⟨authorized, hauth, write_scope_allows_path_trans (ha authorized hauth) hallows hpath⟩

end ContractDocument

end Crony

namespace Crony.Server

/-! ## Planned contracts -/

theorem validate_write_scope_ok {task_key : String} {write_scope : List String}
    (h : validate_write_scope task_key write_scope = .ok ()) :
    ∀ scope ∈ write_scope, write_scope_is_valid scope = true := by
  unfold validate_write_scope at h
  split at h
  · cases h
  · rename_i hnone
    intro scope hscope
    simpa using List.find?_eq_none.mp hnone scope hscope

theorem validate_task_plain {agents : List Store.Agent} {keys : List (String × Nat)}
    {task : PlannedTask} (h : validate_task agents keys task = .ok ()) : task.contract.Plain := by
  unfold validate_task at h
  simp only [bind_eq_ok, ensure_eq_ok, context_eq_ok] at h
  obtain ⟨_, -, _, -, agent, -, _, -, _, -, _, -, _, hcontract, -⟩ := h
  unfold validate_contract at hcontract
  simp only [bind_eq_ok, ensure_eq_ok] at hcontract
  obtain ⟨_, -, _, -, _, -, _, -, _, -, _, -, _, -, _, -, _, -, _, hscope, -⟩ := hcontract
  exact fun scope hs => .of_valid (validate_write_scope_ok hscope scope hs)

/-- The contracts of an accepted plan are plain. -/
theorem validate_plan_plain {calls : Nat} {plan : TaskGraphPlan} {agents : List Store.Agent}
    (h : validate_plan calls plan agents = some (.ok ())) :
    ∀ task ∈ plan.tasks, task.contract.Plain := by
  intro task htask
  obtain ⟨seen, hvalid⟩ := validate_plan_each h task htask
  exact validate_task_plain hvalid

end Crony.Server

namespace Crony.Store

variable {env : Env} {s t : Archive} {op : RevisionOp}

/-! ## Revisions of one task -/

/-- All contracts of the tables are plain. -/
def Archive.Plain (s : Archive) : Prop := ∀ x ∈ s.tasks, x.contract.Plain

theorem normalize_for_adapter_plain {c : ContractDocument} {adapter : String} (h : c.Plain) :
    (TaskContract.normalize_for_adapter c adapter).Plain := by
  unfold TaskContract.normalize_for_adapter
  split
  · exact h
  · exact h

theorem ContractRevised.plain {input : CreateMissionContractRevisionInput} {mission : Mission}
    {task : Task} {replacement : ContractDocument}
    (h : ContractRevised s input t mission task replacement) : replacement.Plain :=
  fun scope hscope => .of_valid (h.write_scope scope hscope)

theorem Replacement.Narrow.plain {scope : Replacement} (h : scope.Narrow) :
    scope.replacement_contract.Plain := by
  intro candidate hc
  obtain ⟨value, hvalue⟩ := h.normalized candidate hc
  exact .of_normalized hvalue

theorem Archive.Sound.plain_exec (hs : s.Sound) (hplain : s.Plain)
    (h : Archive.exec env s op = .ok t) : t.Plain := by
  cases Archive.exec_effect hs.inv h with
  | turned db hdb _ hterms _ =>
    subst hdb
    intro x' hx'
    obtain ⟨x, hx, hk⟩ := hterms.tasks.exists_old hx'
    rw [hk.contract]
    exact hplain x hx
  | planned db agents plan input mission hdb _ hplan hstored hplanned _ =>
    subst hdb
    intro x hx
    change x ∈ db.tasks at hx
    rw [hplanned.tasks] at hx
    rcases List.mem_append.mp hx with hx | hx
    · exact hplain x hx
    · obtain ⟨⟨task, index⟩, hmem, rfl⟩ := List.mem_map.mp hx
      have htask : task ∈ plan.stored.tasks := by
        rw [← hstored]
        exact List.fst_mem_of_mem_zipIdx hmem
      obtain ⟨raw, hraw, rfl⟩ := List.mem_map.mp htask
      exact normalize_for_adapter_plain (Server.validate_plan_plain hplan raw hraw)
  | revised now input mission task replacement hop _ h =>
    intro x' hx'
    rw [h.tasks] at hx'
    obtain ⟨x, hx, hxx'⟩ := mem_updateWhere.mp hx'
    split at hxx'
    · subst hxx'
      exact h.plain
    · subst hxx'
      exact hplain x hx
  | proposed input revision mission hop h =>
    obtain ⟨events, rfl⟩ := h.state
    exact hplain
  | decided input revision mission hop _ h =>
    rcases h.outcome with ⟨-, -, htasks⟩ | ⟨-, hok⟩
    · unfold Archive.Plain
      rw [htasks]
      exact hplain
    · rcases hok.tasks with ⟨-, htasks⟩ | ⟨scope, task, hscope, -, -, -, -, -, htasks⟩
      · unfold Archive.Plain
        rw [htasks]
        exact hplain
      · intro x' hx'
        rw [htasks] at hx'
        obtain ⟨x, hx, hxx'⟩ := mem_updateWhere.mp hx'
        split at hxx'
        · subst hxx'
          exact (hs.revisions.narrow revision h.revision_mem scope hscope).plain
        · subst hxx'
          exact hplain x hx

/-- What a link does to the contract of its task. -/
def Task.Relinked (x x' : Task) : Option Link → Prop
  | none => x'.contract = x.contract ∧ x'.contract_version = x.contract_version
  | some .redispatch => x.contract_version < x'.contract_version
  | some .resume => x.contract.Narrows x'.contract ∧ x.contract_version < x'.contract_version
  -- An approval writes the contract of the finish scope under the version that was there.
  | some .finish_scope =>
    x.contract.Narrows x'.contract ∧ x'.contract_version = x.contract_version

theorem Task.Relinked.same {x x' : Task} (hcontract : x'.contract = x.contract)
    (hversion : x'.contract_version = x.contract_version) : x.Relinked x' none :=
  ⟨hcontract, hversion⟩

/-- A contract revision, seen from any task. -/
theorem ContractRevised.relinked {now : Int} {input : CreateMissionContractRevisionInput}
    {mission : Mission} {task : Task} {replacement : ContractDocument} (hs : s.Sound)
    (hplain : s.Plain) (hnew : s.contract_revision_recorded input = false)
    (h : ContractRevised s input t mission task replacement) {x : Task} (hx : x ∈ s.tasks) :
    ∃ x' ∈ t.tasks, x'.id = x.id
      ∧ x.Relinked x' (s.link x.id (.create_mission_contract_revision now input)) := by
  have hsel := hs.inv.life.toWellFormed.selects_task h.task_mem h.task_id h.task_mission h.task_corp
  rw [h.tasks]
  by_cases hxt : x = task
  · subst hxt
    refine ⟨_, mem_updateWhere.mpr ⟨x, hx, if_pos ((hsel x hx).mpr rfl)⟩, rfl, ?_⟩
    rw [Archive.link, if_pos ⟨h.task_id.symm, hnew⟩]
    have hgrows : x.contract_version
        < max mission.specification_version x.contract_version + 1 := by omega
    cases haction : input.next_action with
    | redispatch => exact hgrows
    | resume =>
      refine ⟨?_, hgrows⟩
      have hnarrow := h.narrow haction
      unfold ensure_resume_contract_is_narrow at hnarrow
      simp only [bind_eq_ok, ensure_eq_ok] at hnarrow
      obtain ⟨_, -, _, htools, _, hactions, _, hscope, -⟩ := hnarrow
      exact ⟨ContractDocument.allows_of_contained (hplain x hx) hscope, htools, hactions⟩
  · have hother : ¬ (input.task_id = x.id ∧ s.contract_revision_recorded input = false) := by
      rintro ⟨hid, -⟩
      exact hxt (hs.inv.life.toWellFormed.tasks_keyed.eq_of_mem hx h.task_mem
        (hid.symm.trans h.task_id.symm))
    refine ⟨x, mem_updateWhere.mpr ⟨x, hx, ?_⟩, rfl, ?_⟩
    · exact if_neg fun he => hxt ((hsel x hx).mp he)
    · rw [Archive.link, if_neg hother]
      exact .same rfl rfl

/-- A decision, seen from any task. -/
theorem BudgetDecided.relinked {input : DecideMissionBudgetRevisionInput}
    {revision : MissionBudgetRevision} {mission : Mission} (hs : s.Sound) (hplain : s.Plain)
    (hnew : s.decision_recorded input = false) (h : BudgetDecided s input t revision mission)
    {x : Task} (hx : x ∈ s.tasks) :
    ∃ x' ∈ t.tasks, x'.id = x.id
      ∧ x.Relinked x' (s.link x.id (.decide_mission_budget_revision input)) := by
  have hw := hs.inv.life.toWellFormed
  -- The decided revision is the only one of its identifier.
  have hrevision : ∀ r ∈ s.mission_budget_revisions, r.id = input.revision_id → r = revision := by
    intro r hr hid
    exact hs.revisions.keyed.eq_of_mem hr h.revision_mem (hid.trans h.revision_id.symm)
  -- Where the tasks stay as they are, the call must not be a link of this task.
  have hsame : (input.approved = true → ∀ scope ∈ revision.replacement, scope.task_id ≠ x.id) →
      x.Relinked x (s.link x.id (.decide_mission_budget_revision input)) := by
    intro hno
    rw [Archive.link, if_neg]
    · exact .same rfl rfl
    · rintro ⟨happ, -, r, hr, hid, scope, hscope, htask⟩
      rw [hrevision r hr hid] at hscope
      exact hno happ scope hscope htask
  rcases h.outcome with ⟨hrej, -, htasks⟩ | ⟨happ, hok⟩
  · rw [htasks]
    refine ⟨x, hx, rfl, hsame fun happ => ?_⟩
    rw [happ] at hrej
    cases hrej
  · rcases hok.tasks with ⟨hnone, htasks⟩
      | ⟨scope, task, hscope, htask, hid, hmission, hcorp, hprevious, htasks⟩
    · rw [htasks]
      refine ⟨x, hx, rfl, hsame fun _ scope hscope => ?_⟩
      rw [hnone] at hscope
      cases hscope
    · have hsel := hw.selects_task htask hid hmission hcorp
      rw [htasks]
      by_cases hxt : x = task
      · subst hxt
        refine ⟨_, mem_updateWhere.mpr ⟨x, hx, if_pos ((hsel x hx).mpr rfl)⟩, rfl, ?_⟩
        rw [Archive.link,
          if_pos ⟨happ, hnew, revision, h.revision_mem, h.revision_id, scope, hscope,
          hid.symm⟩]
        have hnarrow := hs.revisions.narrow revision h.revision_mem scope hscope
        refine ⟨⟨?_, ?_, ?_⟩, rfl⟩
        · refine ContractDocument.allows_of_contained (hplain x hx) ?_
          rw [hprevious]
          exact hnarrow.contained
        · intro tool htool
          rw [hprevious, ← hnarrow.allowed_tools]
          exact htool
        · intro action haction
          rw [hprevious, ← hnarrow.prohibited_actions] at haction
          exact haction
      · refine ⟨x, mem_updateWhere.mpr ⟨x, hx, ?_⟩, rfl, hsame fun _ other hother he => ?_⟩
        · exact if_neg fun he => hxt ((hsel x hx).mp he)
        · obtain rfl := Option.some.inj (hscope.symm.trans hother)
          exact hxt (hw.tasks_keyed.eq_of_mem hx htask (he.symm.trans hid.symm))

/-- **Every call, seen from any task.** -/
theorem Archive.Sound.relinked (hs : s.Sound) (hplain : s.Plain)
    (h : Archive.exec env s op = .ok t) {x : Task} (hx : x ∈ s.tasks) :
    ∃ x' ∈ t.tasks, x'.id = x.id ∧ x.Relinked x' (s.link x.id op) := by
  cases Archive.exec_effect hs.inv h with
  | turned db hdb _ hterms hlink =>
    subst hdb
    obtain ⟨x', hx', hk⟩ := hterms.tasks.exists_new hx
    rw [hlink]
    exact ⟨x', hx', hk.id, hk.contract, hk.contract_version⟩
  | planned db agents plan input mission hdb _ _ _ hplanned hlink =>
    subst hdb
    rw [hlink]
    refine ⟨x, ?_, rfl, rfl, rfl⟩
    change x ∈ db.tasks
    rw [hplanned.tasks]
    exact List.mem_append_left _ hx
  | revised now input mission task replacement hop hnew h =>
    rw [hop]
    exact h.relinked hs hplain hnew hx
  | proposed input revision mission hop h =>
    obtain ⟨events, rfl⟩ := h.state
    rw [hop]
    exact ⟨x, hx, rfl, rfl, rfl⟩
  | decided input revision mission hop hnew h =>
    rw [hop]
    exact h.relinked hs hplain hnew hx

/-! ## Chains -/

/-- The link an accepted call adds to the chain of a task. -/
def Archive.accepted_link (env : Env) (s : Archive) (task_id : Uuid) (op : RevisionOp) :
    Option Link :=
  match Archive.exec env s op with
  | .ok _ => s.link task_id op
  | .error _ => none

/-- The contract versions of a task after each link of its chain. -/
def chain_versions (env : Env) (task_id : Uuid) : Archive → List RevisionOp → List Int
  | _, [] => []
  | s, op :: ops =>
    let t := (revisions env).step s op
    let rest := chain_versions env task_id t ops
    if (s.accepted_link env task_id op).isSome then
      ((t.task? task_id).map Task.contract_version).toList ++ rest
    else rest

/-- The plain contracts come along in every run. -/
theorem Archive.sound_plain (h : (revisions env).Reachable s) : s.Sound ∧ s.Plain := by
  refine TransitionSystem.ReachableVia.invariant_of_exec (I := fun s : Archive => s.Sound ∧ s.Plain)
    h ?_ ?_
  · intro s hs
    refine ⟨hs.sound, fun x hx => ?_⟩
    rw [hs.db.tasks] at hx
    cases hx
  · rintro s op t ⟨hs, hplain⟩ - he
    exact ⟨hs.exec he, hs.plain_exec hplain he⟩

/-- One call of a chain. -/
theorem step_relinked (hs : s.Sound) (hplain : s.Plain) {x : Task}
    (hx : x ∈ s.tasks) :
    ∃ x' ∈ ((revisions env).step s op).tasks, x'.id = x.id
      ∧ x.Relinked x' (s.accepted_link env x.id op) := by
  unfold Archive.accepted_link
  cases he : Archive.exec env s op with
  | error e =>
    have hstep : (revisions env).step s op = s := by
      simp only [revisions, TransitionSystem.ofExec, he]
    rw [hstep]
    exact ⟨x, hx, rfl, rfl, rfl⟩
  | ok t =>
    have hstep : (revisions env).step s op = t := TransitionSystem.ofExec_step_ok he
    rw [hstep]
    exact hs.relinked hplain he hx

/-- **Contract revisions only narrow.** Along every chain of resume revisions and finish
scopes the contract keeps narrowing; its versions strictly increase exactly when no link of
the chain is a finish scope. -/
theorem contract_revisions_narrow {s : Archive} (h : (revisions env).Reachable s) {x : Task}
    (hx : x ∈ s.tasks) (ops : List RevisionOp)
    (hchain : (revisions env).Meets (fun a op => a.accepted_link env x.id op ≠ some .redispatch)
      s ops) :
    (∃ x' ∈ ((revisions env).run s ops).tasks, x'.id = x.id ∧ x.contract.Narrows x'.contract)
    ∧ (List.IsChain (· < ·) (x.contract_version :: chain_versions env x.id s ops) ↔
        (revisions env).Meets (fun a op => a.accepted_link env x.id op ≠ some .finish_scope)
          s ops) := by
  induction ops generalizing s x with
  | nil =>
    refine ⟨⟨x, hx, rfl, .refl⟩, ?_⟩
    simp only [chain_versions, TransitionSystem.Meets, iff_true]
    exact .singleton _
  | cons op ops ih =>
    obtain ⟨hs, hplain⟩ := Archive.sound_plain h
    have hstep : ∃ x' ∈ ((revisions env).step s op).tasks, x'.id = x.id
        ∧ x.Relinked x' (s.accepted_link env x.id op) := step_relinked hs hplain hx
    obtain ⟨x', hx', hid, hlink⟩ := hstep
    have hnext := TransitionSystem.ReachableVia.step (i := op) h trivial
    obtain ⟨hfirst, hrest⟩ := hchain
    rw [← hid] at hrest
    obtain ⟨⟨y, hy, hyid, hnarrow⟩, hversions⟩ := ih hnext hx' hrest
    rw [hid] at hversions
    -- The task the step leads to is the one whose version the chain records.
    have hfound : ((revisions env).step s op).task? x.id = some x' := by
      obtain ⟨ht, -⟩ := Archive.sound_plain hnext
      rw [← hid]
      exact ht.inv.life.toWellFormed.tasks_keyed.find?_eq_some hx'
    have hcons : chain_versions env x.id s (op :: ops)
        = if (s.accepted_link env x.id op).isSome then
            x'.contract_version :: chain_versions env x.id ((revisions env).step s op) ops
          else chain_versions env x.id ((revisions env).step s op) ops := by
      simp only [chain_versions, hfound, Option.map_some, Option.toList_some, List.cons_append,
        List.nil_append]
    rw [hcons, TransitionSystem.Meets, TransitionSystem.run, List.foldl_cons]
    cases hl : s.accepted_link env x.id op with
    | none =>
      rw [hl] at hlink
      obtain ⟨hcontract, hversion⟩ := hlink
      rw [hcontract] at hnarrow
      rw [hversion] at hversions
      refine ⟨⟨y, hy, hyid.trans hid, hnarrow⟩, ?_⟩
      simpa using hversions
    | some link =>
      rw [hl] at hlink hfirst
      simp only [Option.isSome_some, if_true, List.isChain_cons_cons]
      cases link with
      | redispatch => exact absurd rfl hfirst
      | resume =>
        obtain ⟨hnarrows, hgrows⟩ := hlink
        refine ⟨⟨y, hy, hyid.trans hid, hnarrows.trans hnarrow⟩, ?_⟩
        rw [hversions]
        simp [hgrows]
      | finish_scope =>
        obtain ⟨hnarrows, hsame⟩ := hlink
        refine ⟨⟨y, hy, hyid.trans hid, hnarrows.trans hnarrow⟩, ?_⟩
        simp [hsame]

/-! ## Two chains -/

namespace Workshop

/-- A resume revision of the suspended task. -/
def revise (expected_contract_version : Int) (write_scope : List String) (idempotency_key : Uuid) :
    RevisionOp :=
  .create_mission_contract_revision 0
    { corp_id := 1, mission_id := 1, task_id := 1, actor_id := 1, expected_contract_version
      next_action := .resume, source_run_id := some 50, reason := "narrow", description := ""
      contract := { Server.Workshop.contract with write_scope }
      verification_policy := { checks := [.artifact 1], manual_gate := none }, idempotency_key }

def narrowed : List RevisionOp :=
  [revise 1 ["out/report/**"] 40, revise 2 ["out/report/a"] 41]

def finished : List RevisionOp := [propose (some scope), approve]

end Workshop

set_option maxRecDepth 20000 in
/-- Two resume revisions: the versions increase, because neither link is a finish scope. -/
theorem contract_revisions_narrow_resumed :
    let s := Workshop.after Workshop.suspended
    chain_versions Office.digest 1 s Workshop.narrowed = [2, 3]
    ∧ ∃ x ∈ s.tasks, x.id = 1 ∧
      ∃ x' ∈ ((revisions Office.digest).run s Workshop.narrowed).tasks,
        x'.id = x.id ∧ x.contract.Narrows x'.contract := by
  have hone : ∃ x ∈ (Workshop.after Workshop.suspended).tasks, x.id = 1 := by decide +kernel
  obtain ⟨x, hx, hid⟩ := hone
  refine ⟨by decide +kernel, x, hx, hid, ?_⟩
  refine (contract_revisions_narrow (Workshop.after_reachable _) hx Workshop.narrowed ?_).1
  rw [hid]
  decide +kernel

set_option maxRecDepth 20000 in
/-- An approved finish scope replaces the contract and leaves its version where it was. -/
theorem finish_scope_keeps_version :
    ¬ ∀ s, (revisions Office.digest).Reachable s → ∀ x ∈ s.tasks, ∀ ops,
      (revisions Office.digest).Meets
        (fun a op => a.accepted_link Office.digest x.id op ≠ some .redispatch) s ops →
      List.IsChain (· < ·) (x.contract_version :: chain_versions Office.digest x.id s ops) := by
  intro hall
  have hone : ∃ x ∈ (Workshop.after Workshop.suspended).tasks, x.id = 1
      ∧ x.contract_version = 1 := by
    decide +kernel
  obtain ⟨x, hx, hid, hversion⟩ := hone
  have hchain := hall _ (Workshop.after_reachable _) x hx Workshop.finished
  rw [hid, hversion] at hchain
  have hversions : chain_versions Office.digest 1 (Workshop.after Workshop.suspended)
      Workshop.finished = [1] := by decide +kernel
  rw [hversions] at hchain
  exact absurd (hchain (by decide +kernel)) (by decide)

end Crony.Store
