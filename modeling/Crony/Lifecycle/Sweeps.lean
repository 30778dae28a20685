/-
What the loss of some runs leaves alone.

A sweep visits the active runs of a runner one after the other, and each run it gives up is
of some task of some mission. Everything the store knows about other tasks (their runs, the
requests and recoveries of these runs) stays as it is, and so does every other mission with
its work item. In particular a review that is ready to be decided stays ready while runs of
other missions are lost around it, although the queries that establish its readiness walk
through a good part of the database.
-/
import Crony.Lifecycle.Bindings
import Crony.Lifecycle.Ledger

set_option autoImplicit false

open Crony.Lib

namespace Crony.Store

variable {s t u : Db} {P : Uuid → Prop}

/-! ## Tasks and missions that are spared -/

/-- The verification request of a run. -/
def Db.request_of (s : Db) (corp_id run_id : Uuid) : Option VerificationRequest :=
  s.verification_requests.find? fun q => q.run_id == run_id && q.corp_id == corp_id

/-- What is known about the tasks `P` selects is as it was. -/
structure Spared (P : Uuid → Prop) (s t : Db) : Prop where
  runs : ∀ id x, P x.task_id → (t.run? id = some x ↔ s.run? id = some x)
  ledger : SameLedger s t
  tasks : ∀ id, P id → t.task? id = s.task? id
  requests : ∀ id x, s.run? id = some x → P x.task_id →
    ∀ corp_id, t.request_of corp_id id = s.request_of corp_id id
  recoveries : ∀ id x, s.run? id = some x → P x.task_id →
    ∀ corp_id, t.recovery_of corp_id id = s.recovery_of corp_id id
  source_deliverables : t.source_deliverables = s.source_deliverables
  artifacts : t.artifacts = s.artifacts
  stops : ∀ e : Event, e.type = .other "run.stop_requested" → (e ∈ t.events ↔ e ∈ s.events)
  producers : Updated (fun a a' => a'.id = a.id ∧ a'.actor_id = a.actor_id) s.agents t.agents

/-- The mission and its work item are as they were. -/
structure SparedMission (mission_id : Uuid) (s t : Db) : Prop where
  mission : t.mission? mission_id = s.mission? mission_id
  items : ∀ p : FactoryWorkItem → Bool, (∀ i, p i = true → i.mission_id = some mission_id) →
    t.factory_work_items.any p = s.factory_work_items.any p

theorem Spared.refl : Spared P s s where
  runs := fun _ _ _ => Iff.rfl
  ledger := SameLedger.refl
  tasks := fun _ _ => rfl
  requests := fun _ _ _ _ _ => rfl
  recoveries := fun _ _ _ _ _ => rfl
  source_deliverables := rfl
  artifacts := rfl
  stops := fun _ _ => Iff.rfl
  producers := Updated.refl fun _ _ => ⟨rfl, rfl⟩

theorem Spared.trans (h : Spared P s t) (h' : Spared P t u) : Spared P s u where
  runs := fun id x hx => (h'.runs id x hx).trans (h.runs id x hx)
  ledger := h.ledger.trans h'.ledger
  tasks := fun id hid => (h'.tasks id hid).trans (h.tasks id hid)
  requests := by
    intro id x hfound hx corp_id
    rw [h'.requests id x ((h.runs id x hx).mpr hfound) hx, h.requests id x hfound hx]
  recoveries := by
    intro id x hfound hx corp_id
    rw [h'.recoveries id x ((h.runs id x hx).mpr hfound) hx, h.recoveries id x hfound hx]
  source_deliverables := h'.source_deliverables.trans h.source_deliverables
  artifacts := h'.artifacts.trans h.artifacts
  stops := fun e he => (h'.stops e he).trans (h.stops e he)
  producers := h.producers.trans h'.producers
    fun _ _ _ _ ha hb => ⟨hb.1.trans ha.1, hb.2.trans ha.2⟩

theorem SparedMission.refl {mission_id : Uuid} : SparedMission mission_id s s :=
  ⟨rfl, fun _ _ => rfl⟩

theorem SparedMission.trans {mission_id : Uuid} (h : SparedMission mission_id s t)
    (h' : SparedMission mission_id t u) : SparedMission mission_id s u :=
  ⟨h'.mission.trans h.mission, fun p hp => (h'.items p hp).trans (h.items p hp)⟩

/-! ## Queries about spared tasks -/

/-- A query that only goes on for runs of spared tasks. -/
theorem Spared.run?_bind (h : Spared P s t) {β : Type} (id : Uuid) {k : Run → Option β}
    (hk : ∀ x, ¬ P x.task_id → k x = none) : (t.run? id).bind k = (s.run? id).bind k := by
  -- a run found on one side only is of another task, where the query stops
  cases hs : s.run? id with
  | none =>
    cases ht : t.run? id with
    | none => rfl
    | some y =>
      by_cases hy : P y.task_id
      · rw [(h.runs id y hy).mp ht] at hs
        cases hs
      · exact hk y hy
  | some x =>
    by_cases hx : P x.task_id
    · rw [(h.runs id x hx).mpr hs]
    · rw [Option.bind_some, hk x hx]
      cases ht : t.run? id with
      | none => rfl
      | some y =>
        by_cases hy : P y.task_id
        · rw [(h.runs id y hy).mp ht] at hs
          obtain rfl := Option.some.inj hs
          exact absurd hy hx
        · exact hk y hy

/-- A filter that only runs of spared tasks pass. -/
theorem Spared.run?_filter (h : Spared P s t) (id : Uuid) {p : Run → Bool}
    (hp : ∀ x, p x = true → P x.task_id) : (t.run? id).filter p = (s.run? id).filter p := by
  have hbind : ∀ o : Option Run, o.filter p = o.bind fun x => if p x then some x else none := by
    intro o
    cases o with
    | none => rfl
    | some x => rfl
  rw [hbind, hbind]
  refine h.run?_bind id ?_
  intro x hx
  exact if_neg fun hpx => hx (hp x hpx)

variable {corp_id run_id : Uuid} {run : Run} {task : Task} {mission : Mission}

theorem Db.run?_of_join
    (hjoin : s.run_task_mission corp_id run_id = some (run, task, mission)) :
    s.run? run_id = some run ∧ run.corp_id = corp_id ∧ s.task? run.task_id = some task
      ∧ s.mission? task.mission_id = some mission := by
  unfold Db.run_task_mission at hjoin
  simp only [Option.bind_eq_bind, Option.bind_eq_some_iff, Option.pure_def, Option.some.injEq,
    Prod.mk.injEq, Option.filter_eq_some_iff, beq_iff_eq] at hjoin
  obtain ⟨r, ⟨hr, hcorp⟩, x, hx, m, hm, rfl, rfl, rfl⟩ := hjoin
  exact ⟨hr, hcorp, hx, hm⟩

theorem Db.join_of_run? (hrun : s.run? run_id = some run) (hcorp : run.corp_id = corp_id)
    (htask : s.task? run.task_id = some task)
    (hmission : s.mission? task.mission_id = some mission) :
    s.run_task_mission corp_id run_id = some (run, task, mission) := by
  have hfilter : (s.run? run_id).filter (fun r => r.corp_id == corp_id) = some run := by
    rw [Option.filter_eq_some_iff]
    exact ⟨hrun, by rw [hcorp, beq_self_eq_true]⟩
  unfold Db.run_task_mission
  simp only [hfilter, htask, hmission, Option.bind_eq_bind, Option.bind_some, Option.pure_def]

theorem Spared.join (h : Spared P s t) (hm : SparedMission mission.id s t)
    (hjoin : s.run_task_mission corp_id run_id = some (run, task, mission)) (hP : P run.task_id) :
    t.run_task_mission corp_id run_id = some (run, task, mission) := by
  obtain ⟨hrun, hcorp, htask, hmission⟩ := Db.run?_of_join hjoin
  have hmid : mission.id = task.mission_id := (Db.mission?_eq_some hmission).2
  refine Db.join_of_run? ((h.runs run_id run hP).mpr hrun) hcorp ?_ ?_
  · rw [h.tasks run.task_id hP, htask]
  · rw [← hmid, hm.mission, hmid, hmission]

theorem SparedMission.bound_recovery (hm : SparedMission mission.id s t)
    (hmission : mission.id = task.mission_id) (r : FactoryVerificationRecovery) :
    recovery_bound t run task r = recovery_bound s run task r := by
  unfold recovery_bound
  rw [hm.items]
  intro i hi
  simp only [Bool.and_eq_true, beq_iff_eq] at hi
  rw [hi.2, hmission]

/-- The source of a recovery is of the run's own task. -/
theorem same_assignment_task {source : Run} (h : same_assignment run source = true) :
    source.task_id = run.task_id := by
  simp only [same_assignment, Bool.and_eq_true, beq_iff_eq] at h
  exact h.1.1.1.2

/-- `exported_head_tx` finds the same head. -/
theorem Spared.exported_head (h : Spared P s t) (hm : SparedMission mission.id s t) (now : Int)
    (hjoin : s.run_task_mission corp_id run_id = some (run, task, mission)) (hP : P run.task_id) :
    exported_head_tx t now corp_id run_id = exported_head_tx s now corp_id run_id := by
  have hj := Db.run_task_mission_eq_some hjoin
  have hrun := Db.run?_of_join hjoin
  unfold exported_head_tx
  simp only [h.join hm hjoin hP, hjoin, h.recoveries run_id run hrun.1 hP, h.source_deliverables,
    h.artifacts, hm.bound_recovery hj.mission_id, Option.bind_eq_bind, Option.bind_some]
  cases s.recovery_of corp_id run_id with
  | none => rfl
  | some r =>
    simp only [Option.bind_some]
    rw [h.run?_bind r.source_run_id]
    intro x hx
    refine guard_bind_of_not fun hall => ?_
    obtain ⟨-, -, -, -, -, hassigned, -⟩ := hall
    rw [same_assignment_task hassigned] at hx
    exact hx hP

/-- `source_workspace_checkpoint_tx` reads the same checkpoint. -/
theorem Spared.checkpoint (h : Spared P s t) (hm : SparedMission mission.id s t) (now : Int)
    (hjoin : s.run_task_mission corp_id run_id = some (run, task, mission)) (hP : P run.task_id) :
    source_workspace_checkpoint_tx t now corp_id run_id
      = source_workspace_checkpoint_tx s now corp_id run_id := by
  obtain ⟨hrun, hcorp, htask, hmission⟩ := Db.run?_of_join hjoin
  have hmid : mission.id = task.mission_id := (Db.mission?_eq_some hmission).2
  have hprevious : ∀ r : FactoryVerificationRecovery,
      (t.run? r.source_run_id).filter (fun previous =>
          same_assignment run previous && same_source_identity run previous
            && sqlEq previous.workspace_fingerprint r.expected_workspace_fingerprint)
        = (s.run? r.source_run_id).filter fun previous =>
          same_assignment run previous && same_source_identity run previous
            && sqlEq previous.workspace_fingerprint r.expected_workspace_fingerprint := by
    intro r
    refine h.run?_filter r.source_run_id ?_
    intro previous hprevious
    simp only [Bool.and_eq_true] at hprevious
    rw [same_assignment_task hprevious.1.1]
    exact hP
  have htrun : t.run? run_id = some run := (h.runs run_id run hP).mpr hrun
  unfold source_workspace_checkpoint_tx
  simp only [htrun, hrun, h.exported_head hm now hjoin hP, h.source_deliverables]
  cases hfilter : (some run).filter fun r => r.corp_id == corp_id with
  | none => rfl
  | some x =>
    obtain ⟨hx, -⟩ := Option.filter_eq_some_iff.mp hfilter
    obtain rfl := Option.some.inj hx
    simp only [context, ok_bind, h.tasks run.task_id hP, htask]
    cases htfilter : (some task).filter fun t => t.corp_id == run.corp_id with
    | none => rfl
    | some y =>
      obtain ⟨hy, -⟩ := Option.filter_eq_some_iff.mp htfilter
      obtain rfl := Option.some.inj hy
      simp only [ok_bind, h.recoveries run_id run hrun hP, hm.bound_recovery hmid, hprevious]

theorem guard_congr {p q : Prop} [Decidable p] [Decidable q] (h : p ↔ q) :
    (guard p : Option Unit) = guard q := if_congr h rfl rfl

/-- No run of the workspace was asked to stop. -/
theorem Spared.unstopped (h : Spared P s t) (run : Run) :
    (∀ l ∈ t.runs, l.corp_id = run.corp_id → l.workspace_run_id = run.workspace_run_id →
      ∀ e ∈ t.events, ¬ (e.corp_id = l.corp_id ∧ e.aggregate_id = l.id ∧ e.aggregate_type = .run
        ∧ e.type = .other "run.stop_requested"))
    ↔ ∀ l ∈ s.runs, l.corp_id = run.corp_id → l.workspace_run_id = run.workspace_run_id →
      ∀ e ∈ s.events, ¬ (e.corp_id = l.corp_id ∧ e.aggregate_id = l.id ∧ e.aggregate_type = .run
        ∧ e.type = .other "run.stop_requested") := by
  -- the runs of the workspace are the same up to columns the condition does not read
  have hmem : ∀ {a b : Db}, a.runs.map Run.spending = b.runs.map Run.spending → ∀ l ∈ a.runs,
      ∃ l' ∈ b.runs, l'.id = l.id ∧ l'.corp_id = l.corp_id
        ∧ l'.workspace_run_id = l.workspace_run_id := by
    intro a b hab l hl
    have hcolumns : l.spending ∈ b.runs.map Run.spending :=
      hab ▸ List.mem_map_of_mem (f := Run.spending) hl
    obtain ⟨l', hl', heq⟩ := List.mem_map.mp hcolumns
    simp only [Run.spending, Prod.mk.injEq] at heq
    exact ⟨l', hl', heq.1, heq.2.1, heq.2.2.1⟩
  constructor
  · intro hall l hl hcorp hworkspace e he hstop
    obtain ⟨l', hl', hid, hcorp', hworkspace'⟩ := hmem h.ledger.runs.symm l hl
    refine hall l' hl' (hcorp'.trans hcorp) (hworkspace'.trans hworkspace) e
      ((h.stops e hstop.2.2.2).mpr he) ?_
    rw [hid, hcorp']
    exact hstop
  · intro hall l hl hcorp hworkspace e he hstop
    obtain ⟨l', hl', hid, hcorp', hworkspace'⟩ := hmem h.ledger.runs l hl
    refine hall l' hl' (hcorp'.trans hcorp) (hworkspace'.trans hworkspace) e
      ((h.stops e hstop.2.2.2).mp he) ?_
    rw [hid, hcorp']
    exact hstop

theorem Spared.zero_provider (h : Spared P s t) (hm : SparedMission mission.id s t)
    (hjoin : s.run_task_mission corp_id run_id = some (run, task, mission)) (hP : P run.task_id) :
    zero_provider_rows t corp_id run_id = zero_provider_rows s corp_id run_id := by
  obtain ⟨hrun, -, -, hmission⟩ := Db.run?_of_join hjoin
  have hmid : mission.id = task.mission_id := (Db.mission?_eq_some hmission).2
  unfold zero_provider_rows
  simp only [h.join hm hjoin hP, hjoin, h.recoveries run_id run hrun hP, hm.bound_recovery hmid,
    guard_congr (h.unstopped run), Option.bind_eq_bind, Option.bind_some]
  cases s.recovery_of corp_id run_id with
  | none => rfl
  | some r =>
    simp only [Option.bind_some]
    cases r.checkpoint_authority with
    | none =>
      cases s.run? r.source_run_id <;> cases t.run? r.source_run_id <;> rfl
    | some authority =>
      simp only [Option.bind_some]
      -- the source is of the run's task, and then so is the origin
      rw [h.run?_bind r.source_run_id]
      · congr 1
        funext source
        refine h.run?_bind authority.run_id fun origin horigin => guard_bind_of_not fun hall => ?_
        obtain ⟨-, -, -, -, -, -, -, -, -, -, -, -, -, -, -, -, htask, -⟩ := hall
        rw [htask] at horigin
        exact horigin hP
      · intro source hsource
        cases t.run? authority.run_id with
        | none => rfl
        | some origin =>
          refine guard_bind_of_not fun hall => ?_
          obtain ⟨-, -, -, -, -, -, -, -, -, -, -, hassigned, -⟩ := hall
          rw [same_assignment_task hassigned] at hsource
          exact hsource hP

/-- The source the allocation rests on is joined to the run's own task and mission. -/
theorem zero_provider_rows_join {r : FactoryVerificationRecovery} {source origin : Run}
    (hjoin : s.run_task_mission corp_id run_id = some (run, task, mission))
    (h : zero_provider_rows s corp_id run_id = some (r, source, origin)) :
    s.run_task_mission corp_id source.id = some (source, task, mission)
      ∧ source.task_id = run.task_id := by
  obtain ⟨-, hcorp, htask, hmission⟩ := Db.run?_of_join hjoin
  unfold Crony.Store.zero_provider_rows at h
  simp only [hjoin, Option.bind_eq_bind, Option.bind_some, Option.bind_eq_some_iff, Option.pure_def,
    Option.guard_eq_some', Option.some.injEq, Prod.mk.injEq] at h
  obtain ⟨_, -, x, hsource, authority, -, y, -, _, hall, _, -, -, rfl, -⟩ := h
  obtain ⟨-, -, -, -, -, -, -, -, -, -, -, hassigned, -⟩ := hall
  have hxtask := same_assignment_task hassigned
  have hxcorp : x.corp_id = run.corp_id := by
    simp only [same_assignment, Bool.and_eq_true, beq_iff_eq] at hassigned
    exact hassigned.1.1.1.1.2
  have hxid := (Db.run?_eq_some hsource).2
  refine ⟨Db.join_of_run? ?_ (hxcorp.trans hcorp) ?_ hmission, hxtask⟩
  · rw [hxid]
    exact hsource
  · rw [hxtask]
    exact htask

theorem Spared.zero_provider_allocation (h : Spared P s t) (hm : SparedMission mission.id s t)
    (now : Int) (hjoin : s.run_task_mission corp_id run_id = some (run, task, mission))
    (hP : P run.task_id) :
    zero_provider_allocation_tx t now corp_id run_id
      = zero_provider_allocation_tx s now corp_id run_id := by
  unfold zero_provider_allocation_tx
  rw [h.zero_provider hm hjoin hP]
  cases hrows : zero_provider_rows s corp_id run_id with
  | none => rfl
  | some rows =>
    obtain ⟨r, source, origin⟩ := rows
    obtain ⟨hsource, htask⟩ := zero_provider_rows_join hjoin hrows
    simp only [h.checkpoint hm now hsource (htask ▸ hP)]

/-- **A review that is ready stays ready.** -/
theorem Spared.review_ready (h : Spared P s t) (hm : SparedMission mission.id s t) (now : Int)
    (hjoin : s.run_task_mission corp_id run_id = some (run, task, mission)) (hP : P run.task_id) :
    review_ready_tx t now corp_id run_id = review_ready_tx s now corp_id run_id := by
  obtain ⟨hrun, -, -, hmission⟩ := Db.run?_of_join hjoin
  have hscoped : t.run_task_mission_scoped corp_id run_id = s.run_task_mission_scoped corp_id
      run_id := by
    unfold Db.run_task_mission_scoped
    rw [h.join hm hjoin hP, hjoin]
  have hrequest := h.requests run_id run hrun hP corp_id
  unfold Db.request_of at hrequest
  unfold review_ready_tx
  simp only [hscoped, hrequest, h.recoveries run_id run hrun hP, h.exported_head hm now hjoin hP,
    h.zero_provider_allocation hm now hjoin hP]
  cases hfilter : s.run_task_mission_scoped corp_id run_id with
  | none => rfl
  | some row =>
    unfold Db.run_task_mission_scoped at hfilter
    rw [hjoin] at hfilter
    obtain ⟨hrow, -⟩ := Option.filter_eq_some_iff.mp hfilter
    obtain rfl := Option.some.inj hrow
    have hitems : ∀ r : FactoryVerificationRecovery,
        t.factory_work_items.any (fun i => i.id == r.factory_work_item_id
            && i.corp_id == run.corp_id && i.mission_id == some mission.id
            && i.state == .awaiting_approval)
          = s.factory_work_items.any fun i => i.id == r.factory_work_item_id
            && i.corp_id == run.corp_id && i.mission_id == some mission.id
            && i.state == .awaiting_approval := by
      intro r
      refine hm.items _ ?_
      intro i hi
      simp only [Bool.and_eq_true, beq_iff_eq] at hi
      exact hi.1.2
    simp only [Option.bind_eq_bind, Option.bind_some, hitems]

/-! ## What the loss of one run writes -/

/-- Where a lost run and its mission are concerned, and nowhere else. -/
structure Losing (s t : Db) (run : Run) (mission_id : Uuid) : Prop where
  runs : Updated (fun x x' => x' = x ∨ (x.Kept x' ∧ x.id = run.id)) s.runs t.runs
  tasks : Updated (fun x x' => x' = x ∨ (x'.id = x.id ∧ x.id = run.task_id)) s.tasks t.tasks
  missions : Updated (fun m m' => m' = m ∨ (m'.id = m.id ∧ m.id = mission_id)) s.missions t.missions
  requests : Updated (fun q q' => q' = q ∨ (q'.run_id = q.run_id ∧ q.run_id = run.id))
    s.verification_requests t.verification_requests
  /-- The recoveries that end are those of the lost run and of runs of its task. -/
  recoveries : Updated (fun r r' => r' = r ∨ (r.Kept r'
      ∧ ∃ x ∈ s.runs, x.task_id = run.task_id ∧ r.replacement_run_id = some x.id))
    s.factory_verification_recoveries t.factory_verification_recoveries
  items : Updated (fun i i' => i' = i ∨ (i'.mission_id = i.mission_id
    ∧ i.mission_id = some mission_id)) s.factory_work_items t.factory_work_items
  agents : Updated (fun a a' => a'.id = a.id ∧ a'.actor_id = a.actor_id) s.agents t.agents
  source_deliverables : t.source_deliverables = s.source_deliverables
  artifacts : t.artifacts = s.artifacts
  ledger : SameLedger s t
  events : ∃ new, t.events = s.events ++ new ∧ ∀ e ∈ new, e.type ≠ .other "run.stop_requested"

/-- The ancestors of a run are runs of its task. -/
theorem lineage_task {task_id : Uuid} (parent : Run → Option Run)
    (hparent : ∀ x ∈ s.runs, x.task_id = task_id → ∀ y, parent x = some y →
      y ∈ s.runs ∧ y.task_id = task_id) :
    ∀ (fuel : Nat) (o : Option Run), (∀ x, o = some x → x ∈ s.runs ∧ x.task_id = task_id) →
      ∀ y ∈ lineage parent fuel o, y ∈ s.runs ∧ y.task_id = task_id := by
  intro fuel
  induction fuel with
  | zero =>
    intro o _ y hy
    cases o <;> cases hy
  | succ fuel ih =>
    intro o ho y hy
    cases o with
    | none => cases hy
    | some x =>
      obtain ⟨hx, hxtask⟩ := ho x rfl
      rcases List.mem_cons.mp hy with rfl | hy
      · exact ⟨hx, hxtask⟩
      · exact ih (parent x) (hparent x hx hxtask) y hy

/-- A run continues runs of its own task only. -/
structure Rooted (s : Db) : Prop where
  keyed : Keyed Run.id s.runs
  origin : ∀ r ∈ s.runs, ∀ id, r.resumed_from_run_id = some id →
    ∃ x ∈ s.runs, x.id = id ∧ x.task_id = r.task_id

theorem Rooted.failure_lineage (hs : Rooted s) {corp_id run_id task_id : Uuid}
    (hrun : ∀ x ∈ s.runs, x.id = run_id → x.task_id = task_id) :
    ∀ y ∈ failure_lineage s corp_id run_id, y ∈ s.runs ∧ y.task_id = task_id := by
  unfold Crony.Store.failure_lineage
  refine lineage_task _ ?_ _ _ ?_
  · intro x hx hxtask y hy
    obtain ⟨id, hid, hfind⟩ := Option.bind_eq_some_iff.mp hy
    obtain ⟨hfind, -⟩ := Option.filter_eq_some_iff.mp hfind
    obtain ⟨hymem, hyid⟩ := Db.run?_eq_some hfind
    obtain ⟨z, hz, hzid, hztask⟩ := hs.origin x hx id hid
    obtain rfl := hs.keyed.eq_of_mem hymem hz (hyid.trans hzid.symm)
    exact ⟨hymem, hztask.trans hxtask⟩
  · intro x hx
    obtain ⟨hx, -⟩ := Option.filter_eq_some_iff.mp hx
    obtain ⟨hxmem, hxid⟩ := Db.run?_eq_some hx
    exact ⟨hxmem, hrun x hxmem hxid⟩

/-- A relation that changes nothing, row by row. -/
theorem updated_same {α : Type} {Q : α → α → Prop} {l : List α} :
    Updated (fun a b => b = a ∨ Q a b) l l := Updated.refl fun _ _ => Or.inl rfl

theorem updated_same_trans {α : Type} {Q R S : α → α → Prop} {l m n : List α}
    (h : Updated (fun a b => b = a ∨ Q a b) l m) (h' : Updated (fun a b => b = a ∨ R a b) m n)
    (hQ : ∀ a b, Q a b → S a b) (hR : ∀ a b, R a b → S a b)
    (hboth : ∀ a b c, Q a b → R b c → S a c) : Updated (fun a b => b = a ∨ S a b) l n := by
  refine h.trans h' ?_
  rintro a - b c (rfl | hab) (rfl | hbc)
  · exact Or.inl rfl
  · exact Or.inr (hR _ _ hbc)
  · exact Or.inr (hQ _ _ hab)
  · exact Or.inr (hboth _ _ _ hab hbc)

namespace Losing

variable {mission_id : Uuid}

theorem refl : Losing s s run mission_id where
  runs := updated_same
  tasks := updated_same
  missions := updated_same
  requests := updated_same
  recoveries := updated_same
  items := updated_same
  agents := Updated.refl fun _ _ => ⟨rfl, rfl⟩
  source_deliverables := rfl
  artifacts := rfl
  ledger := SameLedger.refl
  events := ⟨[], by simp, by simp⟩

theorem trans (h : Losing s t run mission_id) (h' : Losing t u run mission_id) :
    Losing s u run mission_id where
  runs := updated_same_trans h.runs h'.runs (fun _ _ hx => hx) (fun _ _ hx => hx)
    fun _ _ _ hx hy => ⟨hx.1.trans hy.1, hx.2⟩
  tasks := updated_same_trans h.tasks h'.tasks (fun _ _ hx => hx) (fun _ _ hx => hx)
    fun _ _ _ hx hy => ⟨hy.1.trans hx.1, hx.2⟩
  missions := updated_same_trans h.missions h'.missions (fun _ _ hm => hm) (fun _ _ hm => hm)
    fun _ _ _ hm hn => ⟨hn.1.trans hm.1, hm.2⟩
  requests := updated_same_trans h.requests h'.requests (fun _ _ hq => hq) (fun _ _ hq => hq)
    fun _ _ _ hq hr => ⟨hr.1.trans hq.1, hq.2⟩
  recoveries := by
    refine updated_same_trans h.recoveries h'.recoveries (fun _ _ hr => hr) ?_ ?_
    · rintro r r' ⟨hk, y, hy, htask, hid⟩
      obtain ⟨x, hx, rfl | ⟨hxk, -⟩⟩ := h.runs.exists_old hy
      · exact ⟨hk, y, hx, htask, hid⟩
      · exact ⟨hk, x, hx, hxk.task_id ▸ htask, hxk.id ▸ hid⟩
    · intro a b c ha hb
      exact ⟨ha.1.trans hb.1, ha.2⟩
  items := updated_same_trans h.items h'.items (fun _ _ hi => hi) (fun _ _ hi => hi)
    fun _ _ _ hi hj => ⟨hj.1.trans hi.1, hi.2⟩
  agents := h.agents.trans h'.agents fun _ _ _ _ ha hb => ⟨hb.1.trans ha.1, hb.2.trans ha.2⟩
  source_deliverables := h'.source_deliverables.trans h.source_deliverables
  artifacts := h'.artifacts.trans h.artifacts
  ledger := h.ledger.trans h'.ledger
  events := by
    obtain ⟨l, hl, hall⟩ := h.events
    obtain ⟨m, hm, hall'⟩ := h'.events
    refine ⟨l ++ m, by rw [hm, hl, List.append_assoc], ?_⟩
    intro e he
    rcases List.mem_append.mp he with he | he
    · exact hall e he
    · exact hall' e he

/-- The rows of runs keep their identity. -/
theorem kept (h : Losing s t run mission_id) : Updated Run.Kept s.runs t.runs := by
  refine h.runs.mono ?_
  rintro x - x' (rfl | ⟨hk, -⟩)
  · exact Run.Kept.refl x'
  · exact hk

theorem rooted (h : Losing s t run mission_id) (hs : Rooted s) : Rooted t where
  keyed := h.kept.keyed hs.keyed fun _ _ hx => hx.id
  origin := by
    intro r' hr' id hid
    obtain ⟨r, hr, hk⟩ := h.kept.exists_old hr'
    obtain ⟨x, hx, hxid, hxtask⟩ := hs.origin r hr id (hk.resumed_from_run_id ▸ hid)
    obtain ⟨x', hx', hxk⟩ := h.kept.exists_new hx
    exact ⟨x', hx', hxk.id.trans hxid, by rw [hxk.task_id, hxtask, hk.task_id]⟩

end Losing

theorem reconcile_factory_verification_failure_tx_losing (hs : Rooted s)
    (hitems : Keyed FactoryWorkItem.id s.factory_work_items) {mission_id room_id : Uuid}
    {actor_id : Option Uuid} {detail : String} {cause : FailureCause}
    (hrun : ∀ x ∈ s.runs, x.id = run.id → x.task_id = run.task_id)
    (h : reconcile_factory_verification_failure_tx s corp_id mission_id room_id run.id actor_id
      detail cause = .ok t) : Losing s t run mission_id := by
  unfold reconcile_factory_verification_failure_tx at h
  obtain ⟨text, -, h⟩ := bind_eq_ok.mp h
  split at h
  · rw [pure_eq_ok] at h
    subst h
    exact Losing.refl
  · rename_i current hcurrent
    split at h
    · rw [pure_eq_ok] at h
      subst h
      exact Losing.refl
    split at h
    · rw [pure_eq_ok] at h
      subst h
      exact Losing.refl
    · obtain ⟨_, -, h⟩ := bind_eq_ok.mp h
      rw [append_new_event_tx_ok] at h
      obtain ⟨-, rfl⟩ := h
      have hcur := List.mem_of_find?_eq_some hcurrent
      have hlink : current.mission_id = some mission_id := by
        have hfound := List.find?_some hcurrent
        simp only [Bool.and_eq_true, beq_iff_eq] at hfound
        exact hfound.2
      refine { (Losing.refl : Losing s s run mission_id) with
        recoveries := ?_, items := ?_, ledger := ⟨rfl, rfl, rfl, rfl, rfl, rfl, rfl⟩
        events := ⟨[_], rfl, ?_⟩ }
      · refine Updated.of_updateWhere ?_ fun _ _ _ => Or.inl rfl
        intro r _ hr
        simp only [Bool.and_eq_true, List.contains_iff_mem] at hr
        obtain ⟨x, hx, hid⟩ := List.mem_map.mp hr.1.2
        have hx' : x ∈ failure_lineage s corp_id run.id := hx
        obtain ⟨hxmem, hxtask⟩ := hs.failure_lineage hrun x hx'
        exact Or.inr ⟨rfl, x, hxmem, hxtask, hid.symm⟩
      · refine Updated.of_updateWhere ?_ fun _ _ _ => Or.inl rfl
        intro i hi hid
        simp only [Bool.and_eq_true, beq_iff_eq] at hid
        -- the item is found by its link and written by its key
        obtain rfl := hitems.eq_of_mem hi hcur hid.1
        exact Or.inr ⟨rfl, hlink⟩
      · intro e he
        obtain rfl := List.mem_singleton.mp he
        simp

theorem terminalize_losing (hs : Rooted s)
    (hitems : Keyed FactoryWorkItem.id s.factory_work_items)
    (hrecoveries : Keyed FactoryVerificationRecovery.id s.factory_verification_recoveries)
    (hrun : run ∈ s.runs) {recovery_id mission_id room_id : Uuid} {summary : String}
    {run_status : RunStatus} {cause : FailureCause}
    (hrecovery : ∃ r ∈ s.factory_verification_recoveries, r.id = recovery_id
      ∧ r.replacement_run_id = some run.id)
    (h : terminalize_factory_recovery_run_tx s corp_id recovery_id run.id run.task_id mission_id
      room_id summary run_status cause = .ok t) : Losing s t run mission_id := by
  unfold terminalize_factory_recovery_run_tx at h
  obtain ⟨_, -, h⟩ := bind_eq_ok.mp h
  -- the state the Factory projection starts from
  obtain ⟨u, hsu, huitems, h⟩ : ∃ u, Losing s u run mission_id
      ∧ u.factory_work_items = s.factory_work_items
      ∧ reconcile_factory_verification_failure_tx u corp_id mission_id room_id run.id none summary
        cause = .ok t := by
    refine ⟨_, ?_, ?_, h⟩
    · refine { (Losing.refl : Losing s s run mission_id) with
        runs := ?_, tasks := ?_, missions := ?_, requests := ?_, recoveries := ?_
        ledger := ?_ }
      · refine Updated.of_updateWhere ?_ fun _ _ _ => Or.inl rfl
        intro x _ hid
        exact Or.inr ⟨Run.Kept.of_identity rfl, beq_iff_eq.mp hid⟩
      · refine Updated.of_updateWhere ?_ fun _ _ _ => Or.inl rfl
        intro x _ hid
        exact Or.inr ⟨rfl, beq_iff_eq.mp hid⟩
      · refine Updated.of_updateWhere ?_ fun _ _ _ => Or.inl rfl
        intro m _ hid
        exact Or.inr ⟨rfl, beq_iff_eq.mp hid⟩
      · refine Updated.of_updateWhere ?_ fun _ _ _ => Or.inl rfl
        intro q _ hq
        simp only [Bool.and_eq_true, beq_iff_eq] at hq
        exact Or.inr ⟨rfl, hq.1.1⟩
      · refine Updated.of_updateWhere ?_ fun _ _ _ => Or.inl rfl
        intro r hr hid
        simp only [Bool.and_eq_true, beq_iff_eq] at hid
        obtain ⟨x, hx, hxid, hreplacement⟩ := hrecovery
        obtain rfl := hrecoveries.eq_of_mem hr hx (hid.1.trans hxid.symm)
        exact Or.inr ⟨rfl, run, hrun, rfl, hreplacement⟩
      · refine ⟨map_updateWhere_of_frame _ _ fun _ _ => rfl, map_updateWhere_of_frame _ _ fun _ _ =>
          rfl, map_updateWhere_of_frame _ _ fun _ _ => rfl, rfl, rfl, rfl, rfl⟩
    · rfl
  refine hsu.trans (reconcile_factory_verification_failure_tx_losing (hsu.rooted hs) ?_ ?_ h)
  · rw [huitems]
    exact hitems
  · intro x' hx' hid
    obtain ⟨x, hx, hk⟩ := hsu.kept.exists_old hx'
    obtain rfl := hs.keyed.eq_of_mem hx hrun (hk.id.symm.trans hid)
    exact hk.task_id

/-- Losing a run writes nothing about other tasks and other missions. -/
theorem lose_run_tx_losing (hs : Rooted s) (hb : Bound s) {row : LostRow} {reason : String}
    (hlive : row.Live s)
    (hrecovery : ∀ recovery, row.recovery = some recovery →
      ∃ r ∈ s.factory_verification_recoveries, r.id = recovery.id
        ∧ r.replacement_run_id = some row.run.id)
    (h : lose_run_tx s row reason = .ok t) : Losing s t row.run row.mission.id := by
  unfold lose_run_tx at h
  obtain ⟨u, hu, h⟩ := bind_eq_ok.mp h
  have hsu : Losing s u row.run row.mission.id := by
    unfold end_lost_run at hu
    split at hu
    · rename_i recovery hrow
      rw [hlive.task_id] at hu
      exact terminalize_losing hs hb.items_keyed hb.recoveries_keyed hlive.run_mem
        (hrecovery recovery hrow) hu
    · obtain rfl := Except.ok.inj hu
      refine { (Losing.refl : Losing s s row.run row.mission.id) with
        runs := ?_, tasks := ?_, missions := ?_, ledger := ?_ }
      · refine Updated.of_updateWhere ?_ fun _ _ _ => Or.inl rfl
        intro x _ hid
        exact Or.inr ⟨Run.Kept.of_identity rfl, beq_iff_eq.mp hid⟩
      · refine Updated.of_updateWhere ?_ fun _ _ _ => Or.inl rfl
        intro x _ hid
        exact Or.inr ⟨rfl, (beq_iff_eq.mp hid).trans hlive.task_id⟩
      · refine Updated.of_updateWhere ?_ fun _ _ _ => Or.inl rfl
        intro m _ hid
        simp only [Bool.and_eq_true, beq_iff_eq] at hid
        exact Or.inr ⟨rfl, hid.1⟩
      · refine ⟨map_updateWhere_of_frame _ _ fun _ _ => rfl, map_updateWhere_of_frame _ _ fun _ _ =>
          rfl, map_updateWhere_of_frame _ _ fun _ _ => rfl, rfl, rfl, rfl, rfl⟩
  refine hsu.trans ?_
  -- messages, the agent and the journal
  have hagents : Updated (fun a a' => a'.id = a.id ∧ a'.actor_id = a.actor_id) u.agents
      (updateWhere (fun a => a.id == row.run.agent_id) Agent.release u.agents) :=
    Updated.of_updateWhere (fun _ _ _ => ⟨rfl, rfl⟩) fun _ _ _ => ⟨rfl, rfl⟩
  have hlost : Losing u ((u.requeue_messages row.run.id).release_agent row.run.agent_id) row.run
      row.mission.id :=
    { (Losing.refl : Losing u u row.run row.mission.id) with
      agents := hagents, ledger := ⟨rfl, rfl, rfl, rfl, rfl, rfl, rfl⟩ }
  refine hlost.trans ?_
  rw [record_event_tx_ok.mp h]
  split
  · exact Losing.refl
  · refine { (Losing.refl : Losing _ _ row.run row.mission.id) with
      ledger := ⟨rfl, rfl, rfl, rfl, rfl, rfl, rfl⟩, events := ⟨[_], rfl, ?_⟩ }
    intro e he
    obtain rfl := List.mem_singleton.mp he
    simp

/-- Tasks other than the lost run's are spared. -/
theorem Losing.spared {mission_id : Uuid} (h : Losing s t run mission_id) (hs : Rooted s)
    (hrun : run ∈ s.runs) (hP : ¬ P run.task_id) : Spared P s t where
  runs := by
    intro id x hx
    by_cases hid : id = run.id
    · subst hid
      -- both lookups find the lost run, if anything
      constructor
      · intro hfound
        obtain ⟨hmem, hxid⟩ := Db.run?_eq_some hfound
        obtain ⟨y, hy, hk⟩ := h.kept.exists_old hmem
        obtain rfl := hs.keyed.eq_of_mem hy hrun (hk.id.symm.trans hxid)
        rw [hk.task_id] at hx
        exact absurd hx hP
      · intro hfound
        obtain ⟨hmem, hxid⟩ := Db.run?_eq_some hfound
        obtain rfl := hs.keyed.eq_of_mem hmem hrun hxid
        exact absurd hx hP
    · have hsame : t.run? id = s.run? id := by
        refine h.runs.find?_eq ?_
        rintro y - y' (rfl | ⟨hk, hyid⟩)
        · exact Or.inl rfl
        · refine Or.inr ⟨beq_eq_false_iff_ne.mpr ?_, beq_eq_false_iff_ne.mpr ?_⟩
          · rw [hyid]
            exact Ne.symm hid
          · rw [hk.id, hyid]
            exact Ne.symm hid
      rw [hsame]
  tasks := by
    intro id hid
    refine h.tasks.find?_eq ?_
    rintro x - x' (rfl | ⟨hxid, hxrun⟩)
    · exact Or.inl rfl
    · have hne : x.id ≠ id := by
        rintro rfl
        exact hP (hxrun ▸ hid)
      exact Or.inr ⟨beq_eq_false_iff_ne.mpr hne, beq_eq_false_iff_ne.mpr (hxid ▸ hne)⟩
  requests := by
    intro id x hfound hx corp_id
    obtain ⟨hmem, hxid⟩ := Db.run?_eq_some hfound
    refine h.requests.find?_eq ?_
    rintro q - q' (rfl | ⟨hqrun, hqid⟩)
    · exact Or.inl rfl
    · have hne : q.run_id ≠ id := by
        intro he
        have hxrun : x = run := hs.keyed.eq_of_mem hmem hrun (by rw [hxid, ← he, hqid])
        exact hP (hxrun ▸ hx)
      have hne' : q'.run_id ≠ id := hqrun ▸ hne
      simp [hne, hne']
  recoveries := by
    intro id x hfound hx corp_id
    obtain ⟨hmem, hxid⟩ := Db.run?_eq_some hfound
    refine h.recoveries.find?_eq ?_
    rintro r - r' (rfl | ⟨hk, y, hy, hytask, hreplacement⟩)
    · exact Or.inl rfl
    · have hne : r.replacement_run_id ≠ some id := by
        rw [hreplacement]
        intro he
        have hxy : x = y := hs.keyed.eq_of_mem hmem hy (hxid.trans (Option.some.inj he).symm)
        rw [hxy, hytask] at hx
        exact hP hx
      have hne' : r'.replacement_run_id ≠ some id := by
        rw [hk.bindings.2.1]
        exact hne
      simp [hne, hne']
  source_deliverables := h.source_deliverables
  artifacts := h.artifacts
  ledger := h.ledger
  stops := by
    intro e he
    obtain ⟨new, hevents, hnew⟩ := h.events
    rw [hevents, List.mem_append]
    constructor
    · rintro (hmem | hmem)
      · exact hmem
      · exact absurd he (hnew e hmem)
    · exact Or.inl
  producers := h.agents

/-- Missions other than the lost run's are spared. -/
theorem Losing.spared_mission {mission_id other : Uuid} (h : Losing s t run mission_id)
    (hne : mission_id ≠ other) : SparedMission other s t where
  mission := by
    refine h.missions.find?_eq ?_
    rintro m - m' (rfl | ⟨hid, hmid⟩)
    · exact Or.inl rfl
    · have hm : m.id ≠ other := hmid ▸ hne
      exact Or.inr ⟨beq_eq_false_iff_ne.mpr hm, beq_eq_false_iff_ne.mpr (hid ▸ hm)⟩
  items := by
    intro p hp
    refine h.items.any_eq ?_
    rintro i - i' (rfl | ⟨hlink, hmission⟩)
    · exact Or.inl rfl
    · -- a query for the other mission's item selects no item of this one
      have hnot : ∀ j : FactoryWorkItem, j.mission_id = some mission_id → p j = false := by
        intro j hj
        by_contra hpj
        have hother := hp j (by simpa using hpj)
        rw [hj] at hother
        exact hne (Option.some.inj hother)
      exact Or.inr ⟨hnot i hmission, hnot i' (hlink.trans hmission)⟩

/-! ## Sweeps -/

theorem Life.rooted (hs : Life s) : Rooted s := ⟨hs.runs_keyed, hs.run_origin⟩

/-- A row whose run is there and active, and whose recovery, if it has one, is there and is
that of the run. -/
structure LostRow.Present (s : Db) (row : LostRow) : Prop extends row.Live s where
  recovery : ∀ recovery, row.recovery = some recovery →
    ∃ r ∈ s.factory_verification_recoveries, r.id = recovery.id
      ∧ r.replacement_run_id = some row.run.id

theorem lost_rows_present (hs : Life s) (input : LostRunner) :
    ∀ row ∈ lost_rows s input, row.Present s := by
  intro row hrow
  refine ⟨lost_rows_live hs input row hrow, ?_⟩
  intro recovery hrecovery
  unfold lost_rows at hrow
  obtain ⟨r, -, hmap⟩ := List.mem_filterMap.mp hrow
  obtain ⟨⟨run, task, mission⟩, hjoin, rfl⟩ := Option.map_eq_some_iff.mp hmap
  have hid : run.id = r.id := (Db.run_task_mission_eq_some hjoin).run_id
  have hlost : lost_recovery s r mission.id = some recovery := hrecovery
  unfold lost_recovery at hlost
  obtain ⟨hfound, -⟩ := Option.filter_eq_some_iff.mp hlost
  have hreplacement := List.find?_some hfound
  simp only [Bool.and_eq_true, beq_iff_eq] at hreplacement
  refine ⟨recovery, List.mem_of_find?_eq_some hfound, rfl, ?_⟩
  rw [hreplacement.2, hid]

/-- What losing one run does to the rows that are still to be visited. -/
theorem LostRow.Present.after {row other : LostRow} {f : Run → Run} (h : other.Present s)
    (hne : other.run.id ≠ row.run.id)
    (hruns : t.runs = updateWhere (fun r => r.id == row.run.id) f s.runs) (hkept : Bindings s t) :
    other.Present t where
  run_mem := by
    rw [hruns]
    refine mem_updateWhere.mpr ⟨other.run, h.run_mem, if_neg ?_⟩
    rw [beq_iff_eq]
    exact hne
  active := h.active
  task_id := h.task_id
  recovery := by
    intro recovery hrecovery
    obtain ⟨r, hr, hid, hreplacement⟩ := h.recovery recovery hrecovery
    obtain ⟨r', hr', hk⟩ := hkept.recoveries.exists_new hr
    exact ⟨r', hr', hk.bindings.1.trans hid, hk.bindings.2.1.trans hreplacement⟩

/-- **Induction over a sweep.** What the loss of each visited run keeps, the sweep keeps. -/
theorem foldlM_lose_row_induction {I : Db → Prop} {now : Int} {reason : String}
    (rows : List LostRow) (hs : Life s) (hb : Bound s)
    (hnodup : (rows.map fun row => row.run.id).Nodup) (hpresent : ∀ row ∈ rows, row.Present s)
    (hI : I s)
    (hstep : ∀ row ∈ rows, ∀ u v, Life u → Bound u → row.Present u → I u →
      lose_row now reason u row = .ok v → I v)
    (h : rows.foldlM (lose_row now reason) s = .ok t) : I t := by
  induction rows generalizing s with
  | nil =>
    simp only [List.foldlM_nil, pure_eq_ok] at h
    exact h ▸ hI
  | cons row rows ih =>
    rw [List.map_cons, List.nodup_cons] at hnodup
    simp only [List.foldlM_cons, bind_eq_ok] at h
    obtain ⟨u, hu, h⟩ := h
    have hrow := hpresent row List.mem_cons_self
    have hIu : I u := hstep row List.mem_cons_self s u hs hb hrow hI hu
    have hrest : ∀ x ∈ rows, ∀ a b, Life a → Bound a → x.Present a → I a →
        lose_row now reason a x = .ok b → I b :=
      fun x hx => hstep x (List.mem_cons_of_mem row hx)
    unfold lose_row at hu
    simp only [bind_eq_ok] at hu
    obtain ⟨ready, -, hu⟩ := hu
    split at hu
    · rw [pure_eq_ok] at hu
      subst hu
      exact ih hs hb hnodup.2 (fun x hx => hpresent x (List.mem_cons_of_mem row hx)) hI hrest h
    · obtain ⟨hstop, -, -, f, hruns⟩ :=
        lose_run_tx_ok hrow.run_mem hrow.active hrow.task_id hu
      have hmove : Move s u := .turnover (.stop row.run hstop)
      have hkept := lose_run_tx_bindings hu
      refine ih (hmove.life hs) (hkept.bound hb (hmove.grows hs) fun m hm => hmove.missions hm)
        hnodup.2 ?_ hIu hrest h
      intro x hx
      refine (hpresent x (List.mem_cons_of_mem row hx)).after ?_ hruns hkept
      intro hid
      exact hnodup.1 (hid ▸ List.mem_map_of_mem (f := fun row : LostRow => row.run.id) hx)

theorem lost_rows_join {input : LostRunner} {row : LostRow} (hrow : row ∈ lost_rows s input) :
    Joined s row.run.corp_id row.run.id row.run row.task row.mission
      ∧ s.run_task_mission row.run.corp_id row.run.id = some (row.run, row.task, row.mission) := by
  unfold lost_rows at hrow
  obtain ⟨r, -, hmap⟩ := List.mem_filterMap.mp hrow
  obtain ⟨⟨run, task, mission⟩, hjoin, rfl⟩ := Option.map_eq_some_iff.mp hmap
  have hj := Db.run_task_mission_eq_some hjoin
  have hjoin' : s.run_task_mission run.corp_id run.id = some (run, task, mission) := by
    rw [hj.corp_id, hj.run_id]
    exact hjoin
  exact ⟨Db.run_task_mission_eq_some hjoin', hjoin'⟩

/-- **What a sweep spares.** A sweep that reaches runs of the tasks `P` selects only where
their review is ready, and then in missions `Q` selects, leaves these tasks and missions
alone. -/
theorem sweep_spared {P Q : Uuid → Prop} {now : Int} {input : LostRunner} (hs : Life s)
    (hb : Bound s)
    (hrows : ∀ row ∈ lost_rows s input, (¬ P row.run.task_id ∧ ¬ Q row.mission.id)
      ∨ (P row.run.task_id ∧ Q row.mission.id
        ∧ review_ready_tx s now row.run.corp_id row.run.id = .ok true))
    (h : mark_runner_runs_lost_tx s now input = .ok t) :
    Spared P s t ∧ ∀ id, Q id → SparedMission id s t := by
  refine foldlM_lose_row_induction (I := fun u => Spared P s u ∧ ∀ id, Q id → SparedMission id s u)
    (lost_rows s input) hs hb (lost_rows_nodup hs input) (lost_rows_present hs input)
    ⟨Spared.refl, fun _ _ => SparedMission.refl⟩ ?_ h
  rintro row hrow u v hu hbu hpresent ⟨hspared, hmissions⟩ hlose
  unfold lose_row at hlose
  obtain ⟨ready, hready, hlose⟩ := bind_eq_ok.mp hlose
  rcases hrows row hrow with ⟨hP, hQ⟩ | ⟨hP, hQ, hreview⟩
  · split at hlose
    · rw [pure_eq_ok] at hlose
      subst hlose
      exact ⟨hspared, hmissions⟩
    · have hlosing := lose_run_tx_losing hu.rooted hbu hpresent.toLive hpresent.recovery hlose
      refine ⟨hspared.trans (hlosing.spared hu.rooted hpresent.run_mem hP), fun id hid => ?_⟩
      refine (hmissions id hid).trans (hlosing.spared_mission ?_)
      rintro rfl
      exact hQ hid
  · -- the review is as ready as it was when the sweep began
    rw [hspared.review_ready (hmissions _ hQ) now (lost_rows_join hrow).2 hP, hreview,
      Except.ok.injEq] at hready
    rw [← hready, if_pos rfl, pure_eq_ok] at hlose
    subst hlose
    exact ⟨hspared, hmissions⟩

end Crony.Store
