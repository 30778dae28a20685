/-
Reviews and the loss of their runner.

A run that waits for a manual verification does not need its runner any more. The loss of the
runner passes over such a run only if it is a checkpoint verification whose evidence is
complete (`review_ready_tx`); any other waiting run on the runner is given up with the rest,
and so is the review of a run whose mission fails with another run. Everywhere else the loss
writes nothing the review rests on: the request, the run, its task and mission, what was spent
and who may decide.
-/
import Crony.Lifecycle.Sweeps
import Crony.Properties.Runners
import Crony.Properties.Gates

set_option autoImplicit false

open Crony.Lib

namespace Crony.Store

variable {env : Env} {s t u : Db} {P : Uuid → Prop}

/-! ## What a review needs -/

/-- The run waits for a review: its request is pending. -/
def Db.awaits_review (s : Db) (run_id : Uuid) : Bool :=
  (s.run? run_id).any fun r => r.status == .waiting_for_approval
    && (s.request_of r.corp_id run_id).any fun q => q.status == .pending

/-- What `decide_verification` checks before it records a decision on a pending request. -/
def verification_checks (s : Db) (now : Int) (input : VerificationDecision) :
    Except String DecisionRow := do
  ensure (byteLen (trim input.note) ≤ 1000)
    "verification decision note cannot exceed 1,000 characters"
  let scope ← RunScope.read_tx s input.corp_id input.run_id
  let row ← context (decision_row s input.corp_id input.run_id)
    "pending verification request not found"
  scope.validate_tx s input.corp_id row.mission.id
  assert_room_membership_tx s input.corp_id row.mission.room_id input.actor_id
  let actor ← context (s.actor? input.corp_id input.actor_id) "verification actor not found"
  ensure (gate_admits row.request.gate actor row.mission.requested_by row.producer.actor_id)
    "forbidden: actor cannot decide this verification"
  ensure (row.request.status = .pending ∧ row.run.status = .waiting_for_approval
    ∧ row.task.status = .awaiting_approval) "verification request is no longer pending"
  ensure_run_not_hard_blocked_tx s now input.corp_id input.run_id row.run.breaker_stage
    "verification decision"
  ensure (row.mission.status ∉ [.completed, .failed, .cancelled]) "mission is already settled"
  return row

/-- The actor can decide the review of the run. -/
def Db.review_decidable (s : Db) (now : Int) (input : VerificationDecision) : Prop :=
  (verification_checks s now input).isOk = true

instance (s : Db) (now : Int) (input : VerificationDecision) :
    Decidable (s.review_decidable now input) :=
  inferInstanceAs (Decidable (_ = true))

theorem review_decidable_iff {now : Int} {input : VerificationDecision} :
    s.review_decidable now input ↔ ∃ row, verification_checks s now input = .ok row := by
  unfold Db.review_decidable
  cases verification_checks s now input with
  | ok row => simp [Except.isOk, Except.toBool]
  | error e => simp [Except.isOk, Except.toBool]

/-- What the checks have established about the rows of the review. -/
structure Checked (s : Db) (input : VerificationDecision) (row : DecisionRow) : Prop where
  row_eq : decision_row s input.corp_id input.run_id = some row
  join : s.run_task_mission input.corp_id input.run_id = some (row.run, row.task, row.mission)
  task_corp : row.task.corp_id = row.run.corp_id
  mission_corp : row.mission.corp_id = input.corp_id
  pending : row.request.status = .pending
  run_waiting : row.run.status = .waiting_for_approval
  mission_open : row.mission.status ∉ [.completed, .failed, .cancelled]

theorem verification_checks_ok (hs : Life s) (hl : Linked s) {now : Int}
    {input : VerificationDecision} {row : DecisionRow}
    (h : verification_checks s now input = .ok row) : Checked s input row := by
  simp only [verification_checks, bind_eq_ok, ensure_eq_ok, context_eq_ok, pure_eq_ok] at h
  obtain ⟨_, -, scope, hscope, row', hrow, _, -, _, -, _, -, _, -, _, ⟨hpending, hwaiting, -⟩, _, -,
    _, hopen, rfl⟩ := h
  obtain ⟨hq, hqrun, -, hr, hrid, hx, hxid, hm, hmid, -, -⟩ := decision_row_eq_some hrow
  unfold RunScope.read_tx at hscope
  simp only [bind_eq_ok, context_eq_ok, pure_eq_ok] at hscope
  obtain ⟨⟨r, x, m⟩, hscoped, -⟩ := hscope
  unfold Db.run_task_mission_scoped at hscoped
  obtain ⟨hjoin, hcorps⟩ := Option.filter_eq_some_iff.mp hscoped
  simp only [Bool.and_eq_true, beq_iff_eq] at hcorps
  have hj := Db.run_task_mission_eq_some hjoin
  -- the rows of the scope are those of the decision
  have hrun : r = row'.run := hs.eq_of_id hj.run_mem hr (hj.run_id.trans hrid.symm)
  obtain ⟨r', hr', hrid', htask⟩ := hl.requests row'.request hq
  have hrr : r' = row'.run := hs.eq_of_id hr' hr (by rw [hrid', hqrun, hrid])
  have hx' : x = row'.task :=
    hs.tasks_keyed.eq_of_mem hj.task_mem hx (by rw [hj.task_id, hrun, hxid, ← htask, hrr])
  have hm' : m = row'.mission :=
    hs.missions_keyed.eq_of_mem hj.mission_mem hm (by rw [hj.mission_id, hx', hmid])
  subst hrun hx' hm'
  exact ⟨hrow, hjoin, hcorps.1, hcorps.2.trans (hcorps.1.trans hj.corp_id), hpending, hwaiting,
    hopen⟩

theorem Checked.awaits_review {input : VerificationDecision} {row : DecisionRow}
    (h : Checked s input row) : s.awaits_review row.run.id = true := by
  obtain ⟨hrun, hcorp, -, -⟩ := Db.run?_of_join h.join
  have hid : row.run.id = input.run_id := (Db.run?_eq_some hrun).2
  have hrequest : s.request_of row.run.corp_id row.run.id = some row.request := by
    have hrow := h.row_eq
    unfold decision_row at hrow
    simp only [Option.bind_eq_bind, Option.bind_eq_some_iff, Option.pure_def, Option.some.injEq]
      at hrow
    obtain ⟨q, hq, _, -, _, -, _, -, _, -, hrow⟩ := hrow
    rw [hid, hcorp, ← hrow]
    exact hq
  unfold Db.awaits_review
  rw [hid, hrun, Option.any_some, h.run_waiting, ← hid, hrequest, Option.any_some, h.pending]
  rfl

/-! ## Where the task and the mission are spared -/

theorem Spared.awaits_review (h : Spared P s t) {r : Run} {run_id : Uuid}
    (hr : s.run? run_id = some r) (hP : P r.task_id) (hawaits : s.awaits_review run_id = true) :
    t.awaits_review run_id = true := by
  unfold Db.awaits_review at hawaits ⊢
  rw [(h.runs run_id r hP).mpr hr]
  rw [hr] at hawaits
  rw [Option.any_some] at hawaits ⊢
  rw [h.requests run_id r hr hP]
  exact hawaits

theorem Spared.hard_breaker (h : Spared P s t) {corp_id run_id : Uuid} {run : Run} {task : Task}
    {mission : Mission} (hm : SparedMission mission.id s t) (now : Int)
    (hjoin : s.run_task_mission corp_id run_id = some (run, task, mission)) (hP : P run.task_id) :
    hard_breaker_reached_tx t now corp_id run_id = hard_breaker_reached_tx s now corp_id
      run_id := by
  unfold hard_breaker_reached_tx
  simp only [h.zero_provider_allocation hm now hjoin hP, h.join hm hjoin hP, hjoin, context,
    ok_bind, h.ledger.usage, h.ledger.budget_policy]

/-- The row of a decision is there, with the producer's agent row as it now is. -/
theorem Spared.decision_row (h : Spared P s t) (hl : Life s) (hk : Linked s) {corp_id run_id : Uuid}
    {row : DecisionRow} (hm : SparedMission row.mission.id s t)
    (hrow : Crony.Store.decision_row s corp_id run_id = some row) (hP : P row.run.task_id) :
    ∃ producer, producer.actor_id = row.producer.actor_id
      ∧ Crony.Store.decision_row t corp_id run_id = some { row with producer } := by
  have hfound := decision_row_eq_some hrow
  obtain ⟨hq, hqrun, -, hrmem, hrid, -, -, -, hmid, -, -⟩ := hfound
  unfold Crony.Store.decision_row at hrow
  simp only [Option.bind_eq_bind, Option.bind_eq_some_iff, Option.pure_def, Option.some.injEq]
    at hrow
  obtain ⟨q, hqf, r, hr, x, hx, m, hmf, a, ha, rfl⟩ := hrow
  simp only at hP hm hq hqrun hrmem hrid hmid
  -- the request is of the run's task
  obtain ⟨r', hr', hrid', hrtask⟩ := hk.requests q hq
  have hrr : r' = r := hl.eq_of_id hr' hrmem (by rw [hrid', hqrun, hrid])
  rw [hrr] at hrtask
  have hrun : s.run? run_id = some r := by
    rw [← hqrun]
    exact hr
  have hrequest : t.request_of corp_id run_id = some q := by
    rw [h.requests run_id r hrun hP]
    exact hqf
  have htask : t.task? q.task_id = some x := by
    rw [← hrtask, h.tasks r.task_id hP, hrtask, hx]
  have hmission : t.mission? x.mission_id = some m := by
    rw [← hmid, hm.mission, hmid, hmf]
  obtain ⟨b, hb, hbid, hbactor⟩ := h.producers.find?_some
    (fun a b hab => by rw [hab.1]) ha
  refine ⟨b, hbactor, ?_⟩
  unfold Crony.Store.decision_row
  have hagent : t.agent? r.agent_id = some b := hb
  unfold Db.request_of at hrequest
  rw [hrequest]
  simp only [Option.bind_eq_bind, Option.bind_some, Option.pure_def, hqrun,
    (h.runs run_id r hP).mpr hrun, htask, hmission, hagent]

/-- **Who can decide a review can still decide it.** -/
theorem Spared.review_decidable (h : Spared P s t) (hs : Life s) (hl : Linked s) {now : Int}
    {input : VerificationDecision} {row : DecisionRow} (hm : SparedMission row.mission.id s t)
    (hP : P row.run.task_id) (hc : verification_checks s now input = .ok row) :
    t.review_decidable now input := by
  have hchecked := verification_checks_ok hs hl hc
  obtain ⟨producer, hproducer, hrow⟩ := h.decision_row hs hl hm hchecked.row_eq hP
  have hscoped : t.run_task_mission_scoped input.corp_id input.run_id
      = some (row.run, row.task, row.mission) := by
    have hcorp := (Db.run?_of_join hchecked.join).2.1
    unfold Db.run_task_mission_scoped
    rw [h.join hm hchecked.join hP, Option.filter_eq_some_iff]
    refine ⟨rfl, ?_⟩
    simp only [Bool.and_eq_true, beq_iff_eq]
    exact ⟨hchecked.task_corp, by rw [hchecked.mission_corp, hchecked.task_corp, hcorp]⟩
  simp only [verification_checks, bind_eq_ok, ensure_eq_ok, context_eq_ok, pure_eq_ok] at hc
  obtain ⟨_, hnote, _, -, row', hrow', _, -, _, hmember, actor, hactor, _, hgate, _, hwaiting, _,
    hsoft, _, hopen, rfl⟩ := hc
  have hblock : ensure_run_not_hard_blocked_tx t now input.corp_id input.run_id
      row'.run.breaker_stage "verification decision" = .ok () := by
    unfold ensure_run_not_hard_blocked_tx at hsoft ⊢
    rw [h.hard_breaker hm now hchecked.join hP]
    exact hsoft
  refine review_decidable_iff.mpr ⟨{ row' with producer }, ?_⟩
  unfold verification_checks RunScope.read_tx RunScope.validate_tx
  rw [ensure_of hnote, ok_bind, hscoped, context, ok_bind, hrow, context]
  simp only [ok_bind, pure_bind]
  rw [ensure_of ⟨trivial, by rw [hchecked.mission_corp]⟩, ok_bind, h.ledger.room_membership,
    hmember, ok_bind, h.ledger.actor, hactor, context, ok_bind, hproducer, ensure_of hgate, ok_bind,
    ensure_of hwaiting, ok_bind, hblock, ok_bind, ensure_of hopen, ok_bind]
  rfl

/-! ## Sweeps -/

/-- A review can only be ready in a running mission. -/
theorem review_ready_running {now : Int} {corp_id run_id : Uuid} {run : Run} {task : Task}
    {mission : Mission} (hjoin : s.run_task_mission corp_id run_id = some (run, task, mission))
    (h : review_ready_tx s now corp_id run_id = .ok true) : mission.status = .running := by
  unfold review_ready_tx at h
  dsimp only at h
  split at h
  · rw [pure_eq_ok] at h
    cases h
  · rename_i hwaiting
    simp only [Option.bind_eq_bind, Option.bind_eq_some_iff, Option.guard_eq_some'] at hwaiting
    obtain ⟨⟨r, x, m⟩, hscoped, _, -, _, -, hguard⟩ := hwaiting
    unfold Db.run_task_mission_scoped at hscoped
    rw [hjoin] at hscoped
    obtain ⟨hrow, -⟩ := Option.filter_eq_some_iff.mp hscoped
    rw [Option.some.injEq, Prod.mk.injEq, Prod.mk.injEq] at hrow
    rw [hrow.2.2]
    exact hguard.2.2.2.2.2.1

/-- No review is at risk from the loss of the runs: each run that will be given up is neither
a waiting run nor of the open mission of one. -/
def Db.reviews_safe (s : Db) (now : Int) (input : LostRunner) : Prop :=
  ∀ row ∈ lost_rows s input, review_ready_tx s now row.run.corp_id row.run.id ≠ .ok true →
    ∀ r ∈ s.runs, s.awaits_review r.id = true → r.id ≠ row.run.id
      ∧ (row.mission.status ∉ [.completed, .failed, .cancelled] →
        ∀ x ∈ s.tasks, x.id = r.task_id → x.mission_id ≠ row.mission.id)

section Sweep

variable {now : Int} {input : LostRunner} {r : Run} {x : Task} {m : Mission}

/-- The task and the mission of a waiting run are spared, as long as the mission is open. -/
theorem Db.reviews_safe.spared (hsafe : s.reviews_safe now input) (hs : Life s) (hb : Bound s)
    (hr : r ∈ s.runs) (hawaits : s.awaits_review r.id = true) (hx : x ∈ s.tasks)
    (hxid : x.id = r.task_id) (hm : m ∈ s.missions) (hmid : m.id = x.mission_id)
    (hopen : m.status ∉ [.completed, .failed, .cancelled])
    (h : mark_runner_runs_lost_tx s now input = .ok t) :
    Spared (fun id => ∃ y ∈ s.tasks, y.id = id ∧ y.mission_id = m.id) s t
      ∧ SparedMission m.id s t := by
  have hswept := sweep_spared (P := fun id => ∃ y ∈ s.tasks, y.id = id ∧ y.mission_id = m.id)
    (Q := fun id => id = m.id) hs hb ?_ h
  · exact ⟨hswept.1, hswept.2 m.id rfl⟩
  · intro row hrow
    obtain ⟨hj, -⟩ := lost_rows_join hrow
    by_cases hmission : row.mission.id = m.id
    · have hsame : row.mission = m := hs.missions_keyed.eq_of_mem hj.mission_mem hm hmission
      refine Or.inr ⟨⟨row.task, hj.task_mem, hj.task_id, ?_⟩, hmission, ?_⟩
      · rw [← hj.mission_id, hmission]
      · by_contra hnot
        obtain ⟨-, hnone⟩ := hsafe row hrow hnot r hr hawaits
        exact hnone (hsame ▸ hopen) x hx hxid (hmid.symm.trans hmission.symm)
    · refine Or.inl ⟨?_, hmission⟩
      rintro ⟨y, hy, hyid, hymission⟩
      have hyrow : y = row.task := hs.tasks_keyed.eq_of_mem hy hj.task_mem
          (hyid.trans hj.task_id.symm)
      rw [hyrow, ← hj.mission_id] at hymission
      exact hmission hymission

/-- A waiting run whose mission is settled is not visited at all. -/
theorem Db.reviews_safe.spared_settled (hsafe : s.reviews_safe now input) (hs : Life s)
    (hb : Bound s) (hr : r ∈ s.runs) (hactive : r.active = true)
    (hawaits : s.awaits_review r.id = true) (hx : x ∈ s.tasks) (hxid : x.id = r.task_id)
    (hm : m ∈ s.missions) (hmid : m.id = x.mission_id)
    (hsettled : m.status ∈ [MissionStatus.completed, .failed, .cancelled])
    (h : mark_runner_runs_lost_tx s now input = .ok t) : Spared (fun id => id = r.task_id) s t := by
  refine (sweep_spared (Q := fun _ => False) hs hb ?_ h).1
  intro row hrow
  refine Or.inl ⟨fun htask => ?_, not_false⟩
  obtain ⟨hj, hjoin⟩ := lost_rows_join hrow
  have hlive := lost_rows_live hs input row hrow
  -- a task has at most one active run
  have hrun : row.run = r := hs.task_exclusive.eq_of_mem hlive.run_mem hr hlive.active hactive htask
  by_cases hready : review_ready_tx s now row.run.corp_id row.run.id = .ok true
  · have hrunning := review_ready_running hjoin hready
    have htask' : row.task = x :=
      hs.tasks_keyed.eq_of_mem hj.task_mem hx (by rw [hj.task_id, htask, hxid])
    have hmission : row.mission = m :=
      hs.missions_keyed.eq_of_mem hj.mission_mem hm (by rw [hj.mission_id, htask', hmid])
    rw [hmission] at hrunning
    rw [hrunning] at hsettled
    simp at hsettled
  · exact (hsafe row hrow hready r hr hawaits).1 (by rw [hrun])

theorem awaiting_run {run_id : Uuid} (h : s.awaits_review run_id = true) :
    ∃ r, s.run? run_id = some r ∧ r.status = .waiting_for_approval := by
  unfold Db.awaits_review at h
  obtain ⟨r, hr, hcond⟩ := (Option.any_eq_true _ _).mp h
  rw [Bool.and_eq_true, beq_iff_eq] at hcond
  exact ⟨r, hr, hcond.1⟩

theorem Db.reviews_safe.awaits (hsafe : s.reviews_safe now input) (hs : Life s) (hb : Bound s)
    (h : mark_runner_runs_lost_tx s now input = .ok t) (run_id : Uuid)
    (hawaits : s.awaits_review run_id = true) : t.awaits_review run_id = true := by
  obtain ⟨r, hr, hwaiting⟩ := awaiting_run hawaits
  obtain ⟨hmem, hid⟩ := Db.run?_eq_some hr
  subst hid
  obtain ⟨x, hx, hxid, -⟩ := hs.run_task r hmem
  obtain ⟨m, hm, hmid, -⟩ := hs.task_mission x hx
  by_cases hopen : m.status ∈ [MissionStatus.completed, .failed, .cancelled]
  · have hactive : r.active = true := by
      rw [Run.active, hwaiting]
      rfl
    exact (hsafe.spared_settled hs hb hmem hactive hawaits hx hxid hm hmid hopen h).awaits_review hr
      rfl hawaits
  · exact (hsafe.spared hs hb hmem hawaits hx hxid hm hmid hopen h).1.awaits_review hr
      ⟨x, hx, hxid, hmid.symm⟩ hawaits

theorem Db.reviews_safe.decidable (hsafe : s.reviews_safe now input) (hs : Life s) (hl : Linked s)
    (hb : Bound s) (h : mark_runner_runs_lost_tx s now input = .ok t) (time : Int)
    (decision : VerificationDecision) (hdecidable : s.review_decidable time decision) :
    t.review_decidable time decision := by
  obtain ⟨row, hc⟩ := review_decidable_iff.mp hdecidable
  have hchecked := verification_checks_ok hs hl hc
  have hj := Db.run_task_mission_eq_some hchecked.join
  obtain ⟨hspared, hmission⟩ := hsafe.spared hs hb hj.run_mem hchecked.awaits_review hj.task_mem
    hj.task_id hj.mission_mem hj.mission_id hchecked.mission_open h
  exact hspared.review_decidable hs hl hmission
    ⟨row.task, hj.task_mem, hj.task_id, hj.mission_id.symm⟩
    hc

end Sweep

/-! ## Runs -/

theorem OnlyEvents.spared (h : OnlyEvents s t) :
    Spared (fun _ => True) s t ∧ ∀ id, SparedMission id s t := by
  obtain ⟨new, rfl, hnew⟩ := h
  refine ⟨{ Spared.refl (P := fun _ => True) (s := s) with
            ledger := ⟨rfl, rfl, rfl, rfl, rfl, rfl, rfl⟩, stops := ?_ },
    fun _ => ⟨rfl, fun _ _ => rfl⟩⟩
  intro e he
  constructor
  · intro hmem
    rcases List.mem_append.mp hmem with hmem | hmem
    · exact hmem
    · exact absurd he (hnew e hmem)
  · exact List.mem_append_left new

/-- The calls about the connection of a runner. -/
def FleetOp.connects : FleetOp → Bool
  | .runner_connected _ | .runner_heartbeat .. | .runner_disconnected .. | .expire_runner_grace ..
  | .reconcile_runner_claims .. | .mark_unclaimed_runner_runs_lost .. => true
  | _ => false

/-- If the call is about a connection, it puts no review at risk. -/
def FleetOp.Spares (s : Fleet) (op : FleetOp) : Prop :=
  op.connects = true → ∀ input ∈ op.loss s, s.toDb.reviews_safe s.clock input

/-- What the runs and the reviews of a database keep. -/
structure ReviewsKept (s t : Db) : Prop where
  awaits : ∀ run_id, s.awaits_review run_id = true → t.awaits_review run_id = true
  decidable : ∀ now input, s.review_decidable now input → t.review_decidable now input

theorem OnlyEvents.reviews (h : OnlyEvents s t) (hs : Inv s) : ReviewsKept s t where
  awaits := by
    intro run_id hawaits
    obtain ⟨r, hr, -⟩ := awaiting_run hawaits
    exact h.spared.1.awaits_review hr trivial hawaits
  decidable := by
    intro now input hdecidable
    obtain ⟨row, hc⟩ := review_decidable_iff.mp hdecidable
    exact h.spared.1.review_decidable hs.life hs.linked (h.spared.2 _) trivial hc

theorem ReviewsKept.trans (h : ReviewsKept s t) (h' : ReviewsKept t u) : ReviewsKept s u where
  awaits := fun run_id hawaits => h'.awaits run_id (h.awaits run_id hawaits)
  decidable := fun now input hdecidable => h'.decidable now input (h.decidable now input hdecidable)

/-- **Step lemma.** A call about a connection that puts no review at risk ends none. -/
theorem FleetOp.Spares.kept {s t : Fleet} {op : FleetOp} (hspares : op.Spares s)
    (hconnects : op.connects = true) (hs : Inv s.toDb) (hb : Store.Bound s.toDb)
    (h : s.exec env op = .ok t) : ReviewsKept s.toDb t.toDb := by
  cases Fleet.exec_advance h with
  | journal h => exact h.reviews hs
  | swept input hloss hswept =>
    have hsafe := hspares hconnects input hloss
    have hinv := hswept.inv env hs
    obtain ⟨db, hdb, hevents⟩ := hswept
    have hexec : Store.exec env s.toDb (.mark_runner_runs_lost s.clock input) = .ok db := hdb
    have hkept : ReviewsKept s.toDb db :=
      ⟨hsafe.awaits hs.life hb hdb, hsafe.decidable hs.life hs.linked hb hdb⟩
    exact hkept.trans (hevents.reviews (exec_inv hs hexec))
  | lifecycle call hop => rw [hop] at hconnects; cases hconnects

/-- The run did not end otherwise than by a call that is not about a connection. -/
def Roll.EndedElsewhere (env : Env) (P : Roll → Prop) (s t : Roll) : Prop :=
  ∃ u op, (runners env).Reaches (fun u op => op.Spares u.toFleet) s u ∧ op.connects = false ∧ P u
    ∧ ¬ P ((runners env).step u op)
    ∧ (runners env).Reaches (fun u op => op.Spares u.toFleet) ((runners env).step u op) t

theorem kept_or_ended_elsewhere {P : Roll → Prop} {s t : Roll} (hs : (runners env).Reachable s)
    (hrun : (runners env).Reaches (fun u op => op.Spares u.toFleet) s t) (h0 : P s)
    (hP : ∀ a b : Roll, ReviewsKept a.toDb b.toDb → P a → P b) :
    P t ∨ Roll.EndedElsewhere env P s t := by
  have hkept := hrun.kept_or_ended (I := P) (J := fun u : Roll => Inv u.toDb ∧ Bound u.toDb)
    (p := fun _ op => op.connects = true) ?_ (runners_invariants hs) h0 ?_
  · rcases hkept with hkept | ⟨u, op, hsu, -, hconnects, hPu, hend, hrest⟩
    · exact Or.inl hkept
    · exact Or.inr ⟨u, op, hsu, Bool.eq_false_iff.mpr hconnects, hPu, hend, hrest⟩
  · intro u op hinv
    refine TransitionSystem.ofExec_step_cases (P := fun v : Roll => Inv v.toDb ∧ Bound v.toDb) hinv
      ?_
    intro v hv
    simp only [Roll.exec, bind_eq_ok, pure_eq_ok] at hv
    obtain ⟨w, hw, rfl⟩ := hv
    exact (Fleet.exec_advance hw).invariants hinv
  · intro u op hinv hPu hspares hconnects
    refine TransitionSystem.ofExec_step_cases (P := P) hPu ?_
    intro v hv
    simp only [Roll.exec, bind_eq_ok, pure_eq_ok] at hv
    obtain ⟨w, hw, rfl⟩ := hv
    have hop : FleetOp.Spares u.toFleet op := hspares
    have hkept := hop.kept hconnects hinv.1 hinv.2 hw
    exact hP u _ hkept hPu

/-- **Reviews survive the loss of their runner** along every run whose calls about connections
put no review at risk: what is waiting keeps waiting and stays decidable by whoever could
decide it, until a call that is not about a connection ends it. -/
theorem reviews_survive_runner_loss {s t : Roll} (hs : (runners env).Reachable s)
    (hrun : (runners env).Reaches (fun u op => op.Spares u.toFleet) s t) :
    (∀ run_id, s.awaits_review run_id = true → t.awaits_review run_id = true
        ∨ Roll.EndedElsewhere env (fun u => u.awaits_review run_id = true) s t)
      ∧ ∀ now input, s.review_decidable now input → t.review_decidable now input
        ∨ Roll.EndedElsewhere env (fun u => u.review_decidable now input) s t := by
  constructor
  · intro run_id hawaits
    refine kept_or_ended_elsewhere (P := fun u : Roll => u.awaits_review run_id = true) hs hrun
      hawaits ?_
    exact fun a b hkept h => hkept.awaits run_id h
  · intro now input hdecidable
    refine kept_or_ended_elsewhere (P := fun u : Roll => u.review_decidable now input) hs hrun
      hdecidable ?_
    exact fun a b hkept h => hkept.decidable now input h

instance (s : Db) (now : Int) (input : LostRunner) : Decidable (s.reviews_safe now input) :=
  inferInstanceAs (Decidable (∀ row ∈ lost_rows s input,
    review_ready_tx s now row.run.corp_id row.run.id ≠ .ok true → ∀ r ∈ s.runs,
      s.awaits_review r.id = true → r.id ≠ row.run.id
        ∧ (row.mission.status ∉ [MissionStatus.completed, .failed, .cancelled] →
          ∀ x ∈ s.tasks, x.id = r.task_id → x.mission_id ≠ row.mission.id)))

instance (s : Fleet) (op : FleetOp) : Decidable (op.Spares s) :=
  inferInstanceAs
    (Decidable (op.connects = true → ∀ input ∈ op.loss s, s.reviews_safe s.clock input))

namespace Dock

/-- The runner connects and executes a run up to its request for a review. -/
def reviewed : List FleetOp := connect 1 :: Office.waiting_run.map .lifecycle

/-- The connection of the runner ends; it has a minute to come back. -/
def disconnect : FleetOp := .runner_disconnected "runner" 7 60

/-- The runner comes back with some of its runs. -/
def reconnect (claims : List Uuid) : FleetOp := .mark_unclaimed_runner_runs_lost "runner" 7 claims

def decision : VerificationDecision where
  corp_id := 1
  run_id := 50
  actor_id := 1
  approved := true
  note := ""
  decision_key := none

end Dock

set_option maxRecDepth 20000 in
/-- The runner disconnects after it has finished the run, and the review goes on. -/
theorem reviews_survive_runner_loss_disconnected :
    (Dock.after Dock.reviewed).awaits_review 50 = true
      ∧ (Dock.after Dock.reviewed).review_decidable 0 Dock.decision
      ∧ ((Dock.after (Dock.reviewed ++ [Dock.disconnect])).awaits_review 50 = true
        ∨ Roll.EndedElsewhere Office.digest (fun u => u.awaits_review 50 = true)
          (Dock.after Dock.reviewed) (Dock.after (Dock.reviewed ++ [Dock.disconnect])))
      ∧ ((Dock.after (Dock.reviewed ++ [Dock.disconnect])).review_decidable 0 Dock.decision
        ∨ Roll.EndedElsewhere Office.digest (fun u => u.review_decidable 0 Dock.decision)
          (Dock.after Dock.reviewed) (Dock.after (Dock.reviewed ++ [Dock.disconnect]))) := by
  have hawaits : (Dock.after Dock.reviewed).awaits_review 50 = true := by decide +kernel
  have hdecidable : (Dock.after Dock.reviewed).review_decidable 0 Dock.decision := by decide +kernel
  have hrun : (runners Office.digest).Reaches (fun u op => op.Spares u.toFleet)
      (Dock.after Dock.reviewed) (Dock.after (Dock.reviewed ++ [Dock.disconnect])) := by
    unfold Dock.after TransitionSystem.run
    rw [List.foldl_append]
    have hmeets : (runners Office.digest).Meets (fun u op => op.Spares u.toFleet)
        (Dock.after Dock.reviewed) [Dock.disconnect] := by decide +kernel
    exact TransitionSystem.Reaches.run hmeets
  obtain ⟨hkept, hdecided⟩ := reviews_survive_runner_loss
    (TransitionSystem.Reachable.run Dock.initial Dock.reviewed) hrun
  exact ⟨hawaits, hdecidable, hkept 50 hawaits, hdecided 0 Dock.decision hdecidable⟩

set_option maxRecDepth 20000 in
/-- The runner comes back without the run it has finished, and the waiting run is lost. -/
theorem review_lost_by_reconnect :
    ¬ ∀ s : Roll, (runners Office.digest).Reachable s → ∀ op : FleetOp, op.connects = true →
      ∀ run_id, s.awaits_review run_id = true →
        (((runners Office.digest).step s op).run? run_id).any (fun r => r.status == .lost)
          = false := by
  intro hall
  have hlost := hall (Dock.after Dock.reviewed)
    (TransitionSystem.Reachable.run Dock.initial Dock.reviewed) (Dock.reconnect []) rfl 50
    (by decide +kernel)
  revert hlost
  decide +kernel

end Crony.Store
