/-
When the expiry of an action approval is coherent.

`expire_action_approval` guards its write to the run by the run's status, but not its writes
to the task and the mission: these are selected by the approval's task and mission and by
their own statuses alone. An approval stays pending when its run ends, so an expiry that
comes later meets a task that may have been retried and a mission that may still be running.
And the status `waiting_for_approval` is also that of a run whose manual verification is
open: such a run waits for its review and not for the approval. An expiry, or a decision that
comes too late and expires the approval, touches the work only of a run that waits for the
approval (`Db.waits_on`), exactly when the run does wait for it, or nothing is left that the
expiry selects (`Db.over`).
-/
import Crony.Lifecycle.Turns

set_option autoImplicit false

open Crony.Lib

namespace Crony.Store

variable {env : Env} {s t : Db}

/-! ## Approvals are keyed -/

theorem Aside.approvals_keyed {P : Event → Prop} (h : Aside P s t)
    (hs : Keyed ActionApproval.id s.action_approvals) :
    Keyed ActionApproval.id t.action_approvals :=
  h.action_approvals.keyed hs fun _ _ hk => hk.id

theorem ReportEffect.approvals_keyed {row : RunnerRow} {payload : Json} {event_type : EventType}
    (h : ReportEffect s t row payload event_type)
    (hs : Keyed ActionApproval.id s.action_approvals) :
    Keyed ActionApproval.id t.action_approvals := by
  cases h with
  | calm _ h => exact h.toAside.approvals_keyed hs
  | ended _ h => exact h.toAside.approvals_keyed hs
  | asked _ p _ _ _ _ happ _ hnew =>
    rw [happ]
    exact hs.append_singleton hnew
  | usage _ h =>
    unfold run_usage at h
    simp only [bind_eq_ok, pure_eq_ok] at h
    obtain ⟨_, -, rfl⟩ := h
    exact hs
  | evidence _ h =>
    obtain ⟨e, rfl, -⟩ := run_verification_evidence_ok h
    exact hs
  | passed _ h =>
    obtain ⟨_, _, _, -, -, -, rfl⟩ := run_verification_passed_ok h
    exact hs
  | waiting _ _ hadv => exact hadv.action_approvals ▸ hs
  | completed _ _ hadv => exact hadv.action_approvals ▸ hs

theorem Effect.approvals_keyed {op : Op} (h : Effect s op t)
    (hs : Keyed ActionApproval.id s.action_approvals) :
    Keyed ActionApproval.id t.action_approvals := by
  cases h with
  | calm h => exact h.toAside.approvals_keyed hs
  | settled command_id _ h => exact h.toAside.approvals_keyed hs
  | admitted r _ h => exact h.toAside.approvals_keyed hs
  | raised now corp_id run_id run task mission stage i c e _ _ _ _ h =>
    rw [h.state]
    exact hs
  | shelved l _ ht =>
    subst ht
    exact hs
  | readied corp_id artifact_id a run task mission u _ _ _ h ht =>
    obtain ⟨runs, tasks, agents, hr⟩ := review_run_frame u run task.id run.active
    rw [hr] at ht
    obtain ⟨-, happ, -⟩ := h.frame
    subst ht
    exact happ ▸ hs
  | approved now input row actor _ _ _ hadv => exact hadv.action_approvals ▸ hs
  | reported now input row scope payload _ _ _ _ h => exact h.approvals_keyed hs

theorem ReachableVia.approvals_keyed {ok : Db → Op → Prop} (h : ReachableVia env ok s) :
    Keyed ActionApproval.id s.action_approvals := by
  refine ReachableVia.inv (I := fun s => Keyed ActionApproval.id s.action_approvals) h ?_ ?_
  · intro s hs
    rw [Keyed, hs.action_approvals]
    exact List.nodup_nil
  · intro s op t hs hk _ he
    have hinv := ReachableVia.invariants hs
    exact (exec_effect hinv.life hinv.linked he).approvals_keyed hk

/-! ## Coherence -/

/-- The run waits for its manual verification, which is what a human has to decide next. -/
def Db.under_review (s : Db) (r : Run) : Prop :=
  r.verification_status = .waiting_for_approval
    ∨ ∃ q ∈ s.verification_requests, q.run_id = r.id ∧ q.status = .pending

/-- The run of the approval is active and waits for it, and not for its manual
verification. -/
def Db.waits_on (s : Db) (p : ActionApproval) : Prop :=
  ∃ r ∈ s.runs, r.id = p.run_id ∧ r.status = .waiting_for_approval ∧ ¬ s.under_review r

/-- Runs, tasks, missions and agents are as they were. -/
structure SameWork (s t : Db) : Prop where
  runs : t.runs = s.runs
  tasks : t.tasks = s.tasks
  missions : t.missions = s.missions
  agents : t.agents = s.agents

theorem SameWork.refl (s : Db) : SameWork s s := ⟨rfl, rfl, rfl, rfl⟩

/-- The run of the approval does not wait for an approval, its mission is no longer running,
its task does not await an approval, and its agent is not on its run. -/
structure Db.over (s : Db) (p : ActionApproval) : Prop where
  run : ∀ r ∈ s.runs, r.id = p.run_id → r.status ≠ .waiting_for_approval
  mission : ∀ m ∈ s.missions, m.id = p.mission_id → m.status ≠ .running
  task : ∀ x ∈ s.tasks, x.id = p.task_id → x.status ≠ .awaiting_approval
  agent : ∀ a ∈ s.agents, a.id = p.agent_id → a.current_run_id ≠ some p.run_id

/-- The guards of `expire_action_approval`: the approval is pending and due, and its expiry
has not been recorded. -/
structure Db.due (s : Db) (now : Int) (p : ActionApproval) : Prop where
  pending : p.status = .pending
  expired : p.expires_at ≤ now
  unrecorded : s.recorded p.corp_id (.approval_expired p.id) = false

/-- The guards of `decide_action_approval` on the way to the expiry of the approval. -/
structure Db.decided_late (s : Db) (now : Int) (input : ApprovalDecision) (p : ActionApproval) :
    Prop where
  note : byteLen (trim input.note) ≤ 1000
  corp_id : p.corp_id = input.corp_id
  soft : ∃ run ∈ s.runs, run.id = p.run_id
    ∧ ensure_run_not_hard_blocked_tx s now input.corp_id run.id run.breaker_stage "action approval"
      = .ok ()
  due : s.due now p

/-- The call changes the work only of a run that waits for the approval it names. -/
def Op.Coherent (env : Env) (s : Db) : Op → Prop
  | .expire_action_approval now approval_id => ∀ p ∈ s.action_approvals, p.id = approval_id →
      SameWork s (step env s (.expire_action_approval now approval_id)) ∨ s.waits_on p
  | .decide_action_approval now input => ∀ p ∈ s.action_approvals, p.id = input.approval_id →
      SameWork s (step env s (.decide_action_approval now input)) ∨ s.waits_on p
  | _ => True

/-- An approval that the call expires belongs to a run that waits, or to work that is over. -/
def Op.Timely (s : Db) : Op → Prop
  | .expire_action_approval now approval_id => ∀ p ∈ s.action_approvals, p.id = approval_id →
      s.due now p → s.waits_on p ∨ s.over p
  | .decide_action_approval now input => ∀ p ∈ s.action_approvals, p.id = input.approval_id →
      s.decided_late now input p → s.waits_on p ∨ s.over p
  | _ => True

/-! ## The expiry -/

/-- The statements of an expiry leave the work alone exactly when it is over. -/
theorem Expired.same_iff {p : ActionApproval} (h : Expired s t p) :
    SameWork s t ↔ s.over p := by
  -- a guarded write leaves its table alone exactly when its guard selects no row of it
  constructor
  · intro hsame
    refine ⟨?_, ?_, ?_, ?_⟩
    · intro r hr hid hwaits
      have hself := eq_of_updateWhere_eq_self (h.runs.symm.trans hsame.runs) hr
        (by simp [hid, hwaits])
      have hstatus := congrArg Run.status hself
      rw [hwaits] at hstatus
      cases hstatus
    · intro m hm hid hrunning
      have hself := eq_of_updateWhere_eq_self (h.missions.symm.trans hsame.missions) hm
        (by simp [hid, hrunning])
      have hstatus := congrArg Mission.status hself
      rw [hrunning] at hstatus
      cases hstatus
    · intro x hx hid hawaits
      have hself := eq_of_updateWhere_eq_self (h.tasks.symm.trans hsame.tasks) hx
        (by simp [hid, hawaits])
      have hstatus := congrArg Task.status hself
      rw [hawaits] at hstatus
      cases hstatus
    · intro a ha hid hcurrent
      have hself := eq_of_updateWhere_eq_self (h.agents.symm.trans hsame.agents) ha
        (by simp [hid, hcurrent])
      have hrun := congrArg Agent.current_run_id hself
      rw [hcurrent] at hrun
      cases hrun
  · intro hover
    refine ⟨?_, ?_, ?_, ?_⟩
    · refine h.runs.trans (updateWhere_of_none fun r hr => ?_)
      rw [Bool.eq_false_iff]
      intro hp
      simp only [Bool.and_eq_true, beq_iff_eq] at hp
      exact hover.run r hr hp.1 hp.2
    · refine h.tasks.trans (updateWhere_of_none fun x hx => ?_)
      rw [Bool.eq_false_iff]
      intro hp
      simp only [Bool.and_eq_true, beq_iff_eq] at hp
      exact hover.task x hx hp.1 hp.2
    · refine h.missions.trans (updateWhere_of_none fun m hm => ?_)
      rw [Bool.eq_false_iff]
      intro hp
      simp only [Bool.and_eq_true, beq_iff_eq] at hp
      exact hover.mission m hm hp.1 hp.2
    · refine h.agents.trans (updateWhere_of_none fun a ha => ?_)
      rw [Bool.eq_false_iff]
      intro hp
      simp only [Bool.and_eq_true, beq_iff_eq] at hp
      exact hover.agent a ha hp.1 hp.2

/-- A coherent expiry: the run waits, or nothing is left to change. -/
theorem Expired.coherent_iff {p : ActionApproval} (h : Expired s t p) :
    SameWork s t ∨ s.waits_on p ↔ s.waits_on p ∨ s.over p := by
  rw [h.same_iff]
  exact Or.comm

/-- The state after the statements of an expiry, before its event. -/
def Db.expired_by (s : Db) (p : ActionApproval) (run : Run) : Db :=
  insert_runner_command_once
    ((s.onActionApprovals (updateWhere (fun q => q.id == p.id) fun q =>
      { q with status := .expired, decision_note := some expiry_reason })).expire_run p)
    { id := 0, corp_id := p.corp_id, runner_id := run.runner_id, run_id := run.id
      command_kind := .approval_decision
      payload := .obj [("approval_id", .uuid p.id), ("approved", .bool false),
        ("note", .str expiry_reason)]
      idempotency_key := .approval_expired p.id }

/-- The event of an expiry. -/
def expiry_event (p : ActionApproval) (run : Run) : Event where
  id := 0
  corp_id := p.corp_id
  room_id := some p.room_id
  type := .other "run.approval_expired"
  aggregate_type := .run
  aggregate_id := run.id
  correlation_id := some p.mission_id
  idempotency_key := .approval_expired p.id

section Expiry

variable {p : ActionApproval} {run : Run} {now : Int}

/-- With its event appended, it is an expiry of the approval. -/
theorem Db.expired_by_expired (s : Db) (p : ActionApproval) (run : Run)
    (f : List Event → List Event) :
    Expired s ((s.expired_by p run).onEvents f) p := by
  unfold Db.expired_by insert_runner_command_once
  split
  · exact ⟨rfl, rfl, rfl, rfl, rfl⟩
  · exact ⟨rfl, rfl, rfl, rfl, rfl⟩

theorem Db.expired_by_events (s : Db) (p : ActionApproval) (run : Run) :
    (s.expired_by p run).events = s.events := by
  unfold Db.expired_by insert_runner_command_once
  split
  · rfl
  · rfl

/-- The expiry of an approval of the table whose run is there. -/
theorem expire_action_approval_eq
    (hfind : s.action_approvals.find? (fun q => q.id == p.id) = some p)
    (hrun : s.run? p.run_id = some run) :
    expire_action_approval s now p.id
      = if p.status = .pending ∧ p.expires_at ≤ now then
          append_new_event_tx (s.expired_by p run) (expiry_event p run)
            "approval expiry event unexpectedly existed"
        else .ok s := by
  unfold expire_action_approval
  rw [hfind]
  simp only [Option.bind_eq_bind, Option.bind_some, hrun, Option.pure_def]
  by_cases hdue : p.status = .pending ∧ p.expires_at ≤ now
  · rw [if_pos hdue, guard_of hdue]
    rfl
  · rw [if_neg hdue, guard_of_not hdue]
    rfl

/-- A due approval of the table is expired. -/
theorem expire_action_approval_of_due
    (hfind : s.action_approvals.find? (fun q => q.id == p.id) = some p)
    (hrun : s.run? p.run_id = some run) (hdue : s.due now p) :
    ∃ t, expire_action_approval s now p.id = .ok t ∧ Expired s t p := by
  rw [expire_action_approval_eq hfind hrun, if_pos ⟨hdue.pending, hdue.expired⟩]
  refine ⟨_, append_new_event_tx_ok.mpr ⟨?_, rfl⟩, s.expired_by_expired p run _⟩
  rw [Db.recorded, s.expired_by_events]
  exact hdue.unrecorded

/-- An expiry that is committed changes nothing or was due. -/
theorem expire_action_approval_cases
    (hfind : s.action_approvals.find? (fun q => q.id == p.id) = some p)
    (hrun : s.run? p.run_id = some run) (h : expire_action_approval s now p.id = .ok t) :
    SameWork s t ∨ (s.due now p ∧ Expired s t p) := by
  rw [expire_action_approval_eq hfind hrun] at h
  -- the guards in front of the writes; the event must be new as well
  by_cases hdue : p.status = .pending ∧ p.expires_at ≤ now
  · rw [if_pos hdue] at h
    obtain ⟨hunrecorded, rfl⟩ := append_new_event_tx_ok.mp h
    rw [Db.recorded, s.expired_by_events] at hunrecorded
    exact Or.inr ⟨⟨hdue.1, hdue.2, hunrecorded⟩, s.expired_by_expired p run _⟩
  · rw [if_neg hdue, Except.ok.injEq] at h
    exact Or.inl (h ▸ SameWork.refl s)

/-- A decision that is committed changes no work, or expires the approval. -/
theorem decide_action_approval_cases (hk : Keyed ActionApproval.id s.action_approvals)
    {input : ApprovalDecision} (hp : p ∈ s.action_approvals) (hid : p.id = input.approval_id)
    (hrun : s.run? p.run_id = some run) {c : Committed String Db Unit}
    (h : decide_action_approval s now input = .ok c) :
    SameWork s c.state ∨ (s.decided_late now input p ∧ Expired s c.state p) := by
  unfold decide_action_approval at h
  simp only [bind_eq_ok, ensure_eq_ok, context_eq_ok] at h
  obtain ⟨_, hnote, approval, happ, run', hrun', h⟩ := h
  have hmem := List.mem_of_find?_eq_some happ
  have hsome := List.find?_some happ
  simp only [Bool.and_eq_true, beq_iff_eq] at hsome
  have heq : approval = p := hk.eq_of_mem hmem hp (hsome.1.trans hid.symm)
  subst heq
  rw [hrun, Option.some.injEq] at hrun'
  subst hrun'
  -- an approval that is decided already is only read; one that is due is expired
  split at h
  · simp only [bind_eq_ok, pure_eq_ok] at h
    obtain ⟨_, -, rfl⟩ := h
    exact Or.inl (SameWork.refl s)
  · obtain ⟨⟨⟩, hsoft, h⟩ := bind_eq_ok.mp h
    split at h
    · simp only [bind_eq_ok, pure_eq_ok] at h
      obtain ⟨u, hu, rfl⟩ := h
      rcases expire_action_approval_cases (hk.find?_eq_some hp) hrun hu with hsame | ⟨hdue, hexp⟩
      · exact Or.inl hsame
      · obtain ⟨hmemrun, hrid⟩ := Db.run?_eq_some hrun
        exact Or.inr ⟨⟨hnote, hsome.2, ⟨run, hmemrun, hrid, hsoft⟩, hdue⟩, hexp⟩
    · simp only [bind_eq_ok, pure_eq_ok] at h
      obtain ⟨u, hu, rfl⟩ := h
      obtain ⟨_, _, -, rfl, -⟩ := record_action_decision_ok hu
      exact Or.inl ⟨rfl, rfl, rfl, rfl⟩

/-- A decision that comes late expires the approval. -/
theorem decide_action_approval_of_late (hs : Life s)
    (hk : Keyed ActionApproval.id s.action_approvals)
    {input : ApprovalDecision} (hp : p ∈ s.action_approvals) (hid : p.id = input.approval_id)
    (hlate : s.decided_late now input p) :
    ∃ c, decide_action_approval s now input = .ok c ∧ Expired s c.state p := by
  obtain ⟨run, hmem, hrid, hsoft⟩ := hlate.soft
  have hrun : s.run? p.run_id = some run := by
    rw [Db.run?, ← hrid]
    exact hs.runs_keyed.find?_eq_some hmem
  -- the approval is found under its own Corp
  have hfind : s.action_approvals.find? (fun q => q.id == input.approval_id
      && q.corp_id == input.corp_id) = some p := by
    cases hf : s.action_approvals.find? (fun q => q.id == input.approval_id
        && q.corp_id == input.corp_id) with
    | none =>
      have := List.find?_eq_none.mp hf p hp
      simp [hid, hlate.corp_id] at this
    | some q =>
      have hq := List.find?_some hf
      simp only [Bool.and_eq_true, beq_iff_eq] at hq
      rw [hk.eq_of_mem (List.mem_of_find?_eq_some hf) hp (hq.1.trans hid.symm)]
  obtain ⟨t, ht, hexp⟩ := expire_action_approval_of_due (hk.find?_eq_some hp) hrun hlate.due
  refine ⟨{ result := .error "approval request expired", state := t }, ?_, hexp⟩
  unfold decide_action_approval
  rw [ensure_of hlate.note, ok_bind, hfind]
  simp only [context, ok_bind, hrun]
  rw [if_neg (by simp [hlate.due.pending]), hsoft, ok_bind, if_pos hlate.due.expired, ht]
  rfl

end Expiry

/-! ## The result -/

/-- **Step lemma.** In a reachable state a call is coherent exactly when it is timely. -/
theorem coherent_iff_timely (h : Reachable env s) (op : Op) :
    op.Coherent env s ↔ op.Timely s := by
  have hinv := ReachableVia.invariants h
  have hk := ReachableVia.approvals_keyed h
  -- an approval belongs to a run of the table
  have hrow : ∀ p ∈ s.action_approvals, ∃ run, s.run? p.run_id = some run := by
    intro p hp
    obtain ⟨run, hrun, hrid, -⟩ := hinv.linked.approvals p hp
    refine ⟨run, ?_⟩
    rw [Db.run?, ← hrid]
    exact hinv.life.runs_keyed.find?_eq_some hrun
  cases op with
  | expire_action_approval now approval_id =>
    refine forall_congr' fun p => forall_congr' fun hp => forall_congr' fun hid => ?_
    subst hid
    obtain ⟨run, hrun⟩ := hrow p hp
    have hfind := hk.find?_eq_some hp
    constructor
    · intro hcoherent hdue
      obtain ⟨t, ht, hexp⟩ := expire_action_approval_of_due hfind hrun hdue
      have hstep : step env s (.expire_action_approval now p.id) = t := by
        rw [step, exec, ht]
      rw [hstep] at hcoherent
      exact hexp.coherent_iff.mp hcoherent
    · intro htimely
      rw [step, exec]
      cases he : expire_action_approval s now p.id with
      | error e => exact Or.inl (SameWork.refl s)
      | ok t =>
        rcases expire_action_approval_cases hfind hrun he with hsame | ⟨hdue, hexp⟩
        · exact Or.inl hsame
        · exact hexp.coherent_iff.mpr (htimely hdue)
  | decide_action_approval now input =>
    refine forall_congr' fun p => forall_congr' fun hp => forall_congr' fun hid => ?_
    obtain ⟨run, hrun⟩ := hrow p hp
    constructor
    · intro hcoherent hlate
      obtain ⟨c, hc, hexp⟩ := decide_action_approval_of_late hinv.life hk hp hid hlate
      have hstep : step env s (.decide_action_approval now input) = c.state := by
        rw [step, exec, hc]
        rfl
      rw [hstep] at hcoherent
      exact hexp.coherent_iff.mp hcoherent
    · intro htimely
      rw [step, exec]
      cases he : decide_action_approval s now input with
      | error e => exact Or.inl (SameWork.refl s)
      | ok c =>
        rcases decide_action_approval_cases hk hp hid hrun he with hsame | ⟨hlate, hexp⟩
        · exact Or.inl hsame
        · exact hexp.coherent_iff.mpr (htimely hlate)
  | _ => exact Iff.rfl

/-- **Expiry is coherent.** Along every sequence of calls, every expiry of an approval, and
every decision, changes runs, tasks, missions and agents only if the approval's run is waiting
for the approval, exactly when each approval that is expired belongs to a run that waits for it
or to work that is over. -/
theorem approval_expiry_coherent_iff (hs : Initial s) (calls : List Op) :
    (system env).Meets (fun s op => op.Coherent env s) s calls
      ↔ (system env).Meets (fun s op => op.Timely s) s calls := by
  refine TransitionSystem.meets_congr (I := Reachable env) ?_ ?_ ?_ calls
  · intro s op h
    exact TransitionSystem.ReachableVia.step h trivial
  · intro s op h
    exact coherent_iff_timely h op
  · exact ⟨s, hs, Relation.ReflTransGen.refl⟩

/-- The worker asks for an approval that expires at 300. -/
def Office.ask (run_id event_id approval_id : Uuid) : Op :=
  report run_id event_id .run_approval_requested (.obj [("approval_id", .uuid approval_id),
    ("action_key", .str "deploy"), ("action", .str "deploy the stairs"), ("risk", .str "high"),
    ("rationale", .str "they are ready"), ("required_roles", .arr [.str "owner"])])

/-- A run that waits for approval, up to the expiry. -/
def Office.unanswered : List Op :=
  [Office.create_mission (Office.plan [Office.task "a" [] Office.file_policy]),
    Office.dispatch 1 50, Office.report 50 201 .run_started (.obj []), Office.ask 50 202 700,
    .expire_action_approval 400 700]

set_option maxRecDepth 20000 in
theorem approval_expiry_coherent_iff_unanswered :
    (system Office.digest).Meets (fun s op => op.Coherent Office.digest s) Office.db
      Office.unanswered := by
  refine (approval_expiry_coherent_iff Office.initial Office.unanswered).mpr
    ⟨trivial, trivial, trivial, trivial, ?_, trivial⟩
  intro p hp _ _
  have hwaits : (Office.after (Office.unanswered.take 4)).verification_requests = []
      ∧ ∀ p ∈ (Office.after (Office.unanswered.take 4)).action_approvals,
        ∃ r ∈ (Office.after (Office.unanswered.take 4)).runs, r.id = p.run_id
          ∧ r.status = .waiting_for_approval
          ∧ r.verification_status ≠ .waiting_for_approval := by decide +kernel
  obtain ⟨hopen, hwaits⟩ := hwaits
  obtain ⟨r, hr, hrid, hwaits, hreview⟩ := hwaits p hp
  refine Or.inl ⟨r, hr, hrid, hwaits, ?_⟩
  rintro (hwaiting | ⟨q, hq, -⟩)
  · exact hreview hwaiting
  · have hnone : q ∈ (Office.after (Office.unanswered.take 4)).verification_requests := hq
    rw [hopen] at hnone
    exact absurd hnone List.not_mem_nil

/-- The run that asked fails without an answer, and its task is dispatched again. -/
def Office.retried : List Op :=
  [Office.create_mission (Office.plan [Office.task "a" [] Office.file_policy]),
    Office.dispatch 1 50, Office.report 50 201 .run_started (.obj []), Office.ask 50 202 700,
    Office.report 50 203 .run_failed (.obj []), Office.dispatch 1 51]

set_option maxRecDepth 20000 in
/-- The expiry of the failed run's approval cancels the mission of the newer attempt. -/
theorem expiry_cancels_retried_mission :
    Reachable Office.digest (Office.after Office.retried)
      ∧ (∃ p ∈ (Office.after Office.retried).action_approvals, p.id = 700
        ∧ (∀ r ∈ (Office.after Office.retried).runs, r.id = p.run_id → r.status = .failed)
        ∧ (∃ r ∈ (Office.after Office.retried).runs, r.task_id = p.task_id ∧ r.active = true)
        ∧ (∃ m ∈ (Office.after Office.retried).missions, m.id = p.mission_id
          ∧ m.status = .running)
        ∧ ∃ m ∈ (step Office.digest (Office.after Office.retried)
            (.expire_action_approval 400 700)).missions, m.id = p.mission_id
          ∧ m.status = .cancelled)
      ∧ ¬ (Op.expire_action_approval 400 700).Coherent Office.digest
        (Office.after Office.retried) := by
  refine ⟨Office.reachable_after _, by decide +kernel, ?_⟩
  intro hcoherent
  have hp : ∃ p ∈ (Office.after Office.retried).action_approvals, p.id = 700
      ∧ (∀ r ∈ (Office.after Office.retried).runs, r.id = p.run_id →
        r.status ≠ .waiting_for_approval)
      ∧ (step Office.digest (Office.after Office.retried)
          (.expire_action_approval 400 700)).missions
        ≠ (Office.after Office.retried).missions := by decide +kernel
  obtain ⟨p, hp, hid, hstatus, hchanged⟩ := hp
  rcases hcoherent p hp hid with hsame | ⟨r, hr, hrid, hwaits, -⟩
  · exact hchanged hsame.missions
  · exact hstatus r hr hrid hwaits

end Crony.Store
