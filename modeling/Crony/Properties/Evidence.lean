/-
Evidence-gated completion.

A run is completed by its `run.completed` report or by a human decision; both look at one
column, `verification_status`, or at a request row. That this column and this row stand for
a full set of passed evidence is an invariant over whole runs of the store: evidence is
only appended, one row per check, and only the report that looked at all rows makes a run
claim its checks.
-/
import Crony.Lifecycle.Accrual

set_option autoImplicit false

open Crony.Lib

namespace Crony.Store

variable {env : Env} {s t : Db}

/-! ## The loop over the evidence rows -/

/-- The loop accepts rows only if they are, in order, passed rows of the checks. -/
theorem evidence_satisfies_get {rows : List VerificationEvidence} {checks : List VerifierCheck}
    {index : Nat} (h : evidence_satisfies index rows checks = true)
    (hlen : rows.length = checks.length) {i : Nat} {check : VerifierCheck}
    (hi : checks[i]? = some check) :
    ∃ e ∈ rows, e.check_index = index + i ∧ e.kind = check.kind ∧ e.status = .passed := by
  induction rows generalizing index checks i with
  | nil =>
    rw [List.length_nil, eq_comm, List.length_eq_zero_iff] at hlen
    subst hlen
    simp at hi
  | cons e rows ih =>
    cases checks with
    | nil => simp [evidence_satisfies] at h
    | cons c checks =>
      simp only [evidence_satisfies, Bool.and_eq_true, beq_iff_eq] at h
      obtain ⟨⟨⟨hindex, hkind⟩, hstatus⟩, hrest⟩ := h
      cases i with
      | zero =>
        simp only [List.getElem?_cons_zero, Option.some.injEq] at hi
        subst hi
        exact ⟨e, List.mem_cons_self, hindex, hkind, hstatus⟩
      | succ i =>
        rw [List.getElem?_cons_succ] at hi
        obtain ⟨x, hx, hxi, hxk, hxs⟩ := ih hrest (by simpa using hlen) hi
        exact ⟨x, List.mem_cons_of_mem e hx, by omega, hxk, hxs⟩

theorem mem_evidence_rows {run_id : Uuid} {e : VerificationEvidence} :
    e ∈ s.evidence_rows run_id ↔ e ∈ s.verification_evidence ∧ e.run_id = run_id := by
  unfold Db.evidence_rows
  rw [List.mem_insertionSort, List.mem_filter, beq_iff_eq]

/-! ## What the evidence tables say -/

/-- A passed row of the run for every check. -/
def Db.checks_passed (s : Db) (run_id : Uuid) (checks : List VerifierCheck) : Prop :=
  ∀ i check, checks[i]? = some check →
    ∃ e ∈ s.verification_evidence, e.run_id = run_id ∧ e.check_index = i ∧ e.status = .passed

/-- A journalled report named a pair of digests that is linked to the run. -/
def Db.deliverable_passed (s : Db) (run_id : Uuid) : Prop :=
  ∃ e ∈ s.events, e.type = .run_verification_passed ∧ e.aggregate_id = run_id
    ∧ ∃ v d, e.payload.text? "verification_sha256" = some v
      ∧ e.payload.text? "deliverable_sha256" = some d ∧ deliverable_linked s run_id v d = true

/-- The evidence a claim rests on. -/
structure Vouched (s : Db) : Prop where
  /-- `UNIQUE (run_id, check_index)`. -/
  keyed : Keyed (fun e : VerificationEvidence => (e.run_id, e.check_index)) s.verification_evidence
  /-- Every row is about a check of its run's task. -/
  checked : ∀ e ∈ s.verification_evidence, ∃ r ∈ s.runs, r.id = e.run_id
    ∧ ∃ x ∈ s.tasks, x.id = r.task_id
      ∧ ∃ check, x.verification_policy.checks[e.check_index]? = some check ∧ e.kind = check.kind
  passed : ∀ r ∈ s.runs, s.claims r → ∃ x ∈ s.tasks, x.id = r.task_id
    ∧ s.checks_passed r.id x.verification_policy.checks
    ∧ (x.contract.deliverable.isSome = true → s.deliverable_passed r.id)
  /-- A request asks for the gate of its task. -/
  gates : ∀ q ∈ s.verification_requests, ∃ x ∈ s.tasks, x.id = q.task_id
    ∧ x.verification_policy.manual_gate = some q.gate

/-! ## Every step keeps it -/

theorem Accrues.checks_passed (h : Accrues s t) {run_id : Uuid} {checks : List VerifierCheck}
    (hp : s.checks_passed run_id checks) : t.checks_passed run_id checks := by
  intro i check hi
  obtain ⟨e, he, hrest⟩ := hp i check hi
  exact ⟨e, h.evidence e he, hrest⟩

theorem Accrues.deliverable_passed (h : Accrues s t) {run_id : Uuid}
    (hp : s.deliverable_passed run_id) : t.deliverable_passed run_id := by
  obtain ⟨e, he, htype, hrun, v, d, hv, hd, hl⟩ := hp
  exact ⟨e, h.events e he, htype, hrun, v, d, hv, hd, h.deliverable_linked hl⟩

/-- Only an evidence report writes evidence. -/
theorem Effect.evidence_cases {op : Op} (h : Effect s op t) :
    t.verification_evidence = s.verification_evidence
      ∨ ∃ now input row scope payload, op = .apply_runner_event now input
        ∧ Admitted s now input row scope payload
        ∧ run_verification_evidence (s.onEvents (· ++ [runner_event input row payload])) row payload
          = .ok t := by
  cases h with
  | calm h => exact Or.inl h.verification_evidence
  | settled command_id _ h => exact Or.inl h.verification_evidence
  | admitted r _ h => exact Or.inl h.verification_evidence
  | raised now corp_id run_id run task mission stage i c e _ _ _ _ h =>
    exact Or.inl (by rw [h.state])
  | shelved l h ht => exact Or.inl (by rw [ht]; rfl)
  | readied corp_id artifact_id a run task mission u _ _ _ h ht =>
    obtain ⟨runs, tasks, agents, hr⟩ := review_run_frame u run task.id run.active
    exact Or.inl (by rw [ht, hr]; exact h.frame.2.2.2.1)
  | approved now input row actor _ _ _ hadv => exact Or.inl hadv.verification_evidence
  | reported now input row scope payload hop hadm _ _ h =>
    cases h with
    | calm _ h => exact Or.inl h.verification_evidence
    | ended _ h => exact Or.inl h.verification_evidence
    | asked _ p _ _ _ h _ _ => exact Or.inl h.verification_evidence
    | usage _ h =>
      unfold run_usage at h
      simp only [bind_eq_ok, pure_eq_ok] at h
      obtain ⟨_, -, rfl⟩ := h
      exact Or.inl rfl
    | evidence _ h => exact Or.inr ⟨now, input, row, scope, payload, hop, hadm, h⟩
    | passed _ h =>
      obtain ⟨_, _, _, -, -, -, rfl⟩ := run_verification_passed_ok h
      exact Or.inl rfl
    | waiting _ _ hadv => exact Or.inl hadv.verification_evidence
    | completed _ _ hadv => exact Or.inl hadv.verification_evidence

/-- A request after a step is an old one, or asks for the gate of its task. -/
theorem Effect.requests_cases {op : Op} (h : Effect s op t) {q' : VerificationRequest}
    (hq' : q' ∈ t.verification_requests) :
    (∃ q ∈ s.verification_requests, q.Kept q')
      ∨ ∃ x ∈ s.tasks, x.id = q'.task_id ∧ x.verification_policy.manual_gate = some q'.gate := by
  have hadvance : ∀ {v : Db} {r : Run}, Advance v t r → v.tasks = s.tasks →
      v.verification_requests = s.verification_requests →
      (∃ q ∈ s.verification_requests, q.Kept q')
        ∨ ∃ x ∈ s.tasks, x.id = q'.task_id ∧ x.verification_policy.manual_gate = some q'.gate := by
    intro v r hadv htasks hreq
    rcases hadv.verification_requests q' hq' with
      hold | ⟨-, htask, ⟨x, hx, hxid, hgate⟩, -⟩
    · exact Or.inl (hreq ▸ hold)
    · exact Or.inr ⟨x, htasks ▸ hx, hxid.trans htask.symm, hgate⟩
  have hsame : t.verification_requests = s.verification_requests →
      (∃ q ∈ s.verification_requests, q.Kept q')
        ∨ ∃ x ∈ s.tasks, x.id = q'.task_id ∧ x.verification_policy.manual_gate = some q'.gate :=
    fun heq => Or.inl ⟨q', heq ▸ hq', VerificationRequest.Kept.refl q'⟩
  cases h with
  | calm h => exact Or.inl (h.verification_requests.exists_old hq')
  | settled command_id _ h => exact Or.inl (h.verification_requests.exists_old hq')
  | admitted r _ h => exact Or.inl (h.verification_requests.exists_old hq')
  | raised now corp_id run_id run task mission stage i c e _ _ _ _ h =>
    exact hsame (by rw [h.state])
  | shelved l h ht => exact hsame (by rw [ht]; rfl)
  | readied corp_id artifact_id a run task mission u _ _ _ h ht =>
    obtain ⟨runs, tasks, agents, hr⟩ := review_run_frame u run task.id run.active
    exact hsame (by rw [ht, hr]; exact h.frame.2.2.1)
  | approved now input row actor _ _ _ hadv => exact hadvance hadv rfl rfl
  | reported now input row scope payload hop hadm _ _ h =>
    cases h with
    | calm _ h => exact Or.inl (h.verification_requests.exists_old hq')
    | ended _ h => exact Or.inl (h.verification_requests.exists_old hq')
    | asked _ p _ _ _ h _ _ => exact Or.inl (h.verification_requests.exists_old hq')
    | usage _ h =>
      unfold run_usage at h
      simp only [bind_eq_ok, pure_eq_ok] at h
      obtain ⟨_, -, rfl⟩ := h
      exact hsame rfl
    | evidence _ h =>
      obtain ⟨e, rfl, -⟩ := run_verification_evidence_ok h
      exact hsame rfl
    | passed _ h =>
      obtain ⟨_, _, _, -, -, -, rfl⟩ := run_verification_passed_ok h
      exact hsame rfl
    | waiting _ _ hadv => exact hadvance hadv rfl rfl
    | completed _ _ hadv => exact hadvance hadv rfl rfl

/-- A task that demanded something still demands it. -/
theorem Grows.task (h : Grows s t) {task_id : Uuid}
    {P : VerificationPolicy → ContractDocument → Prop}
    (hx : ∃ x ∈ s.tasks, x.id = task_id ∧ P x.verification_policy x.contract) :
    ∃ x ∈ t.tasks, x.id = task_id ∧ P x.verification_policy x.contract := by
  obtain ⟨x, hx, hid, hp⟩ := hx
  obtain ⟨x', hx', hk, -⟩ := h.tasks x hx
  exact ⟨x', hx', hk.id.trans hid, by rw [hk.verification_policy, hk.contract]; exact hp⟩

theorem Grows.checked (h : Grows s t) {e : VerificationEvidence}
    (he : ∃ r ∈ s.runs, r.id = e.run_id ∧ ∃ x ∈ s.tasks, x.id = r.task_id
      ∧ ∃ check, x.verification_policy.checks[e.check_index]? = some check ∧ e.kind = check.kind) :
    ∃ r ∈ t.runs, r.id = e.run_id ∧ ∃ x ∈ t.tasks, x.id = r.task_id
      ∧ ∃ check, x.verification_policy.checks[e.check_index]? = some check
        ∧ e.kind = check.kind := by
  obtain ⟨r, hr, hid, hx⟩ := he
  obtain ⟨r', hr', hk, -, -⟩ := h.runs r hr
  refine ⟨r', hr', hk.id.trans hid, ?_⟩
  rw [hk.task_id]
  exact h.task (P := fun policy _ =>
    ∃ check, policy.checks[e.check_index]? = some check ∧ e.kind = check.kind) hx

/-- What the report that all checks passed has established. -/
theorem run_verification_passed_vouches {row : RunnerRow} {payload : Json}
    (h : run_verification_passed s row payload = .ok t) :
    s.checks_passed row.run.id row.task.verification_policy.checks
      ∧ (row.task.contract.deliverable.isSome = true →
        ∃ v d, payload.text? "verification_sha256" = some v
          ∧ payload.text? "deliverable_sha256" = some d
          ∧ deliverable_linked s row.run.id v d = true) := by
  obtain ⟨summary, v, d, hdig, hlen, hsat, -⟩ := run_verification_passed_ok h
  constructor
  · intro i check hi
    obtain ⟨e, he, hindex, -, hstatus⟩ := evidence_satisfies_get hsat hlen hi
    obtain ⟨hmem, hrun⟩ := mem_evidence_rows.mp he
    exact ⟨e, hmem, hrun, by omega, hstatus⟩
  · intro hdel
    unfold passed_digests at hdig
    rw [if_pos hdel] at hdig
    simp only [bind_eq_ok, context_eq_ok, ensure_eq_ok, pure_eq_ok] at hdig
    obtain ⟨v', hv, d', hd, _, hlinked, -⟩ := hdig
    exact ⟨v', d', hv, hd, hlinked⟩

theorem exec_vouched (hs : Inv s) (hv : Vouched s) {op : Op} (h : exec env s op = .ok t) :
    Vouched t := by
  have heffect := exec_effect hs.life hs.linked h
  have hgrows := exec_grows hs h
  have haccrues := heffect.accrues
  constructor
  · rcases heffect.evidence_cases with heq | ⟨now, input, row, scope, payload, -, -, hev⟩
    · rw [heq]
      exact hv.keyed
    · obtain ⟨e, rfl, hrun, -, -, -, -, hnew⟩ := run_verification_evidence_ok hev
      refine hv.keyed.append_singleton ?_
      intro x hx hkey
      rw [Prod.mk.injEq] at hkey
      exact hnew x hx hkey
  · intro e he
    rcases heffect.evidence_cases with heq | ⟨now, input, row, scope, payload, -, hadm, hev⟩
    · rw [heq] at he
      exact hgrows.checked (hv.checked e he)
    · obtain ⟨e', ht, hrun, hcheck, -⟩ := run_verification_evidence_ok hev
      have hj := hadm.reported.joined
      have he' : e ∈ s.verification_evidence ++ [e'] := by
        rw [ht] at he
        exact he
      rcases List.mem_append.mp he' with he' | he'
      · exact hgrows.checked (hv.checked e he')
      · rw [List.mem_singleton] at he'
        subst he'
        exact hgrows.checked
          ⟨row.run, hj.run_mem, hrun.symm, row.task, hj.task_mem, hj.task_id, hcheck⟩
  · intro r' hr' hc
    rcases heffect.claimed hs hr' hc with
      ⟨r, hr, hk, hcr⟩ | ⟨now, input, row, scope, payload, -, hadm, hk, htype, hpass⟩
    · obtain ⟨x, hx, hxid, hchecks, hdel⟩ := hv.passed r hr hcr
      rw [hk.id, hk.task_id]
      exact hgrows.task (P := fun policy contract => t.checks_passed r.id policy.checks
          ∧ (contract.deliverable.isSome = true → t.deliverable_passed r.id))
        ⟨x, hx, hxid, haccrues.checks_passed hchecks,
          fun hd => haccrues.deliverable_passed (hdel hd)⟩
    · have hj := hadm.reported.joined
      obtain ⟨hchecks, hdel⟩ := run_verification_passed_vouches hpass
      rw [hk.id, hk.task_id]
      refine hgrows.task (P := fun policy contract => t.checks_passed row.run.id policy.checks
          ∧ (contract.deliverable.isSome = true → t.deliverable_passed row.run.id))
        ⟨row.task, hj.task_mem, hj.task_id, haccrues.checks_passed hchecks, fun hd => ?_⟩
      -- The entry of this very report is the one that names the digests.
      obtain ⟨v, d, hvd, hdd, hlinked⟩ := hdel hd
      refine ⟨runner_event input row payload, ?_, htype, hj.run_id.symm, v, d, hvd, hdd,
        haccrues.deliverable_linked hlinked⟩
      obtain ⟨_, _, _, -, -, -, rfl⟩ := run_verification_passed_ok hpass
      exact List.mem_append_right _ List.mem_cons_self
  · intro q' hq'
    have hgate : ∃ x ∈ s.tasks, x.id = q'.task_id
        ∧ x.verification_policy.manual_gate = some q'.gate := by
      rcases heffect.requests_cases hq' with ⟨q, hq, hk⟩ | hnew
      · rw [hk.task_id, hk.gate]
        exact hv.gates q hq
      · exact hnew
    exact hgrows.task (P := fun policy _ => policy.manual_gate = some q'.gate) hgate

theorem Initial.vouched (h : Initial s) : Vouched s where
  keyed := by simp [h.verification_evidence, Keyed]
  checked := by simp [h.verification_evidence]
  passed := by simp [h.runs]
  gates := by simp [h.verification_requests]

theorem ReachableVia.vouched {ok : Db → Op → Prop} (h : ReachableVia env ok s) : Vouched s :=
  ReachableVia.inv h (fun _ h0 => h0.vouched) fun _ _ _ hr hv _ he =>
    exec_vouched hr.invariants hv he

/-! ## Completion -/

/-- Who completes a run. -/
theorem Effect.completes {op : Op} (h : Effect s op t) (hs : Inv s) {r' : Run} (hr' : r' ∈ t.runs)
    (hc : r'.status = .completed) :
    (∃ r ∈ s.runs, r.id = r'.id ∧ r.status = .completed)
      ∨ (∃ now input row actor, op = .decide_verification now input
        ∧ Deciding s input row actor ∧ input.approved = true ∧ row.run.Kept r')
      ∨ ∃ now input row scope payload, op = .apply_runner_event now input
        ∧ Admitted s now input row scope payload ∧ row.run.Kept r'
        ∧ input.event_type = .run_completed ∧ row.task.verification_policy.manual_gate = none := by
  have hcalm : Updated Run.Calm s.runs t.runs → ∃ r ∈ s.runs, r.id = r'.id
      ∧ r.status = .completed := by
    intro hruns
    obtain ⟨r, hr, hk⟩ := hruns.exists_old hr'
    exact ⟨r, hr, hk.kept.id.symm, hk.uncompleted hc⟩
  have hquiet : Quiet s t → ∃ r ∈ s.runs, r.id = r'.id ∧ r.status = .completed := by
    intro hq
    obtain ⟨r, hr, hk, hst⟩ := hq.runs.exists_old hr'
    exact ⟨r, hr, hk.id.symm, hst.symm.trans hc⟩
  cases h with
  | calm h => exact Or.inl (hcalm h.runs)
  | settled command_id _ h => exact Or.inl (hcalm h.runs)
  | admitted r _ h =>
    rw [h.runs] at hr'
    rcases List.mem_append.mp hr' with hr' | hr'
    · exact Or.inl ⟨r', hr', rfl, hc⟩
    · rw [List.mem_singleton] at hr'
      subst hr'
      rw [h.fresh_run.status] at hc
      cases hc
  | raised now corp_id run_id run task mission stage i c e _ _ _ _ h =>
    rw [h.state] at hr'
    obtain ⟨x, hx, rfl⟩ := mem_updateWhere.mp hr'
    refine Or.inl ⟨x, hx, ?_, ?_⟩
    · split <;> rfl
    · revert hc
      unfold Run.raised
      split
      · dsimp only
        split
        · simp
        · exact id
      · exact id
  | shelved l h ht =>
    subst ht
    exact Or.inl ⟨r', hr', rfl, hc⟩
  | readied corp_id artifact_id a run task mission u _ _ _ h ht =>
    have hu := h.quiet.runs
    by_cases hact : run.active = true
    · rw [if_pos hact] at ht
      subst ht
      obtain ⟨y, hy, hyr⟩ := mem_updateWhere.mp hr'
      obtain ⟨x, hx, hk, hst⟩ := hu.exists_old hy
      by_cases hid : y.id = run.id
      · rw [if_pos (by simpa using hid)] at hyr
        subst hyr
        cases hc
      · rw [if_neg (by simpa using hid)] at hyr
        subst hyr
        exact Or.inl ⟨x, hx, hk.id.symm, hst.symm.trans hc⟩
    · rw [if_neg hact] at ht
      subst ht
      exact Or.inl (hquiet h.quiet)
  | approved now input row actor hop hdec happ hadv =>
    obtain ⟨x, hx, hsame, hrest⟩ := hadv.runs.exists_old hr'
    rcases hrest with hid | hcx
    · rw [hs.life.eq_of_id hx (hdec.joined hs.life hs.linked).run_mem hid] at hsame
      exact Or.inr (Or.inl ⟨now, input, row, actor, hop, hdec, happ, hsame.kept⟩)
    · exact Or.inl ⟨x, hx, hsame.kept.id.symm, hcx.uncompleted hc⟩
  | reported now input row scope payload hop hadm _ _ h =>
    have hrow := hadm.reported.joined.run_mem
    cases h with
    | calm _ h => exact Or.inl (hcalm h.runs)
    | ended _ h => exact Or.inl (hcalm h.runs)
    | asked _ p _ _ _ h _ _ => exact Or.inl (hcalm h.runs)
    | usage _ h =>
      obtain ⟨r, hr, hk, hst⟩ := (run_usage_quiet h).runs.exists_old hr'
      exact Or.inl ⟨r, hr, hk.id.symm, hst.symm.trans hc⟩
    | evidence _ h =>
      obtain ⟨e, rfl, -⟩ := run_verification_evidence_ok h
      exact Or.inl ⟨r', hr', rfl, hc⟩
    | passed _ h =>
      obtain ⟨r, hr, hk, hst⟩ := (run_verification_passed_quiet h).runs.exists_old hr'
      exact Or.inl ⟨r, hr, hk.id.symm, hst.symm.trans hc⟩
    | waiting _ h _ =>
      obtain ⟨q, v, c, u, -, -, -, -, -, -, -, rfl, items, recs, evs, rfl, -⟩ :=
        run_verification_waiting_ok h
      obtain ⟨x, hx, rfl⟩ := mem_updateWhere.mp hr'
      refine Or.inl ⟨x, hx, ?_, ?_⟩
      · split <;> rfl
      · revert hc
        split
        · simp
        · exact id
    | completed htype hgate hadv =>
      obtain ⟨x, hx, hsame, hrest⟩ := hadv.runs.exists_old hr'
      rcases hrest with hid | hcx
      · rw [hs.life.eq_of_id hx hrow hid] at hsame
        exact Or.inr (Or.inr
          ⟨now, input, row, scope, payload, hop, hadm, hsame.kept, htype, hgate⟩)
      · exact Or.inl ⟨x, hx, hsame.kept.id.symm, hcx.uncompleted hc⟩

/-- The one row of the evidence table under a key. -/
theorem Vouched.filter_eq (hv : Vouched s) {e : VerificationEvidence}
    (he : e ∈ s.verification_evidence) :
    s.verification_evidence.filter (fun x => x.run_id == e.run_id && x.check_index == e.check_index)
      = [e] := by
  rw [← hv.keyed.filter_eq_singleton he]
  refine List.filter_congr fun x _ => ?_
  rw [Bool.eq_iff_iff, Bool.and_eq_true, beq_iff_eq, beq_iff_eq, decide_eq_true_iff, Prod.mk.injEq]

/-- **Evidence-gated completion.** In every reachable state a completed run has exactly one
row of evidence for each check of its task, of the check's kind and passed, and no other
row; where the contract declares a deliverable, a journalled report named a pair of digests
that is linked to the run. And whatever step completes a run whose policy has a manual gate
is the approving decision of an actor the gate admits. -/
theorem evidence_gated_completion (h : Reachable env s) :
    (∀ r ∈ s.runs, r.status = .completed → ∃ x ∈ s.tasks, x.id = r.task_id
        ∧ (∀ i check, x.verification_policy.checks[i]? = some check →
          ∃ e, s.verification_evidence.filter (fun e => e.run_id == r.id && e.check_index == i) =
            [e]
            ∧ e.kind = check.kind ∧ e.status = .passed)
        ∧ (∀ e ∈ s.verification_evidence, e.run_id = r.id →
          e.check_index < x.verification_policy.checks.length)
        ∧ (x.contract.deliverable.isSome = true →
          ∃ e ∈ s.events, e.type = .run_verification_passed ∧ e.aggregate_id = r.id
            ∧ ∃ v d, e.payload.text? "verification_sha256" = some v
              ∧ e.payload.text? "deliverable_sha256" = some d
              ∧ deliverable_linked s r.id v d = true))
      ∧ ∀ op t, exec env s op = .ok t → ∀ r' ∈ t.runs, r'.status = .completed →
          ∀ x ∈ s.tasks, x.id = r'.task_id →
          ∀ gate, x.verification_policy.manual_gate = some gate →
            (∃ r ∈ s.runs, r.id = r'.id ∧ r.status = .completed)
            ∨ ∃ now input, op = .decide_verification now input ∧ input.run_id = r'.id
              ∧ input.approved = true
              ∧ ∃ actor ∈ s.actors, actor.id = input.actor_id
                ∧ ∃ m ∈ s.missions, m.id = x.mission_id
                ∧ ∃ producer ∈ s.agents, producer.id = r'.agent_id
                ∧ gate_admits gate actor m.requested_by producer.actor_id := by
  have hs := ReachableVia.invariants h
  have hv := ReachableVia.vouched h
  refine ⟨fun r hr hc => ?_, fun op t he r' hr' hc x hx hxid gate hgate => ?_⟩
  · obtain ⟨x, hx, hxid, hchecks, hdel⟩ := hv.passed r hr (Or.inl hc)
    -- The row of a key is about a check of this very task.
    have hcheck : ∀ e ∈ s.verification_evidence, e.run_id = r.id →
        ∃ check, x.verification_policy.checks[e.check_index]? = some check
          ∧ e.kind = check.kind := by
      intro e he hrun
      obtain ⟨r', hr', hid, x', hx', hxid', hcheck⟩ := hv.checked e he
      obtain rfl := hs.life.eq_of_id hr' hr (hid.trans hrun)
      obtain rfl := hs.life.tasks_keyed.eq_of_mem hx' hx (hxid'.trans hxid.symm)
      exact hcheck
    refine ⟨x, hx, hxid, fun i check hi => ?_, fun e he hrun => ?_, hdel⟩
    · obtain ⟨e, he, hrun, hindex, hstatus⟩ := hchecks i check hi
      obtain ⟨check', hcheck', hkind⟩ := hcheck e he hrun
      rw [hindex, hi, Option.some.injEq] at hcheck'
      subst hcheck'
      refine ⟨e, ?_, hkind, hstatus⟩
      rw [← hrun, ← hindex]
      exact hv.filter_eq he
    · obtain ⟨check, hcheck', -⟩ := hcheck e he hrun
      exact (List.getElem?_eq_some_iff.mp hcheck').1
  · rcases (exec_effect hs.life hs.linked he).completes hs hr' hc with
      hold | ⟨now, input, row, actor, hop, hdec, happ, hk⟩
      | ⟨now, input, row, scope, payload, -, hadm, hk, -, hnone⟩
    · exact Or.inl hold
    · refine Or.inr ⟨now, input, hop, ?_, happ, ?_⟩
      · rw [hk.id, (hdec.joined hs.life hs.linked).run_id]
      · obtain ⟨hq, hqrun, -, -, hrid, htask, htid, hm, hmid, hp, hpid⟩ :=
          decision_row_eq_some hdec.row_eq
        have hj := hdec.joined hs.life hs.linked
        obtain rfl : row.task = x :=
          hs.life.tasks_keyed.eq_of_mem htask hx (by rw [hj.task_id, hxid, hk.task_id])
        obtain ⟨y, hy, hyid, hygate⟩ := hv.gates row.request hq
        obtain rfl : y = row.task := hs.life.tasks_keyed.eq_of_mem hy hx (hyid.trans htid.symm)
        rw [hgate, Option.some.injEq] at hygate
        have hactor := List.find?_some hdec.actor_eq
        simp only [Bool.and_eq_true, beq_iff_eq] at hactor
        refine ⟨actor, List.mem_of_find?_eq_some hdec.actor_eq, hactor.1, row.mission, hm, hmid,
          row.producer, hp, hpid.trans hk.agent_id.symm, ?_⟩
        rw [hygate]
        exact hdec.admits
    · have hj := hadm.reported.joined
      obtain rfl : row.task = x :=
        hs.life.tasks_keyed.eq_of_mem hj.task_mem hx (by rw [hj.task_id, hxid, hk.task_id])
      rw [hnone] at hgate
      cases hgate

set_option maxRecDepth 20000 in
theorem evidence_gated_completion_office :
    (Office.after Office.completed_run).runs.map Run.status = [.completed]
      ∧ ∀ r ∈ (Office.after Office.completed_run).runs, r.status = .completed →
        ∃ x ∈ (Office.after Office.completed_run).tasks, x.id = r.task_id
          ∧ ∀ e ∈ (Office.after Office.completed_run).verification_evidence, e.run_id = r.id →
            e.check_index < x.verification_policy.checks.length := by
  refine ⟨by decide, fun r hr hc => ?_⟩
  obtain ⟨x, hx, hxid, -, hbound, -⟩ :=
    (evidence_gated_completion (Office.reachable_after Office.completed_run)).1 r hr hc
  exact ⟨x, hx, hxid, hbound⟩

end Crony.Store
