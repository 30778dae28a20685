/-
What a transaction leaves alone beside the lifecycle.

The moves describe statuses, attempts and assignments. The remaining claims about the
store are about the columns and tables a verification rests on: evidence and requests,
artifacts and deliverables, usage counters, the breaker stage, the journal. Few
transactions write these. `Calm` is the relation of those that do not: every run keeps
these columns, claims no verification it did not claim before, and the tables are the
same up to columns nobody reads. It is a preorder, so a loop of calm steps is calm.
-/
import Crony.Lifecycle.Invariant

set_option autoImplicit false

open Crony.Lib

namespace Crony.Store

/-! ## Rows -/

/-- A run that keeps what was counted and stored for it. -/
structure Run.Same (r r' : Run) : Prop where
  kept : r.Kept r'
  artifact_id : r'.artifact_id = r.artifact_id
  artifact_sha256 : r'.artifact_sha256 = r.artifact_sha256
  deliverable_sha256 : r'.deliverable_sha256 = r.deliverable_sha256
  input_tokens : r'.input_tokens = r.input_tokens
  output_tokens : r'.output_tokens = r.output_tokens
  cost_microusd : r'.cost_microusd = r.cost_microusd
  breaker_stage : r'.breaker_stage = r.breaker_stage

/-- A run that, in addition, claims no more than before. -/
structure Run.Calm (r r' : Run) : Prop extends Run.Same r r' where
  /-- A verdict is only ever withdrawn. -/
  verdict : r'.verification_status = r.verification_status ∨ r'.verification_status = .running
    ∨ r'.verification_status = .failed
  /-- The run is not newly completed. -/
  uncompleted : r'.status = .completed → r.status = .completed

/-- The columns `Run.Same` keeps. A write of other columns keeps them by reflexivity. -/
def Run.columns (r : Run) :=
  (r.identity, r.artifact_id, r.artifact_sha256, r.deliverable_sha256, r.input_tokens,
    r.output_tokens, r.cost_microusd, r.breaker_stage)

theorem Run.Same.of_columns {r r' : Run} (h : r'.columns = r.columns) : r.Same r' := by
  simp only [Run.columns, Prod.mk.injEq] at h
  obtain ⟨hidentity, h⟩ := h
  exact ⟨Run.Kept.of_identity hidentity, h.1, h.2.1, h.2.2.1, h.2.2.2.1, h.2.2.2.2.1, h.2.2.2.2.2.1,
    h.2.2.2.2.2.2⟩

theorem Run.Same.refl (r : Run) : r.Same r := Run.Same.of_columns rfl

theorem Run.Same.trans {a b c : Run} (h : a.Same b) (h' : b.Same c) : a.Same c where
  kept := h.kept.trans h'.kept
  artifact_id := h'.artifact_id.trans h.artifact_id
  artifact_sha256 := h'.artifact_sha256.trans h.artifact_sha256
  deliverable_sha256 := h'.deliverable_sha256.trans h.deliverable_sha256
  input_tokens := h'.input_tokens.trans h.input_tokens
  output_tokens := h'.output_tokens.trans h.output_tokens
  cost_microusd := h'.cost_microusd.trans h.cost_microusd
  breaker_stage := h'.breaker_stage.trans h.breaker_stage

/-- A write that touches neither the verdict nor, except to leave `completed`, the status. -/
theorem Run.Calm.of_columns {r r' : Run} (h : r'.columns = r.columns)
    (hv : r'.verification_status = r.verification_status)
    (hc : r'.status = .completed → r.status = .completed) : r.Calm r' :=
  ⟨Run.Same.of_columns h, Or.inl hv, hc⟩

theorem Run.Calm.refl (r : Run) : r.Calm r := Run.Calm.of_columns rfl rfl fun h => h

theorem Run.Calm.trans {a b c : Run} (h : a.Calm b) (h' : b.Calm c) : a.Calm c where
  toSame := h.toSame.trans h'.toSame
  verdict := by
    rcases h'.verdict with hv | hv
    · rw [hv]
      exact h.verdict
    · exact Or.inr hv
  uncompleted := fun hc => h.uncompleted (h'.uncompleted hc)

/-- A run as every admission inserts it; only a verifier starts with an artifact, that of
the run it verifies, and what a run continues is a run of its task. -/
structure FreshRun (s : Db) (r : Run) : Prop where
  fresh : ∀ x ∈ s.runs, x.id ≠ r.id
  status : r.status = .starting
  verification_status : r.verification_status = .pending
  deliverable_sha256 : r.deliverable_sha256 = none
  input_tokens : r.input_tokens = 0
  output_tokens : r.output_tokens = 0
  cost_microusd : r.cost_microusd = 0
  breaker_stage : r.breaker_stage = .healthy
  artifact : (r.artifact_id = none ∧ r.artifact_sha256 = none)
    ∨ ∃ x ∈ s.runs, r.artifact_id = x.artifact_id ∧ r.artifact_sha256 = x.artifact_sha256
  origin : ∀ id, r.resumed_from_run_id = some id → ∃ x ∈ s.runs, x.id = id ∧ x.task_id = r.task_id

/-- A request keeps its run and its gate, and is never reopened. -/
structure VerificationRequest.Kept (q q' : VerificationRequest) : Prop where
  run_id : q'.run_id = q.run_id
  corp_id : q'.corp_id = q.corp_id
  task_id : q'.task_id = q.task_id
  gate : q'.gate = q.gate
  pending : q'.status = .pending → q.status = .pending

theorem VerificationRequest.Kept.refl (q : VerificationRequest) : q.Kept q :=
  ⟨rfl, rfl, rfl, rfl, fun h => h⟩

theorem VerificationRequest.Kept.trans {a b c : VerificationRequest} (h : a.Kept b)
    (h' : b.Kept c) : a.Kept c :=
  ⟨h'.run_id.trans h.run_id, h'.corp_id.trans h.corp_id, h'.task_id.trans h.task_id,
    h'.gate.trans h.gate, fun hp => h.pending (h'.pending hp)⟩

/-- What an approval is about never changes, and it is never reopened. -/
structure ActionApproval.Kept (p p' : ActionApproval) : Prop where
  id : p'.id = p.id
  corp_id : p'.corp_id = p.corp_id
  task_id : p'.task_id = p.task_id
  run_id : p'.run_id = p.run_id
  agent_id : p'.agent_id = p.agent_id
  pending : p'.status = .pending → p.status = .pending

theorem ActionApproval.Kept.refl (p : ActionApproval) : p.Kept p :=
  ⟨rfl, rfl, rfl, rfl, rfl, fun h => h⟩

theorem ActionApproval.Kept.trans {a b c : ActionApproval} (h : a.Kept b) (h' : b.Kept c) :
    a.Kept c :=
  ⟨h'.id.trans h.id, h'.corp_id.trans h.corp_id, h'.task_id.trans h.task_id,
    h'.run_id.trans h.run_id, h'.agent_id.trans h.agent_id, fun hp => h.pending (h'.pending hp)⟩

/-- The breaker commands, in the order they were issued. -/
def Db.breaker_keys (s : Db) : List CommandKey :=
  (s.runner_commands.filter fun c => c.command_kind == .circuit_breaker).map
    RunnerCommand.idempotency_key

/-- Settling a command does not change what it is. -/
theorem breaker_keys_of_settle {s t : Db} {p : RunnerCommand → Bool}
    {f : RunnerCommand → RunnerCommand}
    (ht : t.runner_commands = updateWhere p f s.runner_commands)
    (hf : ∀ c, (f c).command_kind = c.command_kind ∧ (f c).idempotency_key = c.idempotency_key) :
    t.breaker_keys = s.breaker_keys := by
  unfold Db.breaker_keys
  rw [ht]
  induction s.runner_commands with
  | nil => rfl
  | cons c cs ih =>
    have hkind : (if p c then f c else c).command_kind = c.command_kind := by
      split
      · exact (hf c).1
      · rfl
    have hkey : (if p c then f c else c).idempotency_key = c.idempotency_key := by
      split
      · exact (hf c).2
      · rfl
    rw [updateWhere, List.map_cons, List.filter_cons, List.filter_cons, hkind]
    split
    · rw [List.map_cons, List.map_cons, hkey]
      exact congrArg _ ih
    · exact ih

/-- A command of another kind is no breaker command. -/
theorem breaker_keys_of_append {s t : Db} {c : RunnerCommand}
    (ht : t.runner_commands = s.runner_commands ++ [c]) (hc : c.command_kind ≠ .circuit_breaker) :
    t.breaker_keys = s.breaker_keys := by
  unfold Db.breaker_keys
  rw [ht, List.filter_append]
  simp [hc]

/-! ## States -/

/-- The tables beside the runs; `P` is what the new journal entries satisfy. -/
structure Aside (P : Event → Prop) (s t : Db) : Prop where
  verification_evidence : t.verification_evidence = s.verification_evidence
  verification_requests : Updated VerificationRequest.Kept s.verification_requests
    t.verification_requests
  action_approvals : Updated ActionApproval.Kept s.action_approvals t.action_approvals
  artifacts : t.artifacts = s.artifacts
  source_deliverables : t.source_deliverables = s.source_deliverables
  circuit_breaker_incidents : t.circuit_breaker_incidents = s.circuit_breaker_incidents
  breaker_keys : t.breaker_keys = s.breaker_keys
  events : Appends P s.events t.events

/-- A transaction that leaves alone what the claims about verification, accounting and the
breaker rest on. -/
structure Calm (P : Event → Prop) (s t : Db) : Prop extends Aside P s t where
  runs : Updated Run.Calm s.runs t.runs

/-- The admission of a run. -/
structure Admitting (r : Run) (s t : Db) : Prop extends Aside Event.Routine s t where
  runs : t.runs = s.runs ++ [r]
  fresh_run : FreshRun s r

section

variable {P Q : Event → Prop} {s t u : Db}

theorem Aside.trans (h : Aside P s t) (h' : Aside P t u) : Aside P s u where
  verification_evidence := h'.verification_evidence.trans h.verification_evidence
  verification_requests := h.verification_requests.trans h'.verification_requests
    fun _ _ _ _ hq hq' => hq.trans hq'
  action_approvals := h.action_approvals.trans h'.action_approvals
    fun _ _ _ _ hp hp' => hp.trans hp'
  artifacts := h'.artifacts.trans h.artifacts
  source_deliverables := h'.source_deliverables.trans h.source_deliverables
  circuit_breaker_incidents := h'.circuit_breaker_incidents.trans h.circuit_breaker_incidents
  breaker_keys := h'.breaker_keys.trans h.breaker_keys
  events := h.events.trans h'.events

theorem Aside.mono (h : Aside P s t) (hPQ : ∀ e, P e → Q e) : Aside Q s t :=
  { h with events := h.events.mono hPQ }

/-- The tables of `Aside` but the journal. -/
def Db.aside_tables (s : Db) :=
  (s.verification_evidence, s.verification_requests, s.action_approvals, s.artifacts,
    s.source_deliverables, s.circuit_breaker_incidents, s.breaker_keys)

theorem requests_kept (l : List VerificationRequest) : Updated VerificationRequest.Kept l l :=
  Updated.refl fun q _ => VerificationRequest.Kept.refl q

theorem approvals_kept (l : List ActionApproval) : Updated ActionApproval.Kept l l :=
  Updated.refl fun p _ => ActionApproval.Kept.refl p

theorem Aside.of_tables (h : t.aside_tables = s.aside_tables)
    (hevents : Appends P s.events t.events) : Aside P s t := by
  simp only [Db.aside_tables, Prod.mk.injEq] at h
  obtain ⟨h1, h2, h3, h4, h5, h6, h7⟩ := h
  refine ⟨h1, ?_, ?_, h4, h5, h6, h7, hevents⟩
  · rw [h2]
    exact requests_kept _
  · rw [h3]
    exact approvals_kept _

/-- A transaction that writes, of what `Calm` looks at, only the journal and runs. -/
theorem Calm.of_tables (h : t.aside_tables = s.aside_tables)
    (hruns : Updated Run.Calm s.runs t.runs) (hevents : Appends P s.events t.events) :
    Calm P s t :=
  ⟨Aside.of_tables h hevents, hruns⟩

/-- A transaction that writes only the journal. -/
theorem Calm.of_events (h : t.aside_tables = s.aside_tables) (hruns : t.runs = s.runs)
    (hevents : Appends P s.events t.events) : Calm P s t := by
  refine Calm.of_tables h ?_ hevents
  rw [hruns]
  exact Updated.refl fun r _ => Run.Calm.refl r

theorem Calm.refl : Calm P s s := Calm.of_events rfl rfl Appends.refl

theorem Calm.trans (h : Calm P s t) (h' : Calm P t u) : Calm P s u where
  toAside := h.toAside.trans h'.toAside
  runs := h.runs.trans h'.runs fun _ _ _ _ hr hr' => hr.trans hr'

theorem Calm.mono (h : Calm P s t) (hPQ : ∀ e, P e → Q e) : Calm Q s t where
  toAside := h.toAside.mono hPQ
  runs := h.runs

/-- A Factory projection is calm. -/
theorem FactoryOnly.calm (h : FactoryOnly P s t) : Calm P s t := by
  obtain ⟨items, recs, evs, rfl, hevs, -⟩ := h
  exact Calm.of_events rfl rfl hevs

/-- An `UPDATE` of runs by calm writes. -/
theorem calm_updateWhere {p : Run → Bool} {f : Run → Run} {l : List Run}
    (hf : ∀ x, Run.Calm x (f x)) : Updated Run.Calm l (updateWhere p f l) :=
  Updated.of_updateWhere (fun x _ _ => hf x) fun x _ _ => Run.Calm.refl x

end

end Crony.Store
