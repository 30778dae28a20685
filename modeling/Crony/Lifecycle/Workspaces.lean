/-
What the store keeps of a run's workspace.

Two columns of a run speak about its worktree after the fact: the disposition the runner
reported and the fingerprint of the retained files. Three reports write the disposition
(a start, an uncertain teardown, the cleanup) and one the fingerprint; everything else
leaves both alone. `Run.Sealed` is the relation all of them respect: a quarantine is never
lifted and a fingerprint never replaced.
-/
import Crony.Lifecycle.Reach

set_option autoImplicit false

open Crony.Lib

namespace Crony.Store

variable {env : Env} {s t u : Db}

/-! ## Rows -/

/-- A quarantined workspace stays quarantined, a recorded fingerprint stays recorded. -/
structure Run.Sealed (r r' : Run) : Prop where
  id : r'.id = r.id
  quarantined : r.workspace_disposition = some .quarantined →
    r'.workspace_disposition = some .quarantined
  fingerprint : ∀ f, r.workspace_fingerprint = some f → r'.workspace_fingerprint = some f

/-- The columns of a run that speak about its workspace. -/
def Run.workspace_columns (r : Run) := (r.id, r.workspace_disposition, r.workspace_fingerprint)

theorem Run.Sealed.of_columns {r r' : Run} (h : r'.workspace_columns = r.workspace_columns) :
    r.Sealed r' := by
  simp only [Run.workspace_columns, Prod.mk.injEq] at h
  obtain ⟨hid, hdisposition, hfingerprint⟩ := h
  refine ⟨hid, ?_, ?_⟩
  · intro hq
    rw [hdisposition, hq]
  · intro f hf
    rw [hfingerprint, hf]

theorem Run.Sealed.refl (r : Run) : r.Sealed r := Run.Sealed.of_columns rfl

theorem Run.Sealed.trans {a b c : Run} (h : a.Sealed b) (h' : b.Sealed c) : a.Sealed c where
  id := h'.id.trans h.id
  quarantined := fun hq => h'.quarantined (h.quarantined hq)
  fingerprint := fun f hf => h'.fingerprint f (h.fingerprint f hf)

/-- Every run of `s` is a run of `t`, and its workspace stays sealed. -/
def Seals (s t : Db) : Prop := ∀ r ∈ s.runs, ∃ r' ∈ t.runs, r.Sealed r'

/-- Every run of `s` is a run of `t` that says the same about its workspace. -/
def Keeps (s t : Db) : Prop :=
  ∀ r ∈ s.runs, ∃ r' ∈ t.runs, r'.workspace_columns = r.workspace_columns

theorem Keeps.seals (h : Keeps s t) : Seals s t := by
  intro r hr
  obtain ⟨r', hr', hcolumns⟩ := h r hr
  exact ⟨r', hr', Run.Sealed.of_columns hcolumns⟩

theorem Keeps.trans (h : Keeps s t) (h' : Keeps t u) : Keeps s u := by
  intro r hr
  obtain ⟨r', hr', hcolumns⟩ := h r hr
  obtain ⟨r'', hr'', hcolumns'⟩ := h' r' hr'
  exact ⟨r'', hr'', hcolumns'.trans hcolumns⟩

/-- No run is dropped or written. -/
theorem Keeps.of_runs (h : t.runs = s.runs) : Keeps s t := by
  intro r hr
  exact ⟨r, h ▸ hr, rfl⟩

theorem Keeps.refl : Keeps s s := Keeps.of_runs rfl

/-- A run is added. -/
theorem Keeps.of_append {r : Run} (h : t.runs = s.runs ++ [r]) : Keeps s t := by
  intro x hx
  exact ⟨x, h ▸ List.mem_append_left _ hx, rfl⟩

/-- A write of other columns. -/
theorem Keeps.of_write {p : Run → Bool} {f : Run → Run} (h : t.runs = updateWhere p f s.runs)
    (hf : ∀ r, (f r).workspace_columns = r.workspace_columns) : Keeps s t := by
  intro r hr
  refine ⟨if p r then f r else r, ?_, ?_⟩
  · rw [h]
    exact mem_updateWhere.mpr ⟨r, hr, rfl⟩
  · split
    · exact hf r
    · rfl

/-- A write that seals the rows it is applied to. -/
theorem Seals.of_write {p : Run → Bool} {f : Run → Run} (h : t.runs = updateWhere p f s.runs)
    (hf : ∀ r ∈ s.runs, p r = true → r.Sealed (f r)) : Seals s t := by
  intro r hr
  refine ⟨if p r then f r else r, ?_, ?_⟩
  · rw [h]
    exact mem_updateWhere.mpr ⟨r, hr, rfl⟩
  · by_cases hp : p r = true
    · rw [if_pos hp]
      exact hf r hr hp
    · rw [if_neg hp]
      exact Run.Sealed.refl r

/-- A Factory projection writes no run. -/
theorem FactoryOnly.keeps {P : Event → Prop} (h : FactoryOnly P s t) : Keeps s t := by
  obtain ⟨items, recs, evs, rfl, -⟩ := h
  exact Keeps.of_runs rfl

/-! ## The reports about a workspace -/

section Reports

variable {row : RunnerRow} {payload : Json}

/-- A start is refused for a quarantined workspace, so it may write `active`. -/
theorem run_started_seals (hs : Life s) (hrow : row.run ∈ s.runs)
    (hopen : row.run.workspace_disposition ≠ some .quarantined)
    (h : run_started s row payload = .ok t) : Seals s t := by
  unfold run_started at h
  rw [pure_eq_ok] at h
  subst h
  refine Seals.of_write rfl ?_
  intro r hr hid
  have hrun : r = row.run := hs.eq_of_id hr hrow (beq_iff_eq.mp hid)
  subst hrun
  exact ⟨rfl, fun hq => absurd hq hopen, fun f hf => hf⟩

theorem run_teardown_uncertain_seals (h : run_teardown_uncertain s row payload = .ok t) :
    Seals s t := by
  unfold run_teardown_uncertain at h
  simp only [bind_eq_ok, pure_eq_ok] at h
  obtain ⟨_, -, detail, -, rfl⟩ := h
  refine Seals.of_write rfl ?_
  intro r _ _
  refine ⟨rfl, ?_, fun f hf => hf⟩
  intro hq
  exact if_pos hq

/-- The disposition and the fingerprint a cleanup report writes. -/
theorem run_workspace_retained_columns {now : Int} {event_type : EventType}
    (h : run_workspace_retained s now row event_type payload = .ok t) :
    ∃ disposition fingerprint f,
      retained_workspace_disposition row.run.workspace_disposition event_type payload
        = .ok disposition
      ∧ retained_fingerprint s now row payload disposition = .ok fingerprint
      ∧ t.runs = updateWhere (fun r => r.id == row.run.id) f s.runs
      ∧ ∀ r, (f r).id = r.id ∧ (f r).workspace_disposition = some disposition
        ∧ (f r).workspace_fingerprint = fingerprint.or r.workspace_fingerprint := by
  unfold run_workspace_retained at h
  simp only [bind_eq_ok] at h
  obtain ⟨disposition, hdisposition, fingerprint, hfingerprint, h⟩ := h
  refine ⟨disposition, fingerprint, ?_⟩
  split at h
  · simp only [bind_eq_ok] at h
    obtain ⟨checkpoint, -, h⟩ := h
    split at h
    · rw [pure_eq_ok] at h
      subst h
      refine ⟨_, hdisposition, hfingerprint, updateWhere_updateWhere fun x hx => hx, ?_⟩
      intro r
      exact ⟨rfl, rfl, rfl⟩
    · rw [pure_eq_ok] at h
      subst h
      exact ⟨_, hdisposition, hfingerprint, rfl, fun r => ⟨rfl, rfl, rfl⟩⟩
  · rw [pure_eq_ok] at h
    subst h
    exact ⟨_, hdisposition, hfingerprint, rfl, fun r => ⟨rfl, rfl, rfl⟩⟩

/-- The quarantine of a workspace is part of every disposition computed for it. -/
theorem retained_of_quarantined {event_type : EventType} {disposition : WorkspaceDisposition}
    (h : retained_workspace_disposition (some .quarantined) event_type payload = .ok disposition) :
    disposition = .quarantined := by
  unfold retained_workspace_disposition at h
  cases hflag : payload.get? "workspace_quarantined" with
  | none =>
    simp only [hflag, bind_eq_ok, pure_eq_ok] at h
    obtain ⟨flag, -, rfl⟩ := h
    exact if_pos (Or.inl trivial)
  | some v =>
    simp only [hflag, bind_eq_ok, pure_eq_ok] at h
    obtain ⟨flag, -, rfl⟩ := h
    exact if_pos (Or.inl trivial)

/-- What `retained_fingerprint` lets through. -/
theorem retained_fingerprint_ok {now : Int} {disposition : WorkspaceDisposition}
    {fingerprint : Option String}
    (h : retained_fingerprint s now row payload disposition = .ok fingerprint) :
    (disposition = .quarantined → fingerprint = none)
      ∧ (row.run.workspace_fingerprint.isNone ∨ fingerprint.isNone
        ∨ row.run.workspace_fingerprint = fingerprint) := by
  unfold retained_fingerprint at h
  obtain ⟨_, -, h⟩ := bind_eq_ok.mp h
  -- The check of a verifier's report refuses or lets pass; it chooses nothing.
  have hrest : ∃ x : Unit, ensure (row.run.workspace_fingerprint.isNone
        ∨ (if disposition = .quarantined then none
          else payload.text? "workspace_fingerprint").isNone
        ∨ row.run.workspace_fingerprint = if disposition = .quarantined then none
          else payload.text? "workspace_fingerprint")
      "workspace fingerprint cannot change after it is recorded" = .ok x
      ∧ (if disposition = .quarantined then none else payload.text? "workspace_fingerprint")
        = fingerprint := by
    generalize (if disposition = .quarantined then none
      else payload.text? "workspace_fingerprint") = reported at h ⊢
    cases reported with
    | none => simpa only [bind_eq_ok, pure_eq_ok] using h
    | some f =>
      dsimp only at h
      split at h
      · obtain ⟨_, -, h⟩ := bind_eq_ok.mp h
        simpa only [bind_eq_ok, pure_eq_ok] using h
      · simpa only [bind_eq_ok, pure_eq_ok] using h
  obtain ⟨_, hsame, rfl⟩ := hrest
  exact ⟨fun hq => if_pos hq, ensure_eq_ok.mp hsame⟩

theorem run_workspace_retained_seals (hs : Life s) (hrow : row.run ∈ s.runs) {now : Int}
    {event_type : EventType} (h : run_workspace_retained s now row event_type payload = .ok t) :
    Seals s t := by
  obtain ⟨disposition, fingerprint, f, hdisposition, hfingerprint, hruns, hf⟩ :=
    run_workspace_retained_columns h
  obtain ⟨-, hsame⟩ := retained_fingerprint_ok hfingerprint
  refine Seals.of_write hruns ?_
  intro r hr hid
  have hrun : r = row.run := hs.eq_of_id hr hrow (beq_iff_eq.mp hid)
  subst hrun
  obtain ⟨hkey, hcolumn, hprint⟩ := hf row.run
  refine ⟨hkey, ?_, ?_⟩
  · intro hq
    rw [hq] at hdisposition
    rw [hcolumn, retained_of_quarantined hdisposition]
  · intro old hold
    rw [hprint, hold]
    rw [hold] at hsame
    rcases hsame with hnone | hnone | hequal
    · cases hnone
    · rw [Option.isNone_iff_eq_none.mp hnone, Option.none_or]
    · rw [← hequal, Option.some_or]

/-! ## The other reports -/

theorem terminalize_keeps {corp_id recovery_id run_id task_id mission_id room_id : Uuid}
    {summary : String} {run_status : RunStatus} {cause : FailureCause}
    (h : terminalize_factory_recovery_run_tx s corp_id recovery_id run_id task_id mission_id room_id
      summary run_status cause = .ok t) : Keeps s t := by
  obtain ⟨-, note, recs, u, hu, hfactory⟩ := terminalize_factory_recovery_run_tx_ok h
  have hsu : Keeps s u := by
    subst hu
    exact Keeps.of_write rfl fun _ => rfl
  exact hsu.trans hfactory.keeps

theorem run_verification_failed_keeps (h : run_verification_failed s row payload = .ok t) :
    Keeps s t := by
  obtain ⟨summary, hfactory⟩ := run_verification_failed_ok h
  have hwrite : Keeps s ((s.fail_verification row summary).release_agent row.run.agent_id) :=
    Keeps.of_write rfl fun _ => rfl
  exact hwrite.trans hfactory.keeps

theorem run_failed_keeps {scope : Option RunScope}
    (h : run_failed env s row scope payload = .ok t) : Keeps s t := by
  unfold run_failed at h
  simp only [bind_eq_ok, pure_eq_ok] at h
  obtain ⟨u, hu, rfl⟩ := h
  have hsu : Keeps s u := by
    unfold end_failed_run at hu
    split at hu
    · exact terminalize_keeps hu
    · obtain ⟨task_status, mission_status, -, -, hfactory⟩ := fail_run_tx_ok hu
      refine Keeps.trans ?_ hfactory.keeps
      exact Keeps.of_write rfl fun _ => rfl
  refine hsu.trans (Keeps.of_runs ?_)
  unfold release_failed_run_agent_tx
  split
  · rfl
  · split
    · rfl
    · rfl

theorem run_cancelled_keeps (h : run_cancelled s row payload = .ok t) : Keeps s t := by
  unfold run_cancelled at h
  simp only [bind_eq_ok, pure_eq_ok] at h
  obtain ⟨u, hu, rfl⟩ := h
  have hsu : Keeps s u := by
    unfold end_cancelled_run at hu
    split at hu
    · exact terminalize_keeps hu
    · obtain rfl := Except.ok.inj hu
      exact Keeps.of_write rfl fun _ => rfl
  exact hsu.trans (Keeps.of_runs rfl)

theorem complete_task_tx_keeps {actor_id : Option Uuid}
    (h : complete_task_tx s row actor_id = .ok t) : Keeps s t := by
  obtain ⟨recs, u, hu, hfactory⟩ := complete_task_tx_ok h
  have hsu : Keeps s u := Keeps.of_runs (by rw [hu])
  exact hsu.trans hfactory.keeps

theorem run_completed_keeps (h : run_completed s row payload = .ok t) : Keeps s t := by
  unfold run_completed at h
  simp only [bind_eq_ok, pure_eq_ok] at h
  obtain ⟨_, -, _, -, u, hu, rfl⟩ := h
  refine Keeps.trans ?_ ((complete_task_tx_keeps hu).trans (Keeps.of_runs rfl))
  exact Keeps.of_write rfl fun _ => rfl

theorem run_verification_waiting_keeps (h : run_verification_waiting s row payload = .ok t) :
    Keeps s t := by
  obtain ⟨q, verification_summary, completion_summary, u, -, -, -, -, -, -, -, hu, h⟩ :=
    run_verification_waiting_ok h
  have hsu : Keeps s u := by
    subst hu
    exact Keeps.of_write rfl fun _ => rfl
  exact hsu.trans h.keeps

/-- The reports that write what a run says about its workspace. -/
def reports_workspace : EventType → Bool
  | .run_started | .run_teardown_uncertain | .run_workspace_preserved | .run_workspace_removed =>
    true
  | _ => false

/-- The other reports leave it alone. -/
theorem runner_event_effect_keeps {now : Int} {scope : Option RunScope} {event_type : EventType}
    (htype : reports_workspace event_type = false)
    (h : runner_event_effect env s now row scope event_type payload = .ok t) : Keeps s t := by
  unfold runner_event_effect at h
  split at h
  case h_1 =>
    unfold run_session at h
    simp only [bind_eq_ok, pure_eq_ok] at h
    obtain ⟨_, -, rfl⟩ := h
    exact Keeps.of_write rfl fun _ => rfl
  case h_2 => cases htype
  case h_3 =>
    obtain ⟨status, station, -, ⟨-, rfl⟩ | ⟨-, rfl⟩⟩ := run_status_ok h
    · exact Keeps.of_runs rfl
    · exact Keeps.of_write rfl fun _ => rfl
  case h_4 =>
    obtain ⟨p, -, -, -, -, -, -, -, rfl⟩ := run_approval_requested_ok h
    exact Keeps.of_write rfl fun _ => rfl
  case h_5 =>
    unfold run_tool_activity at h
    split at h
    · rw [pure_eq_ok] at h
      exact Keeps.of_runs (by rw [h])
    · split at h
      · rw [pure_eq_ok] at h
        subst h
        exact Keeps.of_write rfl fun _ => rfl
      · simp only [bind_eq_ok, pure_eq_ok] at h
        obtain ⟨_, -, rfl⟩ := h
        exact Keeps.of_write rfl fun _ => rfl
  case h_6 => cases h
  case h_7 => cases h
  case h_8 => cases h
  case h_9 => cases h
  case h_10 =>
    unfold run_usage at h
    simp only [bind_eq_ok, pure_eq_ok] at h
    obtain ⟨_, -, rfl⟩ := h
    exact Keeps.of_write rfl fun _ => rfl
  case h_11 =>
    unfold run_verification_started at h
    rw [pure_eq_ok] at h
    subst h
    exact Keeps.of_write rfl fun _ => rfl
  case h_12 =>
    obtain ⟨e, rfl, -⟩ := run_verification_evidence_ok h
    exact Keeps.of_runs rfl
  case h_13 =>
    obtain ⟨_, _, _, -, -, -, rfl⟩ := run_verification_passed_ok h
    exact Keeps.of_write rfl fun _ => rfl
  case h_14 => exact run_verification_waiting_keeps h
  case h_15 => exact run_verification_failed_keeps h
  case h_16 => cases htype
  case h_17 => cases htype
  case h_18 => cases htype
  case h_19 => exact run_completed_keeps h
  case h_20 => exact run_failed_keeps h
  case h_21 => exact run_cancelled_keeps h
  all_goals
    rw [pure_eq_ok] at h
    exact Keeps.of_runs (by rw [h])

end Reports

/-- The gate of the events that advance a run. -/
theorem Admitted.unquarantined {now : Int} {input : RunnerEventInput} {row : RunnerRow}
    {scope : Option RunScope} {payload : Json} (h : Admitted s now input row scope payload)
    (hadvances : runner_event_advances_run input.event_type = true) :
    row.run.workspace_disposition ≠ some .quarantined := by
  have hprogress := h.progress
  unfold ensure_runner_progress at hprogress
  rw [if_pos hadvances] at hprogress
  obtain ⟨_, hopen, -⟩ := bind_eq_ok.mp hprogress
  exact ensure_eq_ok.mp hopen

/-- A report that was let in keeps every workspace sealed. -/
theorem runner_event_effect_seals (hs : Life s) {row : RunnerRow} {payload : Json}
    (hrow : row.run ∈ s.runs) {now : Int} {scope : Option RunScope} {event_type : EventType}
    (hopen : event_type = .run_started → row.run.workspace_disposition ≠ some .quarantined)
    (h : runner_event_effect env s now row scope event_type payload = .ok t) : Seals s t := by
  cases htype : reports_workspace event_type with
  | false => exact (runner_event_effect_keeps htype h).seals
  | true =>
    cases event_type with
    | run_started => exact run_started_seals hs hrow (hopen rfl) h
    | run_teardown_uncertain => exact run_teardown_uncertain_seals h
    | run_workspace_preserved => exact run_workspace_retained_seals hs hrow h
    | run_workspace_removed => exact run_workspace_retained_seals hs hrow h
    | _ => cases htype

theorem apply_runner_event_seals (hs : Life s) {now : Int} {input : RunnerEventInput}
    {o : Option Event} (h : apply_runner_event env s now input = .ok (o, t)) : Seals s t := by
  obtain ⟨row, scope, payload, hadm, ⟨-, -, rfl⟩ | ⟨-, -, -, heffect⟩⟩ := apply_runner_event_ok h
  · exact Keeps.refl.seals
  · have hs' : Life (s.onEvents (· ++ [runner_event input row payload])) := { hs with }
    have hopen : input.event_type = .run_started →
        row.run.workspace_disposition ≠ some .quarantined := by
      intro htype
      refine hadm.unquarantined ?_
      rw [htype]
      rfl
    have hseals : Seals (s.onEvents (· ++ [runner_event input row payload])) t :=
      runner_event_effect_seals hs' hadm.reported.joined.run_mem hopen heffect
    exact hseals

/-! ## Every call -/

theorem end_lost_run_keeps {row : LostRow} {reason : String}
    (h : end_lost_run s row reason = .ok t) : Keeps s t := by
  unfold end_lost_run at h
  split at h
  · exact terminalize_keeps h
  · obtain rfl := Except.ok.inj h
    exact Keeps.of_write rfl fun _ => rfl

theorem lose_row_keeps {now : Int} {reason : String} {row : LostRow}
    (h : lose_row now reason s row = .ok t) : Keeps s t := by
  unfold lose_row at h
  obtain ⟨ready, -, h⟩ := bind_eq_ok.mp h
  split at h
  · rw [pure_eq_ok] at h
    exact Keeps.of_runs (by rw [h])
  · unfold lose_run_tx at h
    obtain ⟨u, hu, h⟩ := bind_eq_ok.mp h
    refine (end_lost_run_keeps hu).trans (Keeps.of_runs ?_)
    rw [record_event_tx_ok.mp h]
    split
    · rfl
    · rfl

theorem mark_runner_runs_lost_tx_keeps {now : Int} {input : LostRunner}
    (h : mark_runner_runs_lost_tx s now input = .ok t) : Keeps s t := by
  unfold mark_runner_runs_lost_tx at h
  generalize lost_rows s input = rows at h
  induction rows generalizing s with
  | nil =>
    simp only [List.foldlM_nil, pure_eq_ok] at h
    exact Keeps.of_runs (by rw [h])
  | cons row rows ih =>
    simp only [List.foldlM_cons, bind_eq_ok] at h
    obtain ⟨u, hu, h⟩ := h
    exact (lose_row_keeps hu).trans (ih h)

theorem fail_run_before_dispatch_keeps {corp_id run_id : Uuid} {reason : String}
    (h : fail_run_before_dispatch s corp_id run_id reason = .ok t) : Keeps s t := by
  rcases fail_run_before_dispatch_ok h with hfactory |
    ⟨run, task, mission, text, u, -, -, -, hu, hfactory⟩
  · exact hfactory.keeps
  · obtain ⟨msgs, evs, rfl, -⟩ := fail_dispatch_ok hu
    refine Keeps.trans ?_ hfactory.keeps
    exact Keeps.of_write rfl fun _ => rfl

theorem fail_factory_recovery_before_dispatch_keeps {corp_id run_id : Uuid} {reason : String}
    (h : fail_factory_recovery_before_dispatch s corp_id run_id reason = .ok t) : Keeps s t := by
  rcases fail_factory_recovery_before_dispatch_ok h with
    rfl | ⟨run, task, mission, recovery_id, text, -, -, hu⟩
  · exact Keeps.of_runs rfl
  · refine Keeps.trans ?_ (fail_recovery_dispatch_ok hu).keeps
    exact Keeps.of_write rfl fun _ => rfl

theorem record_verification_decision_keeps {input : VerificationDecision} {row : DecisionRow}
    (h : record_verification_decision s input row = .ok t) : Keeps s t := by
  obtain ⟨u, evs, rfl, -, ⟨-, hu⟩ | ⟨-, hu⟩⟩ := record_verification_decision_ok h
  · unfold approve_verification at hu
    have hsu : Keeps s u := by
      refine Keeps.trans ?_ (complete_task_tx_keeps hu)
      exact Keeps.of_write rfl fun _ => rfl
    exact hsu.trans (Keeps.of_runs rfl)
  · obtain ⟨summary, hfactory⟩ := reject_verification_ok hu
    have hsu : Keeps s u := by
      refine Keeps.trans ?_ hfactory.keeps
      exact Keeps.of_write rfl fun _ => rfl
    exact hsu.trans (Keeps.of_runs rfl)

theorem expire_action_approval_keeps {now : Int} {approval_id : Uuid}
    (h : expire_action_approval s now approval_id = .ok t) : Keeps s t := by
  rcases expire_action_approval_ok h with rfl | ⟨approval, new, evs, -, -, -, -, -, rfl, -⟩
  · exact Keeps.refl
  · exact Keeps.of_write rfl fun _ => rfl

theorem finalize_artifact_upload_keeps {corp_id artifact_id : Uuid}
    {fence authority : ReceiptVerdict} {c : Committed String Db Unit}
    (h : finalize_artifact_upload s corp_id artifact_id fence authority = .ok c) :
    Keeps s c.state := by
  rcases finalize_artifact_upload_ok h with
    hc | ⟨reason, hc⟩ | ⟨a, run, task, mission, u, -, -, -, -, hready, hc⟩
  · exact Keeps.of_runs (by rw [hc])
  · exact Keeps.of_runs (by rw [hc]; rfl)
  · have hsu : Keeps s u := by
      rcases hready.state with ⟨-, hu⟩ | ⟨-, row, -, -, hu⟩
      · exact Keeps.of_write (congrArg Db.runs hu) fun _ => rfl
      · exact Keeps.of_write (congrArg Db.runs hu) fun _ => rfl
    rw [hc]
    split
    · refine hsu.trans ?_
      exact Keeps.of_write rfl fun _ => rfl
    · exact hsu

/-- **No call lifts a quarantine or replaces a fingerprint.** -/
theorem exec_seals (hs : Inv s) {op : Op} (h : exec env s op = .ok t) : Seals s t := by
  cases op with
  | apply_runner_event now input =>
    obtain ⟨⟨o, u⟩, hu, rfl⟩ := map_eq_ok.mp h
    exact apply_runner_event_seals hs.life hu
  | evaluate_circuit_breaker now corp_id run_id =>
    rcases evaluate_circuit_breaker_ok h with
      rfl | ⟨run, task, mission, stage, incident, command, event, -, -, -, -, hraise⟩
    · exact Keeps.refl.seals
    · exact (Keeps.of_write (congrArg Db.runs hraise.state) fun _ => rfl).seals
  | set_budget_policy input =>
    obtain ⟨policies, evs, rfl, -⟩ := set_budget_policy_ok h
    exact (Keeps.of_runs rfl).seals
  | create_mission input =>
    obtain ⟨mission_id, h⟩ := create_mission_ok h
    obtain ⟨_, _, _, _, _, _, _, hplan, -⟩ := create_mission_tx_ok h
    exact (Keeps.of_runs hplan.runs).seals
  | materialize_factory_mission now input =>
    rcases materialize_factory_mission_ok h with rfl | ⟨mission_id, u, items, ops, evs, hu, rfl, -⟩
    · exact Keeps.refl.seals
    · obtain ⟨_, _, _, _, _, _, _, hplan, -⟩ := create_mission_tx_ok hu
      exact (Keeps.of_runs hplan.runs).seals
  | transition_factory_work_item now input =>
    obtain ⟨items, ops, evs, rfl, -⟩ := transition_factory_work_item_ok h
    exact (Keeps.of_runs rfl).seals
  | create_task_run now input =>
    obtain ⟨r, task, hadmit, -⟩ := create_task_run_admit hs.life h
    exact (Keeps.of_append hadmit.runs).seals
  | create_resume_run now input =>
    obtain ⟨r, task, hadmit, -⟩ := create_resume_run_admit hs.life h
    exact (Keeps.of_append hadmit.runs).seals
  | create_factory_verification_recovery now input =>
    rcases create_factory_verification_recovery_admit hs.life h with rfl | ⟨r, task, hadmit, -, -⟩
    · exact Keeps.refl.seals
    · exact (Keeps.of_append hadmit.runs).seals
  | prepare_artifact_upload now input artifact staging_key receipt_allows =>
    obtain ⟨_, _, _, -, -, -, -, rfl | ⟨a, -, -, -, -, rfl⟩⟩ := prepare_artifact_upload_ok h
    · exact Keeps.refl.seals
    · exact (Keeps.of_runs rfl).seals
  | finalize_artifact_upload corp_id artifact_id fence authority =>
    obtain ⟨c, hc, rfl⟩ := map_eq_ok.mp h
    exact (finalize_artifact_upload_keeps hc).seals
  | reject_staged_artifact corp_id artifact_id reason =>
    obtain rfl := Except.ok.inj h
    exact (Keeps.of_runs rfl).seals
  | abandon_staged_artifact corp_id artifact_id =>
    obtain rfl := Except.ok.inj h
    exact (Keeps.of_runs rfl).seals
  | clear_artifact_staging_key corp_id artifact_id staging_key =>
    obtain rfl := Except.ok.inj h
    exact (Keeps.of_runs rfl).seals
  | decide_action_approval now input =>
    obtain ⟨c, hc, rfl⟩ := map_eq_ok.mp h
    obtain ⟨approval, run, -, -, -, -, ⟨-, hsame⟩ | ⟨-, hexpire | hrecord⟩⟩ :=
      decide_action_approval_ok hc
    · exact (Keeps.of_runs (by rw [hsame])).seals
    · exact (expire_action_approval_keeps hexpire).seals
    · obtain ⟨command, evs, -, hstate, -⟩ := record_action_decision_ok hrecord
      exact (Keeps.of_runs (by rw [hstate])).seals
  | expire_action_approval now approval_id => exact (expire_action_approval_keeps h).seals
  | decide_verification now input =>
    rcases decide_verification_ok h with rfl | ⟨row, actor, -, hrecord⟩
    · exact Keeps.refl.seals
    · exact (record_verification_decision_keeps hrecord).seals
  | acknowledge_runner_command command_id runner_id =>
    rcases settle_runner_command_ok h with rfl | ⟨msgs, evs, rfl, -⟩
    · exact Keeps.refl.seals
    · exact (Keeps.of_runs rfl).seals
  | fail_runner_command command_id runner_id detail =>
    rcases settle_runner_command_ok h with rfl | ⟨msgs, evs, rfl, -⟩
    · exact Keeps.refl.seals
    · exact (Keeps.of_runs rfl).seals
  | fail_run_before_dispatch corp_id run_id reason => exact (fail_run_before_dispatch_keeps h).seals
  | fail_factory_recovery_before_dispatch corp_id run_id reason =>
    exact (fail_factory_recovery_before_dispatch_keeps h).seals
  | mark_runner_runs_lost now input => exact (mark_runner_runs_lost_tx_keeps h).seals

end Crony.Store
