/-
A quarantined workspace is left alone.

Once a runner reports that a worktree may still be in use, nobody may build on it: the run
accepts no more progress, no other run starts from it, and what is known of its contents
stays what it was. The store keeps all of this for the reports that pass through
`apply_runner_event`. Uploads do not: `prepare_artifact_upload` checks the breaker and not
the quarantine, although `run.artifact_upload` and `run.deliverable_upload` are events that
advance a run. `Unquarantined` says which steps stay clear of that hole.
-/
import Crony.Lifecycle.Workspaces

set_option autoImplicit false

open Crony.Lib

namespace Crony.Store

variable {env : Env} {s t : Db}

/-- The run an event that advances a run is about, whichever method accepts it. -/
def Op.advances : Op → Option Uuid
  | .apply_runner_event _ input | .prepare_artifact_upload _ input _ _ _ =>
    if runner_event_advances_run input.event_type then some input.run_id else none
  | _ => none

/-- The run whose workspace a resume or a recovery continues. -/
def Op.continues : Op → Option Uuid
  | .create_resume_run _ input => some input.source_run_id
  | .create_factory_verification_recovery _ input => some input.source_run_id
  | _ => none

/-- No active run with a quarantined workspace uploads an artifact. -/
def Unquarantined (s : Db) : Op → Prop
  | .prepare_artifact_upload _ input _ _ _ =>
    ∀ r ∈ s.runs, r.assigned input = true → r.active = true →
      r.workspace_disposition ≠ some .quarantined
  | _ => True

instance (s : Db) (op : Op) : Decidable (Unquarantined s op) := by
  delta Unquarantined
  rcases op <;> exact inferInstance

/-! ## What a quarantine refuses -/

theorem create_resume_run_preserved {now : Int} {input : ResumeInput}
    (h : create_resume_run env s now input = .ok t) :
    ∃ r ∈ s.runs, r.id = input.source_run_id ∧ r.workspace_disposition = some .preserved := by
  unfold create_resume_run at h
  obtain ⟨⟨source, task, mission⟩, hjoin, h⟩ := bind_eq_ok.mp h
  obtain ⟨scope, -, h⟩ := bind_eq_ok.mp h
  obtain ⟨agent, -, h⟩ := bind_eq_ok.mp h
  obtain ⟨_, -, h⟩ := bind_eq_ok.mp h
  obtain ⟨session, hsource, -⟩ := bind_eq_ok.mp h
  have hj := Db.run_task_mission_eq_some (context_eq_ok.mp hjoin)
  unfold resumable_source at hsource
  simp only [bind_eq_ok, ensure_eq_ok] at hsource
  obtain ⟨_, -, _, -, _, -, _, hpreserved, -⟩ := hsource
  exact ⟨source, hj.run_mem, hj.run_id, hpreserved⟩

theorem admit_recovery_preserved {now : Int} {input : RecoveryInput} {revision : String}
    {item : FactoryWorkItem} {source : Run} {task : Task} {mission : Mission} {agent : Agent}
    {admitted : Db × Run × Int × Option CheckpointAuthority × VerificationPolicy
      × VerificationPolicy}
    (h : admit_recovery env s now input revision item source task mission agent = .ok admitted) :
    source.workspace_disposition = some .preserved := by
  unfold admit_recovery at h
  obtain ⟨_, -, h⟩ := bind_eq_ok.mp h
  obtain ⟨_, -, h⟩ := bind_eq_ok.mp h
  obtain ⟨_, hpreserved, -⟩ := bind_eq_ok.mp h
  exact ensure_eq_ok.mp hpreserved

theorem create_factory_verification_recovery_preserved {now : Int} {input : RecoveryInput}
    (h : create_factory_verification_recovery env s now input = .ok t) :
    t = s ∨ ∃ r ∈ s.runs, r.id = input.source_run_id
      ∧ r.workspace_disposition = some .preserved := by
  unfold create_factory_verification_recovery at h
  obtain ⟨⟨reason, revision⟩, -, h⟩ := bind_eq_ok.mp h
  obtain ⟨_, -, h⟩ := bind_eq_ok.mp h
  obtain ⟨_, -, h⟩ := bind_eq_ok.mp h
  split at h
  · unfold replay_recovery at h
    simp only [bind_eq_ok, pure_eq_ok] at h
    obtain ⟨_, -, _, -, rfl⟩ := h
    exact Or.inl rfl
  · obtain ⟨item, -, h⟩ := bind_eq_ok.mp h
    obtain ⟨_, -, h⟩ := bind_eq_ok.mp h
    obtain ⟨mission_id, -, h⟩ := bind_eq_ok.mp h
    obtain ⟨⟨source, task, mission, agent⟩, hrow, h⟩ := bind_eq_ok.mp h
    obtain ⟨_, -, h⟩ := bind_eq_ok.mp h
    obtain ⟨admitted, hadmit, -⟩ := bind_eq_ok.mp h
    have hj := recovery_row_eq_some (context_eq_ok.mp hrow)
    exact Or.inr ⟨source, hj.run_mem, hj.run_id, admit_recovery_preserved hadmit⟩

/-- No resume and no new recovery starts from a run with a quarantined workspace. -/
theorem Life.quarantine_discontinued (hs : Life s) {r : Run} (hr : r ∈ s.runs)
    (hq : r.workspace_disposition = some .quarantined) {op : Op} (hop : op.continues = some r.id)
    (h : exec env s op = .ok t) : t = s := by
  have hother : ¬ ∃ x ∈ s.runs, x.id = r.id ∧ x.workspace_disposition = some .preserved := by
    rintro ⟨x, hx, hid, hpreserved⟩
    rw [hs.eq_of_id hx hr hid, hq] at hpreserved
    cases hpreserved
  cases op with
  | create_resume_run now input =>
    have hid : input.source_run_id = r.id := Option.some.inj hop
    have hpreserved := create_resume_run_preserved h
    rw [hid] at hpreserved
    exact absurd hpreserved hother
  | create_factory_verification_recovery now input =>
    have hid : input.source_run_id = r.id := Option.some.inj hop
    rcases create_factory_verification_recovery_preserved h with hsame | hpreserved
    · exact hsame
    · rw [hid] at hpreserved
      exact absurd hpreserved hother
  | _ => cases hop

/-- A run with a quarantined workspace accepts no event that advances it, uploads apart. -/
theorem Life.quarantine_refuses (hs : Life s) {r : Run} (hr : r ∈ s.runs)
    (hq : r.workspace_disposition = some .quarantined) {op : Op} (hok : Unquarantined s op)
    (hop : op.advances = some r.id) : exec env s op ≠ .ok t := by
  intro h
  cases op with
  | apply_runner_event now input =>
    obtain ⟨hadvances, hid⟩ := Option.ite_none_right_eq_some.mp hop
    obtain ⟨⟨o, u⟩, hu, -⟩ := map_eq_ok.mp h
    obtain ⟨row, scope, payload, hadm, -⟩ := apply_runner_event_ok hu
    have hj := hadm.reported.joined
    have hrun : row.run = r := by
      refine hs.eq_of_id hj.run_mem hr ?_
      rw [hj.run_id]
      exact Option.some.inj hid
    have hopen := hadm.unquarantined hadvances
    rw [hrun] at hopen
    exact hopen hq
  | prepare_artifact_upload now input artifact staging_key receipt_allows =>
    obtain ⟨-, hid⟩ := Option.ite_none_right_eq_some.mp hop
    obtain ⟨run, task, mission, hj, hassigned, hactive, -, -⟩ := prepare_artifact_upload_ok h
    have hrun : run = r := by
      refine hs.eq_of_id hj.run_mem hr ?_
      rw [hj.run_id]
      exact Option.some.inj hid
    subst hrun
    exact hok run hr hassigned hactive hq
  | _ => cases hop

/-! ## What a quarantine records -/

/-- A write of one run, whose result says nothing new about the files when it is a
quarantine. -/
theorem unprinted_of_write (hs : Life s) {p : Run → Bool} {f : Run → Run}
    (h : t.runs = updateWhere p f s.runs)
    (hf : ∀ x ∈ s.runs, p x = true → (f x).id = x.id
      ∧ ((f x).workspace_disposition = some .quarantined →
        (f x).workspace_fingerprint = x.workspace_fingerprint))
    {r r' : Run} (hr : r ∈ s.runs) (hr' : r' ∈ t.runs) (hid : r'.id = r.id)
    (hq : r'.workspace_disposition = some .quarantined) :
    r'.workspace_fingerprint = r.workspace_fingerprint := by
  rw [h] at hr'
  obtain ⟨x, hx, rfl⟩ := mem_updateWhere.mp hr'
  by_cases hp : p x = true
  · rw [if_pos hp] at hid hq ⊢
    obtain ⟨hkey, hsame⟩ := hf x hx hp
    rw [hsame hq, hs.eq_of_id hx hr (hkey.symm.trans hid)]
  · rw [if_neg hp] at hid hq ⊢
    rw [hs.eq_of_id hx hr hid]

/-- **A report that leaves a workspace quarantined records no fingerprint.** -/
theorem apply_runner_event_unprinted (hs : Inv s) {now : Int} {input : RunnerEventInput}
    {o : Option Event} (h : apply_runner_event env s now input = .ok (o, t)) {r r' : Run}
    (hr : r ∈ s.runs) (hr' : r' ∈ t.runs) (hid : r'.id = r.id)
    (hq : r'.workspace_disposition = some .quarantined) :
    r'.workspace_fingerprint = r.workspace_fingerprint := by
  have hexec : exec env s (.apply_runner_event now input) = .ok t :=
    map_eq_ok.mpr ⟨(o, t), h, rfl⟩
  have ht : Inv t := exec_inv hs hexec
  obtain ⟨row, scope, payload, hadm, ⟨-, -, rfl⟩ | ⟨-, -, -, heffect⟩⟩ := apply_runner_event_ok h
  · rw [hs.life.eq_of_id hr' hr hid]
  · have hrow := hadm.reported.joined.run_mem
    cases htype : reports_workspace input.event_type with
    | false =>
      obtain ⟨x, hx, hcolumns⟩ := runner_event_effect_keeps htype heffect r hr
      simp only [Run.workspace_columns, Prod.mk.injEq] at hcolumns
      rw [ht.life.eq_of_id hr' hx (hid.trans hcolumns.1.symm)]
      exact hcolumns.2.2
    | true =>
      generalize input.event_type = event_type at heffect htype
      cases event_type with
      | run_started =>
        simp only [runner_event_effect, run_started, pure_eq_ok] at heffect
        subst heffect
        refine unprinted_of_write hs.life rfl ?_ hr hr' hid hq
        intro x _ _
        exact ⟨rfl, fun _ => rfl⟩
      | run_teardown_uncertain =>
        simp only [runner_event_effect, run_teardown_uncertain, bind_eq_ok, pure_eq_ok] at heffect
        obtain ⟨_, -, detail, -, rfl⟩ := heffect
        refine unprinted_of_write hs.life rfl ?_ hr hr' hid hq
        intro x _ _
        exact ⟨rfl, fun _ => rfl⟩
      | run_workspace_preserved | run_workspace_removed =>
        obtain ⟨disposition, fingerprint, f, -, hfingerprint, hruns, hf⟩ :=
          run_workspace_retained_columns heffect
        refine unprinted_of_write hs.life hruns ?_ hr hr' hid hq
        intro x _ _
        obtain ⟨hkey, hdisposition, hprint⟩ := hf x
        refine ⟨hkey, ?_⟩
        intro hquarantined
        rw [hdisposition] at hquarantined
        rw [hprint, (retained_fingerprint_ok hfingerprint).1 (Option.some.inj hquarantined),
          Option.none_or]
      | _ => cases htype

/-! ## Runs -/

/-- From a reachable state on, no workspace is unsealed. -/
theorem Reaches.seals (hs : Reachable env s) {ok : Db → Op → Prop}
    (h : (system env).Reaches ok s t) : Reachable env t ∧ Seals s t := by
  refine h.preserves (I := fun u => Reachable env u ∧ Seals s u) ⟨hs, Keeps.refl.seals⟩ ?_
  rintro u op ⟨hu, hsealed⟩ -
  refine ⟨TransitionSystem.ReachableVia.step hu trivial, ?_⟩
  change Seals s (step env u op)
  unfold step
  cases he : exec env u op with
  | error e => exact hsealed
  | ok v =>
    intro r hr
    obtain ⟨x, hx, hrx⟩ := hsealed r hr
    obtain ⟨y, hy, hxy⟩ := exec_seals (ReachableVia.invariants hu) he x hx
    exact ⟨y, hy, hrx.trans hxy⟩

/-- **Quarantine is absorbing, fingerprints are written once.** Take a run of any state and
any continuation whose steps upload no artifact for an active run with a quarantined
workspace. The run keeps its fingerprint; if its workspace was quarantined it still is, the
run accepts no event that advances it, and no resume or new recovery starts from it; and a
report that leaves it quarantined records no fingerprint. -/
theorem quarantine_is_absorbing (env : Env) (s t : Db)
    (hs : ReachableVia env Unquarantined s)
    (hrun : (system env).Reaches Unquarantined s t) (r : Run) (hr : r ∈ s.runs) :
    ∃ r' ∈ t.runs, r'.id = r.id
      ∧ (∀ f, r.workspace_fingerprint = some f → r'.workspace_fingerprint = some f)
      ∧ (r.workspace_disposition = some .quarantined →
        r'.workspace_disposition = some .quarantined
          ∧ (∀ op u, Unquarantined t op → op.advances = some r.id → exec env t op ≠ .ok u)
          ∧ ∀ op u, op.continues = some r.id → exec env t op = .ok u → u = t)
      ∧ ∀ now input o u, apply_runner_event env t now input = .ok (o, u) →
        ∀ x ∈ u.runs, x.id = r.id → x.workspace_disposition = some .quarantined →
          x.workspace_fingerprint = r'.workspace_fingerprint := by
  obtain ⟨ht, hseals⟩ := Reaches.seals hs.reachable hrun
  have hinv : Inv t := ReachableVia.invariants ht
  obtain ⟨r', hr', hsealed⟩ := hseals r hr
  refine ⟨r', hr', hsealed.id, hsealed.fingerprint, ?_, ?_⟩
  · intro hq
    have hq' := hsealed.quarantined hq
    refine ⟨hq', ?_, ?_⟩
    · intro op u hok hop
      rw [← hsealed.id] at hop
      exact hinv.life.quarantine_refuses hr' hq' hok hop
    · intro op u hop h
      rw [← hsealed.id] at hop
      exact hinv.life.quarantine_discontinued hr' hq' hop h
  · intro now input o u h x hx hid hq
    exact apply_runner_event_unprinted hinv h hr' hx (hid.trans hsealed.id.symm) hq

/-! ## The hole -/

/-- A run whose runner could not confirm the end of its process. -/
def Office.quarantined_run : List Op :=
  [Office.create_mission (Office.plan [Office.task "a" [] Office.file_policy]),
    Office.dispatch 1 50, Office.report 50 201 .run_started (.obj [("workspace", .str "/work/50")]),
    Office.report 50 202 .run_workspace_preserved
      (.obj [("workspace_quarantined", .bool true),
        ("workspace_fingerprint", .str (Office.sha 'a'))])]

/-- The quarantined run. -/
def Office.quarantined (r : Run) : Bool :=
  r.id == 50 && r.workspace_disposition == some .quarantined && r.active

set_option maxRecDepth 20000 in
/-- The theorem at the quarantined run, one more report later. -/
theorem quarantine_is_absorbing_held :
    ∃ r ∈ (Office.after (Office.quarantined_run ++
        [Office.report 50 203 .run_session (.obj [("session_id", .str "s")])])).runs, r.id = 50
      ∧ r.workspace_disposition = some .quarantined := by
  have hmeets : (system Office.digest).Meets Unquarantined Office.db Office.quarantined_run := by
    decide +kernel
  have hmore : (system Office.digest).Meets Unquarantined (Office.after Office.quarantined_run)
      [Office.report 50 203 .run_session (.obj [("session_id", .str "s")])] := by
    decide +kernel
  have hany : (Office.after Office.quarantined_run).runs.any Office.quarantined = true := by
    decide +kernel
  obtain ⟨r, hr, hq⟩ := List.any_eq_true.mp hany
  simp only [Office.quarantined, Bool.and_eq_true, beq_iff_eq] at hq
  obtain ⟨r', hr', hid, -, habsorbed, -⟩ := quarantine_is_absorbing Office.digest _ _
    (TransitionSystem.ReachableVia.run Office.initial hmeets) (TransitionSystem.Reaches.run hmore) r
      hr
  refine ⟨r', ?_, hid.trans hq.1.1, (habsorbed hq.1.2).1⟩
  rw [Office.after, TransitionSystem.run, List.foldl_append]
  exact hr'

set_option maxRecDepth 20000 in
/-- **A quarantined run uploads.** Its workspace is quarantined, and an artifact upload, an
event that advances a run, is accepted. -/
theorem quarantined_run_uploads :
    ¬ ∀ (env : Env) (s : Db), Reachable env s → ∀ r ∈ s.runs,
      r.workspace_disposition = some .quarantined →
        ∀ op u, op.advances = some r.id → exec env s op ≠ .ok u := by
  intro h
  have hany : (Office.after Office.quarantined_run).runs.any Office.quarantined = true := by
    decide +kernel
  obtain ⟨r, hr, hq⟩ := List.any_eq_true.mp hany
  simp only [Office.quarantined, Bool.and_eq_true, beq_iff_eq] at hq
  have hupload : ∃ u, exec Office.digest (Office.after Office.quarantined_run)
      (Office.stage 50 300 'c') = .ok u := by
    have hok : (exec Office.digest (Office.after Office.quarantined_run)
        (Office.stage 50 300 'c')).isOk = true := by
      decide +kernel
    cases he : exec Office.digest (Office.after Office.quarantined_run)
      (Office.stage 50 300 'c') with
    | ok u => exact ⟨u, rfl⟩
    | error e =>
      rw [he] at hok
      cases hok
  obtain ⟨u, hu⟩ := hupload
  have hop : (Office.stage 50 300 'c').advances = some r.id := by
    rw [hq.1.1]
    rfl
  exact h Office.digest _ (Office.reachable_after _) r hr hq.1.2 _ u hop hu

end Crony.Store
