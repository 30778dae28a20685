/-
Verified bytes stay bound to the run.

What a run delivered is recorded three times: in the artifact table, in the columns of the
run, and, for what a verifier looked at, in the evidence row. An upload is finalised from a
callback of its own, so it may arrive at any point of a verification. The link of a
deliverable is written once (`ON CONFLICT DO NOTHING`) and a run has one deliverable that is
not rejected, so these records agree; the evidence columns are overwritten by every
finalisation, also after the artifact check passed, and a `run.verification_passed` report
of a task that declares no deliverable clears the digest of one that is linked all the same.
`Unbinds` names these two steps; without them the records agree in every state.
-/
import Crony.Properties.Evidence

set_option autoImplicit false

open Crony.Lib

namespace Crony.Store

variable {env : Env} {s t u : Db}

/-! ## The evidence of an artifact check -/

theorem get?_insertField_self (fields : List (String × Json)) (key : String) (v : Json) :
    (Json.obj (Json.insertField fields key v)).get? key = some v := by
  have hnone : (fields.filter fun field => !(field.1 == key)).find? (fun field => field.1 == key)
      = none := by
    rw [List.find?_eq_none]
    intro field hf
    simpa using (List.mem_filter.mp hf).2
  simp [Json.get?, Json.insertField, List.find?_append, hnone]

theorem get?_insertField_of_ne (fields : List (String × Json)) {key k : String} (v : Json)
    (hk : k ≠ key) :
    (Json.obj (Json.insertField fields key v)).get? k = (Json.obj fields).get? k := by
  have hfilter : (fields.filter fun field => !(field.1 == key)).find? (fun field => field.1 == k)
      = fields.find? (fun field => field.1 == k) := by
    induction fields with
    | nil => rfl
    | cons field fields ih =>
      by_cases hkey : field.1 = key
      · simp [hkey, Ne.symm hk, ih]
      · by_cases hfk : field.1 = k
        · simp [hfk, hk]
        · simp [hkey, hfk, ih]
  simp [Json.get?, Json.insertField, List.find?_append, hfilter, Ne.symm hk]

/-- Passed evidence of an artifact check is the document of the durable artifact. -/
theorem sanitize_verification_evidence_tx_passed {run : Run} {p p' : Json}
    (h : sanitize_verification_evidence_tx s run p = .ok p')
    (hkind : p'.text? "kind" = some "artifact") (hstatus : p'.text? "status" = some "passed") :
    ∃ a, evidence_artifact s run = some a
      ∧ p'.get? "payload" = some (artifact_evidence_payload a) := by
  unfold sanitize_verification_evidence_tx at h
  split at h
  · rename_i hne
    rw [pure_eq_ok] at h
    subst h
    exact absurd hkind hne
  · simp only [bind_eq_ok, context_eq_ok, pure_eq_ok] at h
    obtain ⟨status, hst, ⟨summary, document⟩, hstored, fields, hfields, rfl⟩ := h
    have hp : p = .obj fields := by
      cases p <;> simp [Json.as_object] at hfields
      subst hfields
      rfl
    -- The report's own status is the one that is stored.
    have hsame : status = "passed" := by
      unfold Json.text? at hstatus hst
      rw [get?_insertField_of_ne _ _ (by decide), get?_insertField_of_ne _ _ (by decide), ← hp,
        hst, Option.some.injEq] at hstatus
      exact hstatus
    subst hsame
    unfold stored_evidence at hstored
    cases ha : evidence_artifact s run with
    | none =>
      simp only [ha, bind_eq_ok, ensure_eq_ok] at hstored
      obtain ⟨_, hne, -⟩ := hstored
      exact absurd rfl hne
    | some a =>
      simp only [ha, if_true, bind_eq_ok, pure_eq_ok, Prod.mk.injEq] at hstored
      obtain ⟨_, -, -, rfl⟩ := hstored
      exact ⟨a, rfl, get?_insertField_self _ _ _⟩

theorem evidence_artifact_eq_some {run : Run} {a : Artifact}
    (h : evidence_artifact s run = some a) :
    a ∈ s.artifacts ∧ run.artifact_id = some a.id ∧ a.status = .ready := by
  have hcond := List.find?_some h
  simp only [Bool.and_eq_true, beq_iff_eq] at hcond
  exact ⟨List.mem_of_find?_eq_some h, hcond.1.1.1.1.1, hcond.1.1.2⟩

/-! ## The records -/

/-- A run keeps what it recorded of its uploads. -/
structure Run.Bytes (r r' : Run) : Prop where
  id : r'.id = r.id
  artifact_id : r'.artifact_id = r.artifact_id
  artifact_sha256 : r'.artifact_sha256 = r.artifact_sha256
  deliverable_sha256 : r'.deliverable_sha256 = r.deliverable_sha256

theorem Run.Same.bytes {r r' : Run} (h : r.Same r') : r.Bytes r' :=
  ⟨h.kept.id, h.artifact_id, h.artifact_sha256, h.deliverable_sha256⟩

theorem Run.Bytes.refl (r : Run) : r.Bytes r := ⟨rfl, rfl, rfl, rfl⟩

/-- A deliverable under the partial unique index. -/
def Artifact.delivers (a : Artifact) : Bool :=
  a.artifact_role == .source_deliverable && !(a.status == .rejected)

/-- The deliverable linked to a run is the one whose digest the run has. -/
def Db.delivered (s : Db) (r : Run) : Prop :=
  ∀ d ∈ s.source_deliverables, d.run_id = r.id →
    ∃ a ∈ s.artifacts, a.id = d.artifact_id ∧ r.deliverable_sha256 = some a.sha256

/-- The artifact the run's passed evidence was recorded against is the one the run has. -/
def Db.evidenced (s : Db) (r : Run) : Prop :=
  ∀ e ∈ s.verification_evidence, e.run_id = r.id → e.kind = "artifact" → e.status = .passed →
    ∃ a ∈ s.artifacts, e.payload = artifact_evidence_payload a ∧ r.artifact_id = some a.id
      ∧ r.artifact_sha256 = some a.sha256

/-- What is recorded agrees. -/
structure Stored (s : Db) : Prop where
  artifacts_keyed : Keyed Artifact.id s.artifacts
  one_deliverable : UniqueWhere Artifact.delivers Artifact.run_id s.artifacts
  /-- A linked deliverable is ready, and its run has its digest. -/
  linked : ∀ d ∈ s.source_deliverables, ∃ a ∈ s.artifacts, a.id = d.artifact_id
    ∧ a.run_id = d.run_id ∧ a.artifact_role = .source_deliverable ∧ a.status = .ready
    ∧ ∀ r ∈ s.runs, r.id = d.run_id → r.deliverable_sha256 = some a.sha256
  /-- The artifact a run has is ready, and the run has its digest. -/
  held : ∀ r ∈ s.runs, ∀ id, r.artifact_id = some id → ∃ a ∈ s.artifacts, a.id = id
    ∧ a.status = .ready ∧ r.artifact_sha256 = some a.sha256
  /-- Passed evidence was recorded against the artifact its run has. -/
  recorded : ∀ e ∈ s.verification_evidence, e.kind = "artifact" → e.status = .passed →
    ∃ a ∈ s.artifacts, a.status = .ready ∧ e.payload = artifact_evidence_payload a
      ∧ ∀ r ∈ s.runs, r.id = e.run_id → r.artifact_id = some a.id

theorem Stored.delivered (h : Stored s) {r : Run} (hr : r ∈ s.runs) : s.delivered r := by
  intro d hd hrun
  obtain ⟨a, ha, hid, -, -, -, hsha⟩ := h.linked d hd
  exact ⟨a, ha, hid, hsha r hr hrun.symm⟩

theorem Stored.evidenced (h : Stored s) {r : Run} (hr : r ∈ s.runs) : s.evidenced r := by
  intro e he hrun hkind hstatus
  obtain ⟨a, ha, hst, hpay, hart⟩ := h.recorded e he hkind hstatus
  have haid := hart r hr hrun.symm
  obtain ⟨b, hb, hbid, -, hsha⟩ := h.held r hr a.id haid
  obtain rfl := h.artifacts_keyed.eq_of_mem hb ha hbid
  exact ⟨b, hb, hpay, haid, hsha⟩

/-! ## Steps -/

/-- The two steps that tear the records apart: a finalisation of provider evidence for a run
whose artifact check has passed, and a report that all checks passed for a run with a linked
deliverable whose task declares none. -/
def Unbinds (s : Db) : Op → Prop
  | .finalize_artifact_upload corp_id artifact_id .allows .allows =>
    ∃ a ∈ s.artifacts, a.id = artifact_id ∧ a.corp_id = corp_id ∧ a.status = .staged
      ∧ a.artifact_role = .provider_evidence
      ∧ ∃ e ∈ s.verification_evidence, e.run_id = a.run_id ∧ e.kind = "artifact"
        ∧ e.status = .passed
  | .apply_runner_event now input =>
    s.takes now input = true ∧ input.event_type = .run_verification_passed
      ∧ (∃ r ∈ s.runs, r.assigned input = true ∧ r.active = true
        ∧ ∃ x ∈ s.tasks, x.id = r.task_id ∧ x.contract.deliverable = none)
      ∧ ∃ d ∈ s.source_deliverables, d.run_id = input.run_id
  | _ => False

instance (s : Db) (op : Op) : Decidable (Unbinds s op) := by
  unfold Unbinds
  split <;> exact inferInstance

/-- A step that writes none of the records. -/
theorem Stored.frame (h : Stored s) (hruns : ∀ r' ∈ t.runs, ∃ r ∈ s.runs, r.Bytes r')
    (hart : t.artifacts = s.artifacts) (hdel : t.source_deliverables = s.source_deliverables)
    (hev : t.verification_evidence = s.verification_evidence) : Stored t where
  artifacts_keyed := hart ▸ h.artifacts_keyed
  one_deliverable := hart ▸ h.one_deliverable
  linked := by
    intro d hd
    obtain ⟨a, ha, hid, hrun, hrole, hst, hsha⟩ := h.linked d (hdel ▸ hd)
    refine ⟨a, hart ▸ ha, hid, hrun, hrole, hst, fun r' hr' hr'id => ?_⟩
    obtain ⟨r, hr, hb⟩ := hruns r' hr'
    rw [hb.deliverable_sha256]
    exact hsha r hr (hb.id.symm.trans hr'id)
  held := by
    intro r' hr' id hid
    obtain ⟨r, hr, hb⟩ := hruns r' hr'
    rw [hb.artifact_id] at hid
    rw [hb.artifact_sha256, hart]
    exact h.held r hr id hid
  recorded := by
    intro e he hkind hstatus
    obtain ⟨a, ha, hst, hpay, hrun⟩ := h.recorded e (hev ▸ he) hkind hstatus
    refine ⟨a, hart ▸ ha, hst, hpay, fun r' hr' hr'id => ?_⟩
    obtain ⟨r, hr, hb⟩ := hruns r' hr'
    rw [hb.artifact_id]
    exact hrun r hr (hb.id.symm.trans hr'id)

theorem Aside.stored {P : Event → Prop} (h : Aside P s t) (hst : Stored s)
    (hruns : ∀ r' ∈ t.runs, ∃ r ∈ s.runs, r.Bytes r') : Stored t :=
  hst.frame hruns h.artifacts h.source_deliverables h.verification_evidence

theorem Calm.stored {P : Event → Prop} (h : Calm P s t) (hst : Stored s) : Stored t := by
  refine h.toAside.stored hst fun r' hr' => ?_
  obtain ⟨r, hr, hk⟩ := h.runs.exists_old hr'
  exact ⟨r, hr, hk.toSame.bytes⟩

theorem Advance.stored {r : Run} (h : Advance s t r) (hst : Stored s) : Stored t := by
  refine hst.frame (fun r' hr' => ?_) h.artifacts h.source_deliverables h.verification_evidence
  obtain ⟨x, hx, hk, -⟩ := h.runs.exists_old hr'
  exact ⟨x, hx, hk.bytes⟩

/-- A fresh run has no deliverable and no evidence; the artifact a verifier starts with is
one another run has. -/
theorem Admitting.stored {r : Run} (h : Admitting r s t) (hs : Inv s) (hv : Vouched s)
    (hst : Stored s) : Stored t where
  artifacts_keyed := h.artifacts ▸ hst.artifacts_keyed
  one_deliverable := h.artifacts ▸ hst.one_deliverable
  linked := by
    intro d hd
    obtain ⟨a, ha, hid, hrun, hrole, hready, hsha⟩ := hst.linked d (h.source_deliverables ▸ hd)
    refine ⟨a, h.artifacts ▸ ha, hid, hrun, hrole, hready, fun r' hr' hr'id => ?_⟩
    rw [h.runs] at hr'
    rcases List.mem_append.mp hr' with hr' | hr'
    · exact hsha r' hr' hr'id
    · rw [List.mem_singleton] at hr'
      subst hr'
      obtain ⟨x, hx, hxid, -⟩ := hs.linked.artifacts a ha
      exact absurd (by rw [hxid, hrun, hr'id]) (h.fresh_run.fresh x hx)
  held := by
    intro r' hr' id hid
    rw [h.artifacts]
    rw [h.runs] at hr'
    rcases List.mem_append.mp hr' with hr' | hr'
    · exact hst.held r' hr' id hid
    · rw [List.mem_singleton] at hr'
      subst hr'
      rcases h.fresh_run.artifact with ⟨hnone, -⟩ | ⟨x, hx, hxid, hxsha⟩
      · rw [hnone] at hid
        cases hid
      · rw [hxsha]
        exact hst.held x hx id (hxid.symm.trans hid)
  recorded := by
    intro e he hkind hstatus
    rw [h.verification_evidence] at he
    obtain ⟨a, ha, hready, hpay, hrun⟩ := hst.recorded e he hkind hstatus
    refine ⟨a, h.artifacts ▸ ha, hready, hpay, fun r' hr' hr'id => ?_⟩
    rw [h.runs] at hr'
    rcases List.mem_append.mp hr' with hr' | hr'
    · exact hrun r' hr' hr'id
    · rw [List.mem_singleton] at hr'
      subst hr'
      obtain ⟨x, hx, hxid, -⟩ := hv.checked e he
      exact absurd (hxid.trans hr'id.symm) (h.fresh_run.fresh x hx)

/-- A table of artifacts in which ready ones are still there. -/
theorem Stored.of_artifacts (hst : Stored s) (hacc : Accrues s t)
    (hkeyed : Keyed Artifact.id t.artifacts)
    (hone : UniqueWhere Artifact.delivers Artifact.run_id t.artifacts)
    (hruns : t.runs = s.runs) (hdel : t.source_deliverables = s.source_deliverables)
    (hev : t.verification_evidence = s.verification_evidence) : Stored t where
  artifacts_keyed := hkeyed
  one_deliverable := hone
  linked := by
    intro d hd
    obtain ⟨a, ha, hid, hrun, hrole, hready, hsha⟩ := hst.linked d (hdel ▸ hd)
    obtain ⟨a', ha', hid', hrun', hsha', hrole', -, hready'⟩ := hacc.ready a ha hready
    rw [hruns]
    exact ⟨a', ha', hid'.trans hid, hrun'.trans hrun, hrole'.trans hrole, hready',
      hsha'.symm ▸ hsha⟩
  held := by
    intro r hr id hid
    obtain ⟨a, ha, haid, hready, hsha⟩ := hst.held r (hruns ▸ hr) id hid
    obtain ⟨a', ha', hid', -, hsha', -, -, hready'⟩ := hacc.ready a ha hready
    exact ⟨a', ha', hid'.trans haid, hready', by rw [hsha', hsha]⟩
  recorded := by
    intro e he hkind hstatus
    obtain ⟨a, ha, hready, hpay, hrun⟩ := hst.recorded e (hev ▸ he) hkind hstatus
    obtain ⟨a', ha', hid', -, -, -, hdoc, hready'⟩ := hacc.ready a ha hready
    rw [hruns]
    exact ⟨a', ha', hready', hpay.trans hdoc.symm, hid'.symm ▸ hrun⟩

theorem Shelving.stored {l : List Artifact} (h : Shelving s l) (hst : Stored s) :
    Stored (s.onArtifacts fun _ => l) := by
  refine hst.of_artifacts h.accrues ?_ ?_ rfl rfl rfl
  · cases h with
    | updated h => exact h.keyed hst.artifacts_keyed fun _ _ hk => hk.id
    | dropped p _ => exact List.Nodup.sublist (List.filter_sublist.map _) hst.artifacts_keyed
    | staged run a _ _ _ _ _ _ hnew =>
      exact hst.artifacts_keyed.append_singleton fun b hb => (hnew b hb).1
  · cases h with
    | updated h =>
      refine hst.one_deliverable.updated h (fun _ _ hk => hk.run_id) ?_
      intro a _ b hk hb
      unfold Artifact.delivers at hb ⊢
      rw [hk.artifact_role] at hb
      rcases hk.status with hsame | ⟨-, hrej⟩
      · rwa [hsame] at hb
      · rw [hrej] at hb
        simp at hb
    | dropped p _ =>
      refine List.Nodup.sublist (List.Sublist.map _ ?_) hst.one_deliverable
      exact List.filter_sublist.filter _
    | staged run a _ _ _ _ _ _ hnew =>
      refine hst.one_deliverable.append_singleton ?_
      intro ha b hb hbd hrun
      unfold Artifact.delivers at ha hbd
      simp only [Bool.and_eq_true, beq_iff_eq, Bool.not_eq_true', beq_eq_false_iff_ne] at ha hbd
      exact (hnew b hb).2 ⟨hrun, hbd.1, ha.1, hbd.2⟩

/-- The artifact table after a finalisation. -/
theorem Stored.readied (hst : Stored s) (artifact_id : Uuid) :
    Keyed Artifact.id (s.readied_artifacts artifact_id)
      ∧ UniqueWhere Artifact.delivers Artifact.run_id (s.readied_artifacts artifact_id) := by
  refine ⟨hst.artifacts_keyed.updateWhere fun _ _ => rfl, ?_⟩
  refine hst.one_deliverable.updated
    (R := fun a b => b.run_id = a.run_id ∧ (b.delivers = true → a.delivers = true)) ?_
    (fun _ _ hk => hk.1) fun _ _ _ hk => hk.2
  refine Updated.of_updateWhere (fun a _ ha => ⟨rfl, ?_⟩) fun a _ _ => ⟨rfl, id⟩
  simp only [Bool.and_eq_true, beq_iff_eq] at ha
  unfold Artifact.delivers
  simp [ha.2]

/-- The row of the finalised artifact. -/
theorem mem_readied {a : Artifact} (ha : a ∈ s.artifacts) (hstaged : a.status = .staged) :
    ∃ b ∈ s.readied_artifacts a.id, b.id = a.id ∧ b.run_id = a.run_id ∧ b.sha256 = a.sha256
      ∧ b.artifact_role = a.artifact_role ∧ b.status = .ready :=
  ⟨{ a with status := .ready, rejection_reason := none },
    mem_updateWhere.mpr ⟨a, ha, by simp [hstaged]⟩, rfl, rfl, rfl, rfl, rfl⟩

/-- A staged deliverable has no link yet. -/
theorem Stored.unlinked (hst : Stored s) {a : Artifact} (ha : a ∈ s.artifacts)
    (hstaged : a.status = .staged) (hrole : a.artifact_role = .source_deliverable)
    {d : SourceDeliverable} (hd : d ∈ s.source_deliverables) : d.run_id ≠ a.run_id := by
  intro hrun
  obtain ⟨b, hb, -, hbrun, hbrole, hready, -⟩ := hst.linked d hd
  have hab : b = a := by
    refine hst.one_deliverable.eq_of_mem hb ha ?_ ?_ (hbrun.trans hrun)
    · simp [Artifact.delivers, hbrole, hready]
    · simp [Artifact.delivers, hrole, hstaged]
  rw [hab, hstaged] at hready
  cases hready

theorem Readying.stored {a : Artifact} (h : Readying s u a) (hst : Stored s) (ha : a ∈ s.artifacts)
    (hstaged : a.status = .staged)
    (hok : a.artifact_role = .provider_evidence → ∀ e ∈ s.verification_evidence,
      e.run_id = a.run_id → e.kind = "artifact" → e.status ≠ .passed) : Stored u := by
  have hacc := h.accrues
  have hart := h.frame.1
  have hev := h.frame.2.2.2.1
  obtain ⟨hkeyed, hone⟩ := hst.readied a.id
  obtain ⟨a', ha', haid, harun, hasha, harole, haready⟩ := mem_readied ha hstaged
  rcases h.state with ⟨hrole, hu⟩ | ⟨hrole, row, hrowrun, hrowart, hu⟩
  · -- Provider evidence: the run of the artifact has it from now on.
    have hruns : ∀ r' ∈ u.runs, ∃ r ∈ s.runs, r'.id = r.id
        ∧ r'.deliverable_sha256 = r.deliverable_sha256
        ∧ ((r.id = a.run_id ∧ r'.artifact_id = some a.id ∧ r'.artifact_sha256 = some a.sha256)
          ∨ (r.id ≠ a.run_id ∧ r' = r)) := by
      intro r' hr'
      rw [hu] at hr'
      obtain ⟨r, hr, rfl⟩ := mem_updateWhere.mp hr'
      by_cases hid : r.id = a.run_id
      · rw [if_pos (by simpa using hid)]
        exact ⟨r, hr, rfl, rfl, Or.inl ⟨hid, rfl, rfl⟩⟩
      · rw [if_neg (by simpa using hid)]
        exact ⟨r, hr, rfl, rfl, Or.inr ⟨hid, rfl⟩⟩
    have hdel : u.source_deliverables = s.source_deliverables := by rw [hu]
    refine ⟨hart ▸ hkeyed, hart ▸ hone, ?_, ?_, ?_⟩
    · intro d hd
      obtain ⟨b, hb, hid, hrun, hbrole, hready, hsha⟩ := hst.linked d (hdel ▸ hd)
      obtain ⟨b', hb', hid', hrun', hsha', hrole', -, hready'⟩ := hacc.ready b hb hready
      refine ⟨b', hb', hid'.trans hid, hrun'.trans hrun, hrole'.trans hbrole, hready', ?_⟩
      intro r' hr' hr'id
      obtain ⟨r, hr, hrid, hrsha, -⟩ := hruns r' hr'
      rw [hrsha, hsha']
      exact hsha r hr (hrid.symm.trans hr'id)
    · intro r' hr' id hid
      obtain ⟨r, hr, -, -, ⟨-, hart', hsha'⟩ | ⟨-, rfl⟩⟩ := hruns r' hr'
      · rw [hart', Option.some.injEq] at hid
        exact ⟨a', hart ▸ ha', haid.trans hid, haready, by rw [hsha', hasha]⟩
      · obtain ⟨b, hb, hbid, hready, hsha⟩ := hst.held r' hr id hid
        obtain ⟨b', hb', hid', -, hsha', -, -, hready'⟩ := hacc.ready b hb hready
        exact ⟨b', hb', hid'.trans hbid, hready', by rw [hsha', hsha]⟩
    · intro e he hkind hstatus
      rw [hev] at he
      obtain ⟨b, hb, hready, hpay, hrun⟩ := hst.recorded e he hkind hstatus
      obtain ⟨b', hb', hid', -, -, -, hdoc, hready'⟩ := hacc.ready b hb hready
      refine ⟨b', hb', hready', hpay.trans hdoc.symm, fun r' hr' hr'id => ?_⟩
      obtain ⟨r, hr, hrid, -, ⟨hid, -, -⟩ | ⟨-, rfl⟩⟩ := hruns r' hr'
      · exact absurd hstatus (hok hrole e he (by rw [← hr'id, hrid, hid]) hkind)
      · rw [hid']
        exact hrun r' hr hr'id
  · -- A deliverable: it is linked, and its run has its digest.
    have hruns : ∀ r' ∈ u.runs, ∃ r ∈ s.runs, r'.id = r.id ∧ r'.artifact_id = r.artifact_id
        ∧ r'.artifact_sha256 = r.artifact_sha256
        ∧ r'.deliverable_sha256 = if r.id = a.run_id then
          some a.sha256 else r.deliverable_sha256 := by
      intro r' hr'
      rw [hu] at hr'
      obtain ⟨r, hr, rfl⟩ := mem_updateWhere.mp hr'
      by_cases hid : r.id = a.run_id
      · rw [if_pos (by simpa using hid)]
        exact ⟨r, hr, rfl, rfl, rfl, by rw [if_pos hid]⟩
      · rw [if_neg (by simpa using hid)]
        exact ⟨r, hr, rfl, rfl, rfl, by rw [if_neg hid]⟩
    have hdel : u.source_deliverables = s.source_deliverables ++ [row] := by
      have hany : (s.source_deliverables.any fun d => d.run_id == a.run_id) = false := by
        rw [List.any_eq_false]
        intro d hd
        simpa using hst.unlinked ha hstaged hrole hd
      rw [hu]
      dsimp only
      rw [if_neg (by simp [hany])]
    refine ⟨hart ▸ hkeyed, hart ▸ hone, ?_, ?_, ?_⟩
    · intro d hd
      rw [hdel] at hd
      rcases List.mem_append.mp hd with hd | hd
      · obtain ⟨b, hb, hid, hrun, hbrole, hready, hsha⟩ := hst.linked d hd
        obtain ⟨b', hb', hid', hrun', hsha', hrole', -, hready'⟩ := hacc.ready b hb hready
        refine ⟨b', hb', hid'.trans hid, hrun'.trans hrun, hrole'.trans hbrole, hready', ?_⟩
        intro r' hr' hr'id
        obtain ⟨r, hr, hrid, -, -, hrsha⟩ := hruns r' hr'
        have hne : r.id ≠ a.run_id := by
          rw [← hrid, hr'id]
          exact hst.unlinked ha hstaged hrole hd
        rw [hrsha, if_neg hne, hsha']
        exact hsha r hr (hrid.symm.trans hr'id)
      · rw [List.mem_singleton] at hd
        subst hd
        refine ⟨a', hart ▸ ha', haid.trans hrowart.symm, harun.trans hrowrun.symm,
          harole.trans hrole, haready, ?_⟩
        intro r' hr' hr'id
        obtain ⟨r, hr, hrid, -, -, hrsha⟩ := hruns r' hr'
        rw [hrsha, if_pos (by rw [← hrid, hr'id, hrowrun]), hasha]
    · intro r' hr' id hid
      obtain ⟨r, hr, -, hart', hsha', -⟩ := hruns r' hr'
      rw [hart'] at hid
      obtain ⟨b, hb, hbid, hready, hsha⟩ := hst.held r hr id hid
      obtain ⟨b', hb', hid', -, hbsha', -, -, hready'⟩ := hacc.ready b hb hready
      exact ⟨b', hb', hid'.trans hbid, hready', by rw [hsha', hsha, hbsha']⟩
    · intro e he hkind hstatus
      rw [hev] at he
      obtain ⟨b, hb, hready, hpay, hrun⟩ := hst.recorded e he hkind hstatus
      obtain ⟨b', hb', hid', -, -, -, hdoc, hready'⟩ := hacc.ready b hb hready
      refine ⟨b', hb', hready', hpay.trans hdoc.symm, fun r' hr' hr'id => ?_⟩
      obtain ⟨r, hr, hrid, hart', -, -⟩ := hruns r' hr'
      rw [hart', hid']
      exact hrun r hr (hrid.symm.trans hr'id)

/-- An evidence row of an artifact check is recorded against the artifact its run has. -/
theorem run_verification_evidence_stored {now : Int} {input : RunnerEventInput} {row : RunnerRow}
    {scope : Option RunScope} {payload : Json} (hs : Life s) (hst : Stored s)
    (hadm : Admitted s now input row scope payload)
    (htype : input.event_type = .run_verification_evidence)
    (h : run_verification_evidence (s.onEvents (· ++ [runner_event input row payload])) row payload
      = .ok t) : Stored t := by
  obtain ⟨e, rfl, hrun, -, hkind, hstatus, hpay, -⟩ := run_verification_evidence_ok h
  refine ⟨hst.artifacts_keyed, hst.one_deliverable, hst.linked, hst.held, ?_⟩
  intro x hx hxkind hxstatus
  rcases List.mem_append.mp hx with hx | hx
  · exact hst.recorded x hx hxkind hxstatus
  · rw [List.mem_singleton] at hx
    subst hx
    have hsan := hadm.payload_eq
    unfold runner_event_payload at hsan
    rw [if_pos htype] at hsan
    rw [hxkind] at hkind
    rw [hxstatus] at hstatus
    obtain ⟨a, ha, hdoc⟩ := sanitize_verification_evidence_tx_passed hsan hkind hstatus
    obtain ⟨hmem, hid, hready⟩ := evidence_artifact_eq_some ha
    refine ⟨a, hmem, hready, ?_, fun r hr hrid => ?_⟩
    · rw [hpay, hdoc]
      rfl
    · rw [hs.eq_of_id hr hadm.reported.joined.run_mem (hrid.trans hrun)]
      exact hid

/-- The digest a report names is that of the linked deliverable; a task without one has no
link. -/
theorem run_verification_passed_stored {row : RunnerRow} {payload : Json} (hst : Stored s)
    (hok : row.task.contract.deliverable = none →
      ∀ d ∈ s.source_deliverables, d.run_id ≠ row.run.id)
    (h : run_verification_passed s row payload = .ok t) : Stored t := by
  obtain ⟨summary, v, d, hdig, -, -, rfl⟩ := run_verification_passed_ok h
  -- The digest that is written is the one of whatever is linked to the run.
  have hlinked : ∀ x ∈ s.source_deliverables, x.run_id = row.run.id → ∀ a ∈ s.artifacts,
      a.id = x.artifact_id → a.run_id = x.run_id → a.artifact_role = .source_deliverable →
      a.status = .ready → d = some a.sha256 := by
    intro x hx hxrun a ha haid harun harole hready
    unfold passed_digests at hdig
    split at hdig
    · simp only [bind_eq_ok, context_eq_ok, ensure_eq_ok, pure_eq_ok, Prod.mk.injEq] at hdig
      obtain ⟨v', -, d', -, _, hl, -, rfl⟩ := hdig
      unfold deliverable_linked at hl
      simp only [List.any_eq_true, Bool.and_eq_true, beq_iff_eq] at hl
      obtain ⟨y, hy, ⟨hyrun, -⟩, b, hb, ⟨⟨hbid, hbsha⟩, hbst⟩, hbrole⟩ := hl
      obtain ⟨c, hc, hcid, hcrun, hcrole, hcst, -⟩ := hst.linked y hy
      obtain rfl := hst.artifacts_keyed.eq_of_mem hb hc (hbid.trans hcid.symm)
      have hab : a = b := by
        refine hst.one_deliverable.eq_of_mem ha hb ?_ ?_ (by rw [harun, hxrun, hcrun, hyrun])
        · simp [Artifact.delivers, harole, hready]
        · simp [Artifact.delivers, hbrole, hbst]
      rw [hab, hbsha]
    · rename_i hnone
      exact absurd hxrun (hok (by simpa using hnone) x hx)
  refine ⟨hst.artifacts_keyed, hst.one_deliverable, ?_, ?_, ?_⟩
  · intro x hx
    obtain ⟨a, ha, haid, harun, harole, hready, hsha⟩ := hst.linked x hx
    refine ⟨a, ha, haid, harun, harole, hready, fun r' hr' hr'id => ?_⟩
    obtain ⟨r, hr, rfl⟩ := mem_updateWhere.mp hr'
    by_cases hid : r.id = row.run.id
    · rw [if_pos (by simpa using hid)] at hr'id ⊢
      exact hlinked x hx (hr'id.symm.trans hid) a ha haid harun harole hready
    · rw [if_neg (by simpa using hid)] at hr'id ⊢
      exact hsha r hr hr'id
  · intro r' hr' id hid
    obtain ⟨r, hr, rfl⟩ := mem_updateWhere.mp hr'
    split at hid
    · rename_i hsel
      rw [if_pos hsel]
      exact hst.held r hr id hid
    · rename_i hsel
      rw [if_neg hsel]
      exact hst.held r hr id hid
  · intro e he hkind hstatus
    obtain ⟨a, ha, hready, hpay, hrun⟩ := hst.recorded e he hkind hstatus
    refine ⟨a, ha, hready, hpay, fun r' hr' hr'id => ?_⟩
    obtain ⟨r, hr, rfl⟩ := mem_updateWhere.mp hr'
    split at hr'id
    · rename_i hsel
      rw [if_pos hsel]
      exact hrun r hr hr'id
    · rename_i hsel
      rw [if_neg hsel]
      exact hrun r hr hr'id

/-! ## Runs without such a step -/

theorem exec_stored (hs : Inv s) (hv : Vouched s) (hst : Stored s) {op : Op}
    (hok : ¬ Unbinds s op) (h : exec env s op = .ok t) : Stored t := by
  rcases exec_taken h with rfl | htaken
  · exact hst
  cases exec_effect hs.life hs.linked h with
  | calm h => exact h.stored hst
  | settled command_id _ h => exact h.stored hst
  | admitted r _ h => exact h.stored hs hv hst
  | raised now corp_id run_id run task mission stage i c e _ _ _ _ h =>
    rw [h.state]
    refine hst.frame (fun r' hr' => ?_) rfl rfl rfl
    obtain ⟨r, hr, rfl⟩ := mem_updateWhere.mp hr'
    refine ⟨r, hr, ?_⟩
    split
    · exact ⟨rfl, rfl, rfl, rfl⟩
    · exact Run.Bytes.refl r
  | shelved l h ht =>
    rw [ht]
    exact h.stored hst
  | readied corp_id artifact_id a run task mission u hop hrow hstaged hready ht =>
    obtain ⟨ha, haid, hacorp, -⟩ := finalize_row_eq_some hrow
    have hu : Stored u := by
      refine hready.stored hst ha hstaged ?_
      intro hrole e he hrun hkind hpassed
      refine hok ?_
      subst hop
      exact ⟨a, ha, haid, hacorp, hstaged, hrole, e, he, hrun, hkind, hpassed⟩
    rw [ht]
    split
    · refine hu.frame (fun r' hr' => ?_) rfl rfl rfl
      obtain ⟨r, hr, rfl⟩ := mem_updateWhere.mp hr'
      refine ⟨r, hr, ?_⟩
      split
      · exact ⟨rfl, rfl, rfl, rfl⟩
      · exact Run.Bytes.refl r
    · exact hu
  | approved now input row actor _ _ _ hadv => exact hadv.stored hst
  | reported now input row scope payload hop hadm _ _ heff =>
    have hj := hadm.reported.joined
    have hst' : Stored (s.onEvents (· ++ [runner_event input row payload])) :=
      ⟨hst.artifacts_keyed, hst.one_deliverable, hst.linked, hst.held, hst.recorded⟩
    cases heff with
    | calm _ h => exact h.stored hst'
    | ended _ h => exact h.stored hst'
    | asked _ p _ _ _ h _ _ =>
      have hcalm := h.stored hst'
      exact ⟨hcalm.artifacts_keyed, hcalm.one_deliverable, hcalm.linked, hcalm.held, hcalm.recorded⟩
    | usage _ h =>
      unfold run_usage at h
      simp only [bind_eq_ok, pure_eq_ok] at h
      obtain ⟨_, -, rfl⟩ := h
      refine hst'.frame (fun r' hr' => ?_) rfl rfl rfl
      obtain ⟨r, hr, rfl⟩ := mem_updateWhere.mp hr'
      refine ⟨r, hr, ?_⟩
      split
      · exact ⟨rfl, rfl, rfl, rfl⟩
      · exact Run.Bytes.refl r
    | evidence htype h => exact run_verification_evidence_stored hs.life hst hadm htype h
    | passed htype h =>
      refine run_verification_passed_stored hst' ?_ h
      intro hnone d hd hrun
      refine hok ?_
      have htakes := htaken now input hop
      subst hop
      have hactive := hadm.reported.active (by rw [htype]; rfl)
      exact ⟨htakes, htype,
        ⟨row.run, hj.run_mem, hadm.reported.assigned, hactive, row.task, hj.task_mem,
        hj.task_id, hnone⟩, d, hd, hrun.trans hj.run_id⟩
    | waiting _ _ hadv => exact hadv.stored hst'
    | completed _ _ hadv => exact hadv.stored hst'

theorem Initial.stored (h : Initial s) : Stored s where
  artifacts_keyed := by simp [h.artifacts, Keyed]
  one_deliverable := by simp [h.artifacts, UniqueWhere]
  linked := by simp [h.source_deliverables]
  held := by simp [h.runs]
  recorded := by simp [h.verification_evidence]

/-- **Verified bytes stay bound.** In every state of a run without a step that unbinds them,
the digest of a run that passed its verification is the one of its linked deliverable, and
the artifact it has is the one its artifact checks passed against. -/
theorem verified_bytes_bound (h : ReachableVia env (fun s op => ¬ Unbinds s op) s) :
    ∀ r ∈ s.runs, r.verification_status = .passed ∨ r.status = .completed →
      s.delivered r ∧ s.evidenced r := by
  have hst : Stored s :=
    ReachableVia.inv h (fun _ h0 => h0.stored) fun _ _ _ hr hst hok he =>
      exec_stored hr.invariants hr.vouched hst hok he
  intro r hr _
  exact ⟨hst.delivered hr, hst.evidenced hr⟩

/-- The evidence of a passed artifact check. -/
def Office.artifact_evidence (c : Char) : Json :=
  .obj [("evidence_id", .uuid 900), ("check_index", .int 0), ("kind", .str "artifact"),
    ("status", .str "passed"), ("summary", .str "ok"),
    ("payload", .obj [("sha256", .str (Office.sha c)), ("bytes", .int 3),
      ("media_type", .str "text/plain")])]

/-- Two artifacts are staged; the first becomes ready and passes the artifact check. -/
def Office.verified_artifact : List Op :=
  [Office.create_mission
      (Office.plan [Office.task "a" [] { checks := [.artifact 1], manual_gate := none }]),
    Office.dispatch 1 50, Office.report 50 201 .run_started (.obj []), Office.stage 50 300 'a',
    Office.stage 50 301 'b', Office.finalize 300,
    Office.report 50 203 .run_verification_evidence (Office.artifact_evidence 'a'),
    Office.report 50 204 .run_verification_passed (.obj [])]

set_option maxRecDepth 20000 in
theorem verified_bytes_bound_office :
    ((Office.after Office.verified_artifact).runs.map fun r =>
      (r.verification_status, r.artifact_id))
        = [(.passed, some 300)]
      ∧ ∀ r ∈ (Office.after Office.verified_artifact).runs, r.verification_status = .passed →
        (Office.after Office.verified_artifact).evidenced r := by
  refine ⟨by decide, fun r hr hp => ?_⟩
  have hrun : ReachableVia Office.digest (fun s op => ¬ Unbinds s op)
      (Office.after Office.verified_artifact) :=
    TransitionSystem.ReachableVia.run Office.initial (by decide)
  exact (verified_bytes_bound hrun r hr (Or.inl hp)).2

set_option maxRecDepth 20000 in
/-- The second artifact replaces the first although the check passed against that one. -/
theorem verified_bytes_replaced :
    ¬ ∀ s, Reachable Office.digest s → ∀ r ∈ s.runs,
      r.verification_status = .passed ∨ r.status = .completed → s.delivered r ∧ s.evidenced r := by
  intro hall
  have hstate := hall _ (Office.reachable_after (Office.verified_artifact ++ [Office.finalize 301]))
  -- The document of the evidence names an artifact the run does not have.
  have hnames : ∀ r ∈ (Office.after (Office.verified_artifact ++ [Office.finalize 301])).runs,
      r.verification_status = .passed →
      ∀ e ∈ (Office.after
        (Office.verified_artifact ++ [Office.finalize 301])).verification_evidence,
        e.run_id = r.id → e.kind = "artifact" → e.status = .passed →
        ∃ a ∈ (Office.after (Office.verified_artifact ++ [Office.finalize 301])).artifacts,
          e.payload.text? "artifact_id" = some (uuid_text a.id) ∧ r.artifact_id = some a.id := by
    intro r hr hp e he hrun hkind hstatus
    obtain ⟨a, ha, hpay, hid, -⟩ := (hstate r hr (Or.inl hp)).2 e he hrun hkind hstatus
    exact ⟨a, ha, by rw [hpay]; rfl, hid⟩
  revert hnames
  decide

end Crony.Store
