/-
What a step keeps of the tables a verification rests on.

Two facts, both by cases on what a call does. `Effect.accrues`: evidence, journal entries,
linked deliverables and ready artifacts are never taken back. `Effect.claimed`: a run that
claims its checks after a step claimed them before it, unless the step is the
`run.verification_passed` report of that very run. An invariant about runs that claim their
checks therefore has to be established at that one report only.
-/
import Crony.Lifecycle.Reach

set_option autoImplicit false

open Crony.Lib

namespace Crony.Store

variable {env : Env} {s t u : Db}

/-! ## Nothing a verification rests on is taken back -/

structure Accrues (s t : Db) : Prop where
  evidence : ∀ e ∈ s.verification_evidence, e ∈ t.verification_evidence
  events : ∀ e ∈ s.events, e ∈ t.events
  deliverables : ∀ d ∈ s.source_deliverables, d ∈ t.source_deliverables
  ready : ∀ a ∈ s.artifacts, a.status = .ready → ∃ a' ∈ t.artifacts, a'.id = a.id
    ∧ a'.run_id = a.run_id ∧ a'.sha256 = a.sha256 ∧ a'.artifact_role = a.artifact_role
    ∧ artifact_evidence_payload a' = artifact_evidence_payload a ∧ a'.status = .ready

theorem Accrues.refl : Accrues s s :=
  ⟨fun _ h => h, fun _ h => h, fun _ h => h, fun a ha hr => ⟨a, ha, rfl, rfl, rfl, rfl, rfl, hr⟩⟩

/-- A step that leaves the artifacts alone. -/
theorem Accrues.of_artifacts_eq
    (hevidence : ∀ e ∈ s.verification_evidence, e ∈ t.verification_evidence)
    (hevents : ∀ e ∈ s.events, e ∈ t.events)
    (hdeliverables : t.source_deliverables = s.source_deliverables)
    (hartifacts : t.artifacts = s.artifacts) : Accrues s t where
  evidence := hevidence
  events := hevents
  deliverables := by
    rw [hdeliverables]
    exact fun _ h => h
  ready := by
    rw [hartifacts]
    exact fun a ha hr => ⟨a, ha, rfl, rfl, rfl, rfl, rfl, hr⟩

theorem Aside.accrues {P : Event → Prop} (h : Aside P s t) : Accrues s t :=
  Accrues.of_artifacts_eq (fun _ he => h.verification_evidence ▸ he)
    (fun _ he => h.events.mem_of_mem he) h.source_deliverables h.artifacts

theorem Advance.accrues {r : Run} (h : Advance s t r) : Accrues s t :=
  Accrues.of_artifacts_eq (fun _ he => h.verification_evidence ▸ he)
    (fun _ he => h.events.mem_of_mem he) h.source_deliverables h.artifacts

theorem Shelving.accrues {l : List Artifact} (h : Shelving s l) :
    Accrues s (s.onArtifacts fun _ => l) := by
  refine ⟨fun _ h => h, fun _ h => h, fun _ h => h, fun a ha hr => ?_⟩
  cases h with
  | updated h =>
    obtain ⟨a', ha', hk⟩ := h.exists_new ha
    refine ⟨a', ha', hk.id, hk.run_id, hk.sha256, hk.artifact_role, hk.document, ?_⟩
    rcases hk.status with hst | ⟨hst, -⟩
    · rw [hst, hr]
    · rw [hr] at hst
      cases hst
  | dropped p h =>
    refine ⟨a, List.mem_filter.mpr ⟨ha, ?_⟩, rfl, rfl, rfl, rfl, rfl, hr⟩
    by_contra hp
    have hst := h a ha (by simpa using hp)
    rw [hr] at hst
    cases hst
  | staged run b => exact ⟨a, List.mem_append_left _ ha, rfl, rfl, rfl, rfl, rfl, hr⟩

/-- Readying an artifact touches no ready one. -/
theorem readied_artifacts_of_ready {artifact_id : Uuid} {a : Artifact} (ha : a ∈ s.artifacts)
    (hr : a.status = .ready) : a ∈ s.readied_artifacts artifact_id :=
  mem_updateWhere.mpr ⟨a, ha, by simp [hr]⟩

theorem Readying.accrues {a : Artifact} (h : Readying s u a) : Accrues s u := by
  obtain ⟨hart, -, -, hev, -, -⟩ := h.frame
  refine ⟨fun _ he => hev ▸ he, fun _ he => h.events.mem_of_mem he, ?_, fun b hb hr => ?_⟩
  · intro d hd
    rcases h.state with ⟨-, hu⟩ | ⟨-, row, -, -, hu⟩
    · rw [hu]
      exact hd
    · rw [hu]
      dsimp only
      split
      · exact hd
      · exact List.mem_append_left _ hd
  · exact ⟨b, hart ▸ readied_artifacts_of_ready hb hr, rfl, rfl, rfl, rfl, rfl, hr⟩

theorem ReportEffect.accrues {row : RunnerRow} {payload : Json} {event_type : EventType}
    (h : ReportEffect s t row payload event_type) : Accrues s t := by
  cases h with
  | calm _ h => exact h.toAside.accrues
  | ended _ h => exact h.toAside.accrues
  | asked _ p _ _ _ h _ _ =>
    exact ⟨h.toAside.accrues.evidence, h.toAside.accrues.events, h.toAside.accrues.deliverables,
      h.toAside.accrues.ready⟩
  | usage _ h =>
    unfold run_usage at h
    simp only [bind_eq_ok, pure_eq_ok] at h
    obtain ⟨_, -, rfl⟩ := h
    exact Accrues.of_artifacts_eq (fun _ he => he) (fun _ he => he) rfl rfl
  | evidence _ h =>
    obtain ⟨e, rfl, -⟩ := run_verification_evidence_ok h
    exact Accrues.of_artifacts_eq (fun _ he => List.mem_append_left _ he) (fun _ he => he) rfl rfl
  | passed _ h =>
    obtain ⟨_, _, _, -, -, -, rfl⟩ := run_verification_passed_ok h
    exact Accrues.of_artifacts_eq (fun _ he => he) (fun _ he => he) rfl rfl
  | waiting _ _ hadv => exact hadv.accrues
  | completed _ _ hadv => exact hadv.accrues

theorem Effect.accrues {op : Op} (h : Effect s op t) : Accrues s t := by
  cases h with
  | calm h => exact h.toAside.accrues
  | settled command_id _ h => exact h.toAside.accrues
  | admitted r _ h => exact h.toAside.accrues
  | raised now corp_id run_id run task mission stage i c e _ _ _ _ h =>
    rw [h.state]
    refine Accrues.of_artifacts_eq (fun _ he => he) ?_ rfl rfl
    intro e he
    dsimp only
    split
    · exact he
    · exact List.mem_append_left _ he
  | shelved l h ht =>
    rw [ht]
    exact h.accrues
  | readied corp_id artifact_id a run task mission u _ _ _ h ht =>
    obtain ⟨runs, tasks, agents, hr⟩ := review_run_frame u run task.id run.active
    rw [ht, hr]
    exact ⟨h.accrues.evidence, h.accrues.events, h.accrues.deliverables, h.accrues.ready⟩
  | approved now input row actor _ _ _ hadv => exact hadv.accrues
  | reported now input row scope payload _ _ _ _ h =>
    have ha := h.accrues
    exact ⟨ha.evidence, fun e he => ha.events e (List.mem_append_left _ he), ha.deliverables,
      ha.ready⟩

/-- A linked pair of digests stays linked. -/
theorem Accrues.deliverable_linked (h : Accrues s t) {run_id : Uuid} {v d : String}
    (hd : deliverable_linked s run_id v d = true) : deliverable_linked t run_id v d = true := by
  unfold Crony.Store.deliverable_linked at hd ⊢
  simp only [List.any_eq_true, Bool.and_eq_true, beq_iff_eq] at hd ⊢
  obtain ⟨x, hx, ⟨hrun, hv⟩, a, ha, ⟨⟨hid, hsha⟩, hst⟩, hrole⟩ := hd
  obtain ⟨a', ha', hid', -, hsha', hrole', -, hst'⟩ := h.ready a ha hst
  exact ⟨x, h.deliverables x hx, ⟨hrun, hv⟩, a', ha', ⟨⟨hid'.trans hid, hsha'.trans hsha⟩, hst'⟩,
    hrole'.trans hrole⟩

/-! ## Where a claim comes from -/

/-- A run that claims its checks and was written by something that does not make it do so
claimed them before. -/
theorem Db.claims.of_calm {r r' : Run} (h : t.claims r')
    (hverdict : r'.verification_status = r.verification_status ∨ r'.verification_status = .running
      ∨ r'.verification_status = .failed)
    (huncompleted : r'.status = .completed → r.status = .completed)
    (hrequests : ∀ q' ∈ t.verification_requests, q'.run_id = r'.id →
      ∃ q ∈ s.verification_requests, q.run_id = r.id) : s.claims r := by
  rcases h with hc | hp | hw | ⟨q', hq', hrun⟩
  · exact Or.inl (huncompleted hc)
  · rw [hp] at hverdict
    rcases hverdict with hv | hv | hv
    · exact Or.inr (Or.inl hv.symm)
    · cases hv
    · cases hv
  · rw [hw] at hverdict
    rcases hverdict with hv | hv | hv
    · exact Or.inr (Or.inr (Or.inl hv.symm))
    · cases hv
    · cases hv
  · exact Or.inr (Or.inr (Or.inr (hrequests q' hq' hrun)))

/-- Requests that were only decided. -/
theorem requests_of_updated {r r' : Run} (hid : r'.id = r.id)
    (h : Updated VerificationRequest.Kept s.verification_requests t.verification_requests) :
    ∀ q' ∈ t.verification_requests, q'.run_id = r'.id →
      ∃ q ∈ s.verification_requests, q.run_id = r.id := by
  intro q' hq' hrun
  obtain ⟨q, hq, hk⟩ := h.exists_old hq'
  exact ⟨q, hq, by rw [← hk.run_id, hrun, hid]⟩

theorem Calm.claimed {P : Event → Prop} (h : Calm P s t) {r' : Run} (hr' : r' ∈ t.runs)
    (hc : t.claims r') : ∃ r ∈ s.runs, r.Kept r' ∧ s.claims r := by
  obtain ⟨r, hr, hk⟩ := h.runs.exists_old hr'
  exact ⟨r, hr, hk.kept, hc.of_calm hk.verdict hk.uncompleted
    (requests_of_updated hk.kept.id h.verification_requests)⟩

/-- A write of columns a claim does not look at. -/
theorem claimed_of_write {p : Run → Bool} {f : Run → Run}
    {r' : Run} (hr' : r' ∈ t.runs) (hc : t.claims r')
    (hruns : t.runs = updateWhere p f s.runs)
    (hrequests : t.verification_requests = s.verification_requests)
    (hf : ∀ x, x.Kept (f x) ∧ (f x).verification_status = x.verification_status
      ∧ ((f x).status = .completed → x.status = .completed)) :
    ∃ r ∈ s.runs, r.Kept r' ∧ s.claims r := by
  have hreq : ∀ x : Run, r'.id = x.id → ∀ q' ∈ t.verification_requests, q'.run_id = r'.id →
      ∃ q ∈ s.verification_requests, q.run_id = x.id := by
    intro x hid q' hq' hrun
    exact ⟨q', hrequests ▸ hq', hrun.trans hid⟩
  rw [hruns] at hr'
  obtain ⟨x, hx, hxr⟩ := mem_updateWhere.mp hr'
  by_cases hp : p x = true
  · rw [if_pos hp] at hxr
    subst hxr
    obtain ⟨hk, hv, hs⟩ := hf x
    exact ⟨x, hx, hk, hc.of_calm (Or.inl hv) hs (hreq x hk.id)⟩
  · rw [if_neg hp] at hxr
    subst hxr
    exact ⟨x, hx, Run.Kept.refl x, hc.of_calm (Or.inl rfl) id (hreq x rfl)⟩

theorem Admitting.claimed {r : Run} (h : Admitting r s t) (hl : Linked s) {r' : Run}
    (hr' : r' ∈ t.runs) (hc : t.claims r') : ∃ x ∈ s.runs, x.Kept r' ∧ s.claims x := by
  rw [h.runs] at hr'
  rcases List.mem_append.mp hr' with hr' | hr'
  · exact ⟨r', hr', Run.Kept.refl r', hc.of_calm (Or.inl rfl) id
      (requests_of_updated rfl h.verification_requests)⟩
  · rw [List.mem_singleton] at hr'
    subst hr'
    -- A fresh run claims nothing, and no request can name it.
    have hfresh := h.fresh_run
    rcases hc with hc | hp | hw | ⟨q', hq', hrun⟩
    · rw [hfresh.status] at hc
      cases hc
    · rw [hfresh.verification_status] at hp
      cases hp
    · rw [hfresh.verification_status] at hw
      cases hw
    · obtain ⟨q, hq, hk⟩ := h.verification_requests.exists_old hq'
      obtain ⟨x, hx, hxid, -⟩ := hl.requests q hq
      exact absurd (hxid.trans (hk.run_id.symm.trans hrun)) (hfresh.fresh x hx)

theorem Advance.claimed {r : Run} (h : Advance s t r) (hs : Life s) (hr : r ∈ s.runs) {r' : Run}
    (hr' : r' ∈ t.runs) (hc : t.claims r') : ∃ x ∈ s.runs, x.Kept r' ∧ s.claims x := by
  obtain ⟨x, hx, hsame, hcalm⟩ := h.runs.exists_old hr'
  refine ⟨x, hx, hsame.kept, ?_⟩
  by_cases hid : x.id = r.id
  · rw [hs.eq_of_id hx hr hid]
    exact h.claims
  · have hcalm := hcalm.resolve_left hid
    refine hc.of_calm hcalm.verdict hcalm.uncompleted ?_
    intro q' hq' hrun
    rcases h.verification_requests q' hq' with ⟨q, hq, hk⟩ | ⟨hqr, -⟩
    · exact ⟨q, hq, by rw [← hk.run_id, hrun, hsame.kept.id]⟩
    · exact absurd (by rw [← hsame.kept.id, ← hrun, hqr]) hid

theorem ReportEffect.claimed {row : RunnerRow} {payload : Json} {event_type : EventType}
    (h : ReportEffect s t row payload event_type) (hs : Life s) (hrow : row.run ∈ s.runs) {r' : Run}
    (hr' : r' ∈ t.runs) (hc : t.claims r') :
    (∃ r ∈ s.runs, r.Kept r' ∧ s.claims r)
      ∨ (row.run.Kept r' ∧ event_type = .run_verification_passed
        ∧ run_verification_passed s row payload = .ok t) := by
  cases h with
  | calm _ h => exact Or.inl (h.claimed hr' hc)
  | ended _ h => exact Or.inl (h.claimed hr' hc)
  | asked _ p _ _ _ h _ _ => exact Or.inl (h.claimed hr' hc)
  | usage _ h =>
    unfold run_usage at h
    simp only [bind_eq_ok, pure_eq_ok] at h
    obtain ⟨_, -, rfl⟩ := h
    refine Or.inl (claimed_of_write (s := s) hr' hc rfl rfl ?_)
    exact fun x => ⟨Run.Kept.of_identity rfl, rfl, id⟩
  | evidence _ h =>
    obtain ⟨e, rfl, -⟩ := run_verification_evidence_ok h
    exact Or.inl ⟨r', hr', Run.Kept.refl r', hc⟩
  | passed htype h =>
    obtain ⟨summary, v, d, -, -, -, ht⟩ := run_verification_passed_ok h
    subst ht
    obtain ⟨x, hx, hxr⟩ := mem_updateWhere.mp hr'
    by_cases hid : x.id = row.run.id
    · rw [hs.eq_of_id hx hrow hid, if_pos (beq_self_eq_true _)] at hxr
      subst hxr
      exact Or.inr ⟨Run.Kept.of_identity rfl, htype, h⟩
    · rw [if_neg (by simpa using hid)] at hxr
      subst hxr
      exact Or.inl ⟨x, hx, Run.Kept.refl x, hc⟩
  | waiting _ _ hadv => exact Or.inl (hadv.claimed hs hrow hr' hc)
  | completed _ _ hadv => exact Or.inl (hadv.claimed hs hrow hr' hc)

/-- **Only the report that all checks passed makes a run claim its checks.** -/
theorem Effect.claimed {op : Op} (h : Effect s op t) (hs : Inv s) {r' : Run} (hr' : r' ∈ t.runs)
    (hc : t.claims r') :
    (∃ r ∈ s.runs, r.Kept r' ∧ s.claims r)
      ∨ ∃ now input row scope payload, op = .apply_runner_event now input
        ∧ Admitted s now input row scope payload ∧ row.run.Kept r'
        ∧ input.event_type = .run_verification_passed
        ∧ run_verification_passed (s.onEvents (· ++ [runner_event input row payload])) row payload
          = .ok t := by
  cases h with
  | calm h => exact Or.inl (h.claimed hr' hc)
  | settled command_id _ h => exact Or.inl (h.claimed hr' hc)
  | admitted r _ h => exact Or.inl (h.claimed hs.linked hr' hc)
  | raised now corp_id run_id run task mission stage i c e _ _ _ _ h =>
    have ht := h.state
    refine Or.inl (claimed_of_write hr' hc (congrArg Db.runs ht) (by rw [ht]) ?_)
    refine fun x => ⟨Run.Kept.of_identity rfl, rfl, ?_⟩
    unfold Run.raised
    dsimp only
    split
    · simp
    · exact id
  | shelved l h ht =>
    subst ht
    exact Or.inl ⟨r', hr', Run.Kept.refl r', hc⟩
  | readied corp_id artifact_id a run task mission u _ _ _ h ht =>
    -- First the artifact columns, then, for an active run, the move to verification.
    have hu : ∀ r ∈ u.runs, u.claims r → ∃ x ∈ s.runs, x.Kept r ∧ s.claims x := by
      intro r hr hcr
      rcases h.state with ⟨-, hu⟩ | ⟨-, row, -, -, hu⟩
      · refine claimed_of_write hr hcr (congrArg Db.runs hu) (by rw [hu]) ?_
        exact fun x => ⟨Run.Kept.of_identity rfl, rfl, id⟩
      · refine claimed_of_write hr hcr (congrArg Db.runs hu) (by rw [hu]) ?_
        exact fun x => ⟨Run.Kept.of_identity rfl, rfl, id⟩
    by_cases hact : run.active = true
    · rw [if_pos hact] at ht
      subst ht
      obtain ⟨y, hy, hky, hcy⟩ := claimed_of_write (s := u) hr' hc rfl rfl
        (fun x => ⟨Run.Kept.of_identity rfl, rfl, by simp⟩)
      obtain ⟨x, hx, hkx, hcx⟩ := hu y hy hcy
      exact Or.inl ⟨x, hx, hkx.trans hky, hcx⟩
    · rw [if_neg hact] at ht
      subst ht
      exact Or.inl (hu r' hr' hc)
  | approved now input row actor _ hdec _ hadv =>
    exact Or.inl (hadv.claimed hs.life (hdec.joined hs.life hs.linked).run_mem hr' hc)
  | reported now input row scope payload hop hadm _ _ h =>
    have hs' : Life (s.onEvents (· ++ [runner_event input row payload])) :=
      { hs.life with }
    rcases h.claimed hs' hadm.reported.joined.run_mem hr' hc with hold | ⟨hk, htype, hpass⟩
    · exact Or.inl hold
    · exact Or.inr ⟨now, input, row, scope, payload, hop, hadm, hk, htype, hpass⟩

end Crony.Store
