/-
Agents are released.

An agent shows a run as busy and points at it; both are undone when the run ends. An
artifact that becomes ready detaches the agent while its run is still active, and later
reports overwrite what the agent shows. A completion, a cancellation, a failed verification,
a dispatch that never happened and a lost runner free the agent by its identifier. A
`run.failed` report frees a detached agent only if it still shows `reviewing` and the run is
its uniquely latest, and an expiring approval frees only an agent that points at its run:
`Leaks` names the steps at which an agent is left busy without a run.
-/
import Crony.Properties.Gates

set_option autoImplicit false

open Crony.Lib

namespace Crony.Store

variable {env : Env} {s t : Db} {r r' : Run} {a a' : Agent}

/-- The agent has had runs, and none of them is active. -/
def Db.retired (s : Db) (a : Agent) : Prop :=
  (∃ r ∈ s.runs, r.agent_id = a.id) ∧ ∀ r ∈ s.runs, r.agent_id = a.id → r.active = false

/-- Nothing occupies the agent. -/
def Agent.free (a : Agent) : Prop := a.current_run_id = none ∧ a.status.is_busy = false

/-- Every agent whose runs have all ended is free. -/
def Released (s : Db) : Prop := ∀ a ∈ s.agents, s.retired a → a.free

theorem Agent.release_free (a : Agent) : a.release.free := ⟨rfl, rfl⟩

/-! ## The steps that leave an agent busy -/

/-- Another run of the agent was not created before this one. -/
def Db.contested (s : Db) (r : Run) : Prop :=
  ∃ other ∈ s.runs, other.agent_id = r.agent_id ∧ other.id ≠ r.id ∧ r.created_at ≤ other.created_at

/-- The agent of the run is detached from it and shown busy. -/
def Db.detached (s : Db) (r : Run) (shown : AgentStatus → Prop) : Prop :=
  ∃ a ∈ s.agents, a.id = r.agent_id ∧ a.current_run_id = none ∧ a.status.is_busy = true
    ∧ shown a.status

/-- The end of the run leaves its agent busy: a failure of a detached agent that does not
show `reviewing`, or that another run may own; an expiry of a detached agent's run. -/
def leaks_run (s : Db) (r : Run) : Op → Prop
  | .apply_runner_event now input => s.takes now input = true ∧ r.assigned input = true
    ∧ input.event_type = .run_failed
      ∧ s.detached r (fun shown => shown ≠ .reviewing ∨ s.contested r)
  | op => ∃ p ∈ s.action_approvals, op.expires p ∧ p.run_id = r.id
    ∧ r.status = .waiting_for_approval ∧ s.detached r (fun _ => True)

def Leaks (s : Db) (op : Op) : Prop := ∃ r ∈ s.runs, r.active = true ∧ leaks_run s r op

instance (s : Db) (r : Run) : Decidable (s.contested r) := by
  unfold Db.contested
  exact inferInstance

instance (s : Db) (r : Run) (shown : AgentStatus → Prop) [DecidablePred shown] :
    Decidable (s.detached r shown) := by
  unfold Db.detached
  exact inferInstance

instance (s : Db) (r : Run) (op : Op) : Decidable (leaks_run s r op) := by
  delta leaks_run
  rcases op <;> exact inferInstance

instance (s : Db) (op : Op) : Decidable (Leaks s op) := by
  unfold Leaks
  exact inferInstance

/-! ## Moves -/

/-- The agent of a step's run and the runs of every other agent. -/
theorem Quiet.released (h : Quiet s t) (hs : Released s) : Released t := by
  intro a ha hret
  rw [h.agents] at ha
  refine hs a ha ⟨?_, fun r hr hra => ?_⟩
  · obtain ⟨r', hr', hra⟩ := hret.1
    obtain ⟨r, hr, hk, -⟩ := h.runs.exists_old hr'
    exact ⟨r, hr, hk.agent_id.symm.trans hra⟩
  · obtain ⟨r', hr', hk, hst⟩ := h.runs.exists_new hr
    rw [← Run.active_congr hst]
    exact hret.2 r' hr' (hk.agent_id.trans hra)

/-- A step that keeps the runs and the row of every agent but that of `w`. -/
theorem released_of_other {w : Run} (hs : Released s)
    (hruns : Updated (fun x x' => x.Kept x' ∧ (x.agent_id ≠ w.agent_id → x'.status = x.status))
      s.runs t.runs)
    (hagents : Updated (fun a a' => a.Kept a' ∧ (a.id ≠ w.agent_id → a' = a)) s.agents t.agents)
    (hself : ∀ a' ∈ t.agents, a'.id = w.agent_id → t.retired a' → a'.free) : Released t := by
  intro a' ha' hret
  by_cases hid : a'.id = w.agent_id
  · exact hself a' ha' hid hret
  · obtain ⟨a, ha, hk, hsame⟩ := hagents.exists_old ha'
    obtain rfl : a' = a := hsame fun he => hid (hk.id.trans he)
    refine hs a' ha ⟨?_, fun r hr hra => ?_⟩
    · obtain ⟨r', hr', hra⟩ := hret.1
      obtain ⟨r, hr, hkr, -⟩ := hruns.exists_old hr'
      exact ⟨r, hr, hkr.agent_id.symm.trans hra⟩
    · obtain ⟨r', hr', hkr, hst⟩ := hruns.exists_new hr
      rw [← Run.active_congr (hst (by rw [hra]; exact hid))]
      exact hret.2 r' hr' (hkr.agent_id.trans hra)

/-- The run a step works on stays active, so its agent has an active run. -/
theorem Work.released {w : Run} (hs : Life s) (h : Work s t w) (hrel : Released s) :
    Released t := by
  refine released_of_other (w := w) hrel ?_ ?_ ?_
  · refine h.runs.mono ?_
    rintro x hx x' ⟨hk, hst⟩
    refine ⟨hk, fun hne => hst.resolve_right ?_⟩
    rintro ⟨hid, -, -⟩
    rw [hs.eq_of_id hx h.mem hid] at hne
    exact hne rfl
  · refine h.agents.mono ?_
    rintro a - a' ⟨hk, hst⟩
    refine ⟨hk, fun hne => hst.resolve_right ?_⟩
    rintro ⟨hid, -⟩
    exact hne hid
  · intro a' ha' hid hret
    obtain ⟨w', hw', hk, hst⟩ := h.runs.exists_new h.mem
    have hactive : w'.active = true := by
      rcases hst with hst | ⟨-, hact, -⟩
      · rw [Run.active_congr hst, h.active]
      · exact hact
    rw [hret.2 w' hw' (hk.agent_id.trans hid.symm)] at hactive
    cases hactive

theorem Complete.released {w : Run} (hs : Life s) (h : Complete s t w) (hrel : Released s) :
    Released t := by
  refine released_of_other (w := w) hrel ?_ ?_ ?_
  · refine h.runs.mono ?_
    rintro x hx x' ⟨hk, -, hother⟩
    refine ⟨hk, fun hne => hother fun hid => ?_⟩
    rw [hs.eq_of_id hx h.mem hid] at hne
    exact hne rfl
  · refine h.agents.mono ?_
    rintro a - a' ⟨hself, hother⟩
    refine ⟨?_, hother⟩
    by_cases hid : a.id = w.agent_id
    · rw [hself hid]
      exact a.release_kept
    · rw [hother hid]
      exact Agent.Kept.refl a
  · intro a' ha' hid _
    obtain ⟨a, -, hself, hother⟩ := h.agents.exists_old ha'
    by_cases haid : a.id = w.agent_id
    · rw [hself haid]
      exact a.release_free
    · rw [hother haid] at hid
      exact absurd hid haid

/-- The end of a run frees its agent whenever the agent's new row says so. -/
theorem Stop.released {w : Run} (hs : Life s) (h : Stop s t w) (hrel : Released s)
    (hself : ∀ a' ∈ t.agents, a'.id = w.agent_id → a'.free) : Released t := by
  refine released_of_other (w := w) hrel ?_ ?_ fun a' ha' hid _ => hself a' ha' hid
  · refine h.runs.mono ?_
    rintro x hx x' ⟨hk, -, hother⟩
    refine ⟨hk, fun hne => hother fun hid => ?_⟩
    rw [hs.eq_of_id hx h.mem hid] at hne
    exact hne rfl
  · refine h.agents.mono ?_
    rintro a - a' ⟨rfl | ⟨hid, rfl⟩, -⟩
    · exact ⟨Agent.Kept.refl a', fun _ => rfl⟩
    · exact ⟨a.release_kept, fun hne => absurd hid hne⟩

theorem Freed.free (h : Freed t r) (ha : a' ∈ t.agents) (hid : a'.id = r.agent_id) : a'.free := by
  obtain ⟨b, rfl⟩ := h a' ha hid
  exact b.release_free

theorem Settle.released (hs : Life s) (h : Settle s t) (hrel : Released s) : Released t := by
  cases h with
  | quiet h => exact h.released hrel
  | plan mission tasks agents dependencies h =>
    intro a ha hret
    rw [Db.retired, h.runs] at hret
    rcases h.mem_agents.mp ha with ha | ha
    · exact hrel a ha hret
    · obtain ⟨r, hr, hra⟩ := hret.1
      obtain ⟨b, hb, hbid, -⟩ := hs.run_agent r hr
      exact absurd (hbid.trans hra) (h.agents_fresh b hb a ha)
  | admission w task h =>
    intro a' ha' hret
    have hne : a'.id ≠ w.agent_id := by
      intro hid
      have hidle := hret.2 w (h.mem_runs.mpr (Or.inr rfl)) hid.symm
      rw [h.active] at hidle
      cases hidle
    obtain ⟨a, ha, hk, -, hother⟩ := h.agents.exists_old ha'
    obtain rfl : a' = a := hother fun he => hne (hk.id.trans he)
    refine hrel a' ha ⟨?_, fun r hr => hret.2 r (h.mem_runs.mpr (Or.inl hr))⟩
    obtain ⟨r, hr, hra⟩ := hret.1
    rcases h.mem_runs.mp hr with hr | rfl
    · exact ⟨r, hr, hra⟩
    · exact absurd hra.symm hne
  | complete w h => exact h.released hs hrel
  | stop w h hfreed => exact h.released hs hrel fun a' ha' hid => hfreed.free ha' hid

theorem settles_released (hs : Life s) (h : Relation.ReflTransGen Settle s t)
    (hrel : Released s) : Released t := by
  induction h with
  | refl => exact hrel
  | tail hrun hstep ih =>
    have hmoves := Relation.ReflTransGen.mono (fun _ _ h => Settle.move h) _ _ hrun
    exact hstep.released (Moves.life hmoves hs) ih

/-! ## A failure -/

/-- What a `run.failed` report does to its run and to the agents. -/
theorem run_failed_ok {row : RunnerRow} {scope : Option RunScope} {payload : Json}
    (h : run_failed env s row scope payload = .ok t) :
    ∃ (u : Db) (f : Run → Run),
      t = release_failed_run_agent_tx u row.run.corp_id row.run.agent_id row.run.id
      ∧ u.agents = s.agents ∧ u.runs = updateWhere (fun r => r.id == row.run.id) f s.runs
      ∧ ∀ x, x.Kept (f x) ∧ (f x).status = .failed := by
  unfold run_failed at h
  simp only [bind_eq_ok, pure_eq_ok] at h
  obtain ⟨u, hend, rfl⟩ := h
  refine ⟨u, ?_⟩
  unfold end_failed_run at hend
  split at hend
  · obtain ⟨-, note, recs, v, hv, items, recs', evs, hu, -⟩ :=
      terminalize_factory_recovery_run_tx_ok hend
    subst hu hv
    exact ⟨_, rfl, rfl, rfl, fun x => ⟨Run.Kept.of_identity rfl, rfl⟩⟩
  · obtain ⟨ts, ms, -, -, items, recs, evs, hu, -⟩ := fail_run_tx_ok hend
    subst hu
    exact ⟨_, rfl, rfl, rfl, fun x => ⟨Run.Kept.of_identity rfl, rfl⟩⟩

/-- A run that just failed owns the review it left behind unless another run contests it. -/
theorem owns_detached_review_of_failed {w : Run} {f : Run → Run} {u : Db} (hs : Life s)
    (hw : w ∈ s.runs) (hactive : w.active = true)
    (hruns : u.runs = updateWhere (fun r => r.id == w.id) f s.runs)
    (hf : ∀ x, x.Kept (f x) ∧ (f x).status = .failed) (hfree : ¬ s.contested w) :
    owns_detached_review u w.corp_id w.agent_id w.id = true := by
  unfold owns_detached_review
  rw [List.any_eq_true]
  refine ⟨f w, ?_, ?_⟩
  · rw [hruns]
    exact mem_updateWhere.mpr ⟨w, hw, if_pos (beq_self_eq_true _)⟩
  · obtain ⟨hk, hst⟩ := hf w
    simp only [hk.id, hk.corp_id, hk.agent_id, hk.created_at, hst, beq_self_eq_true, Bool.true_and,
      Bool.not_eq_true', List.any_eq_false, Bool.and_eq_true, beq_iff_eq, Bool.or_eq_true,
      decide_eq_true_eq, not_and, not_or, beq_eq_false_iff_ne]
    rintro other hother ⟨⟨-, hagent⟩, hne⟩
    rw [hruns] at hother
    obtain ⟨x, hx, hxo⟩ := mem_updateWhere.mp hother
    have hxw : x.id ≠ w.id := by
      intro hid
      rw [if_pos (by simpa using hid)] at hxo
      rw [← hxo, (hf x).1.id] at hne
      exact hne hid
    rw [if_neg (by simpa using hxw)] at hxo
    subst hxo
    refine ⟨fun hle => hfree ⟨x, hx, hagent, hxw, hle⟩, fun hact => ?_⟩
    exact hxw (by rw [hs.eq_of_agent hx hw hact hactive hagent])

/-- An agent points at its active run or at nothing. -/
theorem Life.detached_of_ne (hs : Life s) (ha : a ∈ s.agents) {w : Run} (hw : w ∈ s.runs)
    (hactive : w.active = true) (hid : a.id = w.agent_id) (hne : a.current_run_id ≠ some w.id) :
    a.current_run_id = none := by
  cases hcur : a.current_run_id with
  | none => rfl
  | some id =>
    obtain ⟨x, hx, hxid, hxagent, hxactive⟩ := hs.agent_holds a ha id hcur
    obtain rfl := hs.eq_of_agent hx hw hxactive hactive (hxagent.trans hid)
    rw [hcur, hxid] at hne
    exact absurd rfl hne

/-- A failed run frees its agent unless the step leaks. -/
theorem run_failed_frees {row : RunnerRow} {scope : Option RunScope} {payload : Json} (hs : Life s)
    (hrun : row.run ∈ s.runs) (hactive : row.run.active = true)
    (h : run_failed env s row scope payload = .ok t)
    (hok : ¬ s.detached row.run (fun shown => shown ≠ .reviewing ∨ s.contested row.run)) :
    ∀ a' ∈ t.agents, a'.id = row.run.agent_id → a'.free := by
  obtain ⟨u, f, rfl, hagents, hruns, hf⟩ := run_failed_ok h
  obtain ⟨p, hrelease, -, hiff⟩ := release_failed_run_agent_tx_ok (s := u)
    row.run.corp_id row.run.agent_id row.run.id
    (hagents ▸ hs.agents_keyed)
  intro a' ha' hid
  rw [hrelease] at ha'
  obtain ⟨a, ha, hxa⟩ := mem_updateWhere.mp ha'
  rw [hagents] at ha hiff
  by_cases hp : p a = true
  · rw [if_pos hp] at hxa
    subst hxa
    exact a.release_free
  · rw [if_neg hp] at hxa
    subst hxa
    have hcorp := hs.agent_corp hrun ha hid
    have hnot := mt (hiff a ha hid hcorp).mpr hp
    have hcur : a.current_run_id = none :=
      hs.detached_of_ne ha hrun hactive hid fun hheld => hnot (Or.inl hheld)
    refine ⟨hcur, ?_⟩
    by_contra hbusy
    rw [Bool.not_eq_false] at hbusy
    refine hok ⟨a, ha, hid, hcur, hbusy, ?_⟩
    by_cases hrev : a.status = .reviewing
    · refine Or.inr (by_contra fun hfree => hnot (Or.inr ⟨hcur, hrev, ?_⟩))
      exact owns_detached_review_of_failed hs hrun hactive hruns hf hfree
    · exact Or.inl hrev

/-! ## An expiry -/

theorem Expired.released {p : ActionApproval} (hs : Inv s) (h : Expired s t p)
    (hp : p ∈ s.action_approvals) (hrel : Released s)
    (hok : ∀ r ∈ s.runs, p.run_id = r.id → r.status = .waiting_for_approval →
      ¬ s.detached r (fun _ => True)) : Released t := by
  obtain ⟨r, hr, hrid, ⟨hwait, hstop⟩ | ⟨-, hlapse⟩⟩ := expire_run_move hs.linked hp h.runs h.tasks
    h.missions h.agents h.task_dependencies hs.life
  · refine hstop.released hs.life hrel fun a' ha' hid => ?_
    obtain ⟨a, ha, hcase, hheld⟩ := hstop.agents.exists_old ha'
    have hfree := a.release_free
    rcases hcase with rfl | ⟨-, rfl⟩
    · by_cases hcur : a'.current_run_id = some r.id
      · rw [hheld hcur hid]
        exact a'.release_free
      · have hnone := hs.life.detached_of_ne ha hr hstop.active hid hcur
        refine ⟨hnone, ?_⟩
        by_contra hbusy
        rw [Bool.not_eq_false] at hbusy
        exact hok r hr hrid.symm hwait ⟨a', ha, hid, hnone, hbusy, trivial⟩
    · exact hfree
  · intro a' ha' hret
    obtain ⟨a, ha, rfl | ⟨-, rfl⟩⟩ := hlapse.agents.exists_old ha'
    · rw [Db.retired, hlapse.runs] at hret
      exact hrel a' ha hret
    · exact a.release_free

/-! ## Agents of other runs -/

/-- The agent that holds an active run keeps its row when another run ends. -/
theorem Stop.holds {w : Run} (hs : Life s) (h : Stop s t w) (ha : a ∈ s.agents)
    (hheld : a.current_run_id = some r.id) (hne : r.id ≠ w.id) (ha' : a' ∈ t.agents)
    (hid : a'.id = a.id) : a' = a := by
  obtain ⟨b, hb, hcase, -⟩ := h.agents.exists_old ha'
  rcases hcase with rfl | ⟨hbw, rfl⟩
  · exact hs.agents_keyed.eq_of_mem hb ha hid
  · obtain rfl := hs.agents_keyed.eq_of_mem hb ha hid
    obtain ⟨x, hx, hxid, hxagent, hxactive⟩ := hs.agent_holds b ha r.id hheld
    obtain rfl := hs.eq_of_agent hx h.mem hxactive h.active (hxagent.trans hbw)
    exact absurd hxid.symm hne

theorem Settle.holds (hs : Life s) (h : Settle s t) (ha : a ∈ s.agents) (hr : r ∈ s.runs)
    (hheld : a.current_run_id = some r.id) (hr' : r' ∈ t.runs) (hrid : r'.id = r.id)
    (hactive' : r'.active = true) (ha' : a' ∈ t.agents) (hid : a'.id = a.id) : a' = a := by
  obtain ⟨x, hx, hxid, hxagent, hxactive⟩ := hs.agent_holds a ha r.id hheld
  obtain rfl := hs.eq_of_id hx hr hxid
  cases h with
  | quiet h =>
    rw [h.agents] at ha'
    exact hs.agents_keyed.eq_of_mem ha' ha hid
  | plan mission tasks agents dependencies h =>
    rcases h.mem_agents.mp ha' with ha' | ha'
    · exact hs.agents_keyed.eq_of_mem ha' ha hid
    · exact absurd hid.symm (h.agents_fresh a ha a' ha')
  | admission w task h =>
    obtain ⟨b, hb, hk, -, hother⟩ := h.agents.exists_old ha'
    obtain rfl := hs.agents_keyed.eq_of_mem hb ha (hk.id.symm.trans hid)
    refine hother fun hbw => ?_
    have hidle := h.agent_idle x hr (hxagent.trans hbw)
    rw [hxactive] at hidle
    cases hidle
  | complete w h =>
    obtain ⟨b, hb, hself, hother⟩ := h.agents.exists_old ha'
    by_cases hbw : b.id = w.agent_id
    · -- The agent of the completed run holds no other.
      rw [hself hbw] at hid
      obtain rfl := hs.agents_keyed.eq_of_mem hb ha hid
      obtain rfl := hs.eq_of_agent hr h.mem hxactive h.active (hxagent.trans hbw)
      obtain ⟨y, hy, hyk, hyself, -⟩ := h.runs.exists_old hr'
      rw [Run.not_active_of_completed (hyself (hyk.id.symm.trans hrid))] at hactive'
      cases hactive'
    · obtain rfl := hother hbw
      exact hs.agents_keyed.eq_of_mem hb ha hid
  | stop w h _ =>
    refine h.holds hs ha hheld ?_ ha' hid
    intro hxw
    obtain ⟨y, hy, hyk, hyself, -⟩ := h.runs.exists_old hr'
    rw [(hyself (by rw [← hyk.id, hrid, hxw])).1] at hactive'
    cases hactive'

theorem settles_hold (hs : Life s) (h : Relation.ReflTransGen Settle s t) (ha : a ∈ s.agents)
    (hr : r ∈ s.runs) (hheld : a.current_run_id = some r.id) (hr' : r' ∈ t.runs)
    (hrid : r'.id = r.id) (hactive' : r'.active = true) (ha' : a' ∈ t.agents)
    (hid : a'.id = a.id) : a' = a := by
  induction h generalizing r' a' with
  | refl => exact hs.agents_keyed.eq_of_mem ha' ha hid
  | @tail u v hrun hstep ih =>
    have hmoves : Moves s u := Relation.ReflTransGen.mono (fun _ _ h => Settle.move h) _ _ hrun
    have hu : Life u := hmoves.life hs
    obtain ⟨x, hx, hk, -, -⟩ := (hmoves.grows hs).runs r hr
    have hxid : r'.id = x.id := hrid.trans hk.id.symm
    have hxactive : x.active = true :=
      (hstep.move.grows hu).active_of_active (hstep.move.life hu) hx hr' hxid hactive'
    -- The agent is still there, with the row it had.
    have hau : a ∈ u.agents := by
      obtain ⟨b, hb, hbid, -⟩ := hu.run_agent x hx
      obtain ⟨y, hy, hyid, hyagent, -⟩ := hs.agent_holds a ha r.id hheld
      obtain rfl := hs.eq_of_id hy hr hyid
      have hba := ih hx hk.id hxactive hb (by rw [hbid, hk.agent_id, hyagent])
      exact hba ▸ hb
    exact hstep.holds hu hau hx (hheld.trans (by rw [hk.id])) hr' hxid hactive' ha' hid

/-! ## Runs without such a step -/

theorem exec_released (hs : Inv s) (hrel : Released s) {op : Op} (hok : ¬ Leaks s op)
    (h : exec env s op = .ok t) : Released t := by
  rcases exec_taken h with rfl | htaken
  · exact hrel
  cases exec_turn hs h with
  | settled h => exact settles_released hs.life h hrel
  | worked now input row scope payload hop hadm htype heff =>
    exact (work_report_work hadm htype heff).released hs.life hrel
  | failed now input row scope payload hop hadm htype hfail =>
    have hs' : Life (s.onEvents (· ++ [runner_event input row payload])) :=
      Quiet.life hs.life (Quiet.of_same rfl rfl rfl rfl rfl)
    have hj := hadm.reported.joined
    have hactive := hadm.reported.active (by rw [htype]; rfl)
    have hstop := run_failed_stop hs' (hj.onEvents _) hactive hfail
    refine hstop.released hs' hrel (run_failed_frees hs' hj.run_mem hactive hfail ?_)
    intro hdet
    refine hok ⟨row.run, hj.run_mem, hactive, ?_⟩
    rw [hop]
    exact ⟨htaken now input hop, hadm.reported.assigned, htype, hdet⟩
  | raised corp_id run_id run task mission stage i c e hj hactive h =>
    exact (h.work hj hactive).released hs.life hrel
  | readied corp_id artifact_id a run task mission u hop hrow hstaged h ht =>
    obtain ⟨ha, -, -, hrun, hrid, -, htid⟩ := finalize_row_eq_some hrow
    have hquiet := h.quiet
    have hu := hquiet.released hrel
    rw [ht]
    split
    · rename_i hact
      obtain ⟨z, hz, hzid, hztask⟩ := hs.linked.artifacts a ha
      obtain rfl := hs.life.eq_of_id hz hrun (hzid.trans hrid.symm)
      obtain ⟨y, hy, hyk, hyst⟩ := hquiet.runs.exists_new hz
      obtain ⟨w, -, -, hwork⟩ := review_run_work (s := u) z task.id
        ⟨y, hy, hyk, by rw [Run.active_congr hyst, hact]⟩ (htid.trans hztask.symm)
      exact hwork.released (Quiet.life hs.life hquiet) hu
    · exact hu
  | expired p hp hop h =>
    refine h.released hs hp hrel fun r hr hrid hwait hdet => ?_
    refine hok ⟨r, hr, by rw [Run.active, hwait]; rfl, ?_⟩
    have hmatch : ∃ p ∈ s.action_approvals, op.expires p ∧ p.run_id = r.id
        ∧ r.status = .waiting_for_approval ∧ s.detached r (fun _ => True) :=
      ⟨p, hp, hop, hrid, hwait, hdet⟩
    cases op with
    | expire_action_approval now approval_id => exact hmatch
    | decide_action_approval now input => exact hmatch
    | _ => exact absurd hop.2 id

/-- A step that ends a run leaves an agent alone whose own run goes on. -/
theorem exec_holds (hs : Inv s) {op : Op} (h : exec env s op = .ok t) {w w' : Run}
    (hw : w ∈ s.runs) (hactive : w.active = true) (hw' : w' ∈ t.runs) (hwid : w'.id = w.id)
    (hended : w'.active = false) (ha : a ∈ s.agents) (hr : r ∈ s.runs)
    (hheld : a.current_run_id = some r.id) (hr' : r' ∈ t.runs) (hrid : r'.id = r.id)
    (hactive' : r'.active = true) (ha' : a' ∈ t.agents) (hid : a'.id = a.id) : a' = a := by
  -- Work ends no run.
  have hwork : ∀ {x : Run} {u : Db}, Life u → (∃ y ∈ u.runs, y.id = w.id ∧ y.active = true) →
      Work u t x → False := by
    rintro x u hu ⟨y, hy, hyid, hyactive⟩ hwk
    obtain ⟨z, hz, hzk, hzst⟩ := hwk.runs.exists_old hw'
    obtain rfl := hu.eq_of_id hz hy (by rw [← hzk.id, hwid, hyid])
    rcases hzst with hzst | ⟨-, hzact, -⟩
    · rw [Run.active_congr hzst, hyactive] at hended
      cases hended
    · rw [hzact] at hended
      cases hended
  have hself : ∃ y ∈ s.runs, y.id = w.id ∧ y.active = true := ⟨w, hw, rfl, hactive⟩
  have hstop : ∀ {x : Run} {u : Db}, Life u → u.agents = s.agents → Stop u t x → a' = a := by
    intro x u hu hagents hst
    refine hst.holds hu (hagents ▸ ha) hheld ?_ ha' hid
    intro hrx
    obtain ⟨y, hy, hyk, hyself, -⟩ := hst.runs.exists_old hr'
    rw [(hyself (by rw [← hyk.id, hrid, hrx])).1] at hactive'
    cases hactive'
  cases exec_turn hs h with
  | settled h => exact settles_hold hs.life h ha hr hheld hr' hrid hactive' ha' hid
  | worked now input row scope payload hop hadm htype heff =>
    exact (hwork hs.life hself (work_report_work hadm htype heff)).elim
  | failed now input row scope payload hop hadm htype hfail =>
    have hs' : Life (s.onEvents (· ++ [runner_event input row payload])) :=
      Quiet.life hs.life (Quiet.of_same rfl rfl rfl rfl rfl)
    exact hstop hs' rfl (run_failed_stop hs' (hadm.reported.joined.onEvents _)
      (hadm.reported.active (by rw [htype]; rfl)) hfail)
  | raised corp_id run_id run task mission stage i c e hj hact h =>
    exact (hwork hs.life hself (h.work hj hact)).elim
  | readied corp_id artifact_id b run task mission u hop hrow hstaged h ht =>
    have hquiet := h.quiet
    by_cases hact : run.active = true
    · rw [if_pos hact] at ht
      obtain ⟨hb, -, -, hrun, hrunid, -, htid⟩ := finalize_row_eq_some hrow
      obtain ⟨z, hz, hzid, hztask⟩ := hs.linked.artifacts b hb
      obtain rfl := hs.life.eq_of_id hz hrun (hzid.trans hrunid.symm)
      obtain ⟨y, hy, hyk, hyst⟩ := hquiet.runs.exists_new hz
      obtain ⟨v, -, -, hwk⟩ := review_run_work (s := u) z task.id
        ⟨y, hy, hyk, by rw [Run.active_congr hyst, hact]⟩ (htid.trans hztask.symm)
      obtain ⟨x, hx, hxk, hxst⟩ := hquiet.runs.exists_new hw
      rw [← ht] at hwk
      exact (hwork (Quiet.life hs.life hquiet)
        ⟨x, hx, hxk.id, by rw [Run.active_congr hxst, hactive]⟩ hwk).elim
    · rw [if_neg hact] at ht
      subst ht
      rw [hquiet.agents] at ha'
      exact hs.life.agents_keyed.eq_of_mem ha' ha hid
  | expired p hp hop h =>
    obtain ⟨x, hx, hxid, ⟨-, hst⟩ | ⟨-, hlapse⟩⟩ := expire_run_move hs.linked hp h.runs h.tasks
      h.missions h.agents h.task_dependencies hs.life
    · exact hstop hs.life rfl hst
    · rw [hlapse.runs] at hw'
      rw [hs.life.eq_of_id hw' hw hwid, hactive] at hended
      cases hended

/-- **Agents are released.** In every state of a run without a leaking step, an agent that had
runs and has no active one points at no run and is not shown busy; and a step that ends a run
never touches an agent that holds a run which goes on. -/
theorem agents_released (h : ReachableVia env (fun s op => ¬ Leaks s op) s) :
    (∀ a ∈ s.agents, (∃ r ∈ s.runs, r.agent_id = a.id) →
        (∀ r ∈ s.runs, r.agent_id = a.id → r.active = false) →
        a.current_run_id = none ∧ a.status ≠ .working ∧ a.status ≠ .starting
          ∧ a.status ≠ .reviewing ∧ a.status ≠ .blocked)
      ∧ ∀ op t, exec env s op = .ok t →
          (∃ w ∈ s.runs, w.active = true ∧ ∃ w' ∈ t.runs, w'.id = w.id ∧ w'.active = false) →
          ∀ a ∈ s.agents, ∀ r ∈ s.runs, a.current_run_id = some r.id →
            (∃ r' ∈ t.runs, r'.id = r.id ∧ r'.active = true) →
            ∀ a' ∈ t.agents, a'.id = a.id → a' = a := by
  have hrel : Released s := by
    refine ReachableVia.inv h (fun s₀ h0 => ?_) fun _ _ _ hr hrel hok he =>
      exec_released hr.invariants hrel hok he
    intro a ha hret
    simp [Db.retired, h0.runs] at hret
  refine ⟨fun a ha hruns hidle => ?_, ?_⟩
  · obtain ⟨hcur, hbusy⟩ := hrel a ha ⟨hruns, hidle⟩
    refine ⟨hcur, ?_, ?_, ?_, ?_⟩
    all_goals
      intro hst
      rw [hst] at hbusy
      cases hbusy
  · rintro op t he ⟨w, hw, hactive, w', hw', hwid, hended⟩ a ha r hr hheld ⟨r', hr', hrid, hactive'⟩
      a' ha' hid
    exact exec_holds (ReachableVia.invariants h) he hw hactive hw' hwid hended ha hr hheld hr' hrid
      hactive' ha' hid

/-- A run that failed after its artifact became ready. -/
def Office.failed_review : List Op :=
  [Office.create_mission (Office.plan [Office.task "a" [] Office.file_policy]),
    Office.dispatch 1 50, Office.report 50 201 .run_started (.obj []), Office.stage 50 300 'a',
    Office.finalize 300]

set_option maxRecDepth 20000 in
theorem agents_released_office :
    (Office.after (Office.failed_review ++ [Office.report 50 204 .run_failed (.obj [])])).runs.map
        Run.status = [.failed]
      ∧ ∀ a ∈ (Office.after (Office.failed_review
          ++ [Office.report 50 204 .run_failed (.obj [])])).agents,
        a.current_run_id = none ∧ a.status ≠ .reviewing := by
  refine ⟨by decide, fun a ha => ?_⟩
  have hrun : ReachableVia Office.digest (fun s op => ¬ Leaks s op)
      (Office.after (Office.failed_review ++ [Office.report 50 204 .run_failed (.obj [])])) :=
    TransitionSystem.ReachableVia.run Office.initial (by decide)
  have hidle : (∃ r ∈ (Office.after (Office.failed_review
        ++ [Office.report 50 204 .run_failed (.obj [])])).runs, r.agent_id = 100)
      ∧ (∀ r ∈ (Office.after (Office.failed_review
        ++ [Office.report 50 204 .run_failed (.obj [])])).runs, r.active = false)
      ∧ ∀ a ∈ (Office.after (Office.failed_review
        ++ [Office.report 50 204 .run_failed (.obj [])])).agents, a.id = 100 := by
    decide
  obtain ⟨hruns, hended, hids⟩ := hidle
  have hfree := (agents_released hrun).1 a ha (by rw [hids a ha]; exact hruns)
    fun r hr _ => hended r hr
  exact ⟨hfree.1, hfree.2.2.2.1⟩

set_option maxRecDepth 20000 in
/-- The same run, with a report of work in between: the agent stays `working`. -/
theorem agent_left_working :
    ¬ ∀ s, Reachable Office.digest s → ∀ a ∈ s.agents, (∃ r ∈ s.runs, r.agent_id = a.id) →
      (∀ r ∈ s.runs, r.agent_id = a.id → r.active = false) →
      a.current_run_id = none ∧ a.status ≠ .working ∧ a.status ≠ .starting
        ∧ a.status ≠ .reviewing ∧ a.status ≠ .blocked := by
  intro hall
  have hstate := hall _ (Office.reachable_after (Office.failed_review
    ++ [Office.report 50 203 .run_status (.obj [("status", .str "working")]),
      Office.report 50 204 .run_failed (.obj [])]))
  revert hstate
  decide

end Crony.Store
