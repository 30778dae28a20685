/-
The epochs of a runner's connection.

Every connection of a runner has an epoch of its own, and the timers and reconciliations of
older connections may still fire around a new one. What keeps them apart is the node row: a
call that presents an epoch finds the row only if the epoch is the current one and the
connection is in the status the call is about. The runs a reconnected runner claims with their
exact token survive the sweep of that connection, everything else the runner was executing is
given up, and a run that has ended keeps the status it ended with.
-/
import Crony.Properties.Reviews

set_option autoImplicit false

open Crony.Lib

namespace Crony.Store

variable {env : Env} {s t : Db}

/-! ## Calls that present an epoch -/

/-- The connection a call is about, and the status the call needs it to be in. -/
def FleetOp.connection : FleetOp → Option (String × Uuid × RunnerNodeStatus)
  | .runner_heartbeat runner_id connection_epoch
  | .runner_disconnected runner_id connection_epoch _
  | .reconcile_runner_claims runner_id connection_epoch _
  | .mark_unclaimed_runner_runs_lost runner_id connection_epoch _ =>
    some (runner_id, connection_epoch, .connected)
  | .expire_runner_grace runner_id connection_epoch => some (runner_id, connection_epoch, .grace)
  | _ => none

/-- The call presents a connection that is not the current one of its runner, or not in the
status the call is about. -/
def FleetOp.Stale (s : Fleet) (op : FleetOp) : Prop :=
  ∃ c, op.connection = some c ∧ ∀ n ∈ s.runner_nodes, n.is c.1 c.2.1 c.2.2 = false

/-- A call about a connection that is not there leaves the fleet alone. -/
theorem exec_of_stale {s t : Fleet} {op : FleetOp} (hop : op.Stale s)
    (h : s.exec env op = .ok t) : t = s := by
  obtain ⟨⟨runner_id, connection_epoch, status⟩, hc, hstale⟩ := hop
  have hany : s.runner_nodes.any (fun n => n.is runner_id connection_epoch status) = false := by
    rw [List.any_eq_false]
    intro n hn
    rw [Bool.not_eq_true]
    exact hstale n hn
  cases op with
  | runner_heartbeat id epoch =>
    obtain ⟨rfl, rfl, rfl⟩ : id = runner_id ∧ epoch = connection_epoch ∧ .connected = status := by
      simpa [FleetOp.connection] using hc
    rw [← Except.ok.inj h]
    unfold runner_heartbeat Fleet.onNodes
    rw [updateWhere_of_none hstale]
  | runner_disconnected id epoch grace_seconds =>
    obtain ⟨rfl, rfl, rfl⟩ : id = runner_id ∧ epoch = connection_epoch ∧ .connected = status := by
      simpa [FleetOp.connection] using hc
    change runner_disconnected s id epoch grace_seconds = .ok t at h
    simp only [runner_disconnected, hany] at h
    exact (Except.ok.inj h).symm
  | expire_runner_grace id epoch =>
    obtain ⟨rfl, rfl, rfl⟩ : id = runner_id ∧ epoch = connection_epoch ∧ .grace = status := by
      simpa [FleetOp.connection] using hc
    -- a connection whose grace is over is in grace
    have hover : s.runner_nodes.any (fun n => n.grace_over s.clock id epoch) = false := by
      rw [List.any_eq_false]
      intro n hn
      simp [RunnerNode.grace_over, hstale n hn]
    change expire_runner_grace s id epoch = .ok t at h
    simp only [expire_runner_grace, hover] at h
    exact (Except.ok.inj h).symm
  | reconcile_runner_claims id epoch claims =>
    obtain ⟨rfl, rfl, rfl⟩ : id = runner_id ∧ epoch = connection_epoch ∧ .connected = status := by
      simpa [FleetOp.connection] using hc
    obtain ⟨outcome, houtcome, -⟩ := map_eq_ok.mp h
    simp only [reconcile_runner_claims, bind_eq_ok, ensure_eq_ok] at houtcome
    obtain ⟨-, ⟨n, hn, hconnected⟩, -⟩ := houtcome
    rw [hstale n hn] at hconnected
    cases hconnected
  | mark_unclaimed_runner_runs_lost id epoch accepted_claims =>
    obtain ⟨rfl, rfl, rfl⟩ : id = runner_id ∧ epoch = connection_epoch ∧ .connected = status := by
      simpa [FleetOp.connection] using hc
    have hfind : s.runner_nodes.find? (fun n => n.is id epoch .connected) = none := by
      rw [List.find?_eq_none]
      intro n hn
      rw [Bool.not_eq_true]
      exact hstale n hn
    change mark_unclaimed_runner_runs_lost s id epoch accepted_claims = .ok t at h
    unfold mark_unclaimed_runner_runs_lost at h
    rw [hfind] at h
    exact (Except.ok.inj h).symm
  | lifecycle _ => cases hc
  | pass _ => cases hc
  | create_runner_enrollment _ => cases hc
  | authenticate_and_rotate_runner _ => cases hc
  | revoke_runner _ => cases hc
  | runner_connected _ => cases hc

/-! ## Claims -/

/-- The claim is about an active run of the runner and presents its exact token. -/
def Db.holds_claim (s : Db) (runner_id : String) (claim : RunClaim) : Bool :=
  s.runs.any fun r => r.id == claim.run_id && r.runner_id == runner_id && r.active
    && r.assignment_token == claim.assignment_token

/-- The query of a claim finds what `holds_claim` says. -/
theorem claimed_run_holds (hs : Life s) (runner_id : String) (claim : RunClaim) :
    ((claimed_run s runner_id claim).filter
      fun row => row.1.assignment_token == claim.assignment_token).isSome
      = s.holds_claim runner_id claim := by
  rw [Bool.eq_iff_iff, Option.isSome_iff_exists]
  unfold Db.holds_claim
  rw [List.any_eq_true]
  constructor
  · rintro ⟨row, hrow⟩
    obtain ⟨hclaimed, htoken⟩ := Option.filter_eq_some_iff.mp hrow
    simp only [claimed_run, Option.bind_eq_bind, Option.bind_eq_some_iff,
      Option.filter_eq_some_iff] at hclaimed
    obtain ⟨r, ⟨hfound, hcond⟩, hjoin⟩ := hclaimed
    obtain ⟨hmem, hid⟩ := Db.run?_eq_some hfound
    have hj := Db.run_task_mission_eq_some hjoin
    have hsame : row.1 = r := hs.eq_of_id hj.run_mem hmem hj.run_id
    rw [hsame] at htoken
    rw [Bool.and_eq_true] at hcond
    refine ⟨r, hmem, ?_⟩
    simp only [Bool.and_eq_true, beq_iff_eq]
    exact ⟨⟨⟨hid, by simpa using hcond.1⟩, hcond.2⟩, by simpa using htoken⟩
  · rintro ⟨r, hmem, hcond⟩
    simp only [Bool.and_eq_true, beq_iff_eq] at hcond
    obtain ⟨⟨⟨hid, hrunner⟩, hactive⟩, htoken⟩ := hcond
    obtain ⟨x, hx, hxid, hxcorp⟩ := hs.run_task r hmem
    obtain ⟨m, hm, hmid, -⟩ := hs.task_mission x hx
    have hfound : s.run? claim.run_id = some r := by
      rw [← hid]
      exact Keyed.find?_eq_some hs.runs_keyed hmem
    have hrun : s.run? r.id = some r := Keyed.find?_eq_some hs.runs_keyed hmem
    have htask : s.task? r.task_id = some x := by
      rw [← hxid]
      exact Keyed.find?_eq_some hs.tasks_keyed hx
    have hmission : s.mission? x.mission_id = some m := by
      rw [← hmid]
      exact Keyed.find?_eq_some hs.missions_keyed hm
    refine ⟨(r, x, m), Option.filter_eq_some_iff.mpr ⟨?_, by simp [htoken]⟩⟩
    simp only [claimed_run, Option.bind_eq_bind, Option.bind_eq_some_iff,
      Option.filter_eq_some_iff]
    exact ⟨r, ⟨hfound, by simp [hrunner, hactive]⟩, Db.join_of_run? hrun rfl htask hmission⟩

/-- Journalling changes no claim. -/
theorem OnlyEvents.holds_claim (h : OnlyEvents s t) (runner_id : String) (claim : RunClaim) :
    t.holds_claim runner_id claim = s.holds_claim runner_id claim := by
  unfold Db.holds_claim
  rw [h.runs]

/-- **The loop of a reconciliation** sorts the claims into those that hold and the rest. -/
theorem foldlM_reconcile_claim_sorts {runner_id : String} {connection_epoch : Uuid}
    {a b : Reconciled} (hs : Inv a.state) (claims : List RunClaim)
    (h : claims.foldlM (reconcile_claim runner_id connection_epoch) a = .ok b) :
    b.accepted = a.accepted
        ++ (claims.filter (a.state.holds_claim runner_id)).map RunClaim.run_id
      ∧ b.stale = a.stale
        ++ (claims.filter fun claim => !a.state.holds_claim runner_id claim).map
          RunClaim.run_id := by
  induction claims generalizing a with
  | nil =>
    simp only [List.foldlM_nil, pure_eq_ok] at h
    rw [h]
    simp
  | cons claim claims ih =>
    simp only [List.foldlM_cons, bind_eq_ok] at h
    obtain ⟨c, hc, h⟩ := h
    have hholds := claimed_run_holds hs.life runner_id claim
    unfold reconcile_claim at hc
    split at hc
    · -- no active run of the runner has this token
      rename_i hnone
      rw [hnone, Option.isSome_none] at hholds
      obtain rfl := Except.ok.inj hc
      obtain ⟨haccepted, hstale⟩ :=
        ih (a := { a with stale := a.stale ++ [claim.run_id] }) hs h
      rw [haccepted, hstale]
      simp [← hholds]
    · rename_i row hsome
      rw [hsome, Option.isSome_some] at hholds
      simp only [bind_eq_ok, pure_eq_ok] at hc
      obtain ⟨state, hstate, rfl⟩ := hc
      have hevents : OnlyEvents a.state state := OnlyEvents.of_record hstate (by simp)
      obtain ⟨haccepted, hstale⟩ := ih (hevents.inv hs) h
      have hfilter : ∀ p : Bool → Bool, (claims.filter fun x => p (state.holds_claim runner_id x))
          = claims.filter fun x => p (a.state.holds_claim runner_id x) := by
        intro p
        refine List.filter_congr fun x _ => ?_
        rw [hevents.holds_claim]
      have hkept := hfilter id
      have hrest := hfilter not
      simp only [id] at hkept
      rw [haccepted, hstale, hkept, hrest]
      simp [← hholds]

theorem reconcile_runner_claims_sorts {s : Fleet} (hs : Inv s.toDb) {runner_id : String}
    {connection_epoch : Uuid} {claims : List RunClaim} {outcome : List Uuid × List Uuid × Fleet}
    (h : reconcile_runner_claims s runner_id connection_epoch claims = .ok outcome) :
    outcome.1 = (claims.filter (s.holds_claim runner_id)).map RunClaim.run_id
      ∧ outcome.2.1
        = (claims.filter fun claim => !s.holds_claim runner_id claim).map RunClaim.run_id := by
  simp only [reconcile_runner_claims, bind_eq_ok, pure_eq_ok] at h
  obtain ⟨-, -, acc, hacc, rfl⟩ := h
  have hsorts := foldlM_reconcile_claim_sorts hs claims hacc
  simpa using hsorts

/-! ## Sweeps -/

/-- What losing a run writes to the runs. -/
theorem lose_run_tx_lost {row : LostRow} {reason : String} (h : lose_run_tx s row reason = .ok t) :
    ∃ f : Run → Run, t.runs = updateWhere (fun r => r.id == row.run.id) f s.runs
      ∧ ∀ r, (f r).id = r.id ∧ (f r).status = .lost := by
  unfold lose_run_tx at h
  obtain ⟨u, hu, h⟩ := bind_eq_ok.mp h
  obtain ⟨evs, rfl, -⟩ := record_event_tx_appends h (P := Event.Routine) ⟨rfl, rfl⟩
  unfold end_lost_run at hu
  split at hu
  · obtain ⟨-, note, recs, v, rfl, items, recs', evs', rfl, -⟩ :=
      terminalize_factory_recovery_run_tx_ok hu
    exact ⟨_, rfl, fun _ => ⟨rfl, rfl⟩⟩
  · obtain rfl := Except.ok.inj hu
    exact ⟨_, rfl, fun _ => ⟨rfl, rfl⟩⟩

/-- One turn of the loop writes the run of its row only. -/
theorem lose_row_keeps_run {now : Int} {reason : String} {row : LostRow} {r : Run}
    (h : lose_row now reason s row = .ok t) (hr : r ∈ s.runs) (hid : row.run.id ≠ r.id) :
    r ∈ t.runs := by
  unfold lose_row at h
  obtain ⟨ready, -, h⟩ := bind_eq_ok.mp h
  split at h
  · rw [pure_eq_ok] at h
    exact h ▸ hr
  · obtain ⟨f, hruns, -⟩ := lose_run_tx_lost h
    rw [hruns]
    refine mem_updateWhere.mpr ⟨r, hr, if_neg ?_⟩
    rw [beq_iff_eq]
    exact Ne.symm hid

theorem foldlM_lose_row_keeps_run {now : Int} {reason : String} {r : Run} (rows : List LostRow)
    (h : rows.foldlM (lose_row now reason) s = .ok t) (hr : r ∈ s.runs)
    (hid : ∀ row ∈ rows, row.run.id ≠ r.id) : r ∈ t.runs := by
  induction rows generalizing s with
  | nil =>
    simp only [List.foldlM_nil, pure_eq_ok] at h
    exact h ▸ hr
  | cons row rows ih =>
    simp only [List.foldlM_cons, bind_eq_ok] at h
    obtain ⟨u, hu, h⟩ := h
    have hkept := lose_row_keeps_run hu hr (hid row List.mem_cons_self)
    exact ih h hkept fun x hx => hid x (List.mem_cons_of_mem row hx)

/-- A review that is ready is waited for. -/
theorem review_ready_awaits {now : Int} {corp_id run_id : Uuid}
    (h : review_ready_tx s now corp_id run_id = .ok true) : s.awaits_review run_id = true := by
  unfold review_ready_tx at h
  dsimp only at h
  split at h
  · rw [pure_eq_ok] at h
    cases h
  · rename_i hwaiting
    simp only [Option.bind_eq_bind, Option.bind_eq_some_iff, Option.guard_eq_some'] at hwaiting
    obtain ⟨⟨r, x, m⟩, hscoped, request, hrequest, _, -, hguard⟩ := hwaiting
    unfold Db.run_task_mission_scoped at hscoped
    obtain ⟨hjoin, -⟩ := Option.filter_eq_some_iff.mp hscoped
    obtain ⟨hrun, hcorp, -, -⟩ := Db.run?_of_join hjoin
    have hfound : s.request_of r.corp_id run_id = some request := by
      rw [hcorp]
      exact hrequest
    unfold Db.awaits_review
    rw [hrun, Option.any_some, hfound, Option.any_some, hguard.1, hguard.2.2.1]
    rfl

/-- Where the task is spared a run is waited for as it was before. -/
theorem Spared.awaits_review_back {P : Uuid → Prop} (h : Spared P s t) {r : Run} {run_id : Uuid}
    (hr : s.run? run_id = some r) (hP : P r.task_id) (hawaits : t.awaits_review run_id = true) :
    s.awaits_review run_id = true := by
  unfold Db.awaits_review at hawaits ⊢
  rw [hr]
  rw [(h.runs run_id r hP).mpr hr, Option.any_some, h.requests run_id r hr hP] at hawaits
  exact hawaits

/-- **Every row of a sweep is visited**: its run is lost, or left as it is because its review
is waited for. -/
theorem foldlM_lose_row_visits {now : Int} {reason : String} (rows : List LostRow) (hs : Life s)
    (hb : Bound s) (hnodup : (rows.map fun row => row.run.id).Nodup)
    (hpresent : ∀ row ∈ rows, row.Present s)
    (h : rows.foldlM (lose_row now reason) s = .ok t) :
    ∀ row ∈ rows, (∃ r ∈ t.runs, r.id = row.run.id ∧ r.status = .lost)
      ∨ (row.run ∈ t.runs ∧ s.awaits_review row.run.id = true) := by
  induction rows generalizing s with
  | nil => simp
  | cons row rows ih =>
    rw [List.map_cons, List.nodup_cons] at hnodup
    simp only [List.foldlM_cons, bind_eq_ok] at h
    obtain ⟨u, hu, h⟩ := h
    have hrow := hpresent row List.mem_cons_self
    have hother : ∀ x ∈ rows, x.run.id ≠ row.run.id := by
      intro x hx hid
      exact hnodup.1 (hid ▸ List.mem_map_of_mem (f := fun row : LostRow => row.run.id) hx)
    unfold lose_row at hu
    obtain ⟨ready, hready, hu⟩ := bind_eq_ok.mp hu
    split at hu
    · rename_i htrue
      rw [htrue] at hready
      rw [pure_eq_ok] at hu
      subst hu
      intro x hx
      rcases List.mem_cons.mp hx with rfl | hx
      · exact Or.inr ⟨foldlM_lose_row_keeps_run rows h hrow.run_mem hother,
          review_ready_awaits hready⟩
      · exact ih hs hb hnodup.2 (fun y hy => hpresent y (List.mem_cons_of_mem row hy)) h x hx
    · obtain ⟨hstop, -, -, f, hruns⟩ :=
        lose_run_tx_ok hrow.run_mem hrow.active hrow.task_id hu
      have hmove : Move s u := .turnover (.stop row.run hstop)
      have hkept := lose_run_tx_bindings hu
      have hrest : ∀ x ∈ rows, x.Present u := fun x hx =>
        (hpresent x (List.mem_cons_of_mem row hx)).after (hother x hx) hruns hkept
      intro x hx
      rcases List.mem_cons.mp hx with rfl | hx
      · obtain ⟨g, hg, hlost⟩ := lose_run_tx_lost hu
        have hmem : g x.run ∈ u.runs := by
          rw [hg]
          exact mem_updateWhere.mpr ⟨x.run, hrow.run_mem, if_pos (beq_self_eq_true _)⟩
        have hkeeps := foldlM_lose_row_keeps_run rows h hmem fun y hy => by
          rw [(hlost x.run).1]
          exact hother y hy
        exact Or.inl ⟨g x.run, hkeeps, (hlost x.run).1, (hlost x.run).2⟩
      · have hvisited := ih (hmove.life hs) (hkept.bound hb (hmove.grows hs) fun m hm =>
          hmove.missions hm) hnodup.2 hrest h x hx
        rcases hvisited with hlost | ⟨hmem, hawaits⟩
        · exact Or.inl hlost
        · -- the lost run is of another task
          have hxs := hpresent x (List.mem_cons_of_mem row hx)
          have hspared : Spared (fun id => id = x.run.task_id) s u := by
            refine (lose_run_tx_losing hs.rooted hb hrow.toLive hrow.recovery hu).spared hs.rooted
              hrow.run_mem ?_
            intro htask
            have hsame : row.run = x.run :=
              hs.task_exclusive.eq_of_mem hrow.run_mem hxs.run_mem hrow.active hxs.active htask
            exact hother x hx (by rw [hsame])
          have hfound : s.run? x.run.id = some x.run :=
            Keyed.find?_eq_some hs.runs_keyed hxs.run_mem
          exact Or.inr ⟨hmem, hspared.awaits_review_back hfound rfl hawaits⟩

/-- The run is in the sweep. -/
theorem mem_lost_rows (hs : Life s) {input : LostRunner} {r : Run} (hr : r ∈ s.runs)
    (hrunner : r.runner_id = input.runner_id) (hactive : r.active = true)
    (hexcluded : r.id ∉ input.excluded_run_ids)
    (hbefore : ∀ before ∈ input.created_before, r.created_at ≤ before)
    (hawaits : awaits_recovery_command s r = false) :
    ∃ row ∈ lost_rows s input, row.run = r := by
  obtain ⟨x, hx, hxid, hxcorp⟩ := hs.run_task r hr
  obtain ⟨m, hm, hmid, hmcorp⟩ := hs.task_mission x hx
  have hrun : s.run? r.id = some r := Keyed.find?_eq_some hs.runs_keyed hr
  have htask : s.task? r.task_id = some x := by
    rw [← hxid]
    exact Keyed.find?_eq_some hs.tasks_keyed hx
  have hmission : s.mission? x.mission_id = some m := by
    rw [← hmid]
    exact Keyed.find?_eq_some hs.missions_keyed hm
  have hjoin := Db.join_of_run? hrun rfl htask hmission
  have hscoped : (s.run_task_mission_scoped r.corp_id r.id).isSome = true := by
    unfold Db.run_task_mission_scoped
    rw [hjoin]
    simp [Option.filter, hxcorp, hmcorp]
  have hlost : r ∈ lost_runs s input := by
    unfold lost_runs
    refine (List.mem_insertionSort _).mpr (List.mem_filter.mpr ⟨hr, ?_⟩)
    have hcreated : input.created_before.all (fun before => decide (r.created_at ≤ before))
        = true := by
      rw [Option.all_eq_true]
      intro before hb
      exact decide_eq_true (hbefore before hb)
    simp [hrunner, hactive, hscoped, hexcluded, hcreated, hawaits]
  unfold lost_rows
  refine ⟨{ run := r, task := x, mission := m, recovery := lost_recovery s r m.id },
    List.mem_filterMap.mpr ⟨r, hlost, ?_⟩, rfl⟩
  rw [hjoin]
  rfl

/-- What the select of a sweep has checked. -/
theorem of_mem_lost_rows (hs : Life s) {input : LostRunner} {row : LostRow}
    (h : row ∈ lost_rows s input) :
    row.run.runner_id = input.runner_id ∧ row.run.active = true
      ∧ row.run.id ∉ input.excluded_run_ids
      ∧ (∀ before ∈ input.created_before, row.run.created_at ≤ before)
      ∧ awaits_recovery_command s row.run = false := by
  have hlive := lost_rows_live hs input row h
  unfold lost_rows at h
  obtain ⟨r, hr, hmap⟩ := List.mem_filterMap.mp h
  obtain ⟨⟨run, task, mission⟩, hjoin, rfl⟩ := Option.map_eq_some_iff.mp hmap
  obtain ⟨hmem, hcond⟩ := List.mem_filter.mp ((List.mem_insertionSort _).mp hr)
  have hsame : run = r :=
    hs.eq_of_id hlive.run_mem hmem (Db.run_task_mission_eq_some hjoin).run_id
  subst hsame
  simp only [Bool.and_eq_true, beq_iff_eq, Bool.not_eq_true', List.contains_eq_mem,
    decide_eq_false_iff_not, Option.all_eq_true, decide_eq_true_eq] at hcond
  obtain ⟨⟨⟨⟨⟨hrunner, hactive⟩, -⟩, hexcluded⟩, hcreated⟩, hcommand⟩ := hcond
  exact ⟨hrunner, hactive, hexcluded, hcreated, hcommand⟩

/-! ## Runs of the fleet -/

/-- The identifiers of the nodes stay keys. -/
theorem exec_nodes_keyed {s t : Fleet} {op : FleetOp} (hs : Keyed RunnerNode.id s.runner_nodes)
    (h : s.exec env op = .ok t) : Keyed RunnerNode.id t.runner_nodes := by
  cases op with
  | lifecycle op =>
    simp only [Fleet.exec, bind_eq_ok, ensure_eq_ok] at h
    obtain ⟨-, -, h⟩ := h
    obtain ⟨db, -, rfl⟩ := map_eq_ok.mp h
    exact hs
  | pass seconds =>
    rw [← Except.ok.inj h]
    exact hs
  | create_runner_enrollment input =>
    rw [(create_runner_enrollment_ok h).2.2.1]
    exact hs
  | authenticate_and_rotate_runner input =>
    rw [(authenticate_and_rotate_runner_ok h).2.1]
    exact hs
  | revoke_runner input =>
    obtain ⟨⟨revoked, v⟩, hv, rfl⟩ := map_eq_ok.mp h
    rcases (revoke_runner_ok hv).2 with ⟨rfl, -⟩ | hrevoked
    · exact hs
    · rw [hrevoked.runner_nodes]
      exact hs.updateWhere fun _ _ => rfl
  | runner_connected input =>
    rw [← Except.ok.inj h]
    exact runner_connected_keyed hs
  | runner_heartbeat runner_id connection_epoch =>
    rw [← Except.ok.inj h]
    exact hs.updateWhere fun _ _ => rfl
  | runner_disconnected runner_id connection_epoch grace_seconds =>
    exact (runner_disconnected_ok h).2.2.keyed hs fun _ _ hid => hid.1
  | expire_runner_grace runner_id connection_epoch =>
    rcases expire_runner_grace_ok h with rfl | ⟨-, -, -, hnodes⟩
    · exact hs
    · rw [hnodes]
      exact hs.updateWhere fun _ _ => rfl
  | reconcile_runner_claims runner_id connection_epoch claims =>
    obtain ⟨outcome, houtcome, rfl⟩ := map_eq_ok.mp h
    rw [(reconcile_runner_claims_ok houtcome).2.2]
    exact hs
  | mark_unclaimed_runner_runs_lost runner_id connection_epoch accepted_claims =>
    rcases mark_unclaimed_runner_runs_lost_ok h with rfl | ⟨-, -, hnodes⟩
    · exact hs
    · rw [hnodes]
      exact hs

theorem runners_nodes_keyed {ok : Roll → FleetOp → Prop} {s : Roll}
    (h : (runners env).ReachableVia ok s) : Keyed RunnerNode.id s.runner_nodes := by
  refine TransitionSystem.ReachableVia.invariant_of_exec
    (I := fun s : Roll => Keyed RunnerNode.id s.runner_nodes) h ?_ ?_
  · intro s h0
    rw [h0.runner_nodes]
    exact List.nodup_nil
  · intro s op t hs _ hexec
    simp only [Roll.exec, bind_eq_ok, pure_eq_ok] at hexec
    obtain ⟨u, hu, rfl⟩ := hexec
    exact exec_nodes_keyed hs hu

theorem Swept.grows {s t : Fleet} {input : LostRunner} (env : Env) (h : Swept s t input)
    (hs : Inv s.toDb) : Grows s.toDb t.toDb := by
  obtain ⟨db, hdb, new, hevents, -⟩ := h
  have hexec : Store.exec env s.toDb (.mark_runner_runs_lost s.clock input) = .ok db := hdb
  have hgrows := exec_grows hs hexec
  rw [hevents]
  exact ⟨hgrows.runs, hgrows.tasks⟩

/-- A call of the fleet removes no run and restarts none that has ended. -/
theorem Fleet.Advance.grows {s t : Fleet} {op : FleetOp} (h : s.Advance env op t)
    (hs : Inv s.toDb) : Grows s.toDb t.toDb := by
  cases h with
  | journal h =>
    obtain ⟨new, hevents, -⟩ := h
    rw [hevents]
    exact ⟨Grows.refl.runs, Grows.refl.tasks⟩
  | swept input _ h => exact h.grows env hs
  | lifecycle call _ _ h => exact exec_grows hs h

theorem runners_grow {ok : Roll → FleetOp → Prop} {s t : Roll}
    (hs : Inv s.toDb ∧ Bound s.toDb) (h : (runners env).Reaches ok s t) :
    Grows s.toDb t.toDb := by
  have hboth := TransitionSystem.Reaches.preserves_of_exec
    (I := fun u : Roll => (Inv u.toDb ∧ Bound u.toDb) ∧ Grows s.toDb u.toDb) h
    ⟨hs, Grows.refl⟩ ?_
  · exact hboth.2
  · rintro u op v ⟨hu, hgrows⟩ - hexec
    simp only [Roll.exec, bind_eq_ok, pure_eq_ok] at hexec
    obtain ⟨w, hw, rfl⟩ := hexec
    have hadvance := Fleet.exec_advance hw
    exact ⟨hadvance.invariants hu, hgrows.trans (hadvance.grows hu.1)⟩

/-- What a fleet in the state `s` guarantees about the connections of its runners. -/
structure Roll.Epochs (env : Env) (s : Roll) : Prop where
  /-- A call that presents another connection than the current one changes nothing. -/
  stale : ∀ op : FleetOp, op.Stale s.toFleet → (runners env).step s op = s
  /-- A reconciliation accepts the claims with the exact token of an active run of the runner,
  and no others. -/
  claims : ∀ runner_id connection_epoch claims outcome,
    reconcile_runner_claims s.toFleet runner_id connection_epoch claims = .ok outcome →
      outcome.1 = (claims.filter (s.holds_claim runner_id)).map RunClaim.run_id
        ∧ outcome.2.1
          = (claims.filter fun claim => !s.holds_claim runner_id claim).map RunClaim.run_id
  /-- The sweep of a connection leaves the row of a run alone that it is told to preserve, that
  is not an active run of the runner, that is younger than the connection, or whose recovery
  has not been sent yet. -/
  spared : ∀ runner_id connection_epoch preserved, ∀ r ∈ s.runs,
    (r.id ∈ preserved ∨ r.runner_id ≠ runner_id ∨ r.active = false
      ∨ (∃ n ∈ s.runner_nodes, n.is runner_id connection_epoch .connected = true
          ∧ n.connected_at < r.created_at)
      ∨ awaits_recovery_command s.toDb r = true) →
    r ∈ ((runners env).step s
      (.mark_unclaimed_runner_runs_lost runner_id connection_epoch preserved)).runs
  /-- It gives up every other active run, unless its review is waited for. -/
  swept : ∀ runner_id connection_epoch preserved t,
    s.toFleet.exec env (.mark_unclaimed_runner_runs_lost runner_id connection_epoch preserved)
      = .ok t →
    ∀ n ∈ s.runner_nodes, n.is runner_id connection_epoch .connected = true →
    ∀ r ∈ s.runs, r.runner_id = runner_id → r.active = true → r.created_at ≤ n.connected_at →
      r.id ∉ preserved → awaits_recovery_command s.toDb r = false →
        (∃ r' ∈ t.runs, r'.id = r.id ∧ r'.status = .lost)
          ∨ (r ∈ t.runs ∧ s.awaits_review r.id = true)
  /-- A run that has ended keeps its status: none is lost twice. -/
  ended : ∀ t, (runners env).Reaches (fun _ _ => True) s t → ∀ r ∈ s.runs, r.active = false →
    ∃ r' ∈ t.runs, r'.id = r.id ∧ r'.status = r.status

/-- **Reconnect epochs**, over every interleaving of connections, heartbeats, timers,
reconciliations and sweeps with any epochs, and with the calls of the lifecycle. -/
theorem runner_epochs {s : Roll} (h : (runners env).Reachable s) : s.Epochs env where
  stale := by
    intro op hstale
    refine TransitionSystem.ofExec_step_cases (P := fun t : Roll => t = s) rfl ?_
    intro t ht
    simp only [Roll.exec, bind_eq_ok, pure_eq_ok] at ht
    obtain ⟨u, hu, rfl⟩ := ht
    rw [exec_of_stale hstale hu]
    -- a call about a connection adds nothing to the history of the tokens
    have hentries : op.entries = [] := by
      obtain ⟨c, hc, -⟩ := hstale
      cases op with
      | create_runner_enrollment _ => cases hc
      | authenticate_and_rotate_runner _ => cases hc
      | revoke_runner _ => cases hc
      | lifecycle _ | pass _ | runner_connected _ | runner_heartbeat _ _
      | runner_disconnected _ _ _ | expire_runner_grace _ _ | reconcile_runner_claims _ _ _
      | mark_unclaimed_runner_runs_lost _ _ _ => rfl
    rw [hentries, List.append_nil]
  claims := fun _ _ _ _ houtcome => reconcile_runner_claims_sorts (runners_invariants h).1 houtcome
  spared := by
    intro runner_id connection_epoch preserved r hr hspared
    obtain ⟨hinv, -⟩ := runners_invariants h
    refine TransitionSystem.ofExec_step_cases (P := fun t : Roll => r ∈ t.runs) hr ?_
    intro t ht
    simp only [Roll.exec, bind_eq_ok, pure_eq_ok] at ht
    obtain ⟨u, hu, rfl⟩ := ht
    rcases mark_unclaimed_runner_runs_lost_ok hu with
      rfl | ⟨⟨n, hn, hconnected, db, hdb, hevents⟩, -, -⟩
    · exact hr
    · change r ∈ u.runs
      rw [hevents.runs]
      refine foldlM_lose_row_keeps_run _ hdb hr fun row hrow hid => ?_
      obtain ⟨hrunner, hactive, hexcluded, hcreated, hcommand⟩ := of_mem_lost_rows hinv.life hrow
      have hsame : row.run = r := hinv.life.eq_of_id
        ((lost_rows_live hinv.life _ row hrow).run_mem) hr hid
      rw [hsame] at hrunner hactive hexcluded hcreated hcommand
      rcases hspared with hmem | hother | hended | ⟨n', hn', hconnected', hyoung⟩ | hawaits
      · exact hexcluded hmem
      · exact hother hrunner
      · rw [hactive] at hended
        cases hended
      · have hnode : n' = n := (runners_nodes_keyed h).eq_of_mem hn' hn
          ((RunnerNode.id_of_is hconnected').trans (RunnerNode.id_of_is hconnected).symm)
        have hle := hcreated n.connected_at rfl
        rw [hnode] at hyoung
        omega
      · rw [hcommand] at hawaits
        cases hawaits
  swept := by
    intro runner_id connection_epoch preserved t ht n hn hconnected r hr hrunner hactive hcreated
      hother hcommand
    obtain ⟨hinv, hbound⟩ := runners_invariants h
    change mark_unclaimed_runner_runs_lost s.toFleet runner_id connection_epoch preserved
      = .ok t at ht
    unfold mark_unclaimed_runner_runs_lost at ht
    split at ht
    · rename_i hnone
      exact absurd hconnected (List.find?_eq_none.mp hnone n hn)
    · rename_i n' hfind
      -- the runner has one node
      have hsame : n' = n := by
        have hconnected' : n'.is runner_id connection_epoch .connected = true := by
          have hsome := List.find?_some hfind
          exact hsome
        have hid := RunnerNode.id_of_is hconnected'
        exact (runners_nodes_keyed h).eq_of_mem (List.mem_of_find?_eq_some hfind) hn
          (hid.trans (RunnerNode.id_of_is hconnected).symm)
      obtain ⟨db, hdb, rfl⟩ := map_eq_ok.mp ht
      have hyoung : ∀ before ∈ (unclaimed_loss runner_id preserved n'.connected_at).created_before,
          r.created_at ≤ before := by
        intro before hb
        rw [hsame] at hb
        rw [← Option.some.inj hb]
        exact hcreated
      obtain ⟨row, hrow, rfl⟩ := mem_lost_rows hinv.life hr hrunner hactive hother hyoung hcommand
      exact foldlM_lose_row_visits _ hinv.life hbound (lost_rows_nodup hinv.life _)
        (lost_rows_present hinv.life _) hdb row hrow
  ended := by
    intro t ht r hr hactive
    obtain ⟨r', hr', hk, -, hstatus⟩ := (runners_grow (runners_invariants h) ht).runs r hr
    exact ⟨r', hr', hk.id, hstatus hactive⟩

set_option maxRecDepth 20000 in
/-- The guarantees hold where a run waits for its review. -/
theorem runner_epochs_reviewed :
    (Dock.after Dock.reviewed).runs.map Run.status = [.waiting_for_approval]
      ∧ (Dock.after Dock.reviewed).Epochs Office.digest :=
  ⟨by decide +kernel, runner_epochs (TransitionSystem.Reachable.run Dock.initial Dock.reviewed)⟩

end Crony.Store
