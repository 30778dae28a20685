/-
What the calls about runners write.

Seen from the run lifecycle such a call does one of three things: it journals, it loses the
runs of a runner that is gone, or it is a call of the lifecycle itself. Which runs are lost
is decided by the node the call finds. The invariants of the lifecycle therefore hold in the
states of the fleet as well.
-/
import Crony.Lifecycle.Bindings
import Crony.Store.Runners

set_option autoImplicit false

open Crony.Lib

namespace Crony.Store

/-! ## What each call writes -/

/-- Only the journal was written, and nothing was asked to stop. -/
def OnlyEvents (s t : Db) : Prop :=
  ∃ new, t = s.onEvents (· ++ new) ∧ ∀ e ∈ new, e.type ≠ .other "run.stop_requested"

namespace OnlyEvents

variable {s t u : Db}

theorem refl : OnlyEvents s s := by
  refine ⟨[], ?_, by simp⟩
  simp [Db.onEvents]

theorem trans (h : OnlyEvents s t) (h' : OnlyEvents t u) : OnlyEvents s u := by
  obtain ⟨l, rfl, hl⟩ := h
  obtain ⟨m, rfl, hm⟩ := h'
  refine ⟨l ++ m, by simp [Db.onEvents], ?_⟩
  intro e he
  rcases List.mem_append.mp he with he | he
  · exact hl e he
  · exact hm e he

theorem of_append_new {event : Event} {existed : String}
    (h : append_new_event_tx s event existed = .ok t)
    (htype : event.type ≠ .other "run.stop_requested") : OnlyEvents s t := by
  refine ⟨[_], (append_new_event_tx_ok.mp h).2, ?_⟩
  intro e he
  rw [List.mem_singleton.mp he]
  exact htype

theorem of_record {event : Event} (h : record_event_tx s event = .ok t)
    (htype : event.type ≠ .other "run.stop_requested") : OnlyEvents s t := by
  rw [record_event_tx_ok] at h
  split at h
  · rw [h]
    exact refl
  · refine ⟨[_], h, ?_⟩
    intro e he
    rw [List.mem_singleton.mp he]
    exact htype

theorem runs (h : OnlyEvents s t) : t.runs = s.runs := by
  obtain ⟨new, rfl, -⟩ := h
  rfl

/-- The invariant of the lifecycle does not read the journal. -/
theorem inv (h : OnlyEvents s t) (hs : Inv s) : Inv t := by
  obtain ⟨new, rfl, -⟩ := h
  have hquiet : Turnover s (s.onEvents (· ++ new)) := .quiet (Quiet.of_same rfl rfl rfl rfl rfl)
  exact ⟨hquiet.life hs.life, hs.linked.approvals, hs.linked.artifacts, hs.linked.requests⟩

end OnlyEvents

section Calls

variable {s t : Fleet}

/-- The tables of the tokens are as they were; time may have passed. -/
structure Fleet.SameTokens (s t : Fleet) : Prop where
  runner_enrollment_tokens : t.runner_enrollment_tokens = s.runner_enrollment_tokens
  runner_credentials : t.runner_credentials = s.runner_credentials
  clock : s.clock ≤ t.clock

theorem create_runner_enrollment_ok {input : RunnerEnrollmentInput}
    (h : create_runner_enrollment s input = .ok t) :
    OnlyEvents s.toDb t.toDb ∧ t.runner_credentials = s.runner_credentials
      ∧ t.runner_nodes = s.runner_nodes ∧ t.clock = s.clock
      ∧ (∀ e ∈ s.runner_enrollment_tokens, e.token_hash ≠ input.token_hash)
      ∧ t.runner_enrollment_tokens = s.runner_enrollment_tokens
        ++ [input.row (s.new_v4 (s.runner_enrollment_tokens.map RunnerEnrollmentToken.id))] := by
  simp only [create_runner_enrollment, bind_eq_ok, ensure_eq_ok] at h
  obtain ⟨-, -, -, -, -, hunique, h⟩ := h
  obtain ⟨db, hdb, rfl⟩ := map_eq_ok.mp h
  exact ⟨OnlyEvents.of_append_new hdb (by simp), rfl, rfl, rfl, hunique, rfl⟩

/-- What an authentication finds, and what it makes of it. -/
inductive Authenticated (s : Fleet) (input : RunnerAuthentication) (t : Fleet) : Prop
  /-- A credential is exchanged for the next one. -/
  | rotated (c : RunnerCredential) (mem : c ∈ s.runner_credentials)
      (found : input.credential_matches s.clock c = true)
      (runner_credentials : t.runner_credentials = updateWhere (fun d => d.id == c.id)
        (fun d => { d with token_hash := input.next_token_hash,
                           expires_at := input.next_expires_at })
        s.runner_credentials)
      (runner_enrollment_tokens : t.runner_enrollment_tokens = s.runner_enrollment_tokens)
  /-- An enrolment is consumed. -/
  | enrolled (e : RunnerEnrollmentToken) (mem : e ∈ s.runner_enrollment_tokens)
      (found : input.enrollment_matches s.clock e = true)
      (runner_credentials : t.runner_credentials
        = upsert_credential (input.credential
            (s.new_v4 (s.runner_credentials.map RunnerCredential.id)) e.created_by)
              s.runner_credentials)
      (runner_enrollment_tokens : t.runner_enrollment_tokens
        = updateWhere (fun d => d.id == e.id && d.used_at.isNone)
          (fun d => { d with used_at := some s.clock }) s.runner_enrollment_tokens)

theorem authenticate_and_rotate_runner_ok {input : RunnerAuthentication}
    (h : authenticate_and_rotate_runner s input = .ok t) :
    OnlyEvents s.toDb t.toDb ∧ t.runner_nodes = s.runner_nodes ∧ t.clock = s.clock
      ∧ Authenticated s input t := by
  unfold authenticate_and_rotate_runner at h
  split at h
  · rename_i c hfind
    simp only [rotate_credential, record_authentication, bind_eq_ok, ensure_eq_ok] at h
    obtain ⟨-, -, h⟩ := h
    obtain ⟨db, hdb, rfl⟩ := map_eq_ok.mp h
    exact ⟨OnlyEvents.of_append_new hdb (by simp), rfl, rfl,
      .rotated c (List.mem_of_find?_eq_some hfind) (List.find?_some hfind) rfl rfl⟩
  · simp only [bind_eq_ok, context_eq_ok] at h
    obtain ⟨e, hfind, h⟩ := h
    simp only [consume_enrollment, record_authentication, bind_eq_ok, ensure_eq_ok] at h
    obtain ⟨-, -, h⟩ := h
    obtain ⟨db, hdb, rfl⟩ := map_eq_ok.mp h
    exact ⟨OnlyEvents.of_append_new hdb (by simp), rfl, rfl,
      .enrolled e (List.mem_of_find?_eq_some hfind) (List.find?_some hfind) rfl rfl⟩

/-- The runs of a runner were lost, and the journal continued. -/
def Swept (s : Fleet) (t : Fleet) (input : LostRunner) : Prop :=
  ∃ db, mark_runner_runs_lost_tx s.toDb s.clock input = .ok db ∧ OnlyEvents db t.toDb

/-- What a revocation does when there is a credential to revoke. -/
structure Revoked (s : Fleet) (input : RunnerRevocation) (t : Fleet) : Prop where
  found : ∃ c ∈ s.runner_credentials, input.revokes c = true
  swept : Swept s t input.loss
  runner_credentials : t.runner_credentials = updateWhere input.revokes
    (fun d => { d with revoked_at := some s.clock }) s.runner_credentials
  runner_enrollment_tokens : t.runner_enrollment_tokens = s.runner_enrollment_tokens
  runner_nodes : t.runner_nodes = updateWhere
    (fun n => n.id == input.runner_id && n.corp_id == input.corp_id)
    (fun n => { n with status := .offline }) s.runner_nodes
  clock : t.clock = s.clock

theorem revoke_runner_ok {input : RunnerRevocation} {revoked : Bool}
    (h : revoke_runner s input = .ok (revoked, t)) :
    s.manages_runners input.corp_id input.actor_id
      ∧ ((t = s ∧ ∀ c ∈ s.runner_credentials, ¬ input.revokes c = true) ∨ Revoked s input t) := by
  simp only [revoke_runner, bind_eq_ok, ensure_eq_ok] at h
  obtain ⟨-, hmanages, h⟩ := h
  refine ⟨hmanages, ?_⟩
  split at h
  · rename_i hnone
    rw [pure_eq_ok, Prod.mk.injEq] at h
    exact Or.inl ⟨h.2.symm, List.find?_eq_none.mp hnone⟩
  · rename_i c hfind
    obtain ⟨u, hu, hpair⟩ := map_eq_ok.mp h
    rw [Prod.mk.injEq] at hpair
    obtain ⟨-, rfl⟩ := hpair
    simp only [revoke_credential, bind_eq_ok] at hu
    obtain ⟨db, hdb, hu⟩ := hu
    obtain ⟨db', hdb', rfl⟩ := map_eq_ok.mp hu
    exact Or.inr ⟨⟨c, List.mem_of_find?_eq_some hfind, List.find?_some hfind⟩,
      ⟨db, hdb, OnlyEvents.of_record hdb' (by simp)⟩, rfl, rfl, rfl, rfl⟩

theorem foldlM_start_grace {runner_id : String} {connection_epoch : Uuid} {expires : Int}
    {a b : Db} (rows : List (Run × Task × Mission))
    (h : rows.foldlM (start_grace runner_id connection_epoch expires) a = .ok b) :
    OnlyEvents a b := by
  induction rows generalizing a with
  | nil =>
    simp only [List.foldlM_nil, pure_eq_ok] at h
    rw [h]
    exact OnlyEvents.refl
  | cons row rows ih =>
    simp only [List.foldlM_cons, bind_eq_ok] at h
    obtain ⟨c, hc, h⟩ := h
    exact (OnlyEvents.of_record hc (by simp)).trans (ih h)

theorem runner_disconnected_ok {runner_id : String} {connection_epoch : Uuid}
    {grace_seconds : Int}
    (h : runner_disconnected s runner_id connection_epoch grace_seconds = .ok t) :
    OnlyEvents s.toDb t.toDb ∧ s.SameTokens t
      ∧ Updated (fun n n' => n'.id = n.id ∧ n'.corp_id = n.corp_id) s.runner_nodes
        t.runner_nodes := by
  simp only [runner_disconnected] at h
  split at h
  · obtain ⟨db, hdb, rfl⟩ := map_eq_ok.mp h
    exact ⟨foldlM_start_grace _ hdb, ⟨rfl, rfl, Int.le_refl _⟩,
      Updated.of_updateWhere (fun _ _ _ => ⟨rfl, rfl⟩) fun _ _ _ => ⟨rfl, rfl⟩⟩
  · rw [pure_eq_ok] at h
    subst h
    exact ⟨OnlyEvents.refl, ⟨rfl, rfl, Int.le_refl _⟩, Updated.refl fun _ _ => ⟨rfl, rfl⟩⟩

theorem expire_runner_grace_ok {runner_id : String} {connection_epoch : Uuid}
    (h : expire_runner_grace s runner_id connection_epoch = .ok t) :
    t = s ∨ (∃ n ∈ s.runner_nodes, n.grace_over s.clock runner_id connection_epoch = true)
      ∧ Swept s t (grace_loss runner_id) ∧ s.SameTokens t
      ∧ t.runner_nodes = updateWhere (fun n => n.grace_over s.clock runner_id connection_epoch)
        (fun n => { n with status := .offline, grace_expires_at := none }) s.runner_nodes := by
  simp only [expire_runner_grace] at h
  split at h
  · rename_i hover
    obtain ⟨db, hdb, rfl⟩ := map_eq_ok.mp h
    exact Or.inr ⟨List.any_eq_true.mp hover, ⟨db, hdb, OnlyEvents.refl⟩,
      ⟨rfl, rfl, Int.le_refl _⟩, rfl⟩
  · rw [pure_eq_ok] at h
    exact Or.inl h.symm

theorem foldlM_reconcile_claim {runner_id : String} {connection_epoch : Uuid} {a b : Reconciled}
    (claims : List RunClaim)
    (h : claims.foldlM (reconcile_claim runner_id connection_epoch) a = .ok b) :
    OnlyEvents a.state b.state := by
  induction claims generalizing a with
  | nil =>
    simp only [List.foldlM_nil, pure_eq_ok] at h
    rw [h]
    exact OnlyEvents.refl
  | cons claim claims ih =>
    simp only [List.foldlM_cons, bind_eq_ok] at h
    obtain ⟨c, hc, h⟩ := h
    refine OnlyEvents.trans ?_ (ih h)
    unfold reconcile_claim at hc
    split at hc
    · rw [Except.ok.injEq] at hc
      rw [← hc]
      exact OnlyEvents.refl
    · simp only [bind_eq_ok, pure_eq_ok] at hc
      obtain ⟨state, hstate, rfl⟩ := hc
      exact OnlyEvents.of_record hstate (by simp)

theorem reconcile_runner_claims_ok {runner_id : String} {connection_epoch : Uuid}
    {claims : List RunClaim} {outcome : List Uuid × List Uuid × Fleet}
    (h : reconcile_runner_claims s runner_id connection_epoch claims = .ok outcome) :
    OnlyEvents s.toDb outcome.2.2.toDb ∧ s.SameTokens outcome.2.2
      ∧ outcome.2.2.runner_nodes = s.runner_nodes := by
  simp only [reconcile_runner_claims, bind_eq_ok, pure_eq_ok] at h
  obtain ⟨-, -, acc, hacc, rfl⟩ := h
  exact ⟨foldlM_reconcile_claim claims hacc, ⟨rfl, rfl, Int.le_refl _⟩, rfl⟩

theorem mark_unclaimed_runner_runs_lost_ok {runner_id : String} {connection_epoch : Uuid}
    {accepted_claims : List Uuid}
    (h : mark_unclaimed_runner_runs_lost s runner_id connection_epoch accepted_claims = .ok t) :
    t = s ∨ (∃ n ∈ s.runner_nodes, n.is runner_id connection_epoch .connected = true
        ∧ Swept s t (unclaimed_loss runner_id accepted_claims n.connected_at))
      ∧ s.SameTokens t ∧ t.runner_nodes = s.runner_nodes := by
  unfold mark_unclaimed_runner_runs_lost at h
  split at h
  · rw [Except.ok.injEq] at h
    exact Or.inl h.symm
  · rename_i n hfind
    have hconnected : n.is runner_id connection_epoch .connected = true := by
      have hsome := List.find?_some hfind
      exact hsome
    obtain ⟨db, hdb, rfl⟩ := map_eq_ok.mp h
    exact Or.inr ⟨⟨n, List.mem_of_find?_eq_some hfind, hconnected, db, hdb, OnlyEvents.refl⟩,
      ⟨rfl, rfl, Int.le_refl _⟩, rfl⟩

end Calls

/-! ## Every call -/

/-- Losing runs is a call of the lifecycle. -/
theorem Swept.inv (env : Env) {s t : Fleet} {input : LostRunner} (h : Swept s t input)
    (hs : Inv s.toDb) : Inv t.toDb := by
  obtain ⟨db, hdb, hevents⟩ := h
  have hexec : Store.exec env s.toDb (.mark_runner_runs_lost s.clock input) = .ok db := hdb
  exact hevents.inv (exec_inv hs hexec)

/-- The runs a call gives up, if it finds what it is about: a credential to revoke, a node
whose grace is over, the connection a runner came back on. -/
def FleetOp.loss (s : Fleet) : FleetOp → Option LostRunner
  | .revoke_runner input =>
    if s.runner_credentials.any input.revokes then some input.loss else none
  | .expire_runner_grace runner_id connection_epoch =>
    if s.runner_nodes.any fun n => n.grace_over s.clock runner_id connection_epoch
    then some (grace_loss runner_id) else none
  | .mark_unclaimed_runner_runs_lost runner_id connection_epoch accepted_claims =>
    (s.runner_nodes.find? fun n => n.is runner_id connection_epoch .connected).map fun n =>
      unclaimed_loss runner_id accepted_claims n.connected_at
  | _ => none

/-- What a committed call does to the database of the lifecycle. -/
inductive Fleet.Advance (env : Env) (s : Fleet) (op : FleetOp) (t : Fleet) : Prop
  | journal (h : OnlyEvents s.toDb t.toDb)
  | swept (input : LostRunner) (loss : op.loss s = some input) (h : Swept s t input)
  | lifecycle (call : Op) (hop : op = .lifecycle call) (hkind : call.sweeps = false)
      (h : Store.exec env s.toDb call = .ok t.toDb)

theorem Fleet.exec_advance {env : Env} {s t : Fleet} {op : FleetOp} (h : s.exec env op = .ok t) :
    s.Advance env op t := by
  cases op with
  | lifecycle op =>
    simp only [Fleet.exec, bind_eq_ok, ensure_eq_ok] at h
    obtain ⟨_, hkind, h⟩ := h
    obtain ⟨db, hdb, rfl⟩ := map_eq_ok.mp h
    exact .lifecycle op rfl hkind hdb
  | pass seconds =>
    rw [← Except.ok.inj h]
    exact .journal OnlyEvents.refl
  | create_runner_enrollment input => exact .journal (create_runner_enrollment_ok h).1
  | authenticate_and_rotate_runner input => exact .journal (authenticate_and_rotate_runner_ok h).1
  | revoke_runner input =>
    obtain ⟨⟨revoked, v⟩, hv, rfl⟩ := map_eq_ok.mp h
    rcases (revoke_runner_ok hv).2 with ⟨rfl, -⟩ | hrevoked
    · exact .journal OnlyEvents.refl
    · refine .swept input.loss ?_ hrevoked.swept
      exact if_pos (List.any_eq_true.mpr hrevoked.found)
  | runner_connected input =>
    rw [← Except.ok.inj h]
    exact .journal OnlyEvents.refl
  | runner_heartbeat runner_id connection_epoch =>
    rw [← Except.ok.inj h]
    exact .journal OnlyEvents.refl
  | runner_disconnected runner_id connection_epoch grace_seconds =>
    exact .journal (runner_disconnected_ok h).1
  | expire_runner_grace runner_id connection_epoch =>
    rcases expire_runner_grace_ok h with rfl | ⟨hover, hswept, -, -⟩
    · exact .journal OnlyEvents.refl
    · exact .swept (grace_loss runner_id) (if_pos (List.any_eq_true.mpr hover)) hswept
  | reconcile_runner_claims runner_id connection_epoch claims =>
    obtain ⟨outcome, houtcome, rfl⟩ := map_eq_ok.mp h
    exact .journal (reconcile_runner_claims_ok houtcome).1
  | mark_unclaimed_runner_runs_lost runner_id connection_epoch accepted_claims =>
    change Store.mark_unclaimed_runner_runs_lost s runner_id connection_epoch accepted_claims
      = .ok t at h
    unfold Store.mark_unclaimed_runner_runs_lost at h
    split at h
    · rw [← Except.ok.inj h]
      exact .journal OnlyEvents.refl
    · rename_i n hfind
      obtain ⟨db, hdb, rfl⟩ := map_eq_ok.mp h
      refine .swept (unclaimed_loss runner_id accepted_claims n.connected_at) ?_
        ⟨db, hdb, OnlyEvents.refl⟩
      change Option.map _ (s.runner_nodes.find? _) = _
      rw [hfind]
      rfl

/-! ## The invariants of the lifecycle -/

theorem OnlyEvents.bound {s t : Db} (h : OnlyEvents s t) (hs : Bound s) : Bound t := by
  obtain ⟨new, rfl, -⟩ := h
  exact ⟨hs.items_keyed, hs.links, hs.link_mission, hs.recoveries_keyed, hs.replacements,
    hs.replacement_run⟩

theorem Swept.bound (env : Env) {s t : Fleet} {input : LostRunner} (h : Swept s t input)
    (hs : Inv s.toDb) (hb : Bound s.toDb) : Bound t.toDb := by
  obtain ⟨db, hdb, hevents⟩ := h
  have hexec : Store.exec env s.toDb (.mark_runner_runs_lost s.clock input) = .ok db := hdb
  exact hevents.bound (exec_bound hs hb hexec)

theorem Fleet.Advance.invariants {env : Env} {s t : Fleet} {op : FleetOp}
    (h : s.Advance env op t) (hs : Inv s.toDb ∧ Bound s.toDb) : Inv t.toDb ∧ Bound t.toDb := by
  obtain ⟨hinv, hbound⟩ := hs
  cases h with
  | journal h => exact ⟨h.inv hinv, h.bound hbound⟩
  | swept input _ h => exact ⟨h.inv env hinv, h.bound env hinv hbound⟩
  | lifecycle call _ _ h => exact ⟨exec_inv hinv h, exec_bound hinv hbound h⟩

/-- **The lifecycle's invariants hold in every reachable state of the fleet.** -/
theorem runners_invariants {env : Env} {ok : Roll → FleetOp → Prop} {s : Roll}
    (h : (runners env).ReachableVia ok s) : Inv s.toDb ∧ Bound s.toDb := by
  refine TransitionSystem.ReachableVia.invariant_of_exec
    (I := fun s : Roll => Inv s.toDb ∧ Bound s.toDb) h
    (fun _ h0 => ⟨h0.db.inv, h0.db.bound⟩) ?_
  intro s op t hs _ hexec
  simp only [Roll.exec, bind_eq_ok, pure_eq_ok] at hexec
  obtain ⟨u, hu, rfl⟩ := hexec
  exact (Fleet.exec_advance hu).invariants hs

end Crony.Store
