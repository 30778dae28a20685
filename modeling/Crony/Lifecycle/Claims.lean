/-
What the calls about claims write.

Every committed call either answers a request that was made before, or records its key and
does one of three things: it moves items forward under the claims they have, it takes an item
over whose lease has run out, or it enters a new item. The later arguments about runs are case
splits on this, never on the methods.
-/
import Crony.Lifecycle.Items
import Crony.Lifecycle.Revised
import Crony.Store.Claims

set_option autoImplicit false

open Crony.Lib

namespace Crony.Store

variable {env : Env} {documents : PolicyDocuments}

/-! ## What a call presents -/

/-- What the holder presents with a call that asks for the current version. -/
def WorkshopOp.control : WorkshopOp → Option FactoryControl
  | .lifecycle op => op.control
  | .renew_factory_work_item now input => some
    { corp_id := input.corp_id, work_item_id := input.work_item_id, actor_id := input.actor_id
      claim_token := input.claim_token, expected_version := input.expected_version, now }
  | .upgrade_factory_source_commit now input => some
    { corp_id := input.corp_id, work_item_id := input.work_item_id, actor_id := input.actor_id
      claim_token := input.claim_token, expected_version := input.expected_version, now }
  | .claim_factory_work_item _ _ | .reject_factory_materialization _ _ => none

/-- The item and the token a call presents. -/
def WorkshopOp.presents : WorkshopOp → Option (Uuid × Uuid)
  | .reject_factory_materialization _ input => some (input.work_item_id, input.claim_token)
  | op => op.control.map fun c => (c.work_item_id, c.claim_token)

/-- When a claim is made. -/
def WorkshopOp.claims_at : WorkshopOp → Option Int
  | .claim_factory_work_item now _ => some now
  | _ => none

/-- The key a call is recorded under. -/
def WorkshopOp.key : WorkshopOp → Option (Uuid × String)
  | .lifecycle op => op.factory_key
  | .claim_factory_work_item _ input =>
    recorded_under input.corp_id input.idempotency_key
  | .renew_factory_work_item _ input =>
    recorded_under input.corp_id input.idempotency_key
  | .reject_factory_materialization _ input =>
    recorded_under input.corp_id input.idempotency_key
  | .upgrade_factory_source_commit _ input =>
    recorded_under input.corp_id input.idempotency_key

@[simp] theorem WorkshopOp.presents_lifecycle (op : Op) :
    (WorkshopOp.lifecycle op).presents = op.control.map fun c => (c.work_item_id, c.claim_token) :=
  rfl

/-! ## Rows that move under their claim -/

/-- An item without a mission has not got further than its claim; with one it is past it. -/
structure FactoryWorkItem.Shaped (i : FactoryWorkItem) : Prop where
  unlinked : i.mission_id = none → i.state ∈ [.claimed, .blocked, .failed, .cancelled]
  claimed : i.state = .claimed → i.mission_id = none

/-- A later row of an item. -/
structure FactoryWorkItem.Newer (i i' : FactoryWorkItem) : Prop where
  id : i'.id = i.id
  corp_id : i'.corp_id = i.corp_id
  source : i'.source = i.source
  source_issue_number : i'.source_issue_number = i.source_issue_number
  source_revision : i'.source_revision = i.source_revision
  live : factory_state_is_terminal i.state = false
  version : i.version < i'.version
  mission : i.mission_id.isSome = true → i'.mission_id = i.mission_id
  shape : i.Shaped → i'.Shaped

/-- The item is moved under the claim it has: its lease changes only for whoever presents the
token. Nothing is published this way. -/
structure FactoryWorkItem.Kept_by (op : WorkshopOp) (i i' : FactoryWorkItem) : Prop where
  newer : i.Newer i'
  stage : i'.state = i.state ∨ i'.state ∉ [.publishing, .published]
  claim_owner_id : i'.claim_owner_id = i.claim_owner_id
  claim_token : i'.claim_token = i.claim_token
  lease : i'.lease_expires_at = i.lease_expires_at ∨ op.presents = some (i.id, i.claim_token)

theorem FactoryWorkItem.Projected.newer {i i' : FactoryWorkItem} (h : i.Projected i') :
    i.Newer i' where
  id := by rw [h.columns]
  corp_id := by rw [h.columns]
  source := by rw [h.columns]
  source_issue_number := by rw [h.columns]
  source_revision := by rw [h.columns]
  live := h.managed.live
  version := h.version
  mission := fun _ => by rw [h.columns]
  shape := by
    intro _
    have houtcome := h.outcome
    have hlinked : i'.mission_id = i.mission_id := by rw [h.columns]
    constructor
    · intro hnone
      have hsome := h.linked
      rw [← hlinked, hnone] at hsome
      cases hsome
    · intro hclaimed
      rw [hclaimed] at houtcome
      cases houtcome

theorem FactoryWorkItem.Managed.stage {i i' : FactoryWorkItem} (h : i.Managed i') :
    i'.state ∉ [.publishing, .published] := by
  intro hmem
  exact h.target (List.mem_cons_of_mem _ hmem)

theorem FactoryWorkItem.Projected.kept_by {i i' : FactoryWorkItem} (op : WorkshopOp)
    (h : i.Projected i') : i.Kept_by op i' := by
  have hstage := h.managed.stage
  exact ⟨h.newer, Or.inr hstage, by rw [h.columns], by rw [h.columns], Or.inl (by rw [h.columns])⟩

theorem FactoryWorkItem.Managed.newer {i i' : FactoryWorkItem} (h : i.Managed i') : i.Newer i' where
  id := by rw [h.columns]
  corp_id := by rw [h.columns]
  source := by rw [h.columns]
  source_issue_number := by rw [h.columns]
  source_revision := by rw [h.columns]
  live := h.live
  version := h.version
  mission := h.mission
  shape := by
    intro _
    constructor
    · intro hnone
      exact List.mem_cons_of_mem _ (h.unlinked hnone)
    · intro hclaimed
      exact absurd (by simp [hclaimed]) h.target

/-! ## What every call writes -/

/-- Items, operations, journal and the terms of tasks apart, a call about claims writes
nothing. -/
structure Clerical (s t : Db) : Prop where
  respecified : Respecified s t
  factory_verification_recoveries :
    t.factory_verification_recoveries = s.factory_verification_recoveries
  /-- No item is linked. -/
  links : ∀ i' ∈ t.factory_work_items, i'.mission_id.isSome = true →
    ∃ i ∈ s.factory_work_items, i.id = i'.id ∧ i.mission_id = i'.mission_id

theorem Clerical.refl {s : Db} : Clerical s s :=
  ⟨Respecified.refl, rfl, fun i hi _ => ⟨i, hi, rfl, rfl⟩⟩

/-- A statement that writes neither the key nor the link of an item. -/
theorem links_updateWhere {l : List FactoryWorkItem} {p : FactoryWorkItem → Bool}
    {f : FactoryWorkItem → FactoryWorkItem}
    (hf : ∀ i : FactoryWorkItem, (f i).id = i.id ∧ (f i).mission_id = i.mission_id) :
    ∀ i' ∈ updateWhere p f l, i'.mission_id.isSome = true →
      ∃ i ∈ l, i.id = i'.id ∧ i.mission_id = i'.mission_id := by
  intro i' hi' _
  obtain ⟨i, hi, rfl⟩ := mem_updateWhere.mp hi'
  refine ⟨i, hi, ?_⟩
  split
  · exact ⟨(hf i).1.symm, (hf i).2.symm⟩
  · exact ⟨rfl, rfl⟩

/-- What a committed call does. -/
inductive Workshop.Advance (s : Workshop) (op : WorkshopOp) (t : Workshop) : Prop
  /-- The request has been answered before. -/
  | replayed (h : t = s)
  /-- Items move under the claims they have. -/
  | moved (token : Uuid)
      (held : ∀ c, op.control = some c → ∃ item ∈ s.factory_work_items, item.Held c)
      (presented : ∀ p, op.presents = some p → ∃ item ∈ s.factory_work_items,
        p = (item.id, item.claim_token))
      (items : Updated (fun i i' => i' = i ∨ i.Kept_by op i')
        s.factory_work_items t.factory_work_items)
      (log : Logged s.toDb t.toDb op.key token)
  /-- An item whose lease is over is claimed again. -/
  | taken (now : Int) (item : FactoryWorkItem) (actor_id : Uuid) (lease_expires_at : Int)
      (hop : op.claims_at = some now) (hitem : item ∈ s.factory_work_items)
      (live : factory_state_is_terminal item.state = false) (lapsed : item.lease_expires_at ≤ now)
      (items : t.factory_work_items = updateWhere
        (fun i => i.id == item.id && i.corp_id == item.corp_id)
        (fun i => i.reclaim actor_id s.next_claim_token lease_expires_at) s.factory_work_items)
      (keyed : op.key ≠ none)
      (log : Logged s.toDb t.toDb op.key s.next_claim_token)
  /-- An issue is claimed for the first time. -/
  | entered (now : Int) (item : FactoryWorkItem) (hop : op.claims_at = some now)
      (id : item.id = s.next_work_item_id) (claim_token : item.claim_token = s.next_claim_token)
      (version : item.version = 1) (state : item.state = .claimed)
      (mission_id : item.mission_id = none)
      (hnew : ∀ i ∈ s.factory_work_items, i.corp_id = item.corp_id →
        ¬ (i.source.source_project_owner = item.source.source_project_owner
          ∧ i.source.source_project_number = item.source.source_project_number
          ∧ i.source.source_project_item_id = item.source.source_project_item_id))
      (items : t.factory_work_items = s.factory_work_items ++ [item])
      (keyed : op.key ≠ none)
      (log : Logged s.toDb t.toDb op.key s.next_claim_token)

section Calls

variable {s t : Workshop} {o : FactoryWorkItemOutcome}

theorem journal_factory_call_ok {corp_id actor_id : Uuid} {item : FactoryWorkItem}
    {type : EventType}
    {operation : String} {correlated : Bool} {payload : Json}
    (h : journal_factory_call s corp_id actor_id item type operation correlated payload = .ok t) :
    ∃ events, t = { s with events } := by
  unfold journal_factory_call at h
  simp only [bind_eq_ok, append_new_event_tx_ok, pure_eq_ok] at h
  obtain ⟨_, -, _, ⟨-, rfl⟩, rfl⟩ := h
  exact ⟨_, rfl⟩

/-- A recorded operation. -/
theorem record_factory_operation_tx_logged {corp_id : Uuid} {key : String}
    {work_item_id actor_id : Uuid} {version : Int} {token : Uuid} {request : ClaimRequest}
    (hfresh : s.factory_operation corp_id key = none) :
    Logged s.toDb (record_factory_operation_tx s corp_id key work_item_id actor_id version token
      request).toDb (some (corp_id, key)) token := by
  refine ⟨nofun, ?_⟩
  intro c k hkey
  obtain ⟨rfl, rfl⟩ := Prod.mk.injEq .. ▸ Option.some.inj hkey
  exact ⟨hfresh, _, rfl, rfl, rfl, rfl⟩

/-- The ledger entry does not depend on the tables beside it. -/
theorem Logged.congr {a b b' : Db} {key : Option (Uuid × String)} {token : Uuid}
    (h : Logged a b key token) (hb : b'.factory_operations = b.factory_operations) :
    Logged a b' key token := by
  refine ⟨fun hkey => hb.trans (h.silent hkey), ?_⟩
  intro c k hkey
  obtain ⟨hfresh, row, hcorp, hrow, htoken, hops⟩ := h.entry c k hkey
  exact ⟨hfresh, row, hcorp, hrow, htoken, hb.trans hops⟩

theorem replay_item_call_ok {now : Int} {corp_id work_item_id actor_id claim_token : Uuid}
    {op : FactoryOperation} {request : ClaimRequest}
    (h : replay_item_call s now corp_id work_item_id actor_id claim_token op request = .ok (o, t)) :
    t = s ∧ ∃ item ∈ s.factory_work_items, o = replayed_outcome item op now := by
  unfold replay_item_call at h
  simp only [bind_eq_ok, context_eq_ok, pure_eq_ok, Prod.mk.injEq] at h
  obtain ⟨_, -, item, hitem, rfl, rfl⟩ := h
  exact ⟨rfl, item, (Db.factory_work_item_eq_some hitem).1, rfl⟩

theorem renew_factory_work_item_advance {now : Int} {input : RenewFactoryWorkItemInput}
    (hs : Keyed FactoryWorkItem.id s.factory_work_items)
    (h : renew_factory_work_item s now input = .ok (o, t)) :
    s.Advance (.renew_factory_work_item now input) t ∧ Clerical s.toDb t.toDb := by
  unfold renew_factory_work_item at h
  simp only [bind_eq_ok] at h
  obtain ⟨_, -, key, hkey, seconds, -, _, -, h⟩ := h
  split at h
  · obtain ⟨rfl, -⟩ := replay_item_call_ok h
    exact ⟨.replayed rfl, Clerical.refl⟩
  · rename_i hfresh
    simp only [bind_eq_ok, context_eq_ok, pure_eq_ok, Prod.mk.injEq] at h
    obtain ⟨current, hcurrent, _, hcontrol, v, hv, -, rfl⟩ := h
    obtain ⟨hmem, hheld⟩ := held_of_control hcurrent hcontrol
    obtain ⟨events, rfl⟩ := journal_factory_call_ok hv
    refine ⟨.moved input.claim_token ?_ ?_ ?_ ?_, ?_, rfl, links_updateWhere fun _ => ⟨rfl, rfl⟩⟩
    · rintro c hc
      obtain rfl := Option.some.inj hc
      exact ⟨current, hmem, hheld⟩
    · rintro p hp
      obtain rfl := Option.some.inj hp
      exact ⟨current, hmem, Prod.ext hheld.id.symm hheld.claim_token.symm⟩
    · refine Updated.of_updateWhere ?_ fun _ _ _ => Or.inl rfl
      intro i hi hclause
      simp only [Bool.and_eq_true, beq_iff_eq] at hclause
      obtain rfl := hs.eq_of_mem hi hmem (hclause.1.trans hheld.id.symm)
      refine Or.inr ⟨⟨rfl, rfl, rfl, rfl, rfl, hheld.live, by simp, fun _ => rfl, ?_⟩, Or.inl rfl,
        rfl, rfl, Or.inr ?_⟩
      · intro hshape
        exact ⟨hshape.unlinked, hshape.claimed⟩
      · show some (input.work_item_id, input.claim_token) = _
        rw [hheld.id, hheld.claim_token]
    · rw [WorkshopOp.key, recorded_under_normalized hkey]
      exact (record_factory_operation_tx_logged hfresh).congr rfl
    · exact { Respecified.refl with }

theorem upgrade_factory_source_commit_advance {now : Int} {input : UpgradeFactorySourceCommitInput}
    (hs : Keyed FactoryWorkItem.id s.factory_work_items)
    (h : upgrade_factory_source_commit documents s now input = .ok (o, t)) :
    s.Advance (.upgrade_factory_source_commit now input) t ∧ Clerical s.toDb t.toDb := by
  unfold upgrade_factory_source_commit at h
  simp only [bind_eq_ok] at h
  obtain ⟨_, -, _, -, key, hkey, _, -, h⟩ := h
  split at h
  · obtain ⟨rfl, -⟩ := replay_item_call_ok h
    exact ⟨.replayed rfl, Clerical.refl⟩
  · rename_i hfresh
    simp only [bind_eq_ok, context_eq_ok, pure_eq_ok, Prod.mk.injEq] at h
    obtain ⟨current, hcurrent, _, hcontrol, ⟨base_ref, policy⟩, -, u, hu, v, hv, -, rfl⟩ := h
    obtain ⟨hmem, hheld⟩ := held_of_control hcurrent hcontrol
    obtain ⟨events, rfl⟩ := journal_factory_call_ok hv
    -- the tasks of the mission keep their place
    obtain ⟨tasks, rfl, htasks⟩ : ∃ tasks, u = { s with tasks }
        ∧ Updated Task.Placed s.tasks tasks := by
      unfold pin_mission_tasks at hu
      split at hu
      · obtain rfl := Except.ok.inj hu
        exact ⟨s.tasks, rfl, Respecified.refl.tasks⟩
      · simp only [bind_eq_ok, pure_eq_ok] at hu
        obtain ⟨_, -, _, -, rfl⟩ := hu
        refine ⟨_, rfl, ?_⟩
        exact Updated.of_updateWhere (fun x _ _ => ⟨rfl, rfl, rfl, rfl, rfl⟩)
          fun x _ _ => Task.Placed.refl x
    refine ⟨.moved input.claim_token ?_ ?_ ?_ ?_, ?_, rfl, links_updateWhere fun _ => ⟨rfl, rfl⟩⟩
    · rintro c hc
      obtain rfl := Option.some.inj hc
      exact ⟨current, hmem, hheld⟩
    · rintro p hp
      obtain rfl := Option.some.inj hp
      exact ⟨current, hmem, Prod.ext hheld.id.symm hheld.claim_token.symm⟩
    · refine Updated.of_updateWhere ?_ fun _ _ _ => Or.inl rfl
      intro i hi hclause
      simp only [Bool.and_eq_true, beq_iff_eq] at hclause
      obtain rfl := hs.eq_of_mem hi hmem (hclause.1.trans hheld.id.symm)
      refine Or.inr ⟨⟨rfl, rfl, rfl, rfl, rfl, hheld.live, by simp, fun _ => rfl, ?_⟩, Or.inl rfl,
        rfl, rfl, Or.inl rfl⟩
      intro hshape
      exact ⟨hshape.unlinked, hshape.claimed⟩
    · rw [WorkshopOp.key, recorded_under_normalized hkey]
      exact (record_factory_operation_tx_logged hfresh).congr rfl
    · exact { Respecified.refl with tasks := htasks }

theorem reject_factory_materialization_advance {now : Int}
    {input : RejectFactoryMaterializationInput}
    (hs : Keyed FactoryWorkItem.id s.factory_work_items)
    (h : reject_factory_materialization s now input = .ok (o, t)) :
    s.Advance (.reject_factory_materialization now input) t ∧ Clerical s.toDb t.toDb := by
  unfold reject_factory_materialization at h
  simp only [bind_eq_ok] at h
  obtain ⟨_, -, detail, -, key, hkey, _, -, h⟩ := h
  split at h
  · obtain ⟨rfl, -⟩ := replay_item_call_ok h
    exact ⟨.replayed rfl, Clerical.refl⟩
  · rename_i hfresh
    simp only [bind_eq_ok, context_eq_ok, ensure_eq_ok, pure_eq_ok, Prod.mk.injEq] at h
    obtain ⟨current, hcurrent, _, ⟨-, htoken⟩, _, hmission, _, hstate, ⟨item, u⟩, hu, -, rfl⟩ := h
    obtain ⟨hmem, hid, -⟩ := Db.factory_work_item_eq_some hcurrent
    have hpresents : WorkshopOp.presents (.reject_factory_materialization now input)
        = some (current.id, current.claim_token) := by
      rw [hid, htoken]
      rfl
    -- the item is blocked already, or blocked now
    have hrejected : ∃ items events, u = { s with factory_work_items := items, events }
        ∧ Updated (fun i i' => i' = i ∨ i.Kept_by (.reject_factory_materialization now input) i')
          s.factory_work_items items
        ∧ ∀ i' ∈ items, i'.mission_id.isSome = true →
          ∃ i ∈ s.factory_work_items, i.id = i'.id ∧ i.mission_id = i'.mission_id := by
      unfold reject_claimed_item at hu
      split at hu
      · simp only [Except.ok.injEq, Prod.mk.injEq] at hu
        obtain ⟨-, rfl⟩ := hu
        exact ⟨_, _, rfl, updated_same, Clerical.refl.links⟩
      · rename_i hblocked
        simp only [bind_eq_ok, pure_eq_ok, Prod.mk.injEq] at hu
        obtain ⟨v, hv, -, rfl⟩ := hu
        obtain ⟨events, rfl⟩ := journal_factory_call_ok hv
        refine ⟨_, events, rfl, ?_, links_updateWhere fun _ => ⟨rfl, rfl⟩⟩
        refine Updated.of_updateWhere ?_ fun _ _ _ => Or.inl rfl
        intro i hi hclause
        simp only [Bool.and_eq_true, beq_iff_eq] at hclause
        obtain rfl := hs.eq_of_mem hi hmem (hclause.1.trans hid.symm)
        have hclaimed : i.state = .claimed := by
          simpa [hblocked] using hstate
        refine Or.inr ⟨⟨rfl, rfl, rfl, rfl, rfl, by rw [hclaimed]; rfl, by simp, fun _ => rfl, ?_⟩,
          Or.inr (by simp), rfl, rfl, Or.inr hpresents⟩
        intro _
        exact ⟨fun _ => by simp, (fun hsame => by cases hsame)⟩
    obtain ⟨items, events, rfl, hitems, hlinks⟩ := hrejected
    refine ⟨.moved input.claim_token (fun _ hcontrol => by cases hcontrol) ?_ hitems ?_, ?_, rfl,
      hlinks⟩
    · rintro p hp
      rw [hpresents] at hp
      exact ⟨current, hmem, (Option.some.inj hp).symm⟩
    · rw [WorkshopOp.key, recorded_under_normalized hkey]
      exact (record_factory_operation_tx_logged hfresh).congr rfl
    · exact { Respecified.refl with }

/-- The row of an issue. -/
theorem Db.source_item_eq_some {corp_id : Uuid} {source : FactorySourceInput}
    {item : FactoryWorkItem}
    (h : s.source_item corp_id source = some item) :
    item ∈ s.factory_work_items ∧ item.corp_id = corp_id := by
  have hfound := List.find?_some h
  simp only [Bool.and_eq_true, beq_iff_eq] at hfound
  exact ⟨List.mem_of_find?_eq_some h, hfound.1.1.1⟩

theorem finish_claim_ok {claim : NormalizedClaim} {item : FactoryWorkItem} {event_type : String}
    (h : finish_claim s claim item event_type = .ok (o, t)) :
    o = { work_item := item, claim_token := some item.claim_token, replayed := false }
      ∧ ∃ events, t = { record_factory_operation_tx s claim.corp_id claim.idempotency_key item.id
        claim.actor_id item.version item.claim_token claim.request with events } := by
  unfold finish_claim at h
  simp only [bind_eq_ok, pure_eq_ok, Prod.mk.injEq] at h
  obtain ⟨_, -, v, hv, rfl, rfl⟩ := h
  obtain ⟨events, rfl⟩ := journal_factory_call_ok hv
  exact ⟨rfl, events, rfl⟩

theorem claim_factory_work_item_advance {now : Int} {input : ClaimFactoryWorkItemInput}
    (h : claim_factory_work_item documents s now input = .ok (o, t)) :
    s.Advance (.claim_factory_work_item now input) t ∧ Clerical s.toDb t.toDb := by
  unfold claim_factory_work_item at h
  simp only [bind_eq_ok] at h
  obtain ⟨claim, hclaim, _, -, h⟩ := h
  have hkey : WorkshopOp.key (.claim_factory_work_item now input)
      = some (claim.corp_id, claim.idempotency_key) := by
    unfold normalize_claim at hclaim
    simp only [bind_eq_ok, pure_eq_ok] at hclaim
    obtain ⟨_, -, key, hkey, _, -, _, -, _, -, rfl⟩ := hclaim
    exact recorded_under_normalized hkey
  split at h
  · unfold replay_claim at h
    simp only [bind_eq_ok, pure_eq_ok, Prod.mk.injEq] at h
    obtain ⟨_, -, _, -, _, -, _, -, _, -, -, rfl⟩ := h
    exact ⟨.replayed rfl, Clerical.refl⟩
  · rename_i hfresh
    unfold make_claim at h
    split at h
    · rename_i current hcurrent
      obtain ⟨hmem, hcorp⟩ := Db.source_item_eq_some hcurrent
      simp only [bind_eq_ok, ensure_eq_ok] at h
      obtain ⟨_, hlive, h⟩ := h
      split at h
      · unfold recover_claim at h
        simp only [bind_eq_ok, pure_eq_ok, Prod.mk.injEq] at h
        obtain ⟨_, -, _, -, _, -, _, -, -, rfl⟩ := h
        refine ⟨.moved current.claim_token (fun _ hcontrol => by cases hcontrol)
          (fun _ hpresents => by cases hpresents) updated_same ?_, { Respecified.refl with }, rfl,
          Clerical.refl.links⟩
        rw [hkey]
        exact record_factory_operation_tx_logged hfresh
      · rename_i hover
        simp only [bind_eq_ok] at h
        obtain ⟨⟨item, u⟩, hu, h⟩ := h
        obtain ⟨-, events, rfl⟩ := finish_claim_ok h
        unfold reclaim at hu
        simp only [bind_eq_ok, pure_eq_ok, Prod.mk.injEq] at hu
        obtain ⟨_, -, _, -, _, -, rfl, rfl⟩ := hu
        refine ⟨.taken now current claim.actor_id (now + claim.lease_seconds) rfl hmem hlive
          (not_lt.mp hover) ?_ (by rw [hkey]; exact Option.some_ne_none _) ?_,
            { Respecified.refl with }, rfl,
          links_updateWhere fun _ => ⟨rfl, rfl⟩⟩
        · rw [hcorp]
          rfl
        · rw [hkey]
          exact (record_factory_operation_tx_logged hfresh).congr rfl
    · rename_i hnone
      simp only [bind_eq_ok] at h
      obtain ⟨⟨item, u⟩, hu, h⟩ := h
      obtain ⟨-, events, rfl⟩ := finish_claim_ok h
      unfold new_claim at hu
      simp only [bind_eq_ok, pure_eq_ok, Prod.mk.injEq] at hu
      obtain ⟨_, -, rfl, rfl⟩ := hu
      refine ⟨.entered now _ rfl rfl rfl rfl rfl rfl ?_ rfl
        (by rw [hkey]; exact Option.some_ne_none _) ?_, { Respecified.refl with }, rfl, ?_⟩
      · rintro i hi hcorp ⟨howner, hnumber, hitem⟩
        have hother := List.find?_eq_none.mp hnone i hi
        simp only [Bool.and_eq_true, beq_iff_eq] at hother
        exact hother ⟨⟨⟨hcorp, howner⟩, hnumber⟩, hitem⟩
      · rw [hkey]
        exact (record_factory_operation_tx_logged hfresh).congr rfl
      · intro i hi hsome
        rcases List.mem_append.mp hi with hi | hi
        · exact ⟨i, hi, rfl, rfl⟩
        · -- the new item is not linked
          rw [List.mem_singleton.mp hi] at hsome
          cases hsome

end Calls

/-! ## Every call -/

theorem Op.factory_key_eq_none {op : Op} (h : op.control = none) : op.factory_key = none := by
  cases op with
  | materialize_factory_mission now input => cases h
  | transition_factory_work_item now input => cases h
  | _ => rfl

/-- A call of the lifecycle moves items under the claims they have. -/
theorem Conduct.advance {s : Workshop} {db : Db} {op : Op} (h : Conduct s.toDb db op) :
    s.Advance (.lifecycle op) { s with toDb := db } := by
  cases h with
  | replayed h =>
    refine .replayed ?_
    rw [h]
  | works hop h =>
    have hpresents : WorkshopOp.presents (.lifecycle op) = none := by
      rw [WorkshopOp.presents_lifecycle, hop]
      rfl
    refine .moved 0 ?_ ?_ ?_ ⟨fun _ => h.operations, ?_⟩
    · intro c hc
      rw [WorkshopOp.control, hop] at hc
      cases hc
    · intro p hp
      rw [hpresents] at hp
      cases hp
    · refine h.items.mono ?_
      rintro i - i' (rfl | hi)
      · exact Or.inl rfl
      · exact Or.inr (hi.kept_by _)
    · intro c k hkey
      rw [WorkshopOp.key, Op.factory_key_eq_none hop] at hkey
      cases hkey
  | managed c item hop hitem hheld items log =>
    have hpresents : WorkshopOp.presents (.lifecycle op) = some (item.id, item.claim_token) := by
      rw [WorkshopOp.presents_lifecycle, hop, hheld.id, hheld.claim_token]
      rfl
    refine .moved c.claim_token ?_ ?_ ?_ log
    · intro c' hc'
      rw [WorkshopOp.control, hop] at hc'
      obtain rfl := Option.some.inj hc'
      exact ⟨item, hitem, hheld⟩
    · intro p hp
      rw [hpresents] at hp
      exact ⟨item, hitem, (Option.some.inj hp).symm⟩
    · refine items.mono ?_
      rintro i - i' (rfl | ⟨rfl, hi⟩)
      · exact Or.inl rfl
      · exact Or.inr ⟨hi.newer, Or.inr hi.stage, by rw [hi.columns], by rw [hi.columns],
          Or.inr hpresents⟩

/-- **What every committed call does to the items.** -/
theorem Workshop.exec_advance {s t : Workshop} {op : WorkshopOp} (hb : Bound s.toDb)
    (h : s.exec env documents op = .ok t) : s.Advance op t := by
  cases op with
  | lifecycle op =>
    obtain ⟨db, hdb, rfl⟩ := map_eq_ok.mp h
    exact (exec_conduct hb hdb).advance
  | claim_factory_work_item now input =>
    obtain ⟨⟨o, u⟩, hu, rfl⟩ := map_eq_ok.mp h
    exact (claim_factory_work_item_advance hu).1
  | renew_factory_work_item now input =>
    obtain ⟨⟨o, u⟩, hu, rfl⟩ := map_eq_ok.mp h
    exact (renew_factory_work_item_advance hb.items_keyed hu).1
  | reject_factory_materialization now input =>
    obtain ⟨⟨o, u⟩, hu, rfl⟩ := map_eq_ok.mp h
    exact (reject_factory_materialization_advance hb.items_keyed hu).1
  | upgrade_factory_source_commit now input =>
    obtain ⟨⟨o, u⟩, hu, rfl⟩ := map_eq_ok.mp h
    exact (upgrade_factory_source_commit_advance hb.items_keyed hu).1

/-- A call is one of the lifecycle or leaves the runs alone. -/
theorem Workshop.exec_clerical {s t : Workshop} {op : WorkshopOp} (hb : Bound s.toDb)
    (h : s.exec env documents op = .ok t) :
    (∃ call, op = .lifecycle call ∧ Store.exec env s.toDb call = .ok t.toDb)
      ∨ Clerical s.toDb t.toDb := by
  cases op with
  | lifecycle op =>
    obtain ⟨db, hdb, rfl⟩ := map_eq_ok.mp h
    exact Or.inl ⟨op, rfl, hdb⟩
  | claim_factory_work_item now input =>
    obtain ⟨⟨o, u⟩, hu, rfl⟩ := map_eq_ok.mp h
    exact Or.inr (claim_factory_work_item_advance hu).2
  | renew_factory_work_item now input =>
    obtain ⟨⟨o, u⟩, hu, rfl⟩ := map_eq_ok.mp h
    exact Or.inr (renew_factory_work_item_advance hb.items_keyed hu).2
  | reject_factory_materialization now input =>
    obtain ⟨⟨o, u⟩, hu, rfl⟩ := map_eq_ok.mp h
    exact Or.inr (reject_factory_materialization_advance hb.items_keyed hu).2
  | upgrade_factory_source_commit now input =>
    obtain ⟨⟨o, u⟩, hu, rfl⟩ := map_eq_ok.mp h
    exact Or.inr (upgrade_factory_source_commit_advance hb.items_keyed hu).2

/-! ## Invariants -/

/-- What holds of claims, items and operations between any two calls. -/
structure Workshop.Sound (s : Workshop) : Prop where
  inv : Inv s.toDb
  bound : Bound s.toDb
  shaped : ∀ i ∈ s.factory_work_items, i.Shaped
  versions : ∀ i ∈ s.factory_work_items, 0 < i.version
  /-- A token is the claim on one item. -/
  tokens : Keyed FactoryWorkItem.claim_token s.factory_work_items
  /-- The operation that handed out the token is on record. -/
  recorded : ∀ i ∈ s.factory_work_items, ∃ op ∈ s.factory_operations,
    op.claim_token = some i.claim_token
  /-- A key is recorded once. -/
  operations : Keyed (fun op : FactoryOperation => (op.corp_id, op.idempotency_key))
    s.factory_operations

theorem Workshop.Initial.sound {s : Workshop} (h : s.Initial) : s.Sound where
  inv := h.db.inv
  bound := h.db.bound
  shaped := by simp [h.factory_work_items]
  versions := by simp [h.factory_work_items]
  tokens := by simp [h.factory_work_items, Keyed]
  recorded := by simp [h.factory_work_items]
  operations := by simp [h.factory_operations, Keyed]

/-- The invariants of the lifecycle survive clerical work on items that keep their identity and
link. -/
theorem Clerical.bound {s t : Db} (h : Clerical s t) (hb : Bound s)
    (hkeyed : Keyed FactoryWorkItem.id t.factory_work_items) : Bound t where
  items_keyed := hkeyed
  links := by
    intro i' hi' j' hj' hsome heq
    obtain ⟨i, hi, hid, hlink⟩ := h.links i' hi' hsome
    obtain ⟨j, hj, hjd, hjlink⟩ := h.links j' hj' (heq ▸ hsome)
    have hij : i = j := hb.links i hi j hj (by rw [hlink]; exact hsome) (by rw [hlink, hjlink, heq])
    refine hkeyed.eq_of_mem hi' hj' ?_
    rw [← hid, ← hjd, hij]
  link_mission := by
    intro i' hi' id hid
    obtain ⟨i, hi, -, hlink⟩ := h.links i' hi' (by rw [hid]; rfl)
    obtain ⟨m, hm, hmid⟩ := hb.link_mission i hi id (hlink.trans hid)
    obtain ⟨m', hm', hplaced⟩ := h.respecified.missions.exists_new hm
    exact ⟨m', hm', hplaced.id.trans hmid⟩
  recoveries_keyed := by
    rw [h.factory_verification_recoveries]
    exact hb.recoveries_keyed
  replacements := by
    rw [h.factory_verification_recoveries]
    exact hb.replacements
  replacement_run := by
    rw [h.factory_verification_recoveries, h.respecified.runs]
    exact hb.replacement_run

namespace Workshop.Advance

variable {s t : Workshop} {op : WorkshopOp}

/-- The entry of an operation is the only one under its key. -/
theorem operations_keyed (h : s.Advance op t) (hs : s.Sound) :
    Keyed (fun op : FactoryOperation => (op.corp_id, op.idempotency_key)) t.factory_operations := by
  have hlogged : ∀ token, Logged s.toDb t.toDb op.key token →
      Keyed (fun op : FactoryOperation => (op.corp_id, op.idempotency_key))
        t.factory_operations := by
    intro token log
    by_cases hkey : op.key = none
    · rw [log.silent hkey]
      exact hs.operations
    · obtain ⟨⟨corp_id, k⟩, hkey⟩ := Option.ne_none_iff_exists'.mp hkey
      obtain ⟨hfresh, row, hcorp, hrow, -, hops⟩ := log.entry corp_id k hkey
      rw [hops]
      refine hs.operations.append_singleton ?_
      intro other hother hsame
      have hnot := List.find?_eq_none.mp hfresh other hother
      rw [Prod.mk.injEq, hcorp, hrow] at hsame
      simp [hsame.1, hsame.2] at hnot
  cases h with
  | replayed h =>
    rw [h]
    exact hs.operations
  | moved token _ _ _ log => exact hlogged token log
  | taken _ _ _ _ _ _ _ _ _ _ log => exact hlogged _ log
  | entered _ _ _ _ _ _ _ _ _ _ _ log => exact hlogged _ log

/-- No operation is removed. -/
theorem operations_grow (h : s.Advance op t) {row : FactoryOperation}
    (hrow : row ∈ s.factory_operations) : row ∈ t.factory_operations := by
  have hlogged : ∀ token, Logged s.toDb t.toDb op.key token → row ∈ t.factory_operations := by
    intro token log
    by_cases hkey : op.key = none
    · rw [log.silent hkey]
      exact hrow
    · obtain ⟨⟨corp_id, k⟩, hkey⟩ := Option.ne_none_iff_exists'.mp hkey
      obtain ⟨-, new, -, -, -, hops⟩ := log.entry corp_id k hkey
      rw [hops]
      exact List.mem_append_left _ hrow
  cases h with
  | replayed h =>
    rw [h]
    exact hrow
  | moved token _ _ _ log => exact hlogged token log
  | taken _ _ _ _ _ _ _ _ _ _ log => exact hlogged _ log
  | entered _ _ _ _ _ _ _ _ _ _ _ log => exact hlogged _ log

end Workshop.Advance

/-- An operation is recorded with its token. -/
theorem Logged.recorded {a b : Db} {key : Option (Uuid × String)} {token : Uuid}
    (h : Logged a b key token) (hkey : key ≠ none) :
    ∃ row ∈ b.factory_operations, row.claim_token = some token := by
  obtain ⟨⟨corp_id, k⟩, rfl⟩ := Option.ne_none_iff_exists'.mp hkey
  obtain ⟨-, row, -, -, htoken, hops⟩ := h.entry corp_id k rfl
  refine ⟨row, ?_, htoken⟩
  rw [hops]
  exact List.mem_append_right _ List.mem_cons_self

/-- A new token is no item's and no operation's. -/
theorem Db.next_claim_token_fresh (s : Db) :
    (∀ i ∈ s.factory_work_items, i.claim_token ≠ s.next_claim_token)
      ∧ ∀ row ∈ s.factory_operations, row.claim_token ≠ some s.next_claim_token := by
  have hfresh := s.new_v4_notMem (s.factory_work_items.map FactoryWorkItem.claim_token
    ++ s.factory_operations.filterMap FactoryOperation.claim_token)
  constructor
  · intro i hi he
    refine hfresh (List.mem_append_left _ (List.mem_map.mpr ⟨i, hi, he⟩))
  · intro row hrow he
    exact hfresh (List.mem_append_right _ (List.mem_filterMap.mpr ⟨row, hrow, he⟩))

theorem Db.next_work_item_id_fresh (s : Db) :
    ∀ i ∈ s.factory_work_items, i.id ≠ s.next_work_item_id := by
  intro i hi he
  exact s.new_v4_notMem _ (List.mem_map.mpr ⟨i, hi, he⟩)

theorem FactoryWorkItem.reclaim_newer {i : FactoryWorkItem} {actor_id token : Uuid} {lease : Int}
    (hlive : factory_state_is_terminal i.state = false) :
    i.Newer (i.reclaim actor_id token lease) where
  id := rfl
  corp_id := rfl
  source := rfl
  source_issue_number := rfl
  source_revision := rfl
  live := hlive
  version := by simp [FactoryWorkItem.reclaim]
  mission := fun _ => rfl
  shape := by
    intro hshape
    by_cases hlinked : i.mission_id.isSome = true
    · have hstate : (i.reclaim actor_id token lease).state = i.state := if_pos hlinked
      refine ⟨fun hnone => ?_, fun hclaimed => hshape.claimed (hstate ▸ hclaimed)⟩
      rw [show i.mission_id = none from hnone] at hlinked
      cases hlinked
    · have hstate : (i.reclaim actor_id token lease).state = .claimed := if_neg hlinked
      have hnone : i.mission_id = none := by simpa using hlinked
      refine ⟨fun _ => ?_, fun _ => hnone⟩
      rw [hstate]
      exact List.mem_cons_self

namespace Workshop.Advance

variable {s t : Workshop} {op : WorkshopOp}

/-- Every item is still there, as it was or in a later row; a row that is new is a claim. -/
theorem rows (h : s.Advance op t) (hs : s.Sound) {i' : FactoryWorkItem}
    (hi' : i' ∈ t.factory_work_items) :
    (∃ i ∈ s.factory_work_items, i' = i ∨ i.Newer i')
      ∨ (i'.id = s.next_work_item_id ∧ i'.version = 1 ∧ i'.Shaped) := by
  cases h with
  | replayed h =>
    rw [h] at hi'
    exact Or.inl ⟨i', hi', Or.inl rfl⟩
  | moved token _ _ items _ =>
    obtain ⟨i, hi, hmoved⟩ := items.exists_old hi'
    exact Or.inl ⟨i, hi, hmoved.imp_right fun hk => hk.newer⟩
  | taken now item actor_id lease _ hitem live _ items _ _ =>
    rw [items] at hi'
    obtain ⟨i, hi, rfl⟩ := mem_updateWhere.mp hi'
    refine Or.inl ⟨i, hi, ?_⟩
    by_cases hclause : (i.id == item.id && i.corp_id == item.corp_id) = true
    · rw [if_pos hclause]
      obtain rfl := hs.bound.items_keyed.eq_of_mem hi hitem (id_of_clause hclause)
      exact Or.inr (FactoryWorkItem.reclaim_newer live)
    · rw [if_neg hclause]
      exact Or.inl rfl
  | entered now item _ id _ version state mission_id _ items _ _ =>
    rw [items] at hi'
    rcases List.mem_append.mp hi' with hi' | hi'
    · exact Or.inl ⟨i', hi', Or.inl rfl⟩
    · rw [List.mem_singleton.mp hi']
      refine Or.inr ⟨id, version, ?_, fun _ => mission_id⟩
      intro _
      rw [state]
      exact List.mem_cons_self

/-- The converse of `rows`. -/
theorem rows_kept (h : s.Advance op t) (hs : s.Sound) {i : FactoryWorkItem}
    (hi : i ∈ s.factory_work_items) : ∃ i' ∈ t.factory_work_items, i' = i ∨ i.Newer i' := by
  cases h with
  | replayed h => exact ⟨i, h ▸ hi, Or.inl rfl⟩
  | moved token _ _ items _ =>
    obtain ⟨i', hi', hmoved⟩ := items.exists_new hi
    exact ⟨i', hi', hmoved.imp_right fun hk => hk.newer⟩
  | taken now item actor_id lease _ hitem live _ items _ _ =>
    rw [items]
    refine ⟨_, mem_updateWhere.mpr ⟨i, hi, rfl⟩, ?_⟩
    by_cases hclause : (i.id == item.id && i.corp_id == item.corp_id) = true
    · rw [if_pos hclause]
      obtain rfl := hs.bound.items_keyed.eq_of_mem hi hitem (id_of_clause hclause)
      exact Or.inr (FactoryWorkItem.reclaim_newer live)
    · rw [if_neg hclause]
      exact Or.inl rfl
  | entered now item _ _ _ _ _ _ _ items _ _ =>
    rw [items]
    exact ⟨i, List.mem_append_left _ hi, Or.inl rfl⟩

/-- Nothing is published by a call about claims or by the lifecycle. -/
theorem stage (h : s.Advance op t) {i' : FactoryWorkItem} (hi' : i' ∈ t.factory_work_items)
    (hstage : i'.state ∈ [.publishing, .published]) :
    ∃ i ∈ s.factory_work_items, i.id = i'.id ∧ i.state = i'.state := by
  cases h with
  | replayed h => exact ⟨i', h ▸ hi', rfl, rfl⟩
  | moved token _ _ items _ =>
    obtain ⟨i, hi, rfl | hk⟩ := items.exists_old hi'
    · exact ⟨i', hi, rfl, rfl⟩
    · rcases hk.stage with hsame | hnot
      · exact ⟨i, hi, hk.newer.id.symm, hsame.symm⟩
      · exact absurd hstage hnot
  | taken now item actor_id lease _ hitem live _ items _ _ =>
    rw [items] at hi'
    obtain ⟨i, hi, rfl⟩ := mem_updateWhere.mp hi'
    refine ⟨i, hi, ?_⟩
    by_cases hclause : (i.id == item.id && i.corp_id == item.corp_id) = true
    · rw [if_pos hclause] at hstage ⊢
      refine ⟨rfl, ?_⟩
      by_cases hlinked : i.mission_id.isSome = true
      · exact (if_pos hlinked).symm
      · -- what is claimed again is not published
        rw [show (i.reclaim actor_id s.next_claim_token lease).state = .claimed from if_neg hlinked]
          at hstage
        simp at hstage
    · rw [if_neg hclause]
      exact ⟨rfl, rfl⟩
  | entered now item _ _ _ _ state _ _ items _ _ =>
    rw [items] at hi'
    rcases List.mem_append.mp hi' with hi' | hi'
    · exact ⟨i', hi', rfl, rfl⟩
    · rw [List.mem_singleton.mp hi', state] at hstage
      simp at hstage

theorem items_keyed (h : s.Advance op t) (hs : s.Sound) :
    Keyed FactoryWorkItem.id t.factory_work_items := by
  cases h with
  | replayed h =>
    rw [h]
    exact hs.bound.items_keyed
  | moved token _ _ items _ =>
    refine items.keyed hs.bound.items_keyed ?_
    rintro i i' (rfl | hk)
    · rfl
    · exact hk.newer.id
  | taken now item actor_id lease _ hitem live _ items _ _ =>
    rw [items]
    exact hs.bound.items_keyed.updateWhere fun _ _ => rfl
  | entered now item _ id _ _ _ _ _ items _ _ =>
    rw [items]
    refine hs.bound.items_keyed.append_singleton ?_
    intro i hi
    rw [id]
    exact s.next_work_item_id_fresh i hi

theorem tokens (h : s.Advance op t) (hs : s.Sound) :
    Keyed FactoryWorkItem.claim_token t.factory_work_items := by
  obtain ⟨hfresh, -⟩ := s.next_claim_token_fresh
  cases h with
  | replayed h =>
    rw [h]
    exact hs.tokens
  | moved token _ _ items _ =>
    refine items.keyed hs.tokens ?_
    rintro i i' (rfl | hk)
    · rfl
    · exact hk.claim_token
  | taken now item actor_id lease _ hitem live _ items _ _ =>
    rw [items]
    refine hs.tokens.updateWhere_key ?_ ?_
    · intro a ha b hb hpa hpb
      exact hs.bound.items_keyed.eq_of_mem ha hb ((id_of_clause hpa).trans (id_of_clause hpb).symm)
    · intro a _ _ b hb _
      exact hfresh b hb
  | entered now item _ _ claim_token _ _ _ _ items _ _ =>
    rw [items]
    refine hs.tokens.append_singleton ?_
    intro i hi
    rw [claim_token]
    exact hfresh i hi

theorem tokens_recorded (h : s.Advance op t) (hs : s.Sound) :
    ∀ i' ∈ t.factory_work_items, ∃ row ∈ t.factory_operations,
      row.claim_token = some i'.claim_token := by
  have hold : ∀ i ∈ s.factory_work_items, ∃ row ∈ t.factory_operations,
      row.claim_token = some i.claim_token := by
    intro i hi
    obtain ⟨row, hrow, htoken⟩ := hs.recorded i hi
    exact ⟨row, h.operations_grow hrow, htoken⟩
  intro i' hi'
  cases h with
  | replayed h => exact hold i' (h ▸ hi')
  | moved token _ _ items _ =>
    obtain ⟨i, hi, rfl | hk⟩ := items.exists_old hi'
    · exact hold i' hi
    · rw [hk.claim_token]
      exact hold i hi
  | taken now item actor_id lease _ hitem live _ items hkey log =>
    rw [items] at hi'
    obtain ⟨i, hi, rfl⟩ := mem_updateWhere.mp hi'
    by_cases hclause : (i.id == item.id && i.corp_id == item.corp_id) = true
    · rw [if_pos hclause]
      exact log.recorded hkey
    · rw [if_neg hclause]
      exact hold i hi
  | entered now item _ _ claim_token _ _ _ _ items hkey log =>
    rw [items] at hi'
    rcases List.mem_append.mp hi' with hi' | hi'
    · exact hold i' hi'
    · rw [List.mem_singleton.mp hi', claim_token]
      exact log.recorded hkey

end Workshop.Advance

/-- **The invariants of the claims are kept.** -/
theorem Workshop.exec_sound {s t : Workshop} {op : WorkshopOp} (hs : s.Sound)
    (h : s.exec env documents op = .ok t) : t.Sound := by
  have hadvance := Workshop.exec_advance hs.bound h
  have hlife : Inv t.toDb ∧ Bound t.toDb := by
    rcases Workshop.exec_clerical hs.bound h with ⟨call, -, hcall⟩ | hclerical
    · exact ⟨exec_inv hs.inv hcall, exec_bound hs.inv hs.bound hcall⟩
    · exact ⟨hclerical.respecified.inv hs.inv,
        hclerical.bound hs.bound (hadvance.items_keyed hs)⟩
  refine ⟨hlife.1, hlife.2, ?_, ?_, hadvance.tokens hs, hadvance.tokens_recorded hs,
    hadvance.operations_keyed hs⟩
  · intro i' hi'
    rcases hadvance.rows hs hi' with ⟨i, hi, rfl | hnewer⟩ | ⟨-, -, hshape⟩
    · exact hs.shaped i' hi
    · exact hnewer.shape (hs.shaped i hi)
    · exact hshape
  · intro i' hi'
    rcases hadvance.rows hs hi' with ⟨i, hi, rfl | hnewer⟩ | ⟨-, hone, -⟩
    · exact hs.versions i' hi
    · exact lt_trans (hs.versions i hi) hnewer.version
    · omega

/-- They are kept by whatever else does clerical work and moves items forward. -/
theorem Workshop.Sound.of_clerical {s t : Workshop} (hs : s.Sound) (h : Clerical s.toDb t.toDb)
    (hoperations : t.factory_operations = s.factory_operations)
    (hitems : Updated (fun i i' => i' = i ∨ (i.Newer i' ∧ i'.claim_token = i.claim_token))
      s.factory_work_items t.factory_work_items) : t.Sound := by
  have hkeyed : Keyed FactoryWorkItem.id t.factory_work_items := by
    refine hitems.keyed hs.bound.items_keyed ?_
    rintro i i' (rfl | ⟨hnewer, -⟩)
    · rfl
    · exact hnewer.id
  have htokens : Keyed FactoryWorkItem.claim_token t.factory_work_items := by
    refine hitems.keyed hs.tokens ?_
    rintro i i' (rfl | ⟨-, htoken⟩)
    · rfl
    · exact htoken
  refine ⟨h.respecified.inv hs.inv, h.bound hs.bound hkeyed, ?_, ?_, htokens, ?_, ?_⟩
  · intro i' hi'
    obtain ⟨i, hi, rfl | ⟨hnewer, -⟩⟩ := hitems.exists_old hi'
    · exact hs.shaped i' hi
    · exact hnewer.shape (hs.shaped i hi)
  · intro i' hi'
    obtain ⟨i, hi, rfl | ⟨hnewer, -⟩⟩ := hitems.exists_old hi'
    · exact hs.versions i' hi
    · exact lt_trans (hs.versions i hi) hnewer.version
  · intro i' hi'
    rw [hoperations]
    obtain ⟨i, hi, rfl | ⟨-, htoken⟩⟩ := hitems.exists_old hi'
    · exact hs.recorded i' hi
    · rw [htoken]
      exact hs.recorded i hi
  · rw [hoperations]
    exact hs.operations

/-- They hold in every reachable state. -/
theorem workshops_sound {ok : Workshop → WorkshopOp → Prop} {s : Workshop}
    (h : (workshops env documents).ReachableVia ok s) : s.Sound :=
  TransitionSystem.ReachableVia.invariant_of_exec (I := Workshop.Sound) h (fun _ h0 => h0.sound)
    fun _ _ _ hI _ hexec => Workshop.exec_sound hI hexec

end Crony.Store
