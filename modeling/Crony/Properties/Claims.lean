/-
Claims on Factory work items, over whole runs.

Any number of workers claim, renew, move and give up items while the lifecycle projects the
progress of missions onto them. Three things hold whatever the order of the calls. The version
and the token fence an item: what was written with an older version or under an older token is
never written again. A lease excludes: until it is over, the item stays with its holder unless
the holder acts. A key is good for one effect.
-/
import Crony.Lib.Once
import Crony.Lifecycle.Claims

set_option autoImplicit false

open Crony.Lib

namespace Crony.Store

variable {env : Env} {documents : PolicyDocuments}

/-! ## Rows along a run -/

theorem FactoryWorkItem.Newer.trans {a b c : FactoryWorkItem} (h : a.Newer b) (h' : b.Newer c) :
    a.Newer c where
  id := h'.id.trans h.id
  corp_id := h'.corp_id.trans h.corp_id
  source := h'.source.trans h.source
  source_issue_number := h'.source_issue_number.trans h.source_issue_number
  source_revision := h'.source_revision.trans h.source_revision
  live := h.live
  version := lt_trans h.version h'.version
  mission := by
    intro hsome
    have hlink := h.mission hsome
    exact (h'.mission (hlink ▸ hsome)).trans hlink
  shape := fun hshape => h'.shape (h.shape hshape)

/-- A row is as it was, or a later one of the same item. -/
theorem FactoryWorkItem.later_trans {a b c : FactoryWorkItem} (h : b = a ∨ a.Newer b)
    (h' : c = b ∨ b.Newer c) : c = a ∨ a.Newer c := by
  rcases h with rfl | h
  · exact h'
  · rcases h' with rfl | h'
    · exact Or.inr h
    · exact Or.inr (h.trans h')

theorem FactoryWorkItem.later_id {a b : FactoryWorkItem} (h : b = a ∨ a.Newer b) :
    b.id = a.id ∧ a.version ≤ b.version := by
  rcases h with rfl | h
  · exact ⟨rfl, le_refl _⟩
  · exact ⟨h.id, le_of_lt h.version⟩

variable {ok : Workshop → WorkshopOp → Prop} {s t u : Workshop}

/-- The invariants hold along a run from any state in which they hold. -/
theorem Workshop.Sound.reaches (hs : s.Sound) (h : (workshops env documents).Reaches ok s t) :
    t.Sound :=
  TransitionSystem.Reaches.preserves_of_exec h hs fun _ _ _ hI _ hexec =>
    Workshop.exec_sound hI hexec

/-- **No item is lost, and every write to one shows in its version.** -/
theorem items_later (hs : s.Sound) (h : (workshops env documents).Reaches ok s t)
    {i : FactoryWorkItem} (hi : i ∈ s.factory_work_items) :
    ∃ i' ∈ t.factory_work_items, i' = i ∨ i.Newer i' := by
  have hboth := TransitionSystem.Reaches.preserves_of_exec
    (I := fun u : Workshop => u.Sound ∧ ∃ i' ∈ u.factory_work_items, i' = i ∨ i.Newer i') h
    ⟨hs, i, hi, Or.inl rfl⟩ ?_
  · exact hboth.2
  · rintro a op b ⟨ha, j, hj, hlater⟩ - hexec
    obtain ⟨j', hj', hstep⟩ := (Workshop.exec_advance ha.bound hexec).rows_kept ha hj
    exact ⟨Workshop.exec_sound ha hexec, j', hj', FactoryWorkItem.later_trans hlater hstep⟩

/-! ## Versions and tokens -/

/-- A call that presents a version other than the item's has no effect. -/
theorem step_of_stale_version (hs : s.Sound) {op : WorkshopOp} {c : FactoryControl}
    (hop : op.control = some c) {i : FactoryWorkItem} (hi : i ∈ s.factory_work_items)
    (hid : i.id = c.work_item_id) (hversion : i.version ≠ c.expected_version) :
    (workshops env documents).step s op = s := by
  refine TransitionSystem.ofExec_step_cases (P := fun t : Workshop => t = s) rfl ?_
  intro t ht
  have hclaims : op.claims_at = none := by
    cases op with
    | claim_factory_work_item now input => cases hop
    | _ => rfl
  cases Workshop.exec_advance hs.bound ht with
  | replayed h => exact h
  | moved token held _ _ _ =>
    obtain ⟨item, hitem, hheld⟩ := held c hop
    have hsame := hs.bound.items_keyed.eq_of_mem hi hitem (hid.trans hheld.id.symm)
    exact absurd (hsame ▸ hheld.version) hversion
  | taken now _ _ _ hat =>
    rw [hclaims] at hat
    cases hat
  | entered now _ hat =>
    rw [hclaims] at hat
    cases hat

/-- The token of an item after a call is the one it had, or a new one. -/
theorem Workshop.Advance.token {op : WorkshopOp} (h : s.Advance op t) {i' : FactoryWorkItem}
    (hi' : i' ∈ t.factory_work_items) :
    (∃ i ∈ s.factory_work_items, i.id = i'.id ∧ i'.claim_token = i.claim_token)
      ∨ i'.claim_token = s.next_claim_token := by
  cases h with
  | replayed h => exact Or.inl ⟨i', h ▸ hi', rfl, rfl⟩
  | moved token _ _ items _ =>
    obtain ⟨i, hi, rfl | hk⟩ := items.exists_old hi'
    · exact Or.inl ⟨i', hi, rfl, rfl⟩
    · exact Or.inl ⟨i, hi, hk.newer.id.symm, hk.claim_token⟩
  | taken now item actor_id lease _ _ _ _ items _ _ =>
    rw [items] at hi'
    obtain ⟨i, hi, rfl⟩ := mem_updateWhere.mp hi'
    by_cases hclause : (i.id == item.id && i.corp_id == item.corp_id) = true
    · rw [if_pos hclause]
      exact Or.inr rfl
    · rw [if_neg hclause]
      exact Or.inl ⟨i, hi, rfl, rfl⟩
  | entered now item _ _ claim_token _ _ _ _ items _ _ =>
    rw [items] at hi'
    rcases List.mem_append.mp hi' with hi' | hi'
    · exact Or.inl ⟨i', hi', rfl, rfl⟩
    · rw [List.mem_singleton.mp hi']
      exact Or.inr claim_token

/-- The token is on record, and is the claim on the item with this key at most. -/
structure Workshop.Issued (s : Workshop) (token item_id : Uuid) : Prop where
  recorded : ∃ row ∈ s.factory_operations, row.claim_token = some token
  item : ∀ i ∈ s.factory_work_items, i.claim_token = token → i.id = item_id

/-- An issued token is never issued again. -/
theorem Workshop.Issued.advance {op : WorkshopOp} {token item_id : Uuid}
    (h : s.Issued token item_id)
    (ha : s.Advance op t) :
    t.Issued token item_id ∧ ∀ i' ∈ t.factory_work_items, i'.claim_token = token →
      ∃ i ∈ s.factory_work_items, i.claim_token = token := by
  have hold : ∀ i' ∈ t.factory_work_items, i'.claim_token = token →
      ∃ i ∈ s.factory_work_items, i.id = i'.id ∧ i.claim_token = token := by
    intro i' hi' htoken
    rcases ha.token hi' with ⟨i, hi, hid, hsame⟩ | hnew
    · exact ⟨i, hi, hid, hsame ▸ htoken⟩
    · obtain ⟨row, hrow, hrecorded⟩ := h.recorded
      have htaken : row.claim_token = some s.next_claim_token := by
        rw [hrecorded, ← hnew, htoken]
      exact absurd htaken (s.next_claim_token_fresh.2 row hrow)
  refine ⟨⟨?_, ?_⟩, ?_⟩
  · obtain ⟨row, hrow, hrecorded⟩ := h.recorded
    exact ⟨row, ha.operations_grow hrow, hrecorded⟩
  · intro i' hi' htoken
    obtain ⟨i, hi, hid, hsame⟩ := hold i' hi' htoken
    rw [← hid]
    exact h.item i hi hsame
  · intro i' hi' htoken
    obtain ⟨i, hi, -, hsame⟩ := hold i' hi' htoken
    exact ⟨i, hi, hsame⟩

/-- Once no item has an issued token, none ever has, and nothing can be done with it. -/
theorem Workshop.Issued.dead {token item_id : Uuid} (h : s.Issued token item_id)
    (hnone : ∀ i ∈ s.factory_work_items, i.claim_token ≠ token)
    (hrun : (workshops env documents).Reaches ok s t) (hs : s.Sound) :
    (∀ i ∈ t.factory_work_items, i.claim_token ≠ token)
      ∧ ∀ op : WorkshopOp, ∀ id, op.presents = some (id, token) →
        (workshops env documents).step t op = t := by
  have hend := TransitionSystem.Reaches.preserves_of_exec
    (I := fun u : Workshop => u.Sound ∧ u.Issued token item_id
      ∧ ∀ i ∈ u.factory_work_items, i.claim_token ≠ token) hrun ⟨hs, h, hnone⟩ ?_
  · obtain ⟨ht, -, hdead⟩ := hend
    refine ⟨hdead, ?_⟩
    intro op id hop
    refine TransitionSystem.ofExec_step_cases (P := fun u : Workshop => u = t) rfl ?_
    intro u hu
    have hclaims : op.claims_at = none := by
      cases op with
      | claim_factory_work_item now input => cases hop
      | _ => rfl
    cases Workshop.exec_advance ht.bound hu with
    | replayed h => exact h
    | moved _ _ presented _ _ =>
      obtain ⟨item, hitem, hp⟩ := presented _ hop
      rw [Prod.mk.injEq] at hp
      exact absurd hp.2.symm (hdead item hitem)
    | taken now _ _ _ hat =>
      rw [hclaims] at hat
      cases hat
    | entered now _ hat =>
      rw [hclaims] at hat
      cases hat
  · rintro a op b ⟨ha, hissued, hdead⟩ - hexec
    obtain ⟨hissued', hback⟩ := hissued.advance (Workshop.exec_advance ha.bound hexec)
    refine ⟨Workshop.exec_sound ha hexec, hissued', ?_⟩
    intro i' hi' htoken
    obtain ⟨i, hi, hsame⟩ := hback i' hi' htoken
    exact hdead i hi hsame

/-- The token of an item is issued for it. -/
theorem Workshop.Sound.issued (hs : s.Sound) {i : FactoryWorkItem} (hi : i ∈ s.factory_work_items) :
    s.Issued i.claim_token i.id where
  recorded := hs.recorded i hi
  item := by
    intro j hj htoken
    rw [hs.tokens.eq_of_mem hj hi htoken]

/-- It stays the claim on this item, or on none. -/
theorem Workshop.Issued.reaches {token item_id : Uuid} (h : s.Issued token item_id) (hs : s.Sound)
    (hrun : (workshops env documents).Reaches ok s t) : t.Issued token item_id := by
  have hend := TransitionSystem.Reaches.preserves_of_exec
    (I := fun u : Workshop => u.Sound ∧ u.Issued token item_id) hrun ⟨hs, h⟩ ?_
  · exact hend.2
  · rintro a op b ⟨ha, hissued⟩ - hexec
    exact ⟨Workshop.exec_sound ha hexec,
      (hissued.advance (Workshop.exec_advance ha.bound hexec)).1⟩

/-! ## Tokens that are handed out -/

/-- A call of the worker is answered. -/
def Workshop.Answers (documents : PolicyDocuments) (s : Workshop) (now : Int) (actor_id : Uuid)
    (o : FactoryWorkItemOutcome) (t : Workshop) : Prop :=
  (∃ input, input.actor_id = actor_id ∧ claim_factory_work_item documents s now input = .ok (o, t))
    ∨ (∃ input, input.actor_id = actor_id ∧ renew_factory_work_item s now input = .ok (o, t))
    ∨ (∃ input, input.actor_id = actor_id ∧ reject_factory_materialization s now input = .ok (o, t))
    ∨ ∃ input, input.actor_id = actor_id
      ∧ upgrade_factory_source_commit documents s now input = .ok (o, t)

/-- The token is the claim of the worker on the item, and its lease runs. -/
structure FactoryWorkItem.GrantedTo (i : FactoryWorkItem) (actor_id token : Uuid) (now : Int) :
    Prop where
  live : factory_state_is_terminal i.state = false
  claim_owner_id : i.claim_owner_id = actor_id
  claim_token : i.claim_token = token
  lease : now < i.lease_expires_at

/-- A replay returns the token only while it is still the claim. -/
theorem replayed_outcome_granted {work_item : FactoryWorkItem} {op : FactoryOperation} {now : Int}
    {token : Uuid} (h : (replayed_outcome work_item op now).claim_token = some token) :
    work_item.GrantedTo op.actor_id token now := by
  obtain ⟨-, hall⟩ := Option.filter_eq_some_iff.mp h
  simp only [Bool.and_eq_true, Bool.not_eq_true', beq_iff_eq, decide_eq_true_eq] at hall
  obtain ⟨⟨⟨⟨hlive, howner⟩, -⟩, hlease⟩, htoken⟩ := hall
  exact ⟨hlive, howner, htoken, hlease⟩

theorem ensure_claim_operation_matches_actor {op : FactoryOperation} {actor_id : Uuid}
    {work_item_id claim_token : Option Uuid} {request : ClaimRequest} {v : Unit}
    (h : ensure_claim_operation_matches s op actor_id work_item_id claim_token request = .ok v) :
    op.actor_id = actor_id := by
  unfold ensure_claim_operation_matches at h
  exact (ensure_eq_ok.mp h).2.1

theorem replay_item_call_granted {now : Int}
    {corp_id work_item_id actor_id claim_token token : Uuid}
    {op : FactoryOperation} {request : ClaimRequest} {o : FactoryWorkItemOutcome}
    (h : replay_item_call s now corp_id work_item_id actor_id claim_token op request = .ok (o, t))
    (htoken : o.claim_token = some token) :
    o.work_item ∈ t.factory_work_items ∧ o.work_item.GrantedTo actor_id token now := by
  unfold replay_item_call at h
  simp only [bind_eq_ok, context_eq_ok, pure_eq_ok, Prod.mk.injEq] at h
  obtain ⟨_, hmatches, item, hitem, rfl, rfl⟩ := h
  refine ⟨(Db.factory_work_item_eq_some hitem).1, ?_⟩
  rw [← ensure_claim_operation_matches_actor hmatches]
  exact replayed_outcome_granted htoken

theorem validate_factory_lease_seconds_ok {value seconds : Int}
    (h : validate_factory_lease_seconds value = .ok seconds) : 30 ≤ seconds := by
  unfold validate_factory_lease_seconds at h
  simp only [bind_eq_ok, ensure_eq_ok, pure_eq_ok] at h
  obtain ⟨_, hbounds, rfl⟩ := h
  exact hbounds.1

/-- The row a statement writes for an item that is in the table. -/
theorem mem_updateWhere_clause {item : FactoryWorkItem} {corp_id item_id : Uuid}
    {f : FactoryWorkItem → FactoryWorkItem} {l : List FactoryWorkItem} (hitem : item ∈ l)
    (hid : item.id = item_id) (hcorp : item.corp_id = corp_id) :
    f item ∈ updateWhere (fun i => i.id == item_id && i.corp_id == corp_id) f l := by
  refine mem_updateWhere.mpr ⟨item, hitem, ?_⟩
  rw [if_pos]
  simp [hid, hcorp]

theorem recover_claim_granted {now : Int} {claim : NormalizedClaim} {current : FactoryWorkItem}
    {o : FactoryWorkItemOutcome} {token : Uuid} (hcurrent : current ∈ s.factory_work_items)
    (hlive : factory_state_is_terminal current.state = false)
    (hlease : now < current.lease_expires_at)
    (h : recover_claim s claim current = .ok (o, t)) (htoken : o.claim_token = some token) :
    o.work_item ∈ t.factory_work_items ∧ o.work_item.GrantedTo claim.actor_id token now := by
  unfold recover_claim at h
  simp only [bind_eq_ok, ensure_eq_ok, pure_eq_ok, Prod.mk.injEq] at h
  obtain ⟨_, howner, _, -, _, -, _, -, rfl, rfl⟩ := h
  exact ⟨hcurrent, hlive, howner, Option.some.inj htoken, hlease⟩

theorem reclaim_granted {now : Int} {claim : NormalizedClaim} {current item : FactoryWorkItem}
    {u : Workshop} (hcurrent : current ∈ s.factory_work_items)
    (hcorp : current.corp_id = claim.corp_id)
    (hlive : factory_state_is_terminal current.state = false) (hseconds : 30 ≤ claim.lease_seconds)
    (h : reclaim s now claim current = .ok (item, u)) :
    item ∈ u.factory_work_items ∧ item.GrantedTo claim.actor_id item.claim_token now := by
  unfold reclaim at h
  simp only [bind_eq_ok, pure_eq_ok, Prod.mk.injEq] at h
  obtain ⟨_, -, _, -, _, -, rfl, rfl⟩ := h
  refine ⟨mem_updateWhere_clause hcurrent rfl hcorp, ⟨?_, rfl, rfl, ?_⟩⟩
  · show factory_state_is_terminal (if current.mission_id.isSome then current.state else _) = false
    by_cases hlinked : current.mission_id.isSome = true
    · rw [if_pos hlinked]
      exact hlive
    · rw [if_neg hlinked]
      rfl
  · show now < now + claim.lease_seconds
    omega

theorem new_claim_granted {now : Int} {claim : NormalizedClaim} {item : FactoryWorkItem}
    {u : Workshop} (hseconds : 30 ≤ claim.lease_seconds)
    (h : new_claim s now claim = .ok (item, u)) :
    item ∈ u.factory_work_items ∧ item.GrantedTo claim.actor_id item.claim_token now := by
  unfold new_claim at h
  simp only [bind_eq_ok, pure_eq_ok, Prod.mk.injEq] at h
  obtain ⟨_, -, rfl, rfl⟩ := h
  refine ⟨List.mem_append_right _ List.mem_cons_self, ⟨rfl, rfl, rfl, ?_⟩⟩
  show now < now + claim.lease_seconds
  omega

theorem make_claim_granted {now : Int} {claim : NormalizedClaim} {o : FactoryWorkItemOutcome}
    {token : Uuid} (hseconds : 30 ≤ claim.lease_seconds)
    (h : make_claim s now claim = .ok (o, t)) (htoken : o.claim_token = some token) :
    o.work_item ∈ t.factory_work_items ∧ o.work_item.GrantedTo claim.actor_id token now := by
  -- both kinds of new claims hand out the token of their row
  have hfinish : ∀ {item : FactoryWorkItem} {event_type : String} {u : Workshop},
      item ∈ u.factory_work_items ∧ item.GrantedTo claim.actor_id item.claim_token now →
      finish_claim u claim item event_type = .ok (o, t) →
      o.work_item ∈ t.factory_work_items ∧ o.work_item.GrantedTo claim.actor_id token now := by
    intro item event_type u hgranted hend
    obtain ⟨rfl, events, rfl⟩ := finish_claim_ok hend
    rw [← Option.some.inj htoken]
    exact hgranted
  unfold make_claim at h
  split at h
  · rename_i current hcurrent
    obtain ⟨hmem, hcorp⟩ := Db.source_item_eq_some hcurrent
    simp only [bind_eq_ok, ensure_eq_ok] at h
    obtain ⟨_, hlive, h⟩ := h
    split at h
    · rename_i hlease
      exact recover_claim_granted hmem hlive hlease h htoken
    · simp only [bind_eq_ok] at h
      obtain ⟨⟨item, u⟩, hu, h⟩ := h
      exact hfinish (reclaim_granted hmem hcorp hlive hseconds hu) h
  · simp only [bind_eq_ok] at h
    obtain ⟨⟨item, u⟩, hu, h⟩ := h
    exact hfinish (new_claim_granted hseconds hu) h

theorem claim_factory_work_item_granted {now : Int} {input : ClaimFactoryWorkItemInput}
    {o : FactoryWorkItemOutcome} {token : Uuid}
    (h : claim_factory_work_item documents s now input = .ok (o, t))
    (htoken : o.claim_token = some token) :
    o.work_item ∈ t.factory_work_items ∧ o.work_item.GrantedTo input.actor_id token now := by
  unfold claim_factory_work_item at h
  simp only [bind_eq_ok] at h
  obtain ⟨claim, hclaim, _, -, h⟩ := h
  have hnormal : claim.actor_id = input.actor_id ∧ 30 ≤ claim.lease_seconds := by
    unfold normalize_claim at hclaim
    simp only [bind_eq_ok, pure_eq_ok] at hclaim
    obtain ⟨_, -, _, -, seconds, hseconds, _, -, _, -, rfl⟩ := hclaim
    exact ⟨rfl, validate_factory_lease_seconds_ok hseconds⟩
  obtain ⟨hactor, hseconds⟩ := hnormal
  rw [← hactor]
  split at h
  · unfold replay_claim at h
    simp only [bind_eq_ok, context_eq_ok, pure_eq_ok, Prod.mk.injEq] at h
    obtain ⟨_, hmatches, item, hitem, _, -, _, -, _, -, rfl, rfl⟩ := h
    refine ⟨(Db.factory_work_item_eq_some hitem).1, ?_⟩
    rw [← ensure_claim_operation_matches_actor hmatches]
    exact replayed_outcome_granted htoken
  · exact make_claim_granted hseconds h htoken

theorem renew_factory_work_item_granted {now : Int} {input : RenewFactoryWorkItemInput}
    {o : FactoryWorkItemOutcome} {token : Uuid}
    (h : renew_factory_work_item s now input = .ok (o, t)) (htoken : o.claim_token = some token) :
    o.work_item ∈ t.factory_work_items ∧ o.work_item.GrantedTo input.actor_id token now := by
  unfold renew_factory_work_item at h
  simp only [bind_eq_ok] at h
  obtain ⟨_, -, _, -, seconds, hseconds, _, -, h⟩ := h
  have hbound := validate_factory_lease_seconds_ok hseconds
  split at h
  · exact replay_item_call_granted h htoken
  · simp only [bind_eq_ok, context_eq_ok, pure_eq_ok, Prod.mk.injEq] at h
    obtain ⟨current, hcurrent, _, hcontrol, v, hv, rfl, rfl⟩ := h
    obtain ⟨hmem, hheld⟩ := held_of_control hcurrent hcontrol
    obtain ⟨events, rfl⟩ := journal_factory_call_ok hv
    refine ⟨mem_updateWhere_clause hmem hheld.id hheld.corp_id,
      ⟨hheld.live, hheld.claim_owner_id, ?_, ?_⟩⟩
    · exact hheld.claim_token.trans (Option.some.inj htoken)
    · show now < now + seconds
      omega

theorem upgrade_factory_source_commit_granted {now : Int} {input : UpgradeFactorySourceCommitInput}
    {o : FactoryWorkItemOutcome} {token : Uuid}
    (h : upgrade_factory_source_commit documents s now input = .ok (o, t))
    (htoken : o.claim_token = some token) :
    o.work_item ∈ t.factory_work_items ∧ o.work_item.GrantedTo input.actor_id token now := by
  unfold upgrade_factory_source_commit at h
  simp only [bind_eq_ok] at h
  obtain ⟨_, -, _, -, _, -, _, -, h⟩ := h
  split at h
  · exact replay_item_call_granted h htoken
  · simp only [bind_eq_ok, context_eq_ok, pure_eq_ok, Prod.mk.injEq] at h
    obtain ⟨current, hcurrent, _, hcontrol, pinned, -, u, hu, v, hv, rfl, rfl⟩ := h
    obtain ⟨hmem, hheld⟩ := held_of_control hcurrent hcontrol
    obtain ⟨events, rfl⟩ := journal_factory_call_ok hv
    -- the tasks are written, the items are not
    have hitems : u.factory_work_items = s.factory_work_items := by
      unfold pin_mission_tasks at hu
      split at hu
      · rw [← Except.ok.inj hu]
      · simp only [bind_eq_ok, pure_eq_ok] at hu
        obtain ⟨_, -, _, -, rfl⟩ := hu
        rfl
    refine ⟨mem_updateWhere_clause (hitems ▸ hmem) hheld.id hheld.corp_id,
      ⟨hheld.live, hheld.claim_owner_id, ?_, hheld.lease⟩⟩
    exact hheld.claim_token.trans (Option.some.inj htoken)

/-- A rejection hands out no token. -/
theorem reject_factory_materialization_granted {now : Int}
    {input : RejectFactoryMaterializationInput} {o : FactoryWorkItemOutcome} {token : Uuid}
    (h : reject_factory_materialization s now input = .ok (o, t))
    (htoken : o.claim_token = some token) :
    o.work_item ∈ t.factory_work_items ∧ o.work_item.GrantedTo input.actor_id token now := by
  unfold reject_factory_materialization at h
  simp only [bind_eq_ok] at h
  obtain ⟨_, -, _, -, _, -, _, -, h⟩ := h
  split at h
  · exact replay_item_call_granted h htoken
  · simp only [bind_eq_ok, pure_eq_ok, Prod.mk.injEq] at h
    obtain ⟨_, -, _, -, _, -, _, -, _, -, rfl, -⟩ := h
    cases htoken

/-- **A token is handed out only to whom it is the claim of, while its lease runs.** -/
theorem Workshop.Answers.granted {now : Int} {actor_id token : Uuid} {o : FactoryWorkItemOutcome}
    (h : s.Answers documents now actor_id o t) (htoken : o.claim_token = some token) :
    o.work_item ∈ t.factory_work_items ∧ o.work_item.GrantedTo actor_id token now := by
  rcases h with ⟨input, rfl, h⟩ | ⟨input, rfl, h⟩ | ⟨input, rfl, h⟩ | ⟨input, rfl, h⟩
  · exact claim_factory_work_item_granted h htoken
  · exact renew_factory_work_item_granted h htoken
  · exact reject_factory_materialization_granted h htoken
  · exact upgrade_factory_source_commit_granted h htoken

/-! ## Fencing -/

/-- What was written with an older version or under an older token cannot be written again. -/
structure Workshop.Fenced (env : Env) (documents : PolicyDocuments) (s : Workshop) : Prop where
  /-- No item is lost, and every write shows in its version. -/
  later : ∀ {ok : Workshop → WorkshopOp → Prop} {t : Workshop},
    (workshops env documents).Reaches ok s t → ∀ i ∈ s.factory_work_items,
      ∃ i' ∈ t.factory_work_items, i' = i ∨ i.Newer i'
  /-- A call that presents a version the item has left behind has no effect. -/
  stale_version : ∀ {ok : Workshop → WorkshopOp → Prop} {t : Workshop},
    (workshops env documents).Reaches ok s t → ∀ i ∈ s.factory_work_items,
      ∀ i' ∈ t.factory_work_items, i'.id = i.id → i' ≠ i → ∀ (op : WorkshopOp) (c : FactoryControl),
        op.control = some c → c.work_item_id = i.id → c.expected_version ≤ i.version →
          (workshops env documents).step t op = t
  /-- A token that was replaced is never issued again, and whoever presents it is refused. -/
  stale_token : ∀ {ok ok' : Workshop → WorkshopOp → Prop} {t u : Workshop},
    (workshops env documents).Reaches ok s t → (workshops env documents).Reaches ok' t u →
      ∀ i ∈ s.factory_work_items, ∀ i' ∈ t.factory_work_items, i'.id = i.id →
        i'.claim_token ≠ i.claim_token →
          (∀ j ∈ u.factory_work_items, j.claim_token ≠ i.claim_token)
            ∧ ∀ (op : WorkshopOp) (id : Uuid), op.presents = some (id, i.claim_token) →
              (workshops env documents).step u op = u

/-- **Versions and tokens fence the items, in every reachable state.** -/
theorem claims_fenced {ok : Workshop → WorkshopOp → Prop} {s : Workshop}
    (h : (workshops env documents).ReachableVia ok s) : s.Fenced env documents := by
  have hs := workshops_sound h
  refine ⟨fun hrun i hi => items_later hs hrun hi, ?_, ?_⟩
  · intro ok t hrun i hi i' hi' hid hne op c hop hc hversion
    have ht := hs.reaches hrun
    obtain ⟨j, hj, hlater⟩ := items_later hs hrun hi
    have hji : j = i' := by
      refine ht.bound.items_keyed.eq_of_mem hj hi' ?_
      rw [hid, (FactoryWorkItem.later_id hlater).1]
    have hnewer : i.Newer i' := by
      rcases hlater with hsame | hnewer
      · exact absurd (hji ▸ hsame) hne
      · exact hji ▸ hnewer
    -- every write raises the version, so the one presented is not the current one
    have hgrown := hnewer.version
    refine step_of_stale_version ht hop hi' (hid.trans hc.symm) ?_
    omega
  · intro ok ok' t u hrun hrest i hi i' hi' hid hreplaced
    have ht := hs.reaches hrun
    have hissued := (hs.issued hi).reaches hs hrun
    -- the token could only be this item's, and it has another one
    have hnone : ∀ j ∈ t.factory_work_items, j.claim_token ≠ i.claim_token := by
      intro j hj htoken
      have hji : j = i' :=
        ht.bound.items_keyed.eq_of_mem hj hi' ((hissued.item j hj htoken).trans hid.symm)
      exact hreplaced (hji ▸ htoken)
    exact hissued.dead hnone hrest ht

namespace Shop

def base_commit : String := "0123456789abcdef0123456789abcdef01234567"

def policy : Json :=
  .obj [("source_base_commit", .str base_commit), ("source_base_ref", .str "HEAD")]

def serde : PolicyDocuments where
  from_value := fun _ => none
  to_vec_len := fun _ => 100
  to_text := fun _ => "policy"
  from_text := fun _ => none

/-- The issue, with short names throughout. -/
def source : FactorySourceInput where
  project_owner := "o"
  project_number := 7
  project_item_id := "i"
  repository_owner := "o"
  repository_name := "s"
  issue_number := 3
  issue_node_id := "n"
  issue_url := "https://github.com/o/s/issues/3"
  title := "t"
  revision := "r"

def office : Workshop := { Office.db with factory_requests := [] }

theorem initial : office.Initial where
  db := Office.initial
  factory_work_items := rfl
  factory_operations := rfl
  factory_requests := rfl

def input (actor_id : Uuid) (idempotency_key : String) : ClaimFactoryWorkItemInput where
  corp_id := 1
  actor_id := actor_id
  source := source
  idempotency_key := idempotency_key
  lease_seconds := 60
  policy := policy
  connection_allows := true

def claim (actor_id : Uuid) (now : Int) (idempotency_key : String) : WorkshopOp :=
  .claim_factory_work_item now (input actor_id idempotency_key)

/-- The state after some calls. -/
def after (calls : List WorkshopOp) : Workshop := (workshops Office.digest serde).run office calls

theorem reachable_after (calls : List WorkshopOp) :
    (workshops Office.digest serde).Reachable (after calls) :=
  TransitionSystem.Reachable.run initial calls

theorem after_append (calls : List WorkshopOp) (op : WorkshopOp) :
    after (calls ++ [op]) = (workshops Office.digest serde).step (after calls) op :=
  List.foldl_append

/-- Further calls that meet a condition are a run. -/
theorem reaches_after {ok : Workshop → WorkshopOp → Prop} (calls : List WorkshopOp)
    {more : List WorkshopOp} (h : (workshops Office.digest serde).Meets ok (after calls) more) :
    (workshops Office.digest serde).Reaches ok (after calls) (after (calls ++ more)) := by
  have hrun := TransitionSystem.Reaches.run h
  unfold after TransitionSystem.run at hrun ⊢
  rw [List.foldl_append]
  exact hrun

/-- A second worker claims the item after the lease of the first one. -/
def taken_over : List WorkshopOp := [claim 1 100 "first", claim 2 170 "second"]

end Shop

set_option maxRecDepth 20000 in
/-- Another worker takes the item over, and the token of the first one is worth nothing. -/
theorem claims_fenced_taken_over :
    ∃ i ∈ (Shop.after [Shop.claim 1 100 "first"]).factory_work_items,
      (∀ j ∈ (Shop.after Shop.taken_over).factory_work_items, j.claim_token ≠ i.claim_token)
        ∧ ∀ (op : WorkshopOp) (id : Uuid), op.presents = some (id, i.claim_token) →
          (workshops Office.digest Shop.serde).step (Shop.after Shop.taken_over) op
            = Shop.after Shop.taken_over := by
  -- the second claim comes after the lease of the first, 100 + 60
  have hrun : (workshops Office.digest Shop.serde).Reaches (fun _ _ => True)
      (Shop.after [Shop.claim 1 100 "first"]) (Shop.after Shop.taken_over) :=
    Shop.reaches_after [Shop.claim 1 100 "first"] ⟨trivial, trivial⟩
  have htaken : ∃ i ∈ (Shop.after [Shop.claim 1 100 "first"]).factory_work_items,
      ∃ i' ∈ (Shop.after Shop.taken_over).factory_work_items,
        i'.id = i.id ∧ i'.claim_token ≠ i.claim_token := by decide +kernel
  obtain ⟨i, hi, i', hi', hid, hreplaced⟩ := htaken
  have hfenced := claims_fenced (Shop.reachable_after [Shop.claim 1 100 "first"])
  have hstays : (workshops Office.digest Shop.serde).Reaches (fun _ _ => True)
      (Shop.after Shop.taken_over) (Shop.after Shop.taken_over) := .refl
  exact ⟨i, hi, hfenced.stale_token hrun hstays i hi i' hi' hid hreplaced⟩

/-! ## Leases -/

/-- The item is as it was granted. -/
def Workshop.holds (s : Workshop) (item : FactoryWorkItem) : Prop :=
  ∃ i ∈ s.factory_work_items, i.id = item.id ∧ i.claim_owner_id = item.claim_owner_id
    ∧ i.claim_token = item.claim_token ∧ i.lease_expires_at = item.lease_expires_at

/-- The call is not the holder's, and no claim made after the lease. -/
def WorkshopOp.Strange (item : FactoryWorkItem) (op : WorkshopOp) : Prop :=
  op.presents ≠ some (item.id, item.claim_token)
    ∧ ∀ now ∈ op.claims_at, now < item.lease_expires_at

instance (item : FactoryWorkItem) (op : WorkshopOp) : Decidable (op.Strange item) :=
  inferInstanceAs (Decidable (_ ∧ _))

theorem Workshop.Advance.holds {op : WorkshopOp} {item : FactoryWorkItem} (h : s.Advance op t)
    (hs : s.Sound) (hop : op.Strange item) (hitem : s.holds item) : t.holds item := by
  unfold Workshop.holds
  obtain ⟨i, hi, hid, howner, htoken, hlease⟩ := hitem
  cases h with
  | replayed h => exact ⟨i, h ▸ hi, hid, howner, htoken, hlease⟩
  -- a renewal keeps the lease unless it presents the token, which nobody does
  | moved token _ _ items _ =>
    obtain ⟨i', hi', rfl | hk⟩ := items.exists_new hi
    · exact ⟨i', hi', hid, howner, htoken, hlease⟩
    · have hkept : i'.lease_expires_at = i.lease_expires_at := by
        rcases hk.lease with hkept | hpresents
        · exact hkept
        · rw [hid, htoken] at hpresents
          exact absurd hpresents hop.1
      exact ⟨i', hi', hk.newer.id.trans hid, hk.claim_owner_id.trans howner,
        hk.claim_token.trans htoken, hkept.trans hlease⟩
  | taken now other actor_id lease hat hother _ lapsed items _ _ =>
    rw [items]
    refine ⟨i, mem_updateWhere.mpr ⟨i, hi, ?_⟩, hid, howner, htoken, hlease⟩
    rw [if_neg]
    intro hclause
    -- the item that is taken over has no lease any more
    have hsame := hs.bound.items_keyed.eq_of_mem hi hother (id_of_clause hclause)
    have hbefore := hop.2 now hat
    rw [← hlease, hsame] at hbefore
    omega
  | entered now other _ _ _ _ _ _ _ items _ _ =>
    rw [items]
    exact ⟨i, List.mem_append_left _ hi, hid, howner, htoken, hlease⟩

variable (env) in
/-- A call that is answered is a step of the system. -/
theorem Workshop.Answers.exec {now : Int} {actor_id : Uuid} {o : FactoryWorkItemOutcome}
    (h : s.Answers documents now actor_id o t) :
    ∃ op : WorkshopOp, s.exec env documents op = .ok t ∧ ∀ at_time ∈ op.claims_at,
      at_time = now := by
  rcases h with ⟨input, -, h⟩ | ⟨input, -, h⟩ | ⟨input, -, h⟩ | ⟨input, -, h⟩
  · refine ⟨.claim_factory_work_item now input, map_eq_ok.mpr ⟨_, h, rfl⟩, ?_⟩
    intro at_time hat
    exact (Option.some.inj hat).symm
  · exact ⟨.renew_factory_work_item now input, map_eq_ok.mpr ⟨_, h, rfl⟩, nofun⟩
  · exact ⟨.reject_factory_materialization now input, map_eq_ok.mpr ⟨_, h, rfl⟩, nofun⟩
  · exact ⟨.upgrade_factory_source_commit now input, map_eq_ok.mpr ⟨_, h, rfl⟩, nofun⟩

/-- No call before the end of the lease changes the owner of an item. -/
theorem Workshop.Advance.owner {op : WorkshopOp} {item i' : FactoryWorkItem} (h : s.Advance op t)
    (hs : s.Sound) (hat : ∀ now ∈ op.claims_at, now < item.lease_expires_at) (hitem : s.holds item)
    (hi' : i' ∈ t.factory_work_items) (hid' : i'.id = item.id) :
    i'.claim_owner_id = item.claim_owner_id := by
  obtain ⟨i, hi, hid, howner, -, hlease⟩ := hitem
  -- the row before the call
  have hrow : ∀ j ∈ s.factory_work_items, j.id = i'.id →
      j.claim_owner_id = item.claim_owner_id := by
    intro j hj hjd
    rw [hs.bound.items_keyed.eq_of_mem hj hi (hjd.trans (hid'.trans hid.symm))]
    exact howner
  cases h with
  | replayed h => exact hrow i' (h ▸ hi') rfl
  | moved token _ _ items _ =>
    obtain ⟨j, hj, rfl | hk⟩ := items.exists_old hi'
    · exact hrow i' hj rfl
    · exact hk.claim_owner_id.trans (hrow j hj hk.newer.id.symm)
  | taken now other actor_id lease hop hother _ lapsed items _ _ =>
    rw [items] at hi'
    obtain ⟨j, hj, rfl⟩ := mem_updateWhere.mp hi'
    by_cases hclause : (j.id == other.id && j.corp_id == other.corp_id) = true
    · rw [if_pos hclause] at hid'
      have hother' := hs.bound.items_keyed.eq_of_mem hi hother
        ((hid.trans hid'.symm).trans (id_of_clause hclause))
      have hbefore := hat now hop
      rw [← hlease, hother'] at hbefore
      omega
    · rw [if_neg hclause] at hrow ⊢
      exact hrow j hj rfl
  | entered now other _ id _ _ _ _ _ items _ _ =>
    rw [items] at hi'
    rcases List.mem_append.mp hi' with hi' | hi'
    · exact hrow i' hi' rfl
    · -- the new item has an id of its own
      rw [List.mem_singleton.mp hi', id] at hid'
      exact absurd (hid.trans hid'.symm) (s.next_work_item_id_fresh i hi)

/-- What a lease keeps out. -/
structure Workshop.Excludes (env : Env) (documents : PolicyDocuments) (s : Workshop) : Prop where
  /-- A worker that was handed the token of an item keeps the item, whatever others do in whatever
  order, as long as nobody presents the token and no claim is made after the lease. -/
  kept : ∀ {now : Int} {actor_id token : Uuid} {o : FactoryWorkItemOutcome} {t u : Workshop},
    s.Answers documents now actor_id o t → o.claim_token = some token →
      (workshops env documents).Reaches (fun _ op => op.Strange o.work_item) t u →
        ∃ i ∈ u.factory_work_items, i.id = o.work_item.id ∧ i.claim_owner_id = actor_id
          ∧ i.claim_token = token ∧ i.lease_expires_at = o.work_item.lease_expires_at
  /-- Until then no other worker is handed a token for the item. -/
  alone : ∀ {now : Int} {actor_id token : Uuid} {o : FactoryWorkItemOutcome} {t u : Workshop},
    s.Answers documents now actor_id o t → o.claim_token = some token →
      (workshops env documents).Reaches (fun _ op => op.Strange o.work_item) t u →
        ∀ (now' : Int) (actor_id' token' : Uuid) (o' : FactoryWorkItemOutcome) (v : Workshop),
          now' < o.work_item.lease_expires_at → u.Answers documents now' actor_id' o' v →
            o'.work_item.id = o.work_item.id → o'.claim_token = some token' → actor_id' = actor_id

/-- An item that was handed out is as it was granted. -/
theorem Workshop.Answers.kept {s t u : Workshop} {now : Int} {actor_id token : Uuid}
    {o : FactoryWorkItemOutcome} (h : s.Answers documents now actor_id o t) (hs : s.Sound)
    (htoken : o.claim_token = some token)
    (hrun : (workshops env documents).Reaches (fun _ op => op.Strange o.work_item) t u) :
    u.Sound ∧ u.holds o.work_item := by
  obtain ⟨hmem, -⟩ := h.granted htoken
  obtain ⟨op, hexec, -⟩ := h.exec env
  refine TransitionSystem.Reaches.preserves_of_exec
    (I := fun w : Workshop => w.Sound ∧ w.holds o.work_item) hrun
    ⟨Workshop.exec_sound hs hexec, o.work_item, hmem, rfl, rfl, rfl, rfl⟩ ?_
  rintro a op b ⟨ha, hholds⟩ hop hab
  exact ⟨Workshop.exec_sound ha hab,
    (Workshop.exec_advance ha.bound hab).holds ha hop hholds⟩

/-- **A lease excludes, in every reachable state.** -/
theorem lease_excludes {ok : Workshop → WorkshopOp → Prop} {s : Workshop}
    (h : (workshops env documents).ReachableVia ok s) : s.Excludes env documents := by
  have hs := workshops_sound h
  constructor
  · intro now actor_id token o t u h htoken hrun
    obtain ⟨-, hgranted⟩ := h.granted htoken
    obtain ⟨-, i, hi, hid, howner, hsame, hlease⟩ := h.kept hs htoken hrun
    exact ⟨i, hi, hid, howner.trans hgranted.claim_owner_id, hsame.trans hgranted.claim_token,
      hlease⟩
  · intro now actor_id token o t u h htoken hrun now' actor_id' token' o' v hnow' h' hid' htoken'
    obtain ⟨-, hgranted⟩ := h.granted htoken
    obtain ⟨hu, hholds⟩ := h.kept hs htoken hrun
    obtain ⟨hmem', hgranted'⟩ := h'.granted htoken'
    obtain ⟨op', hexec', hat'⟩ := h'.exec env
    have howner := (Workshop.exec_advance hu.bound hexec').owner hu
      (fun at_time hat => (hat' at_time hat).symm ▸ hnow') hholds hmem' hid'
    rw [← hgranted'.claim_owner_id, howner, hgranted.claim_owner_id]

/-- A call that commits is what the office does next. -/
theorem Shop.after_of_exec {calls : List WorkshopOp} {op : WorkshopOp} {t : Workshop}
    (h : (Shop.after calls).exec Office.digest Shop.serde op = .ok t) :
    Shop.after (calls ++ [op]) = t := by
  rw [Shop.after_append]
  exact TransitionSystem.ofExec_step_ok h

set_option maxRecDepth 20000 in
/-- While the lease of the first worker runs, a rival is handed no token for the item. -/
theorem lease_excludes_rival :
    ∃ o, Shop.office.Answers Shop.serde 100 1 o (Shop.after [Shop.claim 1 100 "first"])
      ∧ o.claim_token.isSome = true
      ∧ ∀ (o' : FactoryWorkItemOutcome) (v : Workshop),
        (Shop.after [Shop.claim 1 100 "first"]).Answers Shop.serde 120 2 o' v →
          o'.work_item.id = o.work_item.id → o'.claim_token = none := by
  have hclaimed : (claim_factory_work_item Shop.serde Shop.office 100
      (Shop.input 1 "first")).toOption.any (fun r => r.1.claim_token.isSome
        && decide (120 < r.1.work_item.lease_expires_at)) = true := by decide +kernel
  cases hcall : claim_factory_work_item Shop.serde Shop.office 100 (Shop.input 1 "first") with
  | error e =>
    rw [hcall] at hclaimed
    cases hclaimed
  | ok r =>
    obtain ⟨o, t⟩ := r
    rw [hcall] at hclaimed
    obtain ⟨htoken, hlease⟩ := (Bool.and_eq_true _ _).mp hclaimed
    have hanswers : Shop.office.Answers Shop.serde 100 1 o t := Or.inl ⟨_, rfl, hcall⟩
    have hexec : (Shop.after []).exec Office.digest Shop.serde (Shop.claim 1 100 "first") = .ok t :=
      map_eq_ok.mpr ⟨_, hcall, rfl⟩
    have hafter : Shop.after [Shop.claim 1 100 "first"] = t := Shop.after_of_exec hexec
    rw [hafter]
    refine ⟨o, hanswers, htoken, ?_⟩
    intro o' v hrival hid
    obtain ⟨token, htoken⟩ := Option.isSome_iff_exists.mp htoken
    have hexcludes := lease_excludes (Shop.reachable_after [])
    cases hgrant : o'.claim_token with
    | none => rfl
    | some token' =>
      have hsame := hexcludes.alone hanswers htoken .refl 120 2 token' o' v
          (of_decide_eq_true hlease)
        hrival hid hgrant
      cases hsame

/-! ## Keys -/

theorem Db.factory_operation_isSome {s : Db} {corp_id : Uuid} {key : String} :
    (s.factory_operation corp_id key).isSome = true ↔
      ∃ row ∈ s.factory_operations, row.corp_id = corp_id ∧ row.idempotency_key = key := by
  unfold Db.factory_operation
  rw [List.find?_isSome]
  simp only [Bool.and_eq_true, beq_iff_eq]

/-- The calls leave their keys in the table of operations. -/
theorem operations_ledger : (workshops env documents).Ledger Workshop.Sound
    (fun s t : Workshop => t = s) WorkshopOp.key
    fun (s : Workshop) (k : Uuid × String) => (s.factory_operation k.1 k.2).isSome = true where
  keeps := by
    intro s op hs
    exact TransitionSystem.ofExec_step_cases hs fun t ht => Workshop.exec_sound hs ht
  kept := by
    intro s op k hs hk
    refine TransitionSystem.ofExec_step_cases
      (P := fun u : Workshop => (u.factory_operation k.1 k.2).isSome = true) hk ?_
    intro t ht
    obtain ⟨row, hrow, hsame⟩ := Db.factory_operation_isSome.mp hk
    exact Db.factory_operation_isSome.mpr
      ⟨row, (Workshop.exec_advance hs.bound ht).operations_grow hrow, hsame⟩
  replay := by
    intro s op k hs hkey hk
    refine TransitionSystem.ofExec_step_cases (P := fun u : Workshop => u = s) rfl ?_
    intro t ht
    -- every effect is logged under a key that was not there
    have hlogged : ∀ token, ¬ Logged s.toDb t.toDb op.key token := by
      intro token log
      rw [(log.entry k.1 k.2 hkey).1] at hk
      cases hk
    cases Workshop.exec_advance hs.bound ht with
    | replayed h => exact h
    | moved token _ _ _ log => exact absurd log (hlogged token)
    | taken _ _ _ _ _ _ _ _ _ _ log => exact absurd log (hlogged _)
    | entered _ _ _ _ _ _ _ _ _ _ _ log => exact absurd log (hlogged _)
  entry := by
    intro s op k hs hkey
    refine TransitionSystem.ofExec_step_cases
      (P := fun u : Workshop => u = s ∨ (u.factory_operation k.1 k.2).isSome = true) (Or.inl rfl) ?_
    intro t ht
    have hlogged : ∀ token, Logged s.toDb t.toDb op.key token →
        (t.factory_operation k.1 k.2).isSome = true := by
      intro token log
      obtain ⟨-, row, hcorp, hrow, -, hops⟩ := log.entry k.1 k.2 hkey
      refine Db.factory_operation_isSome.mpr ⟨row, ?_, hcorp, hrow⟩
      rw [hops]
      exact List.mem_append_right _ List.mem_cons_self
    cases Workshop.exec_advance hs.bound ht with
    | replayed h => exact Or.inl h
    | moved token _ _ _ log => exact Or.inr (hlogged token log)
    | taken _ _ _ _ _ _ _ _ _ _ log => exact Or.inr (hlogged _ log)
    | entered _ _ _ _ _ _ _ _ _ _ _ log => exact Or.inr (hlogged _ log)

/-- **A key is good for one effect.** Of two calls on Factory items with the same key, one
anywhere later in the run than the other, at most one changes the state. -/
theorem operations_once {ok ok' : Workshop → WorkshopOp → Prop} {s t : Workshop}
    {first again : WorkshopOp} (h : (workshops env documents).ReachableVia ok s)
    (hkeyed : first.key.isSome = true) (hsame : again.key = first.key)
    (hrun : (workshops env documents).Reaches ok' ((workshops env documents).step s first) t) :
    (workshops env documents).step s first = s ∨ (workshops env documents).step t again = t := by
  obtain ⟨k, hk⟩ := Option.isSome_iff_exists.mp hkeyed
  exact operations_ledger.once (workshops_sound h) hk (hsame.trans hk) hrun

/-- A claim is repeated with its key after another worker has taken the item over. -/
theorem operations_once_repeated :
    Shop.after [Shop.claim 1 100 "first"] = Shop.office
      ∨ Shop.after [Shop.claim 1 100 "first", Shop.claim 2 170 "second", Shop.claim 1 300 "first"]
        = Shop.after [Shop.claim 1 100 "first", Shop.claim 2 170 "second"] := by
  have hrun : (workshops Office.digest Shop.serde).Reaches (fun _ _ => True)
      (Shop.after [Shop.claim 1 100 "first"])
      (Shop.after [Shop.claim 1 100 "first", Shop.claim 2 170 "second"]) := by
    have hmeets : (workshops Office.digest Shop.serde).Meets (fun _ _ => True)
        (Shop.after [Shop.claim 1 100 "first"]) [Shop.claim 2 170 "second"] := ⟨trivial, trivial⟩
    exact Shop.reaches_after [Shop.claim 1 100 "first"] hmeets
  have hkeyed : (Shop.claim 1 100 "first").key.isSome = true := by decide +kernel
  have hsame : (Shop.claim 1 300 "first").key = (Shop.claim 1 100 "first").key := by decide +kernel
  rw [show [Shop.claim 1 100 "first"] = [] ++ [Shop.claim 1 100 "first"] from rfl,
    Shop.after_append]
    at hrun
  have honce := operations_once (Shop.reachable_after []) hkeyed hsame hrun
  rw [← Shop.after_append, ← Shop.after_append] at honce
  exact honce

end Crony.Store
