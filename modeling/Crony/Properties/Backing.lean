/-
What backs the effects of a publication.

A token is handed out, and a publication moves on, only while everything it rests on still holds:
the item is verified or on its way, its mission and every task of it have passed, the commit is
the one the verifier has seen, the publisher is enrolled and whoever asks sits in the room of the
mission. The calls ask in different places and of different rows; here they are brought
together.
-/
import Crony.Properties.Publications

set_option autoImplicit false

open Crony.Lib

namespace Crony.Store

variable {env : Env} {documents : PolicyDocuments} {s t : Press}

/-- The verified work an order rests on. -/
structure Db.Backs (documents : PolicyDocuments) (s : Db) (actor_id : Uuid) (p : PublicationOrder) :
    Prop where
  /-- The item is verified or on its way, and its policy has something published, and nothing
  merged. -/
  item : ∃ i ∈ s.factory_work_items, i.id = p.factory_work_item_id ∧ i.corp_id = p.corp_id
    ∧ i.mission_id = some p.mission_id ∧ i.state ∈ [.verified, .publishing]
    ∧ ∃ policy, documents.from_text i.policy = some policy ∧ policy.bool? "auto_merge" = some false
      ∧ (policy.get? "publication").bind (fun v => v.bool? "allowed") = some true
  mission : ∃ m ∈ s.missions, m.id = p.mission_id ∧ m.corp_id = p.corp_id ∧ m.status = .completed
  tasks : ∀ x ∈ s.tasks, x.mission_id = p.mission_id → x.corp_id = p.corp_id →
    x.status = .completed ∧ x.verification_status = .passed
  /-- The commit is what the verifier of its run has passed. -/
  deliverable : ∃ row, s.deliverable_row p.corp_id p.source_deliverable_id p.mission_id = some row
    ∧ row.artifact.status = .ready ∧ row.run.status = .completed
    ∧ row.run.verification_status = .passed ∧ row.run.workspace_disposition ≠ some .quarantined
    ∧ row.run.verification_sha256 = some row.deliverable.verification_sha256
    ∧ row.run.deliverable_sha256 = some row.artifact.sha256
  member : ∃ m ∈ s.missions, m.id = p.mission_id
    ∧ ∃ r ∈ s.room_memberships, r.room_id = m.room_id ∧ r.actor_id = actor_id

/-- Everything an effect rests on. -/
structure Press.Backs (documents : PolicyDocuments) (s : Press) (now : Int) (actor_id : Uuid)
    (p : PublicationOrder) : Prop where
  work : s.toDb.Backs documents actor_id p
  actor : ∃ a ∈ s.actors, a.id = actor_id ∧ a.corp_id = p.corp_id ∧ a.kind = .human
  publisher : ∃ c ∈ s.publisher_credentials, c.corp_id = p.corp_id ∧ c.revoked = false
    ∧ now < c.expires_at

section Checks

variable {db : Db} {now : Int} {actor_id : Uuid} {answers : PublicationAnswers}
  {p q : PullRequestPublication} {o : PullRequestPublicationOutcome}

theorem publication_terms_ok {item : FactoryWorkItem} {policy : Json}
    {request : PublicationPrerequisiteRequest} {terms : PublicationTerms}
    (h : publication_terms item policy request = .ok terms) :
    policy.bool? "auto_merge" = some false
      ∧ (policy.get? "publication").bind (fun v => v.bool? "allowed") = some true := by
  unfold publication_terms at h
  simp only [bind_eq_ok, context_eq_ok, ensure_eq_ok] at h
  obtain ⟨_, -, _, hmerge, publication_policy, hpolicy, _, hallowed, -⟩ := h
  refine ⟨hmerge, ?_⟩
  rw [(Option.filter_eq_some_iff.mp hpolicy).1]
  exact hallowed

theorem deliverable_row_mission {corp_id deliverable_id mission_id : Uuid} {row : DeliverableRow}
    (h : db.deliverable_row corp_id deliverable_id mission_id = some row) :
    row.mission ∈ db.missions ∧ row.mission.id = mission_id := by
  unfold Db.deliverable_row at h
  simp only [Option.bind_eq_bind, Option.bind_eq_some_iff, Option.pure_def, Option.some.injEq] at h
  obtain ⟨_, -, _, -, _, -, task, -, mission, hmission, rfl⟩ := h
  obtain ⟨hfound, hclause⟩ := Option.filter_eq_some_iff.mp hmission
  simp only [Bool.and_eq_true, beq_iff_eq] at hclause
  exact ⟨List.mem_of_find?_eq_some hfound, hclause.2⟩

/-- The room the prerequisites name is the room of the mission. -/
theorem validate_publication_prerequisites_room {request : PublicationPrerequisiteRequest}
    {existing : Bool} {r : PublicationPrerequisites}
    (h : validate_publication_prerequisites documents db now request existing answers = .ok r) :
    ∃ m ∈ db.missions, m.id = r.mission_id ∧ m.room_id = r.room_id := by
  obtain ⟨row, hrow, -, hroom⟩ := (validate_publication_prerequisites_ok h).row
  obtain ⟨hmem, hid⟩ := deliverable_row_mission hrow
  exact ⟨row.mission, hmem, hid, hroom⟩

/-- The prerequisites of an order. -/
theorem validate_publication_prerequisites_backs {request : PublicationPrerequisiteRequest}
    {existing : Bool} {r : PublicationPrerequisites} {order : PublicationOrder}
    (hcorp : order.corp_id = request.corp_id)
    (hitem : order.factory_work_item_id = request.work_item_id)
    (hdeliverable : order.source_deliverable_id = request.source_deliverable_id)
    (hmission : order.mission_id = r.mission_id)
    (h : validate_publication_prerequisites documents db now request existing answers = .ok r)
    (hmember : ∃ m ∈ db.missions, m.id = order.mission_id
      ∧ ∃ r ∈ db.room_memberships, r.room_id = m.room_id ∧ r.actor_id = actor_id) :
    db.Backs documents actor_id order := by
  have hmet := validate_publication_prerequisites_ok h
  obtain ⟨policy, hpolicy, terms, hterms⟩ := hmet.terms
  obtain ⟨row, hrow, hready, -⟩ := hmet.row
  obtain ⟨hmerge, hallowed⟩ := publication_terms_ok hterms
  have hverified := hmet.verified
  unfold ensure_verified_deliverable at hready
  unfold ensure_factory_mission_verified_tx at hverified
  rw [ensure_eq_ok] at hready hverified
  obtain ⟨⟨m, hm, hmid, hmcorp, hmstatus⟩, -, htasks⟩ := hverified
  obtain ⟨hartifact, hrun, hrunpassed, hkept, -, -, -, hdigest, hsha⟩ := hready
  refine ⟨?_, ?_, ?_, ?_, hmember⟩
  · refine ⟨r.work_item, hmet.mem, ?_, ?_, ?_, hmet.state, policy, hpolicy, hmerge, hallowed⟩
    · rw [hmet.id, hitem]
    · rw [hmet.corp_id, hcorp]
    · rw [hmet.mission_id, hmission]
  · exact ⟨m, hm, hmid.trans hmission.symm, hmcorp.trans hcorp.symm, hmstatus⟩
  · intro x hx hxm hxc
    refine htasks x ?_
    rw [List.mem_filter, hxm, hxc, hmission, hcorp]
    exact ⟨hx, by simp⟩
  · refine ⟨row, ?_, hartifact, hrun, hrunpassed, hkept, hdigest, hsha⟩
    rw [hcorp, hdeliverable, hmission]
    exact hrow

theorem assert_room_membership_tx_ok {corp_id room_id : Uuid} {v : Unit}
    (h : assert_room_membership_tx db corp_id room_id actor_id = .ok v) :
    ∃ m ∈ db.room_memberships, m.room_id = room_id ∧ m.actor_id = actor_id := by
  unfold assert_room_membership_tx at h
  rw [ensure_eq_ok] at h
  obtain ⟨m, hm, hroom, hactor, -⟩ := h
  exact ⟨m, hm, hroom, hactor⟩

/-- A member of the room that the prerequisites name. -/
theorem prerequisites_member {request : PublicationPrerequisiteRequest} {existing : Bool}
    {r : PublicationPrerequisites} {corp_id mission_id : Uuid} {v : Unit}
    (hmission : mission_id = r.mission_id)
    (h : validate_publication_prerequisites documents db now request existing answers = .ok r)
    (hroom : assert_room_membership_tx db corp_id r.room_id actor_id = .ok v) :
    ∃ m ∈ db.missions, m.id = mission_id
      ∧ ∃ r ∈ db.room_memberships, r.room_id = m.room_id ∧ r.actor_id = actor_id := by
  obtain ⟨m, hm, hid, hroomid⟩ := validate_publication_prerequisites_room h
  obtain ⟨member, hmember, hmemberroom, hmemberactor⟩ := assert_room_membership_tx_ok hroom
  exact ⟨m, hm, hid.trans hmission.symm, member, hmember, hmemberroom.trans hroomid.symm,
    hmemberactor⟩

/-- A member of the room of a publication. -/
theorem assert_publication_room_membership_tx_ok {v : Unit}
    (h : s.assert_publication_room_membership_tx p actor_id = .ok v) :
    ∃ m ∈ s.missions, m.id = p.mission_id
      ∧ ∃ r ∈ s.room_memberships, r.room_id = m.room_id ∧ r.actor_id = actor_id := by
  unfold Press.assert_publication_room_membership_tx Press.publication_room_id_tx transition_room
    at h
  simp only [bind_eq_ok, context_eq_ok, pure_eq_ok] at h
  obtain ⟨room_id, ⟨_, ⟨m, hm, rfl⟩, hroomid⟩, hroom⟩ := h
  obtain rfl := Option.some.inj hroomid
  obtain ⟨hfound, -⟩ := Option.filter_eq_some_iff.mp hm
  have hid := List.find?_some hfound
  exact ⟨m, List.mem_of_find?_eq_some hfound, by simpa using hid,
    assert_room_membership_tx_ok hroom⟩

theorem ensure_actor_role_tx_ok {corp_id : Uuid} {role : String} {v : Unit}
    (h : ensure_actor_role_tx db corp_id actor_id role = .ok v) :
    ∃ a ∈ db.actors, a.id = actor_id ∧ a.corp_id = corp_id ∧ a.kind = .human := by
  unfold ensure_actor_role_tx at h
  simp only [bind_eq_ok, context_eq_ok] at h
  obtain ⟨a, ha, -⟩ := h
  obtain ⟨hfound, hkind⟩ := Option.filter_eq_some_iff.mp ha
  have hclause := List.find?_some hfound
  simp only [Bool.and_eq_true, beq_iff_eq] at hclause hkind
  exact ⟨a, List.mem_of_find?_eq_some hfound, hclause.1, hclause.2, hkind⟩

theorem revalidate_publication_publisher_credential_tx_ok {corp_id : Uuid}
    {publisher_id hash : String} {v : Unit}
    (h : revalidate_publication_publisher_credential_tx s now corp_id publisher_id hash = .ok v) :
    ∃ c ∈ s.publisher_credentials, c.corp_id = corp_id ∧ c.revoked = false
      ∧ now < c.expires_at := by
  unfold revalidate_publication_publisher_credential_tx at h
  rw [ensure_eq_ok] at h
  obtain ⟨c, hc, hcorp, -, -, hlive, hexpires⟩ := h
  exact ⟨c, hc, hcorp, hlive, hexpires⟩

/-- Whatever is revalidated is backed. -/
theorem revalidate_publication_authority_tx_backs
    (h : revalidate_publication_authority_tx documents s now p actor_id answers = .ok t)
    (hpublisher : ∃ c ∈ s.publisher_credentials, c.corp_id = p.corp_id ∧ c.revoked = false
      ∧ now < c.expires_at) : s.Backs documents now actor_id p.toPublicationOrder := by
  unfold revalidate_publication_authority_tx at h
  simp only [bind_eq_ok, context_eq_ok] at h
  obtain ⟨a, -, _, hrole, r, hr, _, hroom, upgraded, hprovenance, -⟩ := h
  have hmission : p.mission_id = r.mission_id := by
    unfold revalidate_provenance ensure_provenance_matches at hprovenance
    simp only [bind_eq_ok, ensure_eq_ok] at hprovenance
    obtain ⟨_, -, _, hmatches, -⟩ := hprovenance
    exact hmatches.2.1.symm
  refine ⟨?_, ensure_actor_role_tx_ok hrole, hpublisher⟩
  exact validate_publication_prerequisites_backs rfl rfl rfl hmission hr
    (prerequisites_member hmission hr hroom)

/-! ## Every answer -/

/-- The answer hands out a token, or the publication has moved on. -/
def PullRequestPublicationOutcome.Effect (o : PullRequestPublicationOutcome) (s : Press) : Prop :=
  o.publisher_token.isSome = true
    ∨ ∃ p ∈ s.publications, p.id = o.publication.id ∧ p.state ≠ o.publication.state

/-- A publication that is where it was has not moved on. -/
theorem no_effect (hs : Keyed PullRequestPublication.key s.publications) (hp : p ∈ s.publications)
    (hid : o.publication.id = p.id) (hstate : o.publication.state = p.state)
    (htoken : o.publisher_token = none) : ¬ o.Effect s := by
  rintro (hsome | ⟨x, hx, hxid, hxstate⟩)
  · rw [htoken] at hsome
    cases hsome
  · obtain rfl := hs.eq_of_mem hx hp (show x.id = p.id from hxid.trans hid)
    exact hxstate hstate.symm

theorem revalidate_replay_backs {row : PublicationOperation}
    (hs : Keyed PullRequestPublication.key s.publications) (hp : p ∈ s.publications)
    (h : revalidate_replay documents s now p row actor_id answers = .ok (o.publication, t))
    (htoken : o.publisher_token = replayable_publication_token o.publication row now)
    (hpublisher : ∃ c ∈ s.publisher_credentials, c.corp_id = p.corp_id ∧ c.revoked = false
      ∧ now < c.expires_at) (heffect : o.Effect s) :
    s.Backs documents now actor_id o.publication.toPublicationOrder := by
  unfold revalidate_replay at h
  split at h
  · simp only [bind_eq_ok, context_eq_ok, pure_eq_ok, Prod.mk.injEq] at h
    obtain ⟨v, hv, q, hq, hqo, -⟩ := h
    have hbacks := revalidate_publication_authority_tx_backs hv hpublisher
    obtain ⟨-, provenance, publications, rfl, hturned⟩ :=
      revalidate_publication_authority_tx_ok hs hp hv
    obtain rfl := hturned.reread rfl hq
    rw [← hqo]
    exact hbacks
  · rename_i hnone
    simp only [Except.ok.injEq, Prod.mk.injEq] at h
    obtain ⟨hpo, -⟩ := h
    rw [← hpo] at htoken
    rw [Bool.not_eq_true, Option.isSome_eq_false_iff, Option.isNone_iff_eq_none] at hnone
    exact absurd heffect (no_effect hs hp (by rw [hpo]) (by rw [hpo]) (htoken.trans hnone))

theorem resume_publication_backs {input : StartPullRequestPublicationInput} (hs : s.Sound)
    (hp : p ∈ s.publications) (hcorp : p.corp_id = input.corp_id)
    (h : resume_publication documents s now input p answers = .ok (o, t))
    (hactor : ∃ a ∈ s.actors, a.id = input.actor_id ∧ a.corp_id = input.corp_id ∧ a.kind = .human)
    (hpublisher : ∃ c ∈ s.publisher_credentials, c.corp_id = input.corp_id ∧ c.revoked = false
      ∧ now < c.expires_at) (heffect : o.Effect s) :
    s.Backs documents now input.actor_id o.publication.toPublicationOrder := by
  have hkeyed := hs.registered.keyed
  unfold resume_publication at h
  simp only [bind_eq_ok] at h
  obtain ⟨_, hmatches, _, hroom, h⟩ := h
  split at h
  · simp only [pure_eq_ok, Prod.mk.injEq] at h
    obtain ⟨rfl, -⟩ := h
    exact absurd heffect (no_effect hkeyed hp rfl rfl rfl)
  · simp only [bind_eq_ok] at h
    obtain ⟨r, hr, h⟩ := h
    split at h
    · simp only [pure_eq_ok, Prod.mk.injEq] at h
      obtain ⟨rfl, -⟩ := h
      exact absurd heffect (no_effect hkeyed hp rfl rfl rfl)
    · unfold restart_publication at h
      simp only [bind_eq_ok, pure_eq_ok, Prod.mk.injEq] at h
      obtain ⟨v, -, rfl, -⟩ := h
      unfold ensure_publication_matches_start at hmatches
      rw [ensure_eq_ok] at hmatches
      obtain ⟨hitem, hdeliverable, -⟩ := hmatches
      -- the item of the publication is the item of the prerequisites
      obtain ⟨i, hi, hfor⟩ := hs.staged.item p hp
      obtain ⟨hwork, hworkid, -, hworkmission, -, -, -, -⟩ :=
        validate_publication_prerequisites_ok hr
      have hsame : r.work_item = i := by
        refine hs.workshop.bound.items_keyed.eq_of_mem hwork hi ?_
        rw [hworkid, hfor.id, hitem]
        rfl
      have hmission : p.mission_id = r.mission_id := by
        rw [hsame, hfor.mission_id] at hworkmission
        exact Option.some.inj hworkmission
      have hwork : s.toDb.Backs documents input.actor_id p.toPublicationOrder :=
        validate_publication_prerequisites_backs hcorp hitem hdeliverable hmission hr
          (assert_publication_room_membership_tx_ok hroom)
      exact ⟨hwork, hcorp ▸ hactor, hcorp ▸ hpublisher⟩

theorem start_pull_request_publication_backs {input : StartPullRequestPublicationInput}
    (hs : s.Sound)
    (h : start_pull_request_publication documents s now input answers = .ok (o, t))
    (heffect : o.Effect s) :
    s.Backs documents now input.actor_id o.publication.toPublicationOrder := by
  unfold start_pull_request_publication at h
  simp only [bind_eq_ok] at h
  obtain ⟨input', hnormal, _, -, _, hcredential, _, hrole, h⟩ := h
  have hsame : input'.actor_id = input.actor_id := by
    unfold normalize_start_input at hnormal
    simp only [bind_eq_ok, pure_eq_ok] at hnormal
    obtain ⟨_, -, _, -, _, -, _, -, _, -, _, -, _, -, _, -, _, -, _, -, _, -, _, -, _, -, _, -, _,
      -, rfl⟩
      := hnormal
    rfl
  have hpublisher := revalidate_publication_publisher_credential_tx_ok hcredential
  have hactor := ensure_actor_role_tx_ok hrole
  rw [← hsame]
  split at h
  · unfold replay_start at h
    simp only [bind_eq_ok, context_eq_ok, pure_eq_ok, Prod.mk.injEq] at h
    obtain ⟨_, -, p, hp, _, -, ⟨q, v⟩, hv, rfl, -⟩ := h
    obtain ⟨hmem, -, hcorp⟩ := Press.publication_eq_some hp
    exact revalidate_replay_backs hs.registered.keyed hmem hv rfl (hcorp ▸ hpublisher) heffect
  · split at h
    · rename_i p hp
      have hclause := List.find?_some hp
      simp only [Bool.and_eq_true, beq_iff_eq] at hclause
      exact resume_publication_backs hs (List.mem_of_find?_eq_some hp) hclause.1 h hactor hpublisher
        heffect
    · unfold request_publication insert_publication at h
      simp only [bind_eq_ok, ensure_eq_ok, pure_eq_ok, Prod.mk.injEq] at h
      obtain ⟨r, hr, _, hroom, u, -, ⟨version, v⟩, -, w, -, x, -, rfl, -⟩ := h
      have hid := (validate_publication_prerequisites_ok hr).id
      refine ⟨?_, hactor, hpublisher⟩
      exact validate_publication_prerequisites_backs rfl hid rfl rfl hr
        (prerequisites_member rfl hr hroom)

theorem renew_pull_request_publication_backs {input : RenewPullRequestPublicationInput}
    (hs : Keyed PullRequestPublication.key s.publications)
    (h : renew_pull_request_publication documents s now input answers = .ok (o, t)) :
    s.Backs documents now input.actor_id o.publication.toPublicationOrder := by
  unfold renew_pull_request_publication at h
  simp only [bind_eq_ok] at h
  obtain ⟨_, -, key, -, publisher_id, -, _, -, seconds, -, _, -, _, hcredential, h⟩ := h
  have hpublisher := revalidate_publication_publisher_credential_tx_ok hcredential
  -- what is revalidated is what is read back
  have hrevalidated : ∀ {p q : PullRequestPublication} {v : Press},
      s.publication? input.corp_id input.publication_id = some p →
      revalidate_publication_authority_tx documents s now p input.actor_id answers = .ok v →
      v.publication? input.corp_id input.publication_id = some q →
        s.Backs documents now input.actor_id q.toPublicationOrder := by
    intro p q v hp hv hq
    obtain ⟨hmem, hid, hcorp⟩ := Press.publication_eq_some hp
    have hbacks := revalidate_publication_authority_tx_backs hv (hcorp ▸ hpublisher)
    obtain ⟨-, provenance, publications, rfl, hturned⟩ :=
      revalidate_publication_authority_tx_ok hs hmem hv
    obtain rfl := hturned.reread hid hq
    exact hbacks
  split at h
  · unfold replay_renewal at h
    simp only [bind_eq_ok, context_eq_ok, pure_eq_ok, Prod.mk.injEq] at h
    obtain ⟨_, -, p, hp, v, hv, q, hq, rfl, -⟩ := h
    exact hrevalidated hp hv hq
  · simp only [bind_eq_ok, context_eq_ok, pure_eq_ok, Prod.mk.injEq] at h
    obtain ⟨p, hp, _, -, v, hv, q, hq, w, -, rfl, -⟩ := h
    have hbacks := hrevalidated hp hv hq
    exact hbacks

/-- A checkpoint does not touch the order. -/
theorem record_checkpoint_order {u : Press} {call : CheckpointCall} {q r : PullRequestPublication}
    {checkpoint : PullRequestPublicationCheckpointInput} {replayed : Bool}
    (h : record_checkpoint u now call q checkpoint = .ok (r, replayed, t)) :
    r.toPublicationOrder = q.toPublicationOrder := by
  cases checkpoint with
  | failed detail =>
    simp only [record_checkpoint, record_failed, bind_eq_ok, pure_eq_ok, Prod.mk.injEq] at h
    obtain ⟨_, -, v, -, rfl, -⟩ := h
    rfl
  | branch_pushed commit_sha =>
    simp only [record_checkpoint, record_branch_pushed] at h
    split at h
    · simp only [bind_eq_ok, pure_eq_ok, Prod.mk.injEq] at h
      obtain ⟨_, -, rfl, -⟩ := h
      rfl
    · simp only [bind_eq_ok, pure_eq_ok, Prod.mk.injEq] at h
      obtain ⟨_, -, v, -, rfl, -⟩ := h
      rfl
  | pull_request_created report =>
    simp only [record_checkpoint, record_pull_request_created, bind_eq_ok] at h
    obtain ⟨_, -, h⟩ := h
    split at h
    · simp only [bind_eq_ok, pure_eq_ok, Prod.mk.injEq] at h
      obtain ⟨_, -, rfl, -⟩ := h
      rfl
    · simp only [bind_eq_ok, pure_eq_ok, Prod.mk.injEq] at h
      obtain ⟨_, -, v, -, rfl, -⟩ := h
      rfl
  | published project_status field_id option_id =>
    simp only [record_checkpoint, record_published, bind_eq_ok] at h
    obtain ⟨_, -, _, -, _, -, _, -, h⟩ := h
    split at h
    · simp only [bind_eq_ok, pure_eq_ok, Prod.mk.injEq] at h
      obtain ⟨_, -, rfl, -⟩ := h
      rfl
    · simp only [bind_eq_ok, pure_eq_ok, Prod.mk.injEq] at h
      obtain ⟨_, -, _, -, _, -, _, -, _, -, rfl, -⟩ := h
      rfl

theorem record_pull_request_publication_checkpoint_backs
    {input : RecordPullRequestPublicationCheckpointInput}
    (hs : Keyed PullRequestPublication.key s.publications)
    (h : record_pull_request_publication_checkpoint documents s now input answers = .ok (o, t))
    (heffect : o.Effect s) :
    s.Backs documents now input.actor_id o.publication.toPublicationOrder := by
  have hpublisher : ∃ c ∈ s.publisher_credentials, c.corp_id = input.corp_id ∧ c.revoked = false
      ∧ now < c.expires_at := by
    unfold record_pull_request_publication_checkpoint at h
    simp only [bind_eq_ok] at h
    obtain ⟨_, -, key, -, publisher_id, -, _, -, checkpoint, -, _, -, _, hcredential, -⟩ := h
    exact revalidate_publication_publisher_credential_tx_ok hcredential
  rcases record_pull_request_publication_checkpoint_ok hs h with
    ⟨row, p, hp, hcorp, hreplay, htoken⟩ | ⟨call, c, p, q, u, checkpoint, replayed, hready, hcorp,
      rfl, hfailed, hrevalidated, hw, htoken⟩
  · exact revalidate_replay_backs hs hp hreplay htoken (hcorp ▸ hpublisher) heffect
  · rcases hrevalidated with ⟨detail, rfl⟩ | ⟨v, hv⟩
    · -- a failure lets the publication go, where it is
      obtain ⟨rfl, rfl⟩ := hfailed detail rfl
      simp only [record_checkpoint, record_failed, bind_eq_ok, pure_eq_ok, Prod.mk.injEq] at hw
      obtain ⟨_, -, w, -, hpublication, -, -⟩ := hw
      refine absurd heffect (no_effect hs hready.mem ?_ ?_ ?_)
      · rw [← hpublication]
      · rw [← hpublication]
      · rw [htoken, ← hpublication]
        exact if_neg fun hheld => by cases hheld.2
    · have hbacks := revalidate_publication_authority_tx_backs hv (hcorp ▸ hpublisher)
      have horder : o.publication.toPublicationOrder = p.toPublicationOrder := by
        obtain ⟨provenance, publications, rfl, -, -⟩ := hready.current
        exact (record_checkpoint_order hw).trans rfl
      rw [horder]
      exact hbacks

end Checks

/-- Whatever has an effect rests on verified work. -/
def Press.Backed (documents : PolicyDocuments) (s : Press) : Prop :=
  ∀ {now : Int} {actor_id : Uuid} {o : PullRequestPublicationOutcome} {t : Press},
    s.Answers documents now actor_id o t → o.Effect s →
      s.Backs documents now actor_id o.publication.toPublicationOrder

/-- **Every effect is backed, in every reachable state.** A token is handed out, and a publication
moves on, only while its item is verified or on its way, its mission and every task of it have
passed, its commit is what the verifier has passed, its publisher is enrolled, and the actor is a
member of the room. -/
theorem publications_backed {ok : Press → PressOp → Prop}
    (hreach : (presses env documents).ReachableVia ok s) : s.Backed documents := by
  have hs := presses_sound hreach
  intro now actor_id o t h heffect
  cases h with
  | start input answers h => exact start_pull_request_publication_backs hs h heffect
  | renew input answers h =>
    exact renew_pull_request_publication_backs hs.registered.keyed h
  | record input answers h =>
    exact record_pull_request_publication_checkpoint_backs hs.registered.keyed h heffect

/-- The state of the first start at the office. -/
theorem publications_backed_started : (Desk.after Desk.verified).Backed Desk.serde :=
  publications_backed (Desk.reachable_after Desk.verified)

end Crony.Store
