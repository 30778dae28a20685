/-
What the calls about publications write.

Every call that commits does one of a few things to one publication: it refreshes the
provenance and perhaps records a key, it requests the publication, it starts another attempt,
it advances or renews the attempt that runs, or it ends it. The later arguments about runs are
case splits on this.
-/
import Crony.Lib.Replace
import Crony.Lifecycle.Claims
import Crony.Store.Publications

set_option autoImplicit false

open Crony.Lib
open Crony.Cli (eq_ignore_ascii_case)

namespace Crony.Store

variable {env : Env} {documents : PolicyDocuments}

/-- The key of a publication. -/
def PullRequestPublication.key (p : PullRequestPublication) : Uuid := p.id

/-! ## What a call presents -/

/-- What the holder of a publication presents. -/
structure PublicationControl where
  corp_id : Uuid
  publication_id : Uuid
  actor_id : Uuid
  publisher_token : Uuid
  expected_version : Int
  now : Int

def PressOp.control : PressOp → Option PublicationControl
  | .renew_pull_request_publication now input _ => some
    { corp_id := input.corp_id, publication_id := input.publication_id, actor_id := input.actor_id
      publisher_token := input.publisher_token, expected_version := input.expected_version, now }
  | .record_pull_request_publication_checkpoint now input _ => some
    { corp_id := input.corp_id, publication_id := input.publication_id, actor_id := input.actor_id
      publisher_token := input.publisher_token, expected_version := input.expected_version, now }
  | _ => none

/-- When a publication is started. -/
def PressOp.starts_at : PressOp → Option Int
  | .start_pull_request_publication now _ _ => some now
  | _ => none

/-- The key a call is recorded under. -/
def PressOp.key : PressOp → Option (Uuid × String)
  | .start_pull_request_publication _ input _ =>
    (normalize_factory_identifier input.idempotency_key "publication idempotency key"
      500).toOption.map
      fun k => (input.corp_id, k)
  | .renew_pull_request_publication _ input _ =>
    (normalize_factory_identifier input.idempotency_key "publication idempotency key"
      500).toOption.map
      fun k => (input.corp_id, k)
  | .record_pull_request_publication_checkpoint _ input _ =>
    (normalize_factory_identifier input.idempotency_key "publication idempotency key"
      500).toOption.map
      fun k => (input.corp_id, k)
  | _ => none

theorem PressOp.control_of_starts {op : PressOp} {now : Int} (h : op.starts_at = some now) :
    op.control = none := by
  cases op <;> first | rfl | cases h

/-- The publication is held with what is presented, at the version presented, while its lease
runs. -/
structure Press.Held (s : Press) (p : PullRequestPublication) (c : PublicationControl) : Prop where
  id : p.id = c.publication_id
  corp_id : p.corp_id = c.corp_id
  live : p.state ≠ .published
  version : p.version = c.expected_version
  publisher : ∃ q, p.publisher = some q ∧ q.token = c.publisher_token ∧ c.now < q.lease_expires_at
  attempt : ∃ a, s.running_attempt p = some a ∧ a.actor_id = c.actor_id

/-! ## What a call writes -/

/-- The operation is recorded, under a key that is new. -/
def Press.Recorded (s t : Press) (op : PressOp) (token : Option Uuid) : Prop :=
  ∃ corp_id k, op.key = some (corp_id, k) ∧ s.publication_operation corp_id k = none
    ∧ ∃ row : PublicationOperation, row.corp_id = corp_id ∧ row.idempotency_key = k
      ∧ row.publisher_token = token ∧ t.publication_operations = s.publication_operations ++ [row]

/-- One publication becomes `p'`. -/
def Press.Turned (s t : Press) (p p' : PullRequestPublication) : Prop :=
  Replaced PullRequestPublication.key p.key p' s.publications t.publications

/-- The item of a publication goes from one state to the next. -/
structure Press.Moved (s t : Press) (p : PullRequestPublication)
    (source target : FactoryWorkItemState) : Prop where
  clerical : Clerical s.toDb t.toDb
  operations : t.factory_operations = s.factory_operations
  item : ∃ i ∈ s.factory_work_items, i.id = p.factory_work_item_id ∧ i.corp_id = p.corp_id
    ∧ i.state = source
  items : t.factory_work_items = updateWhere
    (fun i => i.id == p.factory_work_item_id && i.corp_id == p.corp_id && i.state == source)
    (fun i => { i with state := target, version := i.version + 1, failure_detail := none })
    s.factory_work_items

/-- What a running attempt does to its publication. -/
inductive PullRequestPublication.Step (p : PullRequestPublication) : PullRequestPublication → Prop
  | renewed (lease_expires_at : Int) : Step p (p.renewed lease_expires_at)
  | branch_pushed (now : Int) (hstate : p.state = .publishing) :
    Step p { p with state := .branch_pushed, version := p.version + 1
                    branch_pushed_at := some now, failure_detail := none }
  | pull_request_created (report : PullRequestReport) (provenance : Json)
      (hstate : p.state = .branch_pushed)
      (hvalid : validate_pull_request_identity p report = .ok ()) :
    Step p { p with state := .pull_request_created, version := p.version + 1
                    pull_request := some report.toPullRequestIdentity, failure_detail := none
                    provenance }

/-- The row of a publication that has just been requested. -/
structure PullRequestPublication.Requested (p : PullRequestPublication) (token : Uuid) : Prop where
  state : p.state = .publishing
  version : p.version = 1
  attempt_count : p.attempt_count = 1
  publisher : ∃ q, p.publisher = some q ∧ q.token = token
  branch_pushed_at : p.branch_pushed_at = none
  pull_request : p.pull_request = none
  project_status_after : p.project_status_after = none

/-- The attempt that starts with a publication. -/
structure PublicationAttempt.Starts (a : PublicationAttempt) (p : PullRequestPublication) :
    Prop where
  publication_id : a.publication_id = p.id
  corp_id : a.corp_id = p.corp_id
  attempt : a.attempt = p.attempt_count
  state : a.state = .running

/-- Neither the items nor the attempts are written. -/
structure Press.Quiet (s t : Press) : Prop where
  workshop : t.toWorkshop = s.toWorkshop
  attempts : t.publication_attempts = s.publication_attempts

/-- What a committed call does. -/
inductive Press.Advance (env : Env) (documents : PolicyDocuments) (s : Press) (op : PressOp)
    (t : Press) : Prop
  /-- A call about claims, or of the lifecycle. -/
  | workshop (w : WorkshopOp) (hop : op = .workshop w)
      (h : Workshop.exec env documents s.toWorkshop w = .ok t.toWorkshop)
      (publications : t.publications = s.publications)
      (attempts : t.publication_attempts = s.publication_attempts)
      (operations : t.publication_operations = s.publication_operations)
  | unchanged (h : t = s)
  | credentials (hcontrol : op.control = none) (hkey : op.key = none)
      (publisher_credentials : List PublicationPublisherCredential)
      (h : t = { s with publisher_credentials })
  /-- A publication is read back. Its provenance is brought up to date, if it has an attempt that
  runs, and the key is recorded, if it is new. -/
  | noted (p : PullRequestPublication) (provenance : Json) (hp : p ∈ s.publications)
      (turned : s.Turned t p { p with provenance })
      (live : provenance = p.provenance ∨ (s.running_attempt p).isSome = true)
      (quiet : s.Quiet t) (events : t.publication_events = s.publication_events)
      (credentials : t.publisher_credentials = s.publisher_credentials)
      (log : t.publication_operations = s.publication_operations
        ∨ ∃ token, s.Recorded t op token ∧ ∀ c, op.control = some c → s.Held p c)
  /-- A publication is requested, and its item enters its last stage. -/
  | requested (now : Int) (p : PullRequestPublication) (item : FactoryWorkItem)
      (a : PublicationAttempt) (hop : op.starts_at = some now)
      (hnew : ∀ q ∈ s.publications, q.factory_work_item_id ≠ p.factory_work_item_id
        ∧ q.source_deliverable_id ≠ p.source_deliverable_id
        ∧ (q.corp_id = p.corp_id → q.effect_key ≠ p.effect_key
          ∧ q.idempotency_key ≠ p.idempotency_key
          ∧ ¬ (q.target_repository = p.target_repository ∧ q.branch = p.branch)))
      (id : p.id = s.next_publication_id) (fresh : p.Requested s.next_publisher_token)
      (hitem : item ∈ s.factory_work_items) (item_id : item.id = p.factory_work_item_id)
      (item_corp : item.corp_id = p.corp_id) (item_mission : item.mission_id = some p.mission_id)
      (publications : t.publications = s.publications ++ [p])
      (starts : a.Starts p) (attempts : t.publication_attempts = s.publication_attempts ++ [a])
      (moved : s.Moved t p .verified .publishing)
      (log : s.Recorded t op (some s.next_publisher_token))
  /-- Another attempt starts. -/
  | restarted (now : Int) (p : PullRequestPublication) (q : Publisher) (a : PublicationAttempt)
      (hop : op.starts_at = some now) (hp : p ∈ s.publications) (live : p.state ≠ .published)
      (lapsed : ∀ q ∈ p.publisher, q.lease_expires_at ≤ now)
      (token : q.token = s.next_publisher_token)
      (turned : s.Turned t p (p.attempted q)) (workshop : t.toWorkshop = s.toWorkshop)
      (starts : a.Starts (p.attempted q))
      (attempts : t.publication_attempts
        = (s.abandon_attempts p).publication_attempts ++ [a])
      (log : s.Recorded t op (some s.next_publisher_token))
  /-- The attempt that runs goes on. -/
  | advanced (c : PublicationControl) (p p' : PullRequestPublication) (provenance : Json)
      (hop : op.control = some c) (hp : p ∈ s.publications) (held : s.Held p c)
      (step : PullRequestPublication.Step { p with provenance } p') (turned : s.Turned t p p')
      (quiet : s.Quiet t) (log : s.Recorded t op (some c.publisher_token))
  /-- The publication is finished, and its item with it. -/
  | finished (c : PublicationControl) (p p' : PullRequestPublication) (project_status : String)
      (hop : op.control = some c) (hp : p ∈ s.publications) (held : s.Held p c)
      (hstate : p.state = .pull_request_created) (hidentity : p.pull_request.isSome = true)
      (columns : p' = { p with
        state := .published, version := p.version + 1, project_status_after := some project_status
        publisher := none, failure_detail := none, provenance := p'.provenance })
      (turned : s.Turned t p p')
      (attempts : t.publication_attempts
        = (s.finish_attempt p .published none).publication_attempts)
      (moved : s.Moved t p .publishing .published)
      (log : s.Recorded t op (some c.publisher_token))
  /-- The attempt has failed. -/
  | failed (c : PublicationControl) (p : PullRequestPublication) (detail : String)
      (hop : op.control = some c) (hp : p ∈ s.publications) (held : s.Held p c)
      (turned : s.Turned t p { p with
        version := p.version + 1, publisher := none, failure_detail := some detail })
      (workshop : t.toWorkshop = s.toWorkshop)
      (attempts : t.publication_attempts
        = (s.finish_attempt p .failed (some detail)).publication_attempts)
      (log : s.Recorded t op (some c.publisher_token))

section Calls

variable {s t u : Press} {p p' : PullRequestPublication}

/-! ## Statements on one publication -/

theorem Press.publication_eq_some {corp_id publication_id : Uuid}
    (h : s.publication? corp_id publication_id = some p) :
    p ∈ s.publications ∧ p.id = publication_id ∧ p.corp_id = corp_id := by
  have hfound := List.find?_some h
  simp only [Bool.and_eq_true, beq_iff_eq] at hfound
  exact ⟨List.mem_of_find?_eq_some h, hfound⟩

/-- `UPDATE pull_request_publications` on the key of a row. -/
theorem Press.update_publication_turned (hs : Keyed PullRequestPublication.key s.publications)
    (hp : p ∈ s.publications) (f : PullRequestPublication → PullRequestPublication) :
    s.Turned (s.update_publication p f) p (f p) := by
  refine Replaced.of_updateWhere hs hp ?_
  intro q hq
  simp only [Bool.and_eq_true, beq_iff_eq]
  constructor
  · exact fun h => h.1
  · intro hkey
    obtain rfl := hs.eq_of_mem hq hp hkey
    exact ⟨rfl, rfl⟩

theorem publication_event_tx_ok {actor_id : Uuid} {type : String} {payload : Json}
    (h : s.publication_event_tx p actor_id type payload = .ok t) :
    ∃ events, t = { s with publication_events := events } := by
  unfold Press.publication_event_tx at h
  simp only [bind_eq_ok] at h
  obtain ⟨_, -, h⟩ := h
  split at h
  · exact ⟨s.publication_events, (Except.ok.inj h).symm⟩
  · exact ⟨_, (Except.ok.inj h).symm⟩

theorem item_event_ok {room_id actor_id : Uuid} {source target : FactoryWorkItemState}
    {version : Int}
    {payload : List (String × Json)}
    (h : s.item_event room_id actor_id p source target version payload = .ok t) :
    ∃ events, t = { s with events } := by
  unfold Press.item_event at h
  simp only [bind_eq_ok, record_event_tx_ok, pure_eq_ok] at h
  obtain ⟨db, rfl, rfl⟩ := h
  split
  · exact ⟨_, rfl⟩
  · exact ⟨_, rfl⟩

theorem advance_item_ok {source target : FactoryWorkItemState} {version : Int}
    (h : s.advance_item p source target = .ok (version, t)) :
    (∃ i ∈ s.factory_work_items, i.id = p.factory_work_item_id ∧ i.corp_id = p.corp_id
      ∧ i.state = source)
      ∧ t = s.onFactoryWorkItems (updateWhere
        (fun i => i.id == p.factory_work_item_id && i.corp_id == p.corp_id && i.state == source)
        fun i => { i with state := target, version := i.version + 1, failure_detail := none }) := by
  unfold Press.advance_item at h
  simp only [bind_eq_ok, context_eq_ok, pure_eq_ok, Prod.mk.injEq] at h
  obtain ⟨i, hi, -, rfl⟩ := h
  have hclause := List.find?_some hi
  simp only [Bool.and_eq_true, beq_iff_eq] at hclause
  exact ⟨⟨i, List.mem_of_find?_eq_some hi, hclause.1.1, hclause.1.2, hclause.2⟩, rfl⟩

/-- What the prerequisites of a request have found. -/
structure PublicationPrerequisites.Met (documents : PolicyDocuments) (db : Db)
    (request : PublicationPrerequisiteRequest) (r : PublicationPrerequisites) : Prop where
  mem : r.work_item ∈ db.factory_work_items
  id : r.work_item.id = request.work_item_id
  corp_id : r.work_item.corp_id = request.corp_id
  mission_id : r.work_item.mission_id = some r.mission_id
  state : r.work_item.state ∈ [.verified, .publishing]
  verified : ensure_factory_mission_verified_tx db request.corp_id r.mission_id = .ok ()
  terms : ∃ policy, documents.from_text r.work_item.policy = some policy
    ∧ ∃ terms, publication_terms r.work_item policy request = .ok terms
  row : ∃ row, db.deliverable_row request.corp_id request.source_deliverable_id r.mission_id
    = some row
    ∧ ensure_verified_deliverable row = .ok () ∧ row.mission.room_id = r.room_id

theorem validate_publication_prerequisites_ok {db : Db} {now : Int}
    {request : PublicationPrerequisiteRequest} {existing : Bool} {answers : PublicationAnswers}
    {r : PublicationPrerequisites}
    (h : validate_publication_prerequisites documents db now request existing answers = .ok r) :
    r.Met documents db request := by
  unfold validate_publication_prerequisites at h
  simp only [bind_eq_ok, context_eq_ok, ensure_eq_ok, pure_eq_ok] at h
  obtain ⟨item, hitem, _, hstate, mission_id, hmission, _, hverified, policy, hpolicy, terms,
    hterms, row, hrow, _, -, _, hready, _, -, _, -, _, -, _, -, _, -, _, -, _, -, rfl⟩ := h
  obtain ⟨hmem, hid, hcorp⟩ := Db.factory_work_item_eq_some hitem
  refine ⟨hmem, hid, hcorp, hmission, ?_, hverified, ⟨policy, hpolicy, terms, hterms⟩,
    row, hrow, hready, rfl⟩
  rcases hstate with hstate | ⟨-, hstate⟩
  · exact List.mem_cons.mpr (Or.inl hstate)
  · exact List.mem_cons_of_mem _ (List.mem_singleton.mpr hstate)

/-- A revalidation writes the provenance at most, of a publication with an attempt that runs. -/
theorem revalidate_publication_authority_tx_ok {now : Int} {actor_id : Uuid}
    {answers : PublicationAnswers} (hs : Keyed PullRequestPublication.key s.publications)
    (hp : p ∈ s.publications)
    (h : revalidate_publication_authority_tx documents s now p actor_id answers = .ok t) :
    (s.running_attempt p).isSome = true ∧ ∃ provenance publications,
      t = { s with publications } ∧ s.Turned t p { p with provenance } := by
  unfold revalidate_publication_authority_tx at h
  simp only [bind_eq_ok, context_eq_ok, pure_eq_ok] at h
  obtain ⟨a, ha, _, -, _, -, _, -, upgraded, -, rfl⟩ := h
  have hrunning : (s.running_attempt p).isSome = true := by
    rw [(Option.filter_eq_some_iff.mp ha).1]
    rfl
  refine ⟨hrunning, ?_⟩
  split
  · exact ⟨p.provenance, s.publications, rfl, Replaced.refl hs hp⟩
  · exact ⟨upgraded, _, rfl, Press.update_publication_turned hs hp _⟩

/-- The row that is read back after a statement on it. -/
theorem Press.Turned.reread {corp_id publication_id : Uuid} {q : PullRequestPublication}
    (h : s.Turned t p p') (hid : p.id = publication_id)
    (hq : t.publication? corp_id publication_id = some q) : q = p' := by
  obtain ⟨hmem, hqid, -⟩ := Press.publication_eq_some hq
  rcases h.old hmem with rfl | ⟨-, hne⟩
  · rfl
  · exact absurd (hqid.trans hid.symm) hne

theorem ensure_active_publication_control_tx_ok {c : ActivePublicationControl} {corp_id : Uuid}
    {publication_id : Uuid} {v : Unit} (hid : p.id = publication_id) (hcorp : p.corp_id = corp_id)
    (h : ensure_active_publication_control_tx s p c = .ok v) :
    s.Held p
      { corp_id, publication_id, actor_id := c.actor_id, publisher_token := c.presented_token
        expected_version := c.expected_version, now := c.now } := by
  unfold ensure_active_publication_control_tx at h
  simp only [bind_eq_ok, context_eq_ok, ensure_eq_ok] at h
  obtain ⟨_, hlive, q, hq, _, -, _, hversion, _, hlease, hattempt⟩ := h
  obtain ⟨hpublisher, htoken⟩ := Option.filter_eq_some_iff.mp hq
  refine ⟨hid, hcorp, hlive, hversion, ⟨q, hpublisher, by simpa using htoken, hlease⟩, ?_⟩
  obtain ⟨a, ha, hactor⟩ := Option.any_eq_true _ _ |>.mp hattempt
  exact ⟨a, ha, by simpa using hactor⟩

/-! ## Starts -/

theorem start_key {now : Int} {input input' : StartPullRequestPublicationInput}
    {answers : PublicationAnswers} (h : normalize_start_input input = .ok input') :
    PressOp.key (.start_pull_request_publication now input answers)
      = some (input'.corp_id, input'.idempotency_key) := by
  unfold normalize_start_input at h
  simp only [bind_eq_ok, pure_eq_ok] at h
  obtain ⟨_, -, _, -, _, -, _, -, _, -, _, -, _, -, _, -, _, -, _, -, key, hkey, _, -, _, -, _, -,
    _, -, rfl⟩ := h
  rw [PressOp.key, hkey]
  rfl

/-- A replay refreshes the provenance at most. -/
theorem revalidate_replay_ok {now : Int} {op : PublicationOperation} {actor_id : Uuid}
    {answers : PublicationAnswers} {q : PullRequestPublication}
    (hs : Keyed PullRequestPublication.key s.publications) (hp : p ∈ s.publications)
    (h : revalidate_replay documents s now p op actor_id answers = .ok (q, t)) :
    ∃ provenance publications, t = { s with publications } ∧ s.Turned t p { p with provenance }
      ∧ (provenance = p.provenance ∨ (s.running_attempt p).isSome = true) := by
  unfold revalidate_replay at h
  split at h
  · simp only [bind_eq_ok, pure_eq_ok, Prod.mk.injEq] at h
    obtain ⟨v, hv, _, -, -, rfl⟩ := h
    obtain ⟨hrunning, provenance, publications, hv, hturned⟩ :=
      revalidate_publication_authority_tx_ok hs hp hv
    exact ⟨provenance, publications, hv, hturned, Or.inr hrunning⟩
  · simp only [Except.ok.injEq, Prod.mk.injEq] at h
    obtain ⟨-, rfl⟩ := h
    exact ⟨p.provenance, s.publications, rfl, Replaced.refl hs hp, Or.inl rfl⟩

theorem replay_start_advance {now : Int} {op : PressOp} {input : StartPullRequestPublicationInput}
    {row : PublicationOperation} {answers : PublicationAnswers} {o : PullRequestPublicationOutcome}
    (hs : Keyed PullRequestPublication.key s.publications)
    (h : replay_start documents s now input row answers = .ok (o, t)) :
    s.Advance env documents op t := by
  unfold replay_start at h
  simp only [bind_eq_ok, context_eq_ok, pure_eq_ok, Prod.mk.injEq] at h
  obtain ⟨_, -, p, hp, _, -, ⟨q, v⟩, hv, -, rfl⟩ := h
  obtain ⟨hmem, -, -⟩ := Press.publication_eq_some hp
  obtain ⟨provenance, publications, rfl, hturned, hlive⟩ := revalidate_replay_ok hs hmem hv
  exact .noted p provenance hmem hturned hlive ⟨rfl, rfl⟩ rfl rfl (Or.inl rfl)

theorem restart_publication_advance {now : Int} {op : PressOp}
    {input : StartPullRequestPublicationInput} {o : PullRequestPublicationOutcome}
    (hs : Keyed PullRequestPublication.key s.publications) (hp : p ∈ s.publications)
    (hop : op.starts_at = some now) (hkey : op.key = some (input.corp_id, input.idempotency_key))
    (hfresh : s.publication_operation input.corp_id input.idempotency_key = none)
    (live : p.state ≠ .published) (lapsed : ∀ q ∈ p.publisher, q.lease_expires_at ≤ now)
    (h : restart_publication s now input p = .ok (o, t)) : s.Advance env documents op t := by
  unfold restart_publication at h
  simp only [bind_eq_ok, pure_eq_ok, Prod.mk.injEq] at h
  obtain ⟨v, hv, -, rfl⟩ := h
  obtain ⟨events, rfl⟩ := publication_event_tx_ok hv
  refine .restarted now p
    { id := input.publisher_id, token := s.next_publisher_token
      lease_expires_at := now + input.lease_seconds } _ hop hp live lapsed rfl ?_ rfl
    ⟨rfl, rfl, rfl, rfl⟩ rfl ?_
  · exact Press.update_publication_turned hs hp _
  · exact ⟨_, _, hkey, hfresh, _, rfl, rfl, rfl, rfl⟩

theorem resume_publication_advance {now : Int} {op : PressOp}
    {input : StartPullRequestPublicationInput} {answers : PublicationAnswers}
    {o : PullRequestPublicationOutcome}
    (hs : Keyed PullRequestPublication.key s.publications) (hp : p ∈ s.publications)
    (hop : op.starts_at = some now) (hkey : op.key = some (input.corp_id, input.idempotency_key))
    (hfresh : s.publication_operation input.corp_id input.idempotency_key = none)
    (h : resume_publication documents s now input p answers = .ok (o, t)) :
    s.Advance env documents op t := by
  unfold resume_publication at h
  simp only [bind_eq_ok] at h
  obtain ⟨_, -, _, -, h⟩ := h
  split at h
  · -- it is finished: the key is recorded
    simp only [pure_eq_ok, Prod.mk.injEq] at h
    obtain ⟨-, rfl⟩ := h
    refine .noted p p.provenance hp (Replaced.refl hs hp) (Or.inl rfl) ⟨rfl, rfl⟩ rfl rfl
      (Or.inr ⟨none, ⟨_, _, hkey, hfresh, _, rfl, rfl, rfl, rfl⟩, fun c hc => ?_⟩)
    rw [PressOp.control_of_starts hop] at hc
    cases hc
  · rename_i hlive
    simp only [bind_eq_ok] at h
    obtain ⟨_, -, h⟩ := h
    split at h
    · simp only [pure_eq_ok, Prod.mk.injEq] at h
      obtain ⟨-, rfl⟩ := h
      exact .unchanged rfl
    · rename_i hbusy
      refine restart_publication_advance hs hp hop hkey hfresh hlive ?_ h
      intro q hq
      by_contra hlease
      refine hbusy (Option.any_eq_true _ _ |>.mpr ⟨q, hq, ?_⟩)
      simpa using hlease

theorem request_publication_advance {now : Int} {op : PressOp}
    {input : StartPullRequestPublicationInput} {answers : PublicationAnswers}
    {o : PullRequestPublicationOutcome}
    (hop : op.starts_at = some now) (hkey : op.key = some (input.corp_id, input.idempotency_key))
    (hfresh : s.publication_operation input.corp_id input.idempotency_key = none)
    (h : request_publication documents s now input answers = .ok (o, t)) :
    s.Advance env documents op t := by
  unfold request_publication insert_publication at h
  simp only [bind_eq_ok, ensure_eq_ok, pure_eq_ok, Prod.mk.injEq] at h
  obtain ⟨r, hr, _, -, u, ⟨_, hnew, rfl⟩, ⟨version, v⟩, hv, w, hw, x, hx, -, rfl⟩ := h
  obtain ⟨hmem, hid, hcorp, hmission, -, -, -, -⟩ := validate_publication_prerequisites_ok hr
  obtain ⟨hitem, rfl⟩ := advance_item_ok hv
  obtain ⟨journal, rfl⟩ := item_event_ok hw
  obtain ⟨events, rfl⟩ := publication_event_tx_ok hx
  refine .requested now (new_publication s.next_publication_id s.next_publisher_token input now r)
    r.work_item _ hop hnew rfl ⟨rfl, rfl, rfl, ⟨_, rfl, rfl⟩, rfl, rfl, rfl⟩ hmem rfl hcorp hmission
      rfl
    ⟨rfl, rfl, rfl, rfl⟩ rfl
      ⟨⟨{ Respecified.refl with }, rfl, links_updateWhere fun _ => ⟨rfl, rfl⟩⟩,
      rfl, hitem, rfl⟩ ?_
  exact ⟨_, _, hkey, hfresh, _, rfl, rfl, rfl, rfl⟩

theorem start_pull_request_publication_advance {now : Int}
    {input : StartPullRequestPublicationInput} {answers : PublicationAnswers}
    {o : PullRequestPublicationOutcome} (hs : Keyed PullRequestPublication.key s.publications)
    (h : start_pull_request_publication documents s now input answers = .ok (o, t)) :
    s.Advance env documents (.start_pull_request_publication now input answers) t := by
  unfold start_pull_request_publication at h
  simp only [bind_eq_ok] at h
  obtain ⟨input', hnormal, _, -, _, -, _, -, h⟩ := h
  have hkey : PressOp.key (.start_pull_request_publication now input answers)
      = some (input'.corp_id, input'.idempotency_key) := start_key hnormal
  split at h
  · exact replay_start_advance hs h
  · rename_i hfresh
    split at h
    · rename_i p hp
      exact resume_publication_advance hs (List.mem_of_find?_eq_some hp) rfl hkey hfresh h
    · exact request_publication_advance rfl hkey hfresh h

/-! ## Renewals and checkpoints -/

theorem renew_pull_request_publication_advance {now : Int}
    {input : RenewPullRequestPublicationInput} {answers : PublicationAnswers}
    {o : PullRequestPublicationOutcome} (hs : Keyed PullRequestPublication.key s.publications)
    (h : renew_pull_request_publication documents s now input answers = .ok (o, t)) :
    s.Advance env documents (.renew_pull_request_publication now input answers) t := by
  unfold renew_pull_request_publication at h
  simp only [bind_eq_ok] at h
  obtain ⟨_, -, key, hkey, publisher_id, -, _, -, seconds, -, _, -, _, -, h⟩ := h
  have hop : PressOp.key (.renew_pull_request_publication now input answers)
      = some (input.corp_id, key) := by
    rw [PressOp.key, hkey]
    rfl
  split at h
  · unfold replay_renewal at h
    simp only [bind_eq_ok, context_eq_ok, pure_eq_ok, Prod.mk.injEq] at h
    obtain ⟨_, -, p, hp, v, hv, _, -, -, rfl⟩ := h
    obtain ⟨hmem, -, -⟩ := Press.publication_eq_some hp
    obtain ⟨hrunning, provenance, publications, rfl, hturned⟩ :=
      revalidate_publication_authority_tx_ok hs hmem hv
    exact .noted p provenance hmem hturned (Or.inr hrunning) ⟨rfl, rfl⟩ rfl rfl (Or.inl rfl)
  · rename_i hfresh
    simp only [bind_eq_ok, context_eq_ok, pure_eq_ok, Prod.mk.injEq] at h
    obtain ⟨p, hp, _, hcontrol, v, hv, q, hq, w, hw, -, rfl⟩ := h
    obtain ⟨hmem, hid, hcorp⟩ := Press.publication_eq_some hp
    have hheld := ensure_active_publication_control_tx_ok hid hcorp hcontrol
    obtain ⟨-, provenance, publications, rfl, hturned⟩ :=
      revalidate_publication_authority_tx_ok hs hmem hv
    obtain rfl := hturned.reread hid hq
    obtain ⟨events, rfl⟩ := publication_event_tx_ok hw
    have hkeyed := hturned.keyed hs rfl
    have hcurrent := hturned.mem hmem rfl
    refine .advanced _ p _ provenance rfl hmem hheld (.renewed (now + seconds)) ?_ ⟨rfl, rfl⟩ ?_
    · exact hturned.trans (Press.update_publication_turned hkeyed hcurrent _) rfl
    · exact ⟨_, _, hop, hfresh, _, rfl, rfl, rfl, rfl⟩

/-- What is known where a checkpoint is recorded: the publication is held, its provenance may have
been refreshed. -/
structure CheckpointCall.Ready (s u : Press) (op : PressOp) (call : CheckpointCall)
    (c : PublicationControl) (p q : PullRequestPublication) : Prop where
  control : op.control = some c
  key : op.key = some (call.corp_id, call.idempotency_key)
  fresh : s.publication_operation call.corp_id call.idempotency_key = none
  token : call.publisher_token = c.publisher_token
  mem : p ∈ s.publications
  held : s.Held p c
  current : ∃ provenance publications, q = { p with provenance } ∧ u = { s with publications }
    ∧ s.Turned u p q

/-- The key of a checkpoint, recorded. -/
theorem CheckpointCall.Ready.recorded {call : CheckpointCall} {op : PressOp}
    {c : PublicationControl}
    {p q : PullRequestPublication} (h : call.Ready s u op c p q) {row : PublicationOperation}
    (hrow : row.corp_id = call.corp_id ∧ row.idempotency_key = call.idempotency_key
      ∧ row.publisher_token = some call.publisher_token)
    (hops : t.publication_operations = s.publication_operations ++ [row]) :
    s.Recorded t op (some c.publisher_token) :=
  ⟨_, _, h.key, h.fresh, row, hrow.1, hrow.2.1, hrow.2.2.trans (congrArg some h.token), hops⟩

/-- A checkpoint that is there already is recorded and changes nothing else. -/
theorem CheckpointCall.Ready.noted {call : CheckpointCall} {op : PressOp} {c : PublicationControl}
    {p q : PullRequestPublication} (h : call.Ready s u op c p q) :
    s.Advance env documents op (call.record u q) := by
  obtain ⟨provenance, publications, rfl, rfl, hturned⟩ := h.current
  obtain ⟨a, ha, -⟩ := h.held.attempt
  refine .noted p provenance h.mem hturned (Or.inr (by rw [ha]; rfl)) ⟨rfl, rfl⟩ rfl rfl
    (Or.inr ⟨some c.publisher_token, h.recorded ⟨rfl, rfl, rfl⟩ rfl, ?_⟩)
  intro c' hc'
  obtain rfl : c = c' := Option.some.inj (h.control.symm.trans hc')
  exact h.held

/-- A statement on the row a checkpoint is recorded on. -/
theorem CheckpointCall.Ready.turned {call : CheckpointCall} {op : PressOp} {c : PublicationControl}
    {p q : PullRequestPublication} (h : call.Ready s u op c p q)
    (hs : Keyed PullRequestPublication.key s.publications)
    (f : PullRequestPublication → PullRequestPublication) :
    s.Turned (u.update_publication q f) p (f q) := by
  obtain ⟨provenance, publications, rfl, rfl, hturned⟩ := h.current
  have hkeyed := hturned.keyed hs rfl
  have hcurrent := hturned.mem h.mem rfl
  exact hturned.trans (Press.update_publication_turned hkeyed hcurrent f) rfl

theorem record_branch_pushed_advance {now : Int} {call : CheckpointCall} {op : PressOp}
    {c : PublicationControl} {p q r : PullRequestPublication} {commit_sha : String}
    {replayed : Bool}
    (hs : Keyed PullRequestPublication.key s.publications) (hready : call.Ready s u op c p q)
    (h : record_branch_pushed u now call q commit_sha = .ok (r, replayed, t)) :
    s.Advance env documents op t := by
  unfold record_branch_pushed at h
  split at h
  · simp only [bind_eq_ok, pure_eq_ok, Prod.mk.injEq] at h
    obtain ⟨_, -, -, -, rfl⟩ := h
    exact hready.noted
  · simp only [bind_eq_ok, ensure_eq_ok, pure_eq_ok, Prod.mk.injEq] at h
    obtain ⟨_, ⟨hstate, -⟩, v, hv, -, -, rfl⟩ := h
    obtain ⟨events, rfl⟩ := publication_event_tx_ok hv
    have hturned := hready.turned hs fun p : PullRequestPublication =>
      { p with state := .branch_pushed, version := p.version + 1, branch_pushed_at := some now
               failure_detail := none }
    obtain ⟨provenance, publications, rfl, rfl, -⟩ := hready.current
    exact .advanced c p _ provenance hready.control hready.mem hready.held
      (.branch_pushed now hstate)
      hturned ⟨rfl, rfl⟩ (hready.recorded ⟨rfl, rfl, rfl⟩ rfl)

theorem record_pull_request_created_advance {call : CheckpointCall} {op : PressOp}
    {c : PublicationControl} {p q r : PullRequestPublication} {report : PullRequestReport}
    {replayed : Bool} (hs : Keyed PullRequestPublication.key s.publications)
    (hready : call.Ready s u op c p q)
    (h : record_pull_request_created u call q report = .ok (r, replayed, t)) :
    s.Advance env documents op t := by
  unfold record_pull_request_created at h
  simp only [bind_eq_ok] at h
  obtain ⟨_, hvalid, h⟩ := h
  split at h
  · simp only [bind_eq_ok, pure_eq_ok, Prod.mk.injEq] at h
    obtain ⟨_, -, -, -, rfl⟩ := h
    exact hready.noted
  · simp only [bind_eq_ok, ensure_eq_ok, pure_eq_ok, Prod.mk.injEq] at h
    obtain ⟨_, hstate, v, hv, -, -, rfl⟩ := h
    obtain ⟨events, rfl⟩ := publication_event_tx_ok hv
    have hturned := hready.turned hs fun p : PullRequestPublication =>
      { p with state := .pull_request_created, version := p.version + 1
               pull_request := some report.toPullRequestIdentity, failure_detail := none
               provenance := Json.index_mut q.provenance "pull_request" report.document }
    obtain ⟨provenance, publications, rfl, rfl, -⟩ := hready.current
    exact .advanced c p _ provenance hready.control hready.mem hready.held
      (.pull_request_created report _ hstate hvalid) hturned ⟨rfl, rfl⟩
      (hready.recorded ⟨rfl, rfl, rfl⟩ rfl)

theorem record_published_advance {call : CheckpointCall} {op : PressOp} {c : PublicationControl}
    {p q r : PullRequestPublication} {project_status field_id option_id : String} {replayed : Bool}
    (hs : Keyed PullRequestPublication.key s.publications) (hready : call.Ready s u op c p q)
    (h : record_published u call q project_status field_id option_id = .ok (r, replayed, t)) :
    s.Advance env documents op t := by
  unfold record_published at h
  simp only [bind_eq_ok] at h
  obtain ⟨_, -, _, -, _, -, _, -, h⟩ := h
  split at h
  · simp only [bind_eq_ok, pure_eq_ok, Prod.mk.injEq] at h
    obtain ⟨_, -, -, -, rfl⟩ := h
    exact hready.noted
  · simp only [bind_eq_ok, ensure_eq_ok, pure_eq_ok, Prod.mk.injEq] at h
    obtain ⟨_, ⟨hstate, hidentity⟩, ⟨version, v⟩, hv, _, -, w, hw, x, hx, -, -, rfl⟩ := h
    have hturned := hready.turned hs fun p : PullRequestPublication =>
      { p with state := .published, version := p.version + 1
               project_status_after := some project_status, publisher := none
               failure_detail := none
               provenance := published_provenance q.provenance project_status field_id option_id }
    obtain ⟨provenance, publications, rfl, rfl, -⟩ := hready.current
    obtain ⟨hitem, rfl⟩ := advance_item_ok hv
    obtain ⟨journal, rfl⟩ := item_event_ok hw
    obtain ⟨events, rfl⟩ := publication_event_tx_ok hx
    exact .finished c p _ project_status hready.control hready.mem hready.held hstate hidentity rfl
      hturned rfl ⟨⟨{ Respecified.refl with }, rfl, links_updateWhere fun _ => ⟨rfl, rfl⟩⟩, rfl,
        hitem,
        rfl⟩ (hready.recorded ⟨rfl, rfl, rfl⟩ rfl)

theorem record_failed_advance {call : CheckpointCall} {op : PressOp} {c : PublicationControl}
    {p r : PullRequestPublication} {detail : String} {replayed : Bool}
    (hs : Keyed PullRequestPublication.key s.publications) (hready : call.Ready s s op c p p)
    (h : record_failed s call p detail = .ok (r, replayed, t)) : s.Advance env documents op t := by
  unfold record_failed at h
  simp only [bind_eq_ok, pure_eq_ok, Prod.mk.injEq] at h
  obtain ⟨_, -, v, hv, -, -, rfl⟩ := h
  obtain ⟨events, rfl⟩ := publication_event_tx_ok hv
  refine .failed c p detail hready.control hready.mem hready.held ?_ rfl rfl
    (hready.recorded ⟨rfl, rfl, rfl⟩ rfl)
  exact Press.update_publication_turned hs hready.mem _

/-- A checkpoint is a repeated one, or is recorded on a publication that is held. -/
theorem record_pull_request_publication_checkpoint_ok {now : Int}
    {input : RecordPullRequestPublicationCheckpointInput} {answers : PublicationAnswers}
    {o : PullRequestPublicationOutcome} (hs : Keyed PullRequestPublication.key s.publications)
    (h : record_pull_request_publication_checkpoint documents s now input answers = .ok (o, t)) :
    (∃ (row : PublicationOperation) (p : PullRequestPublication), p ∈ s.publications
      ∧ p.corp_id = input.corp_id ∧ revalidate_replay documents s now p row input.actor_id answers
        = .ok (o.publication, t)
      ∧ o.publisher_token = replayable_publication_token o.publication row now)
    ∨ ∃ (call : CheckpointCall) (c : PublicationControl) (p q : PullRequestPublication) (u : Press)
        (checkpoint : PullRequestPublicationCheckpointInput) (replayed : Bool),
      call.Ready s u (.record_pull_request_publication_checkpoint now input answers) c p q
        ∧ p.corp_id = input.corp_id ∧ c.now = now
          ∧ (∀ detail, checkpoint = .failed detail → u = s ∧ q = p)
        ∧ ((∃ detail, checkpoint = .failed detail)
          ∨ ∃ v, revalidate_publication_authority_tx documents s now p input.actor_id answers
            = .ok v)
        ∧ record_checkpoint u now call q checkpoint = .ok (o.publication, replayed, t)
        ∧ o.publisher_token = if o.publication.state ≠ .published
          ∧ o.publication.publisher.isSome = true
          then some c.publisher_token else none := by
  unfold record_pull_request_publication_checkpoint at h
  simp only [bind_eq_ok] at h
  obtain ⟨_, -, key, hkey, publisher_id, -, _, -, checkpoint, -, _, -, _, -, h⟩ := h
  have hop : PressOp.key (.record_pull_request_publication_checkpoint now input answers)
      = some (input.corp_id, key) := by
    rw [PressOp.key, hkey]
    rfl
  split at h
  · rename_i row _
    unfold replay_checkpoint at h
    simp only [bind_eq_ok, context_eq_ok, pure_eq_ok, Prod.mk.injEq] at h
    obtain ⟨_, -, p, hp, ⟨q, v⟩, hv, rfl, rfl⟩ := h
    obtain ⟨hmem, -, hcorp⟩ := Press.publication_eq_some hp
    exact Or.inl ⟨row, p, hmem, hcorp, hv, rfl⟩
  · rename_i hfresh
    simp only [bind_eq_ok, context_eq_ok, pure_eq_ok, Prod.mk.injEq] at h
    obtain ⟨p, hp, _, hcontrol, ⟨q, u⟩, hu, ⟨r, replayed, w⟩, hw, rfl, rfl⟩ := h
    obtain ⟨hmem, hid, hcorp⟩ := Press.publication_eq_some hp
    have hheld := ensure_active_publication_control_tx_ok hid hcorp hcontrol
    -- all but a failure have the authority checked again
    have hrevalidated : ∀ v w, revalidate_publication_authority_tx documents s now p input.actor_id
        answers = .ok v → v.publication? p.corp_id p.id = some w → ∃ provenance publications,
          w = { p with provenance } ∧ v = { s with publications } ∧ s.Turned v p w := by
      intro v w hv hread
      obtain ⟨-, provenance, publications, rfl, hturned⟩ :=
        revalidate_publication_authority_tx_ok hs hmem hv
      obtain rfl := hturned.reread rfl hread
      exact ⟨provenance, publications, rfl, rfl, hturned⟩
    have hcurrent :
        (∃ provenance publications, q = { p with provenance } ∧ u = { s with publications }
        ∧ s.Turned u p q) ∧ (∀ detail, checkpoint = .failed detail → u = s ∧ q = p)
        ∧ ((∃ detail, checkpoint = .failed detail)
          ∨ ∃ v, revalidate_publication_authority_tx documents s now p input.actor_id answers
            = .ok v) := by
      cases checkpoint with
      | failed detail =>
        simp only [current_for_checkpoint, Except.ok.injEq, Prod.mk.injEq] at hu
        obtain ⟨rfl, rfl⟩ := hu
        exact ⟨⟨p.provenance, s.publications, rfl, rfl, Replaced.refl hs hmem⟩, fun _ _ =>
          ⟨rfl, rfl⟩, Or.inl ⟨detail, rfl⟩⟩
      | branch_pushed commit_sha =>
        simp only [current_for_checkpoint, bind_eq_ok, context_eq_ok, pure_eq_ok, Prod.mk.injEq]
          at hu
        obtain ⟨v, hv, _, hread, rfl, rfl⟩ := hu
        exact ⟨hrevalidated _ _ hv hread, (fun _ hfailed => by cases hfailed), Or.inr ⟨v, hv⟩⟩
      | pull_request_created report =>
        simp only [current_for_checkpoint, bind_eq_ok, context_eq_ok, pure_eq_ok, Prod.mk.injEq]
          at hu
        obtain ⟨v, hv, _, hread, rfl, rfl⟩ := hu
        exact ⟨hrevalidated _ _ hv hread, (fun _ hfailed => by cases hfailed), Or.inr ⟨v, hv⟩⟩
      | published project_status field_id option_id =>
        simp only [current_for_checkpoint, bind_eq_ok, context_eq_ok, pure_eq_ok, Prod.mk.injEq]
          at hu
        obtain ⟨v, hv, _, hread, rfl, rfl⟩ := hu
        exact ⟨hrevalidated _ _ hv hread, (fun _ hfailed => by cases hfailed), Or.inr ⟨v, hv⟩⟩
    exact Or.inr
      ⟨_, _, p, q, u, checkpoint, replayed, ⟨rfl, hop, hfresh, rfl, hmem, hheld, hcurrent.1⟩,
      hcorp, rfl, hcurrent.2.1, hcurrent.2.2, hw, rfl⟩

theorem record_pull_request_publication_checkpoint_advance {now : Int}
    {input : RecordPullRequestPublicationCheckpointInput} {answers : PublicationAnswers}
    {o : PullRequestPublicationOutcome} (hs : Keyed PullRequestPublication.key s.publications)
    (h : record_pull_request_publication_checkpoint documents s now input answers = .ok (o, t)) :
    s.Advance env documents (.record_pull_request_publication_checkpoint now input answers) t := by
  rcases record_pull_request_publication_checkpoint_ok hs h with
    ⟨row, p, hp, -, hreplay, -⟩ | ⟨call, c, p, q, u, checkpoint, replayed, hready, -, -, hfailed, -,
      hw, -⟩
  · obtain ⟨provenance, publications, rfl, hturned, hlive⟩ := revalidate_replay_ok hs hp hreplay
    exact .noted p provenance hp hturned hlive ⟨rfl, rfl⟩ rfl rfl (Or.inl rfl)
  · cases checkpoint with
    | failed detail =>
      obtain ⟨rfl, rfl⟩ := hfailed detail rfl
      exact record_failed_advance hs hready hw
    | branch_pushed commit_sha => exact record_branch_pushed_advance hs hready hw
    | pull_request_created report => exact record_pull_request_created_advance hs hready hw
    | published project_status field_id option_id => exact record_published_advance hs hready hw

/-! ## Every call -/

/-- **What every committed call does to the publications.** -/
theorem Press.exec_advance {op : PressOp} (hs : Keyed PullRequestPublication.key s.publications)
    (h : s.exec env documents op = .ok t) : s.Advance env documents op t := by
  cases op with
  | workshop w =>
    obtain ⟨v, hv, rfl⟩ := map_eq_ok.mp h
    exact .workshop w rfl hv rfl rfl rfl
  | start_pull_request_publication now input answers =>
    obtain ⟨⟨o, v⟩, hv, rfl⟩ := map_eq_ok.mp h
    exact start_pull_request_publication_advance hs hv
  | renew_pull_request_publication now input answers =>
    obtain ⟨⟨o, v⟩, hv, rfl⟩ := map_eq_ok.mp h
    exact renew_pull_request_publication_advance hs hv
  | record_pull_request_publication_checkpoint now input answers =>
    obtain ⟨⟨o, v⟩, hv, rfl⟩ := map_eq_ok.mp h
    exact record_pull_request_publication_checkpoint_advance hs hv
  | create_publication_publisher_credential now corp_id actor_id publisher_id hash expires_at =>
    have hcall : create_publication_publisher_credential s now corp_id actor_id publisher_id hash
        expires_at = .ok t := h
    unfold create_publication_publisher_credential at hcall
    simp only [bind_eq_ok, pure_eq_ok] at hcall
    obtain ⟨_, -, _, -, _, -, _, -, _, -, rfl⟩ := hcall
    exact .credentials rfl rfl _ rfl
  | revoke_publication_publisher_credential corp_id actor_id credential_id reason =>
    have hcall : revoke_publication_publisher_credential s corp_id actor_id credential_id reason
        = .ok t := h
    unfold revoke_publication_publisher_credential at hcall
    simp only [bind_eq_ok, pure_eq_ok] at hcall
    obtain ⟨_, -, _, -, _, -, rfl⟩ := hcall
    exact .credentials rfl rfl _ rfl

end Calls

/-! ## Rows of publications -/

/-- The base branch of the pull request is the authorized one; `HEAD` stands for whatever branch
the repository names. -/
def PullRequestReport.BaseOf (r : PullRequestReport) (p : PublicationOrder) : Prop :=
  if p.base_ref = "HEAD" then r.base_ref ≠ "HEAD" ∧ starts_with r.base_ref "refs/" = false
  else r.base_ref = base_branch p.base_ref

/-- What a publisher has seen is the pull request that the publication authorizes. -/
structure PullRequestReport.Accepted (r : PullRequestReport) (p : PublicationOrder) : Prop where
  auto_merge : r.auto_merge_enabled = false
  state : r.state = "OPEN"
  title : r.title = p.title
  body : r.body = p.body
  head_ref : r.head_ref = p.branch
  base_differs : r.head_ref ≠ r.base_ref
  base : r.BaseOf p
  same_repository : r.is_cross_repository = false
  owner : ∃ target ∈ Cli.split_once p.target_repository '/',
    eq_ignore_ascii_case r.head_repository_owner target.1 = true
  head : eq_ignore_ascii_case r.head_sha p.commit_sha = true
  url : github_pull_request_url_matches r.url p.target_repository r.number = true

/-- The pull request is one for the publication: a report of it was accepted. -/
def PullRequestIdentity.Of (r : PullRequestIdentity) (p : PublicationOrder) : Prop :=
  ∃ report : PullRequestReport, report.toPullRequestIdentity = r ∧ report.Accepted p

/-- What the columns of a publication have to do with its state. -/
structure PullRequestPublication.Shaped (p : PullRequestPublication) : Prop where
  version : 0 < p.version
  attempt_count : 0 < p.attempt_count
  requested : p.state ≠ .requested
  branch : p.branch_pushed_at.isSome = true
    ↔ publication_state_rank .branch_pushed ≤ publication_state_rank p.state
  identity : p.pull_request.isSome = true
    ↔ publication_state_rank .pull_request_created ≤ publication_state_rank p.state
  valid : ∀ r ∈ p.pull_request, r.Of p.toPublicationOrder
  status : p.project_status_after.isSome = true ↔ p.state = .published
  released : p.state = .published → p.publisher = none

/-- A later row of a publication. -/
structure PullRequestPublication.Later (p p' : PullRequestPublication) : Prop where
  order : p'.toPublicationOrder = p.toPublicationOrder
  shaped : p'.Shaped
  rank : publication_state_rank p.state ≤ publication_state_rank p'.state
  version : p.version ≤ p'.version
  attempt_count : p.attempt_count ≤ p'.attempt_count
  branch : p.branch_pushed_at.isSome = true → p'.branch_pushed_at = p.branch_pushed_at
  identity : p.pull_request.isSome = true → p'.pull_request = p.pull_request
  same_version : p'.version = p.version → p' = { p with provenance := p'.provenance }
  frozen : p.state = .published → p' = p

namespace PullRequestPublication

variable {p p' q : PullRequestPublication}

theorem Shaped.with_provenance (h : p.Shaped) (provenance : Json) :
    ({ p with provenance } : PullRequestPublication).Shaped :=
  ⟨h.version, h.attempt_count, h.requested, h.branch, h.identity, h.valid, h.status, h.released⟩

theorem Requested.shaped {token : Uuid} (h : p.Requested token) : p.Shaped where
  version := by rw [h.version]; decide
  attempt_count := by rw [h.attempt_count]; decide
  requested := by rw [h.state]; decide
  branch := by rw [h.branch_pushed_at, h.state]; decide
  identity := by rw [h.pull_request, h.state]; decide
  valid := by
    intro r hr
    rw [h.pull_request] at hr
    cases hr
  status := by rw [h.project_status_after, h.state]; decide
  released := by
    intro hpublished
    rw [h.state] at hpublished
    cases hpublished

/-- **The identity check accepts a report exactly if it is of the authorized pull request.** -/
theorem validate_pull_request_identity_iff {r : PullRequestReport} :
    validate_pull_request_identity p r = .ok () ↔ r.Accepted p.toPublicationOrder := by
  unfold validate_pull_request_identity
  simp only [bind_eq_ok, ensure_eq_ok]
  constructor
  · rintro ⟨_, hmerge, _, hstate, _, ⟨htitle, hbody⟩, _, hhead, _, hdiffers, h⟩
    split at h
    · rename_i hsymbolic
      simp only [bind_eq_ok, ensure_eq_ok, context_eq_ok] at h
      obtain ⟨_, hbase, target, htarget, _, ⟨hcross, howner, hsha⟩, hurl⟩ := h
      exact ⟨hmerge, hstate, htitle, hbody, hhead, hdiffers, (if_pos hsymbolic).mpr hbase, hcross,
        ⟨target, htarget, howner⟩, hsha, hurl⟩
    · rename_i hnamed
      simp only [bind_eq_ok, ensure_eq_ok, context_eq_ok] at h
      obtain ⟨_, hbase, target, htarget, _, ⟨hcross, howner, hsha⟩, hurl⟩ := h
      exact ⟨hmerge, hstate, htitle, hbody, hhead, hdiffers, (if_neg hnamed).mpr hbase, hcross,
        ⟨target, htarget, howner⟩, hsha, hurl⟩
  · rintro ⟨hmerge, hstate, htitle, hbody, hhead, hdiffers, hbase, hcross,
      ⟨target, htarget, howner⟩, hsha, hurl⟩
    refine ⟨(), hmerge, (), hstate, (), ⟨htitle, hbody⟩, (), hhead, (), hdiffers, ?_⟩
    rw [PullRequestReport.BaseOf] at hbase
    split at hbase
    · rename_i hsymbolic
      rw [if_pos hsymbolic]
      simp only [bind_eq_ok, ensure_eq_ok, context_eq_ok]
      exact ⟨(), hbase, target, htarget, (), ⟨hcross, howner, hsha⟩, hurl⟩
    · rename_i hnamed
      rw [if_neg hnamed]
      simp only [bind_eq_ok, ensure_eq_ok, context_eq_ok]
      exact ⟨(), hbase, target, htarget, (), ⟨hcross, howner, hsha⟩, hurl⟩

theorem validate_pull_request_identity_ok {r : PullRequestReport} {v : Unit}
    (h : validate_pull_request_identity p r = .ok v) :
    r.toPullRequestIdentity.Of p.toPublicationOrder :=
  ⟨r, rfl, validate_pull_request_identity_iff.mp h⟩

theorem Later.refl (h : p.Shaped) : p.Later p :=
  ⟨rfl, h, le_refl _, le_refl _, le_refl _, fun _ => rfl, fun _ => rfl, fun _ => rfl, fun _ => rfl⟩

theorem Later.trans {a b c : PullRequestPublication} (h : a.Later b) (h' : b.Later c) :
    a.Later c where
  order := h'.order.trans h.order
  shaped := h'.shaped
  rank := le_trans h.rank h'.rank
  version := le_trans h.version h'.version
  attempt_count := le_trans h.attempt_count h'.attempt_count
  branch := by
    intro hsome
    have hb := h.branch hsome
    exact (h'.branch (by rw [hb]; exact hsome)).trans hb
  identity := by
    intro hsome
    have hb := h.identity hsome
    exact (h'.identity (by rw [hb]; exact hsome)).trans hb
  same_version := by
    intro hsame
    have hab := h.version
    have hbc := h'.version
    have hb := h.same_version (by omega)
    rw [h'.same_version (by omega), hb]
  frozen := by
    intro hstate
    have hb := h.frozen hstate
    rw [← hb]
    exact h'.frozen (by rw [hb]; exact hstate)

/-- A provenance that is brought up to date. -/
theorem Later.refreshed (h : p.Shaped) {provenance : Json}
    (hlive : p.state = .published → provenance = p.provenance) :
    p.Later { p with provenance } where
  order := rfl
  shaped := h.with_provenance provenance
  rank := le_refl _
  version := le_refl _
  attempt_count := le_refl _
  branch := fun _ => rfl
  identity := fun _ => rfl
  same_version := fun _ => rfl
  frozen := by
    intro hstate
    rw [hlive hstate]

theorem Later.attempted (h : p.Shaped) (hlive : p.state ≠ .published) (q : Publisher) :
    p.Later (p.attempted q) := by
  have hstate : (p.attempted q).state = p.state := if_neg h.requested
  refine ⟨rfl, ⟨?_, ?_, ?_, ?_, ?_, h.valid, ?_, ?_⟩, ?_, ?_, ?_, fun _ => rfl, fun _ => rfl, ?_,
    ?_⟩
  · have hversion := h.version
    show 0 < p.version + 1
    omega
  · have hcount := h.attempt_count
    show 0 < p.attempt_count + 1
    omega
  · rw [hstate]
    exact h.requested
  · rw [hstate]
    exact h.branch
  · rw [hstate]
    exact h.identity
  · rw [hstate]
    exact h.status
  · rw [hstate]
    exact fun hpublished => absurd hpublished hlive
  · rw [hstate]
  · show p.version ≤ p.version + 1
    omega
  · show p.attempt_count ≤ p.attempt_count + 1
    omega
  · intro hsame
    have hversion : p.version + 1 = p.version := hsame
    omega
  · exact fun hpublished => absurd hpublished hlive

/-- What a running attempt does keeps the shape, and keeps the publisher. -/
theorem Step.later (h : p.Step p') (hp : p.Shaped) (hlive : p.state ≠ .published) :
    p.Later p' ∧ p'.attempt_count = p.attempt_count
      ∧ p'.publisher.map Publisher.token = p.publisher.map Publisher.token := by
  have hversion := hp.version
  cases h with
  | renewed lease =>
    refine ⟨⟨rfl, ⟨?_, hp.attempt_count, hp.requested, hp.branch, hp.identity, hp.valid, hp.status,
      ?_⟩, le_refl _, ?_, le_refl _, fun _ => rfl, fun _ => rfl, ?_, ?_⟩, rfl, ?_⟩
    · show 0 < p.version + 1
      omega
    · exact fun hpublished => absurd hpublished hlive
    · show p.version ≤ p.version + 1
      omega
    · intro hsame
      have hsucc : p.version + 1 = p.version := hsame
      omega
    · exact fun hpublished => absurd hpublished hlive
    · show (p.publisher.map _).map _ = _
      rw [Option.map_map]
      rfl
  | branch_pushed now hstate =>
    have hnone : ¬ p.branch_pushed_at.isSome = true := by
      rw [hp.branch, hstate]
      decide
    have hidentity : ¬ p.pull_request.isSome = true := by
      rw [hp.identity, hstate]
      decide
    have hstatus : ¬ p.project_status_after.isSome = true := by
      rw [hp.status]
      exact hlive
    refine ⟨⟨rfl, ⟨?_, hp.attempt_count, nofun, ?_, ?_, hp.valid, ?_, nofun⟩, ?_, ?_, le_refl _,
      fun hsome => absurd hsome hnone, fun _ => rfl, ?_, ?_⟩, rfl, rfl⟩
    · show 0 < p.version + 1
      omega
    · exact iff_of_true rfl (le_refl _)
    · refine iff_of_false hidentity ?_
      show ¬ publication_state_rank .pull_request_created ≤ publication_state_rank .branch_pushed
      decide
    · exact iff_of_false hstatus nofun
    · rw [hstate]
      show publication_state_rank .publishing ≤ publication_state_rank .branch_pushed
      decide
    · show p.version ≤ p.version + 1
      omega
    · intro hsame
      have hsucc : p.version + 1 = p.version := hsame
      omega
    · exact fun hpublished => absurd hpublished hlive
  | pull_request_created report provenance hstate hvalid =>
    have hbranch : p.branch_pushed_at.isSome = true := by
      rw [hp.branch, hstate]
    have hnone : ¬ p.pull_request.isSome = true := by
      rw [hp.identity, hstate]
      decide
    have hstatus : ¬ p.project_status_after.isSome = true := by
      rw [hp.status]
      exact hlive
    refine ⟨⟨rfl, ⟨?_, hp.attempt_count, nofun, ?_, ?_, ?_, ?_, nofun⟩, ?_, ?_, le_refl _,
      fun _ => rfl, fun hsome => absurd hsome hnone, ?_, ?_⟩, rfl, rfl⟩
    · show 0 < p.version + 1
      omega
    · refine iff_of_true hbranch ?_
      show publication_state_rank .branch_pushed ≤ publication_state_rank .pull_request_created
      decide
    · exact iff_of_true rfl (le_refl _)
    · intro r hr
      obtain rfl := Option.some.inj hr
      exact validate_pull_request_identity_ok hvalid
    · exact iff_of_false hstatus nofun
    · rw [hstate]
      show publication_state_rank .branch_pushed ≤ publication_state_rank .pull_request_created
      decide
    · show p.version ≤ p.version + 1
      omega
    · intro hsame
      have hsucc : p.version + 1 = p.version := hsame
      omega
    · exact fun hpublished => absurd hpublished hlive

/-- The last checkpoint. -/
theorem Later.finished (hp : p.Shaped) (hstate : p.state = .pull_request_created)
    (hidentity : p.pull_request.isSome = true) {status : String}
    (columns : p' = { p with
      state := .published, version := p.version + 1, project_status_after := some status
      publisher := none, failure_detail := none, provenance := p'.provenance }) : p.Later p' := by
  have hversion := hp.version
  have hbranch : p.branch_pushed_at.isSome = true := by
    rw [hp.branch, hstate]
    decide
  have hlive : p.state ≠ .published := by
    rw [hstate]
    decide
  rw [columns]
  refine ⟨rfl, ⟨?_, hp.attempt_count, nofun, ?_, ?_, hp.valid, ?_, fun _ => rfl⟩, ?_, ?_, le_refl _,
    fun _ => rfl, fun _ => rfl, ?_, ?_⟩
  · show 0 < p.version + 1
    omega
  · refine iff_of_true hbranch ?_
    show publication_state_rank .branch_pushed ≤ publication_state_rank .published
    decide
  · refine iff_of_true hidentity ?_
    show publication_state_rank .pull_request_created ≤ publication_state_rank .published
    decide
  · exact iff_of_true rfl rfl
  · rw [hstate]
    show publication_state_rank .pull_request_created ≤ publication_state_rank .published
    decide
  · show p.version ≤ p.version + 1
    omega
  · intro hsame
    have hsucc : p.version + 1 = p.version := hsame
    omega
  · exact fun hpublished => absurd hpublished hlive

/-- The end of an attempt. -/
theorem Later.failed (hp : p.Shaped) (hlive : p.state ≠ .published) (detail : String) :
    p.Later { p with version := p.version + 1, publisher := none,
                     failure_detail := some detail } := by
  have hversion := hp.version
  refine ⟨rfl, ⟨?_, hp.attempt_count, hp.requested, hp.branch, hp.identity, hp.valid, hp.status,
    fun _ => rfl⟩, le_refl _, ?_, le_refl _, fun _ => rfl, fun _ => rfl, ?_, ?_⟩
  · show 0 < p.version + 1
    omega
  · show p.version ≤ p.version + 1
    omega
  · intro hsame
    have hsucc : p.version + 1 = p.version := hsame
    omega
  · exact fun hpublished => absurd hpublished hlive

end PullRequestPublication

end Crony.Store
