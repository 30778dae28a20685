/-
The store of the publications: `start_pull_request_publication`,
`renew_pull_request_publication`, `record_pull_request_publication_checkpoint` and the
credentials of the publishers.

A start either makes the authorisation of a verified item durable or takes an unfinished
publication up again, under a new token; a renewal and a checkpoint are for the holder of the
token. Whatever lets an effect go ahead asks for the whole authority again; what only reads
back, or closes an attempt, does not.
-/
import Crony.Store.PublicationChecks

set_option autoImplicit false

open Crony.Lib

namespace Crony.Store

/-! ## Tables -/

namespace Press

@[simps] def onFactoryWorkItems (s : Press) (f : List FactoryWorkItem → List FactoryWorkItem) :
    Press :=
  { s with factory_work_items := f s.factory_work_items }

def onSourceDeliverables (s : Press) (f : List SourceDeliverable → List SourceDeliverable) :
    Press :=
  { s with source_deliverables := f s.source_deliverables }

def onPublications (s : Press)
    (f : List PullRequestPublication → List PullRequestPublication) : Press :=
  { s with publications := f s.publications }

def onAttempts (s : Press) (f : List PublicationAttempt → List PublicationAttempt) : Press :=
  { s with publication_attempts := f s.publication_attempts }

/-- `publication_by_id_tx`. -/
def publication? (s : Press) (corp_id publication_id : Uuid) : Option PullRequestPublication :=
  s.publications.find? fun p => p.id == publication_id && p.corp_id == corp_id

/-- `publication_operation_tx`. -/
def publication_operation (s : Press) (corp_id : Uuid) (key : String) :
    Option PublicationOperation :=
  s.publication_operations.find? fun op => op.corp_id == corp_id && op.idempotency_key == key

/-- `publication_collision_tx`. -/
def publication_collision (s : Press) (input : StartPullRequestPublicationInput) :
    Option PullRequestPublication :=
  s.publications.find? fun p => p.corp_id == input.corp_id
    && (p.factory_work_item_id == input.work_item_id || p.effect_key == input.effect_key
      || (p.target_repository == input.target_repository && p.branch == input.branch))

/-- The attempt of a publication that runs. -/
def running_attempt (s : Press) (publication : PullRequestPublication) :
    Option PublicationAttempt :=
  s.publication_attempts.find? fun a => a.publication_id == publication.id
    && a.corp_id == publication.corp_id && a.attempt == publication.attempt_count
    && a.state == .running

/-- `Uuid::new_v4` for a token: no publication has it and none was ever handed out. -/
def next_publisher_token (s : Press) : Uuid :=
  s.new_v4 (s.publications.filterMap (fun p => p.publisher.map Publisher.token)
    ++ s.publication_operations.filterMap PublicationOperation.publisher_token)

def next_publication_id (s : Press) : Uuid :=
  s.new_v4 (s.publications.map fun p => p.id)

/-- `record_publication_operation_tx`. -/
def record_publication_operation_tx (s : Press) (corp_id : Uuid) (idempotency_key : String)
    (publication_id actor_id : Uuid) (resulting_version : Int) (publisher_token : Option Uuid)
    (request : PublicationRequest) : Press :=
  { s with publication_operations := s.publication_operations ++ [
      { corp_id, idempotency_key, publication_id, actor_id, resulting_version, publisher_token
        request }] }

/-- `insert_publication_attempt_tx`. -/
def insert_publication_attempt_tx (s : Press) (publication : PullRequestPublication)
    (actor_id authorization_id : Uuid) (authorization : PublicationAuthorization)
    (publisher_id : String) : Press :=
  s.onAttempts (· ++ [
    { id := s.new_v4 (s.publication_attempts.map PublicationAttempt.id),
      corp_id := publication.corp_id
      publication_id := publication.id, attempt := publication.attempt_count, actor_id
      authorization_id, authorization_snapshot := authorization, publisher_id, state := .running }])

/-- The statement that ends the attempt a publication is in. -/
def finish_attempt (s : Press) (publication : PullRequestPublication)
    (state : PublicationAttemptState)
    (failure_detail : Option String) : Press :=
  s.onAttempts (updateWhere
    (fun a => a.publication_id == publication.id && a.corp_id == publication.corp_id
      && a.attempt == publication.attempt_count && a.state == .running)
    fun a => { a with state, failure_detail })

/-- The statement that ends whatever attempts of a publication still run. -/
def abandon_attempts (s : Press) (publication : PullRequestPublication) : Press :=
  s.onAttempts (updateWhere
    (fun a => a.publication_id == publication.id && a.corp_id == publication.corp_id
      && a.state == .running)
    fun a => { a with
      state := .abandoned
      failure_detail := a.failure_detail.or
        (some "Publisher lease expired before the attempt completed.") })

/-- `UPDATE pull_request_publications ... WHERE id = $1 AND corp_id = $2`. -/
def update_publication (s : Press) (publication : PullRequestPublication)
    (f : PullRequestPublication → PullRequestPublication) : Press :=
  s.onPublications (updateWhere
    (fun p => p.id == publication.id && p.corp_id == publication.corp_id) f)

/-- The room of a publication, `publication_room_id_tx`. -/
def publication_room_id_tx (s : Press) (corp_id mission_id : Uuid) : Except String Uuid := do
  let room_id ← transition_room s.toDb corp_id (some mission_id)
  context room_id "publication mission omitted its room"

/-- `publication_event_tx`: the key of the event is the publication, its version and the type. -/
def publication_event_tx (s : Press) (publication : PullRequestPublication) (actor_id : Uuid)
    (type : String) (payload : Json) : Except String Press := do
  let room_id ← s.publication_room_id_tx publication.corp_id publication.mission_id
  if s.publication_events.any (fun e => e.corp_id == publication.corp_id
      && e.aggregate_id == publication.id && e.type == type
      && e.aggregate_version == publication.version) then return s
  else
    return { s with publication_events := s.publication_events ++ [
      { id := s.new_v4 (s.publication_events.map PublicationEvent.id)
        corp_id := publication.corp_id, room_id := some room_id, actor_id, type
        aggregate_id := publication.id, aggregate_version := publication.version
        correlation_id := some publication.mission_id, payload }] }

/-- `assert_publication_room_membership_tx`. -/
def assert_publication_room_membership_tx (s : Press) (publication : PullRequestPublication)
    (actor_id : Uuid) : Except String Unit := do
  let room_id ← s.publication_room_id_tx publication.corp_id publication.mission_id
  assert_room_membership_tx s.toDb publication.corp_id room_id actor_id

/-- The event of an item that enters or leaves its publication. -/
def item_event (s : Press) (room_id : Uuid) (actor_id : Uuid) (publication : PullRequestPublication)
    (previous_state state : FactoryWorkItemState) (version : Int) (payload : List (String × Json)) :
    Except String Press := do
  let db ← record_event_tx s.toDb
    { id := 0, corp_id := publication.corp_id, room_id := some room_id, actor_id := some actor_id
      type := .other "factory.state_changed", aggregate_type := .factory_work_item
      aggregate_id := publication.factory_work_item_id, aggregate_version := version
      correlation_id := some publication.mission_id
      idempotency_key := .factory_state publication.factory_work_item_id state version
      payload := .obj ([("previous_state", .str (FactoryWorkItemState.as_str previous_state)),
        ("state", .str (FactoryWorkItemState.as_str state)),
        ("mission_id", .uuid publication.mission_id),
        ("publication_id", .uuid publication.id)] ++ payload) }
  return { s with toDb := db }

/-- `UPDATE factory_work_items SET state ... AND state = $3 RETURNING version`, one row. -/
def advance_item (s : Press) (publication : PullRequestPublication)
    (source target : FactoryWorkItemState) : Except String (Int × Press) := do
  let clause := fun i : FactoryWorkItem => i.id == publication.factory_work_item_id
    && i.corp_id == publication.corp_id && i.state == source
  let item ← context (s.factory_work_items.find? clause) "no rows returned"
  return (item.version + 1, s.onFactoryWorkItems (updateWhere clause fun i =>
    { i with state := target, version := i.version + 1, failure_detail := none }))

end Press

/-! ## Authority -/

/-- `revalidate_publication_publisher_credential_tx`. -/
def revalidate_publication_publisher_credential_tx (s : Press) (now : Int) (corp_id : Uuid)
    (publisher_id credential_hash : String) : Except String Unit :=
  ensure (∃ c ∈ s.publisher_credentials, c.corp_id = corp_id ∧ c.publisher_id = publisher_id
      ∧ c.credential_hash = credential_hash ∧ c.revoked = false ∧ now < c.expires_at)
    "forbidden: publication publisher credential is no longer authorized"

/-- `ensure_actor_role_tx`. -/
def ensure_actor_role_tx (s : Db) (corp_id actor_id : Uuid) (expected_role : String) :
    Except String Unit := do
  let actor ← context ((s.actor? corp_id actor_id).filter fun a => a.kind == .human)
    "no rows returned"
  ensure (actor.role = expected_role) ("publication authorization role changed from "
    ++ expected_role ++ " to " ++ actor.role)

/-- `ensure_publication_operation_matches`. -/
def ensure_publication_operation_matches (op : PublicationOperation) (actor_id : Uuid)
    (publisher_token : Option Uuid) (request : PublicationRequest) : Except String Unit :=
  ensure (op.actor_id = actor_id ∧ op.request = request
      ∧ (∀ token ∈ publisher_token, op.publisher_token = some token))
    "publication idempotency key was reused for a different operation"

/-- `replayable_publication_token`. -/
def replayable_publication_token (publication : PullRequestPublication) (op : PublicationOperation)
    (now : Int) : Option Uuid :=
  op.publisher_token.filter fun token =>
    publication.state != .published && decide (op.resulting_version ≤ publication.version)
      && publication.publisher.any fun publisher =>
        decide (now < publisher.lease_expires_at) && publisher.token == token

/-- What a publisher presents. -/
structure ActivePublicationControl where
  actor_id : Uuid
  publisher_id : String
  presented_token : Uuid
  expected_version : Int
  now : Int

/-- `ensure_active_publication_control_tx`. -/
def ensure_active_publication_control_tx (s : Press) (publication : PullRequestPublication)
    (control : ActivePublicationControl) : Except String Unit := do
  ensure (publication.state ≠ .published) "conflict: pull-request publication is already published"
  let publisher ← context (publication.publisher.filter fun p => p.token == control.presented_token)
    "conflict: stale or unauthorized publication publisher token"
  ensure (publisher.id = control.publisher_id)
    "conflict: publication attempt belongs to another trusted publisher"
  ensure (publication.version = control.expected_version)
    ("conflict: publication version is " ++ toString publication.version ++ ", not "
      ++ toString control.expected_version)
  ensure (control.now < publisher.lease_expires_at)
    "conflict: publication publisher lease has expired"
  ensure ((s.running_attempt publication).any (fun a => a.actor_id == control.actor_id) = true)
    "conflict: publication attempt belongs to another authorized actor"

/-- What the current prerequisites have to agree on with the publication. -/
def ensure_provenance_matches (publication : PullRequestPublication)
    (prerequisites : PublicationPrerequisites) (source : PublicationSourceProvenanceState) :
    Except String Unit :=
  ensure (prerequisites.work_item.id = publication.factory_work_item_id
      ∧ prerequisites.mission_id = publication.mission_id
      ∧ prerequisites.artifact_id = publication.artifact_id
      ∧ prerequisites.task_id = publication.task_id ∧ prerequisites.run_id = publication.run_id
      ∧ prerequisites.commit_sha = publication.commit_sha
      ∧ (Json.pointer publication.provenance "deliverable" "sha256").bind Json.as_str
        = some prerequisites.deliverable_sha256
      ∧ publication.provenance.text? "verification_sha256" = some prerequisites.verification_sha256
      ∧ source ≠ .invalid)
    "conflict: publication authority no longer matches its verified provenance"

/-- The provenance of a publication whose authority is still valid. -/
def revalidate_provenance (publication : PullRequestPublication)
    (prerequisites : PublicationPrerequisites) : Except String Json := do
  let claimed := prerequisites.work_item.source_revision
  let source ← publication_source_provenance_state publication.provenance claimed
    prerequisites.effective_source_revision prerequisites.source_recovery_id
  ensure_provenance_matches publication prerequisites source
  let source_upgraded ← if source = .legacy then
      upgrade_publication_source_provenance publication.provenance claimed
        prerequisites.effective_source_revision prerequisites.source_recovery_id
    else pure publication.provenance
  revalidated_provenance source_upgraded
    (prerequisites.checkpoint.map CheckpointPublication.provenance)

/-- `revalidate_publication_authority_tx`: the provenance may be brought up to date. -/
def revalidate_publication_authority_tx (documents : PolicyDocuments) (s : Press) (now : Int)
    (publication : PullRequestPublication) (actor_id : Uuid) (answers : PublicationAnswers) :
    Except String Press := do
  let attempt ← context ((s.running_attempt publication).filter fun a => a.actor_id == actor_id)
    "active publication attempt omitted its authorization role"
  ensure_actor_role_tx s.toDb publication.corp_id actor_id attempt.authorization_snapshot.actor_role
  let prerequisites ← validate_publication_prerequisites documents s.toDb now
    (.from_publication publication) true answers
  assert_room_membership_tx s.toDb publication.corp_id prerequisites.room_id actor_id
  let upgraded ← revalidate_provenance publication prerequisites
  return if Json.beq upgraded publication.provenance then s
    else s.update_publication publication fun p => { p with provenance := upgraded }

structure PullRequestPublicationOutcome where
  publication : PullRequestPublication
  publisher_token : Option Uuid
  replayed : Bool
  busy : Bool

/-! ## `start_pull_request_publication` -/

/-- `publication_authorization`. -/
def publication_authorization (input : StartPullRequestPublicationInput) (authorized_at : Int) :
    PublicationAuthorization :=
  { id := input.authorization_id, actor_id := input.actor_id, actor_role := input.actor_role
    reason := input.authorization_reason, authorized_at }

/-- `ensure_publication_matches_start`. -/
def ensure_publication_matches_start (publication : PullRequestPublication)
    (input : StartPullRequestPublicationInput) : Except String Unit :=
  ensure (publication.factory_work_item_id = input.work_item_id
      ∧ publication.source_deliverable_id = input.source_deliverable_id
      ∧ publication.target_repository = input.target_repository
      ∧ publication.base_ref = input.base_ref ∧ publication.branch = input.branch
      ∧ publication.title = input.title ∧ publication.body = input.body
      ∧ publication.effect_key = input.effect_key)
    "conflict: publication request does not match the durable effect"

/-- A replay that would hand out a live token asks for the authority again. -/
def revalidate_replay (documents : PolicyDocuments) (s : Press) (now : Int)
    (publication : PullRequestPublication) (op : PublicationOperation) (actor_id : Uuid)
    (answers : PublicationAnswers) : Except String (PullRequestPublication × Press) :=
  if (replayable_publication_token publication op now).isSome then do
    let s ← revalidate_publication_authority_tx documents s now publication actor_id answers
    let publication ← context (s.publication? publication.corp_id publication.id)
      "publication disappeared after replay revalidation"
    return (publication, s)
  else .ok (publication, s)

/-- The start has been made before. -/
def replay_start (documents : PolicyDocuments) (s : Press) (now : Int)
    (input : StartPullRequestPublicationInput) (op : PublicationOperation)
    (answers : PublicationAnswers) : Except String (PullRequestPublicationOutcome × Press) := do
  ensure_publication_operation_matches op input.actor_id none (.start input.toStartRequest)
  let publication ← context (s.publication? input.corp_id op.publication_id)
    "idempotent publication start references a missing publication"
  s.assert_publication_room_membership_tx publication input.actor_id
  let (publication, s) ← revalidate_replay documents s now publication op input.actor_id answers
  let publisher_token := replayable_publication_token publication op now
  let busy := publication.state != .published && publisher_token.isNone
    && publication.publisher.any fun publisher => decide (now < publisher.lease_expires_at)
  return ({ publication, publisher_token, replayed := true, busy }, s)

/-- A new attempt at a publication that is not finished. -/
def PullRequestPublication.attempted (p : PullRequestPublication) (publisher : Publisher) :
    PullRequestPublication :=
  { p with
    state := if p.state = .requested then .publishing else p.state
    version := p.version + 1
    attempt_count := p.attempt_count + 1
    publisher := some publisher
    failure_detail := none }

/-- The publication is taken over, or taken up again. -/
def restart_publication (s : Press) (now : Int) (input : StartPullRequestPublicationInput)
    (publication : PullRequestPublication) :
    Except String (PullRequestPublicationOutcome × Press) := do
  let token := s.next_publisher_token
  let f := fun p : PullRequestPublication => p.attempted
    { id := input.publisher_id, token, lease_expires_at := now + input.lease_seconds }
  let recovered := f publication
  let s := s.abandon_attempts publication
  let s := s.update_publication publication f
  let s := s.insert_publication_attempt_tx recovered input.actor_id input.authorization_id
    (publication_authorization input now) input.publisher_id
  let s := s.record_publication_operation_tx input.corp_id input.idempotency_key recovered.id
    input.actor_id recovered.version (some token) (.start input.toStartRequest)
  let s ← s.publication_event_tx recovered input.actor_id "factory.publication_attempt_started"
    (.obj [("factory_work_item_id", .uuid recovered.factory_work_item_id),
      ("attempt", .int recovered.attempt_count), ("publisher_id", .str input.publisher_id),
      ("state", .str recovered.state.as_str), ("recovered", .bool true)])
  return ({ publication := recovered, publisher_token := some token, replayed := false,
            busy := false }, s)

/-- There is a publication of the item, or under the effect key, or to the branch. -/
def resume_publication (documents : PolicyDocuments) (s : Press) (now : Int)
    (input : StartPullRequestPublicationInput) (publication : PullRequestPublication)
    (answers : PublicationAnswers) : Except String (PullRequestPublicationOutcome × Press) := do
  ensure_publication_matches_start publication input
  s.assert_publication_room_membership_tx publication input.actor_id
  if publication.state = .published then
    let s := s.record_publication_operation_tx input.corp_id input.idempotency_key publication.id
      input.actor_id publication.version none (.start input.toStartRequest)
    return ({ publication, publisher_token := none, replayed := true, busy := false }, s)
  else do
    let _ ← validate_publication_prerequisites documents s.toDb now (.from_start input) true answers
    if publication.publisher.any (fun publisher => decide (now < publisher.lease_expires_at)) then
      return ({ publication, publisher_token := none, replayed := true, busy := true }, s)
    else restart_publication s now input publication

/-- The document that says where the publication comes from. -/
def publication_provenance (input : StartPullRequestPublicationInput) (now : Int)
    (r : PublicationPrerequisites) : Json :=
  .obj [("schema_version", .int (if r.checkpoint.isSome then 3 else 2)),
    ("source_issue", .obj [("number", .int r.work_item.source_issue_number),
      ("node_id", .str r.work_item.source.source_issue_node_id),
      ("url", .str r.work_item.source.source_issue_url),
      ("revision", .str r.effective_source_revision),
      ("claimed_revision", .str r.work_item.source_revision),
      ("recovery_id", optional_uuid r.source_recovery_id)]),
    ("factory_work_item_id", .uuid r.work_item.id), ("mission_id", .uuid r.mission_id),
    ("task_ids", .arr (r.task_ids.map .uuid)), ("run_ids", .arr (r.run_ids.map .uuid)),
    ("verification_evidence_ids", .arr (r.evidence_ids.map .uuid)),
    ("verification_sha256", .str r.verification_sha256),
    ("checkpoint", (r.checkpoint.map CheckpointPublication.provenance).getD .null),
    ("deliverable", .obj [("id", .uuid input.source_deliverable_id),
      ("artifact_id", .uuid r.artifact_id), ("sha256", .str r.deliverable_sha256),
      ("base_commit", .str r.base_commit), ("head_commit", .str r.commit_sha),
      ("source_branch", .str r.source_branch)]),
    ("target", .obj [("repository", .str input.target_repository),
      ("base_ref", .str input.base_ref), ("branch", .str input.branch),
      ("commit", .str r.commit_sha)]),
    ("pull_request", .null),
    ("project", .obj [("owner", .str r.work_item.source.source_project_owner),
      ("number", .int r.work_item.source.source_project_number),
      ("item_id", .str r.work_item.source.source_project_item_id),
      ("status_before", .str r.project_status_before), ("review_status", .str r.review_status)]),
    ("authorization_snapshot", (publication_authorization input now).document),
    ("effects", .obj [("effect_key", .str input.effect_key), ("auto_merge", .bool false),
      ("merge", .bool false), ("deploy", .bool false)])]

/-- The row of a new publication. -/
def new_publication (id token : Uuid) (input : StartPullRequestPublicationInput) (now : Int)
    (r : PublicationPrerequisites) : PullRequestPublication :=
  { id, corp_id := input.corp_id, factory_work_item_id := r.work_item.id, mission_id := r.mission_id
    source_deliverable_id := input.source_deliverable_id, artifact_id := r.artifact_id
    task_id := r.task_id, run_id := r.run_id
    source_issue_number := r.work_item.source_issue_number
    source_issue_url := r.work_item.source.source_issue_url
    target_repository := input.target_repository, base_ref := input.base_ref, branch := input.branch
    commit_sha := r.commit_sha, title := input.title, body := input.body, actor_id := input.actor_id
    authorization_id := input.authorization_id
    authorization_snapshot := publication_authorization input now
    effect_key := input.effect_key, idempotency_key := input.idempotency_key
    project_owner := r.work_item.source.source_project_owner
    project_number := r.work_item.source.source_project_number
    project_item_id := r.work_item.source.source_project_item_id
    project_status_before := r.project_status_before
    state := .publishing, version := 1, attempt_count := 1
    publisher :=
      some { id := input.publisher_id, token, lease_expires_at := now + input.lease_seconds }
    provenance := publication_provenance input now r }

/-- `INSERT INTO pull_request_publications`, with the unique columns of the table. -/
def insert_publication (s : Press) (publication : PullRequestPublication) :
    Except String Press := do
  ensure (∀ p ∈ s.publications, p.factory_work_item_id ≠ publication.factory_work_item_id
      ∧ p.source_deliverable_id ≠ publication.source_deliverable_id
      ∧ (p.corp_id = publication.corp_id → p.effect_key ≠ publication.effect_key
        ∧ p.idempotency_key ≠ publication.idempotency_key
        ∧ ¬ (p.target_repository = publication.target_repository ∧ p.branch = publication.branch)))
    "duplicate key value violates a unique constraint of pull_request_publications"
  return s.onPublications (· ++ [publication])

/-- The first start of a publication. -/
def request_publication (documents : PolicyDocuments) (s : Press) (now : Int)
    (input : StartPullRequestPublicationInput) (answers : PublicationAnswers) :
    Except String (PullRequestPublicationOutcome × Press) := do
  let prerequisites ← validate_publication_prerequisites documents s.toDb now (.from_start input)
    false answers
  assert_room_membership_tx s.toDb input.corp_id prerequisites.room_id input.actor_id
  let token := s.next_publisher_token
  let publication := new_publication s.next_publication_id token input now prerequisites
  let s ← insert_publication s publication
  let s := s.insert_publication_attempt_tx publication input.actor_id input.authorization_id
    (publication_authorization input now) input.publisher_id
  let s := s.record_publication_operation_tx input.corp_id input.idempotency_key publication.id
    input.actor_id publication.version (some token) (.start input.toStartRequest)
  let (factory_version, s) ← s.advance_item publication .verified .publishing
  let s ← s.item_event prerequisites.room_id input.actor_id publication .verified .publishing
    factory_version []
  let s ← s.publication_event_tx publication input.actor_id "factory.publication_requested"
    (.obj [("factory_work_item_id", .uuid publication.factory_work_item_id),
      ("source_deliverable_id", .uuid publication.source_deliverable_id),
      ("target_repository", .str publication.target_repository),
      ("base_ref", .str publication.base_ref), ("branch", .str publication.branch),
      ("commit_sha", .str publication.commit_sha), ("attempt", .int publication.attempt_count),
      ("state", .str publication.state.as_str), ("auto_merge", .bool false), ("merge", .bool false),
      ("deploy", .bool false)])
  return ({ publication, publisher_token := some token, replayed := false, busy := false }, s)

/-- `start_pull_request_publication`. -/
def start_pull_request_publication (documents : PolicyDocuments) (s : Press) (now : Int)
    (input : StartPullRequestPublicationInput) (answers : PublicationAnswers) :
    Except String (PullRequestPublicationOutcome × Press) := do
  let input ← normalize_start_input input
  assert_actor_scope_tx s.toDb input.corp_id input.actor_id
  revalidate_publication_publisher_credential_tx s now input.corp_id input.publisher_id
    input.publisher_credential_hash
  ensure_actor_role_tx s.toDb input.corp_id input.actor_id input.actor_role
  match s.publication_operation input.corp_id input.idempotency_key with
  | some op => replay_start documents s now input op answers
  | none =>
    match s.publication_collision input with
    | some publication => resume_publication documents s now input publication answers
    | none => request_publication documents s now input answers

/-! ## `renew_pull_request_publication` -/

structure RenewPullRequestPublicationInput where
  corp_id : Uuid
  publication_id : Uuid
  actor_id : Uuid
  publisher_id : String
  publisher_credential_hash : String
  publisher_token : Uuid
  expected_version : Int
  idempotency_key : String
  lease_seconds : Int

/-- The renewal has been made before: the authority is asked for again whatever the token. -/
def replay_renewal (documents : PolicyDocuments) (s : Press) (now : Int)
    (input : RenewPullRequestPublicationInput) (op : PublicationOperation)
    (request : PublicationRequest) (answers : PublicationAnswers) :
    Except String (PullRequestPublicationOutcome × Press) := do
  ensure_publication_operation_matches op input.actor_id (some input.publisher_token) request
  let publication ← context (s.publication? input.corp_id input.publication_id)
    "idempotent publication renewal references a missing publication"
  let s ← revalidate_publication_authority_tx documents s now publication input.actor_id answers
  let publication ← context (s.publication? input.corp_id input.publication_id)
    "publication disappeared after renewal revalidation"
  return ({ publication, publisher_token := replayable_publication_token publication op now
            replayed := true, busy := false }, s)

/-- A longer lease. -/
def PullRequestPublication.renewed (p : PullRequestPublication) (lease_expires_at : Int) :
    PullRequestPublication :=
  { p with
    version := p.version + 1
    publisher := p.publisher.map fun publisher => { publisher with lease_expires_at } }

/-- `renew_pull_request_publication`. -/
def renew_pull_request_publication (documents : PolicyDocuments) (s : Press) (now : Int)
    (input : RenewPullRequestPublicationInput) (answers : PublicationAnswers) :
    Except String (PullRequestPublicationOutcome × Press) := do
  ensure (0 < input.expected_version) "expected publication version must be positive"
  let idempotency_key ←
    normalize_factory_identifier input.idempotency_key "publication idempotency key" 500
  let publisher_id ← normalize_factory_identifier input.publisher_id "trusted publisher id" 160
  let credential_hash ←
    normalize_publication_publisher_credential_hash input.publisher_credential_hash
  let lease_seconds ← validate_publication_lease_seconds input.lease_seconds
  let request := PublicationRequest.renew input.publication_id publisher_id input.expected_version
    lease_seconds
  assert_actor_scope_tx s.toDb input.corp_id input.actor_id
  revalidate_publication_publisher_credential_tx s now input.corp_id publisher_id credential_hash
  match s.publication_operation input.corp_id idempotency_key with
  | some op => replay_renewal documents s now input op request answers
  | none => do
    let current ← context (s.publication? input.corp_id input.publication_id)
      "pull-request publication not found"
    ensure_active_publication_control_tx s current
      { actor_id := input.actor_id, publisher_id, presented_token := input.publisher_token
        expected_version := input.expected_version, now }
    let s ← revalidate_publication_authority_tx documents s now current input.actor_id answers
    let current ← context (s.publication? input.corp_id input.publication_id) "no rows returned"
    let f := fun p : PullRequestPublication => p.renewed (now + lease_seconds)
    let publication := f current
    let s := s.update_publication current f
    let s := s.record_publication_operation_tx input.corp_id idempotency_key publication.id
      input.actor_id publication.version (some input.publisher_token) request
    let s ← s.publication_event_tx publication input.actor_id "factory.publication_lease_renewed"
      (.obj [("attempt", .int publication.attempt_count), ("publisher_id", .str publisher_id),
        ("lease_expires_at", .int (now + lease_seconds)), ("state", .str publication.state.as_str)])
    return ({ publication, publisher_token := some input.publisher_token, replayed := false
              busy := false }, s)

/-! ## `record_pull_request_publication_checkpoint` -/

structure RecordPullRequestPublicationCheckpointInput where
  corp_id : Uuid
  publication_id : Uuid
  actor_id : Uuid
  publisher_id : String
  publisher_credential_hash : String
  publisher_token : Uuid
  expected_version : Int
  idempotency_key : String
  checkpoint : PullRequestPublicationCheckpointInput

/-- The operation of a checkpoint: who records it under which key. -/
structure CheckpointCall where
  corp_id : Uuid
  idempotency_key : String
  actor_id : Uuid
  publisher_token : Uuid
  request : PublicationRequest

/-- The record of a checkpoint, at the version it leaves the publication with. -/
def CheckpointCall.record (call : CheckpointCall) (s : Press)
    (publication : PullRequestPublication) :
    Press :=
  s.record_publication_operation_tx call.corp_id call.idempotency_key publication.id call.actor_id
    publication.version (some call.publisher_token) call.request

/-- The checkpoint has been recorded before. -/
def replay_checkpoint (documents : PolicyDocuments) (s : Press) (now : Int)
    (input : RecordPullRequestPublicationCheckpointInput) (op : PublicationOperation)
    (request : PublicationRequest) (answers : PublicationAnswers) :
    Except String (PullRequestPublicationOutcome × Press) := do
  ensure_publication_operation_matches op input.actor_id (some input.publisher_token) request
  let publication ← context (s.publication? input.corp_id input.publication_id)
    "idempotent publication checkpoint references a missing publication"
  let (publication, s) ← revalidate_replay documents s now publication op input.actor_id answers
  return ({ publication, publisher_token := replayable_publication_token publication op now
            replayed := true, busy := false }, s)

/-- The branch is pushed. -/
def record_branch_pushed (s : Press) (now : Int) (call : CheckpointCall)
    (current : PullRequestPublication) (commit_sha : String) :
    Except String (PullRequestPublication × Bool × Press) :=
  if publication_state_rank .branch_pushed ≤ publication_state_rank current.state then do
    ensure (current.commit_sha = commit_sha ∧ current.branch_pushed_at.isSome = true)
      "conflict: publication branch checkpoint does not match the persisted branch"
    return (current, true, call.record s current)
  else do
    ensure (current.state = .publishing ∧ current.commit_sha = commit_sha)
      "conflict: publication cannot record this branch checkpoint"
    let f := fun p : PullRequestPublication =>
      { p with state := .branch_pushed, version := p.version + 1, branch_pushed_at := some now
               failure_detail := none }
    let publication := f current
    let s := call.record (s.update_publication current f) publication
    let s ← s.publication_event_tx publication call.actor_id "factory.publication_branch_pushed"
      (.obj [("repository", .str publication.target_repository),
        ("branch", .str publication.branch), ("commit_sha", .str publication.commit_sha),
        ("attempt", .int publication.attempt_count)])
    return (publication, false, s)

/-- The document of a pull request in the provenance. -/
def PullRequestReport.document (r : PullRequestReport) : Json :=
  .obj [("number", .int r.number), ("node_id", .str r.node_id), ("url", .str r.url),
    ("state", .str r.state), ("draft", .bool r.draft), ("title", .str r.title),
      ("body", .str r.body),
    ("base_ref", .str r.base_ref), ("head_sha", .str r.head_sha),
    ("head_repository_owner", .str r.head_repository_owner), ("is_cross_repository", .bool false),
    ("auto_merge", .bool false)]

/-- The payload of the event that a pull request was created. -/
def PullRequestIdentity.payload (r : PullRequestIdentity) (attempt_count : Int) : Json :=
  .obj [("pull_request_number", .int r.number), ("pull_request_node_id", .str r.node_id),
    ("pull_request_url", .str r.url), ("pull_request_state", .str r.state),
      ("draft", .bool r.draft),
    ("base_ref", .str r.base_ref), ("head_sha", .str r.head_sha),
    ("head_repository_owner", .str r.head_repository_owner),
    ("is_cross_repository", .bool r.is_cross_repository), ("auto_merge", .bool false),
    ("attempt", .int attempt_count)]

/-- The pull request exists. -/
def record_pull_request_created (s : Press) (call : CheckpointCall)
    (current : PullRequestPublication) (report : PullRequestReport) :
    Except String (PullRequestPublication × Bool × Press) := do
  validate_pull_request_identity current report
  if publication_state_rank .pull_request_created ≤ publication_state_rank current.state then
    ensure_pull_request_identity_matches current report.toPullRequestIdentity
    return (current, true, call.record s current)
  else do
    ensure (current.state = .branch_pushed)
      "conflict: pull request cannot be recorded before the branch is durable"
    let provenance := Json.index_mut current.provenance "pull_request" report.document
    let f := fun p : PullRequestPublication =>
      { p with state := .pull_request_created, version := p.version + 1
               pull_request := some report.toPullRequestIdentity, failure_detail :=
                 none, provenance }
    let publication := f current
    let s := call.record (s.update_publication current f) publication
    let s ← s.publication_event_tx publication call.actor_id "factory.pull_request_created"
      (report.toPullRequestIdentity.payload publication.attempt_count)
    return (publication, false, s)

/-- The provenance of a finished publication. -/
def published_provenance (provenance : Json)
    (project_status project_field_id project_option_id : String) : Json :=
  let project := (provenance.get? "project").getD .null
  let project := Json.index_mut project "status_after" (.str project_status)
  let project := Json.index_mut project "field_id" (.str project_field_id)
  let project := Json.index_mut project "option_id" (.str project_option_id)
  Json.index_mut provenance "project" project

/-- The card of the project is in review. -/
def record_published (s : Press) (call : CheckpointCall) (current : PullRequestPublication)
    (project_status project_field_id project_option_id : String) :
    Except String (PullRequestPublication × Bool × Press) := do
  let expected_status ←
    context ((Json.pointer current.provenance "project" "review_status").bind Json.as_str)
      "publication provenance omitted Project review status"
  ensure (project_status = expected_status) ("Project status " ++ project_status
    ++ " does not match authorized review status " ++ expected_status)
  let _ ← normalize_factory_identifier project_field_id "GitHub Project field id" 200
  let _ ← normalize_factory_identifier project_option_id "GitHub Project option id" 200
  if current.state = .published then
    ensure (current.project_status_after = some project_status)
      "conflict: publication already completed with a different Project status"
    return (current, true, call.record s current)
  else do
    ensure (current.state = .pull_request_created ∧ current.pull_request.isSome = true)
      "conflict: Project review status cannot advance before the pull request exists"
    let provenance :=
      published_provenance current.provenance project_status project_field_id project_option_id
    let f := fun p : PullRequestPublication =>
      { p with state := .published, version := p.version + 1
               project_status_after := some project_status, publisher := none
               failure_detail := none, provenance }
    let publication := f current
    let s := s.update_publication current f
    let s := s.finish_attempt publication .published none
    let (factory_version, s) ← s.advance_item publication .publishing .published
    let s := s.onSourceDeliverables (updateWhere
      (fun d => d.id == publication.source_deliverable_id && d.corp_id == publication.corp_id)
      fun d => { d with integration_state := "published" })
    let s := call.record s publication
    let room_id ← s.publication_room_id_tx publication.corp_id publication.mission_id
    let url := publication.pull_request.elim Json.null fun r => .str r.url
    let s ← s.item_event room_id call.actor_id publication .publishing .published factory_version
      [("pull_request_url", url)]
    let s ← s.publication_event_tx publication call.actor_id "factory.publication_completed"
      (.obj [("pull_request_number", publication.pull_request.elim .null fun r => .int r.number),
        ("pull_request_url", url), ("project_status", .str project_status),
        ("attempt", .int publication.attempt_count), ("auto_merge", .bool false),
        ("merge", .bool false), ("deploy", .bool false)])
    return (publication, false, s)

/-- The attempt has failed. -/
def record_failed (s : Press) (call : CheckpointCall) (current : PullRequestPublication)
    (failure_detail : String) : Except String (PullRequestPublication × Bool × Press) := do
  ensure (current.state ≠ .published) "conflict: a published pull request cannot be marked failed"
  let f := fun p : PullRequestPublication =>
    { p with version := p.version + 1, publisher := none, failure_detail := some failure_detail }
  let publication := f current
  let s := s.update_publication current f
  let s := s.finish_attempt publication .failed (some failure_detail)
  let s := call.record s publication
  let s ← s.publication_event_tx publication call.actor_id "factory.publication_failed"
    (.obj [("state", .str publication.state.as_str), ("attempt", .int publication.attempt_count),
      ("failure_detail", .str failure_detail)])
  return (publication, false, s)

/-- The row a checkpoint is recorded on: all but a failure ask for the authority again. -/
def current_for_checkpoint (documents : PolicyDocuments) (s : Press) (now : Int)
    (current : PullRequestPublication) (actor_id : Uuid)
    (checkpoint : PullRequestPublicationCheckpointInput) (answers : PublicationAnswers) :
    Except String (PullRequestPublication × Press) :=
  match checkpoint with
  | .failed _ => .ok (current, s)
  | _ => do
    let s ← revalidate_publication_authority_tx documents s now current actor_id answers
    let current ← context (s.publication? current.corp_id current.id)
      "publication disappeared after authority revalidation"
    return (current, s)

def record_checkpoint (s : Press) (now : Int) (call : CheckpointCall)
    (current : PullRequestPublication) :
    PullRequestPublicationCheckpointInput → Except String (PullRequestPublication × Bool × Press)
  | .branch_pushed commit_sha => record_branch_pushed s now call current commit_sha
  | .pull_request_created report => record_pull_request_created s call current report
  | .published project_status project_field_id project_option_id =>
    record_published s call current project_status project_field_id project_option_id
  | .failed failure_detail => record_failed s call current failure_detail

/-- `record_pull_request_publication_checkpoint`. -/
def record_pull_request_publication_checkpoint (documents : PolicyDocuments) (s : Press) (now : Int)
    (input : RecordPullRequestPublicationCheckpointInput) (answers : PublicationAnswers) :
    Except String (PullRequestPublicationOutcome × Press) := do
  ensure (0 < input.expected_version) "expected publication version must be positive"
  let idempotency_key ←
    normalize_factory_identifier input.idempotency_key "publication idempotency key" 500
  let publisher_id ← normalize_factory_identifier input.publisher_id "trusted publisher id" 160
  let credential_hash ←
    normalize_publication_publisher_credential_hash input.publisher_credential_hash
  let checkpoint ← normalize_checkpoint input.checkpoint
  let request := PublicationRequest.checkpoint publisher_id checkpoint
  assert_actor_scope_tx s.toDb input.corp_id input.actor_id
  revalidate_publication_publisher_credential_tx s now input.corp_id publisher_id credential_hash
  match s.publication_operation input.corp_id idempotency_key with
  | some op => replay_checkpoint documents s now input op request answers
  | none => do
    let current ← context (s.publication? input.corp_id input.publication_id)
      "pull-request publication not found"
    ensure_active_publication_control_tx s current
      { actor_id := input.actor_id, publisher_id, presented_token := input.publisher_token
        expected_version := input.expected_version, now }
    let (current, s) ← current_for_checkpoint documents s now current input.actor_id checkpoint
      answers
    let call : CheckpointCall :=
      { corp_id := input.corp_id, idempotency_key, actor_id := input.actor_id
        publisher_token := input.publisher_token, request }
    let (publication, replayed, s) ← record_checkpoint s now call current checkpoint
    return ({ publication
              publisher_token := if publication.state ≠ .published
                ∧ publication.publisher.isSome = true
                then some input.publisher_token else none
              replayed, busy := false }, s)

/-! ## Credentials -/

/-- `role IN ('owner', 'admin')`, of a human. -/
def assert_publisher_admin (s : Db) (corp_id actor_id : Uuid) (action : String) :
    Except String Unit :=
  ensure (((s.actor? corp_id actor_id).filter fun a => a.kind == .human).any
      (fun a => a.role == "owner" || a.role == "admin") = true)
    ("forbidden: only a Corp owner or admin can " ++ action ++ " a publication publisher")

/-- `create_publication_publisher_credential`, with `credential_hash` unique. -/
def create_publication_publisher_credential (s : Press) (now : Int) (corp_id actor_id : Uuid)
    (publisher_id credential_hash : String) (expires_at : Int) : Except String Press := do
  let publisher_id ← normalize_factory_identifier publisher_id "trusted publisher id" 160
  let credential_hash ← normalize_credential_hash credential_hash
    "publication publisher credential hash must be a SHA-256 digest"
  ensure (now < expires_at) "publication publisher credential expiry must be in the future"
  assert_publisher_admin s.toDb corp_id actor_id "enroll"
  ensure (∀ c ∈ s.publisher_credentials, c.credential_hash ≠ credential_hash)
    "duplicate key value violates unique constraint publication_publisher_credentials_credential_hash_key"
  return { s with publisher_credentials := s.publisher_credentials ++ [
    { id := s.new_v4 (s.publisher_credentials.map PublicationPublisherCredential.id), corp_id
      publisher_id, credential_hash, created_by := actor_id, expires_at }] }

/-- `revoke_publication_publisher_credential`. -/
def revoke_publication_publisher_credential (s : Press) (corp_id actor_id credential_id : Uuid)
    (reason : String) : Except String Press := do
  let _ ← normalize_factory_text reason "publisher credential revocation reason" 2000
  assert_publisher_admin s.toDb corp_id actor_id "revoke"
  let _ ← context (s.publisher_credentials.find? fun c => c.id == credential_id
    && c.corp_id == corp_id)
    "publication publisher credential was not found"
  let credentials := updateWhere (fun c : PublicationPublisherCredential => c.id == credential_id)
    (fun c => { c with revoked := true }) s.publisher_credentials
  return { s with publisher_credentials := credentials }

/-! ## The transition system -/

/-- The calls about publications, and those about claims and the lifecycle. -/
inductive PressOp where
  | workshop (op : WorkshopOp)
  | start_pull_request_publication (now : Int) (input : StartPullRequestPublicationInput)
      (answers : PublicationAnswers)
  | renew_pull_request_publication (now : Int) (input : RenewPullRequestPublicationInput)
      (answers : PublicationAnswers)
  | record_pull_request_publication_checkpoint (now : Int)
      (input : RecordPullRequestPublicationCheckpointInput) (answers : PublicationAnswers)
  | create_publication_publisher_credential (now : Int) (corp_id actor_id : Uuid)
      (publisher_id credential_hash : String) (expires_at : Int)
  | revoke_publication_publisher_credential (corp_id actor_id credential_id : Uuid)
      (reason : String)

variable (env : Env) (documents : PolicyDocuments)

/-- The committed state of a call, or the error that rolled it back. -/
def Press.exec (s : Press) : PressOp → Except String Press
  | .workshop op =>
      (fun w => { s with toWorkshop := w }) <$> Workshop.exec env documents s.toWorkshop op
  | .start_pull_request_publication now input answers =>
    Prod.snd <$> Store.start_pull_request_publication documents s now input answers
  | .renew_pull_request_publication now input answers =>
    Prod.snd <$> Store.renew_pull_request_publication documents s now input answers
  | .record_pull_request_publication_checkpoint now input answers =>
    Prod.snd <$> Store.record_pull_request_publication_checkpoint documents s now input answers
  | .create_publication_publisher_credential now corp_id actor_id publisher_id credential_hash
      expires_at =>
    Store.create_publication_publisher_credential s now corp_id actor_id publisher_id
      credential_hash
      expires_at
  | .revoke_publication_publisher_credential corp_id actor_id credential_id reason =>
    Store.revoke_publication_publisher_credential s corp_id actor_id credential_id reason

/-- Nothing has been published. -/
structure Press.Initial (s : Press) : Prop where
  workshop : s.toWorkshop.Initial
  publications : s.publications = []
  publication_attempts : s.publication_attempts = []
  publication_operations : s.publication_operations = []

/-- The transition system of the publications. -/
def presses : TransitionSystem Press PressOp :=
  .ofExec Press.Initial (Press.exec env documents)

end Crony.Store
