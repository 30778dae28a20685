/-
The claims on Factory work items: `claim_factory_work_item`, `renew_factory_work_item`,
`reject_factory_materialization` and `upgrade_factory_source_commit`.

A worker claims an issue for a bounded time and gets a token for it. With the token it renews
the lease and moves the item; when the lease has run out anybody may claim the issue again,
and the token of the former holder is worth nothing from then on. Each call carries an
idempotency key under which its outcome is recorded.

The request document of an operation is the value it is built from: equal documents have equal
fields. `factory_operations` has the columns the lifecycle reads, `factory_requests` the
documents. What serde_json makes of a policy is a parameter, and the check that the actor may
use the workspace connection of the policy, which reads other tables, is answered in the input.
-/
import Crony.Store.System
import Crony.Store.FactoryPolicy

set_option autoImplicit false

open Crony.Lib

namespace Crony.Store

/-! ## Normalising requests -/

structure FactorySourceInput where
  project_owner : String
  project_number : Int
  project_item_id : String
  repository_owner : String
  repository_name : String
  issue_number : Int
  issue_node_id : String
  issue_url : String
  title : String
  revision : String
  deriving DecidableEq

/-- `validate_factory_lease_seconds`. -/
def validate_factory_lease_seconds (value : Int) : Except String Int := do
  ensure (30 ≤ value ∧ value ≤ 3600) "factory claim lease must be between 30 and 3600 seconds"
  return value

/-- `value.trim_end_matches('/')`. -/
def trim_end_slashes (value : String) : String :=
  String.ofList (value.toList.reverse.dropWhile (· == '/')).reverse

/-- `normalize_factory_source`. -/
def normalize_factory_source (input : FactorySourceInput) : Except String FactorySourceInput := do
  ensure (0 < input.project_number) "factory source project number must be positive"
  ensure (0 < input.issue_number) "factory source issue number must be positive"
  let project_owner ← normalize_github_component input.project_owner "source project owner" 100
  let project_item_id ←
    normalize_factory_identifier input.project_item_id "source project item id" 160
  let repository_owner ←
    normalize_github_component input.repository_owner "source repository owner" 100
  let repository_name ← normalize_github_component input.repository_name "source repository name"
    100
  let issue_node_id ← normalize_factory_identifier input.issue_node_id "source issue node id" 160
  let title ← normalize_factory_text input.title "source issue title" 240
  let revision ← normalize_factory_text input.revision "source issue revision" 160
  let issue_url ← normalize_factory_text input.issue_url "source issue URL" 500
  let expected_url := "https://github.com/" ++ repository_owner ++ "/" ++ repository_name
    ++ "/issues/" ++ toString input.issue_number
  ensure (to_ascii_lowercase (trim_end_slashes issue_url) = to_ascii_lowercase expected_url)
    "source issue URL must identify the declared GitHub repository and issue"
  return { project_owner, project_number := input.project_number, project_item_id, repository_owner
           repository_name, issue_number := input.issue_number, issue_node_id
           issue_url := expected_url, title, revision }

/-- The source columns of a row. -/
def FactorySourceInput.columns (source : FactorySourceInput) : FactorySource :=
  { source_project_owner := source.project_owner
    source_project_number := source.project_number
    source_project_item_id := source.project_item_id
    source_repository_owner := source.repository_owner
    source_repository_name := source.repository_name
    source_issue_node_id := source.issue_node_id
    source_issue_url := source.issue_url
    source_title := source.title }

/-- `ensure_factory_source_matches`. -/
def ensure_factory_source_matches (work_item : FactoryWorkItem) (source : FactorySourceInput) :
    Except String Unit :=
  ensure (work_item.source = source.columns ∧ work_item.source_issue_number = source.issue_number
      ∧ work_item.source_revision = source.revision)
    "factory idempotency key was reused for a different source revision"

/-- What serde_json makes of a policy. -/
structure PolicyDocuments where
  from_value : Json → Option VerificationPolicy
  to_vec_len : Json → Nat
  /-- The document as it is stored, and read back. -/
  to_text : Json → String
  from_text : String → Option Json

/-- `ensure_new_factory_policy_is_pinned`. -/
def ensure_new_factory_policy_is_pinned (policy : Json) : Except String Unit := do
  ensure (policy.as_object.isSome = true) "factory policy snapshot must be a JSON object"
  let source_base_commit ← factory_policy_required_string policy "source_base_commit" 64
  validate_factory_base_commit (to_ascii_lowercase source_base_commit)
  ensure ((policy.get? "source_commit_upgrade_required").bind Json.as_bool = some false)
    "new factory claims cannot require a legacy source upgrade"

/-! ## Operations and their outcomes -/

/-- The request of an operation, which also tells its kind. -/
inductive ClaimRequest where
  | claim (source : FactorySourceInput) (lease_seconds : Int) (policy : String)
  | renew (work_item_id : Uuid) (expected_version lease_seconds : Int)
  | materialize_rejected (work_item_id : Uuid) (attempted_version : Int) (failure_detail : String)
  | upgrade_source_commit (work_item_id : Uuid) (expected_version : Int)
      (source_base_commit : String)
  deriving DecidableEq

structure FactoryRequest where
  corp_id : Uuid
  idempotency_key : String
  request : ClaimRequest
  deriving DecidableEq

/-- The database of the lifecycle with the request documents of the operations modelled here. -/
structure Workshop extends Db where
  factory_requests : List FactoryRequest := []

namespace Workshop

@[simps] def onFactoryWorkItems (s : Workshop) (f : List FactoryWorkItem → List FactoryWorkItem) :
    Workshop :=
  { s with factory_work_items := f s.factory_work_items }

@[simps] def onTasks (s : Workshop) (f : List Task → List Task) : Workshop :=
  { s with tasks := f s.tasks }

end Workshop

/-- The document of an operation. -/
def Workshop.factory_request (s : Workshop) (corp_id : Uuid) (key : String) : Option ClaimRequest :=
  (s.factory_requests.find? fun r => r.corp_id == corp_id && r.idempotency_key == key).map
    FactoryRequest.request

/-- The part of an operation's request that the lifecycle reads: it looks for renewals. -/
def ClaimRequest.column : ClaimRequest → OperationRequest
  | .claim _ _ _ => .claim "claim"
  | .renew work_item_id expected_version _ => .renew work_item_id expected_version
  | .materialize_rejected _ _ _ => .claim "materialize_rejected"
  | .upgrade_source_commit _ _ _ => .claim "upgrade_source_commit"

/-- `ensure_factory_operation_matches`, for a call that may not know the item or the token. -/
def ensure_claim_operation_matches (s : Workshop) (op : FactoryOperation) (actor_id : Uuid)
    (work_item_id claim_token : Option Uuid) (request : ClaimRequest) : Except String Unit :=
  ensure (s.factory_request op.corp_id op.idempotency_key = some request ∧ op.actor_id = actor_id
      ∧ (∀ expected ∈ work_item_id, expected = op.work_item_id)
      ∧ (∀ expected ∈ claim_token, some expected = op.claim_token))
    "factory idempotency key was already used for a different operation"

/-- `record_factory_operation_tx`. -/
def record_factory_operation_tx (s : Workshop) (corp_id : Uuid) (idempotency_key : String)
    (work_item_id actor_id : Uuid) (resulting_version : Int) (claim_token : Uuid)
    (request : ClaimRequest) : Workshop :=
  { s with
    factory_operations := s.factory_operations ++ [
      { corp_id, idempotency_key, work_item_id, actor_id, resulting_version
        claim_token := some claim_token, request := request.column }]
    factory_requests := s.factory_requests ++ [{ corp_id, idempotency_key, request }] }

structure FactoryWorkItemOutcome where
  work_item : FactoryWorkItem
  claim_token : Option Uuid
  replayed : Bool

/-- `replayable_factory_claim_token`. -/
def replayable_factory_claim_token (work_item : FactoryWorkItem) (op : FactoryOperation)
    (now : Int) :
    Option Uuid :=
  op.claim_token.filter fun token =>
    !factory_state_is_terminal work_item.state && work_item.claim_owner_id == op.actor_id
      && decide (op.resulting_version ≤ work_item.version)
        && decide (now < work_item.lease_expires_at)
      && work_item.claim_token == token

/-- A replayed call returns the item as it is now. -/
def replayed_outcome (work_item : FactoryWorkItem) (op : FactoryOperation) (now : Int) :
    FactoryWorkItemOutcome :=
  { work_item, claim_token := replayable_factory_claim_token work_item op now, replayed := true }

/-- The journal key of an operation. The keys that carry a text are the controllers'; the names
of the operations tell them apart. -/
def EventKey.factory_call (item_id : Uuid) (operation : String) (version : Int) : EventKey :=
  .controller_operation item_id ("factory:" ++ operation) (toString version)

/-- The event of an operation on an item, in the room of its mission. -/
def journal_factory_call (s : Workshop) (corp_id actor_id : Uuid) (item : FactoryWorkItem)
    (type : EventType) (operation : String) (correlated : Bool) (payload : Json) :
    Except String Workshop := do
  let room_id ← transition_room s.toDb corp_id item.mission_id
  let db ← append_new_event_tx s.toDb
    { id := 0, corp_id, room_id, actor_id := some actor_id, type
      aggregate_type := .factory_work_item, aggregate_id := item.id
      aggregate_version := item.version
      correlation_id := if correlated then item.mission_id else none
      idempotency_key := .factory_call item.id operation item.version, payload }
    ("factory " ++ operation ++ " event unexpectedly existed")
  return { s with toDb := db }

/-- The payload of a claim or a renewal. -/
def claim_payload (item : FactoryWorkItem) : Json :=
  .obj [("claim_owner_id", .uuid item.claim_owner_id),
    ("lease_expires_at", .int item.lease_expires_at),
      ("state", .str (FactoryWorkItemState.as_str item.state))]

/-! ## `claim_factory_work_item` -/

structure ClaimFactoryWorkItemInput where
  corp_id : Uuid
  actor_id : Uuid
  source : FactorySourceInput
  idempotency_key : String
  lease_seconds : Int
  policy : Json
  /-- The answer of `assert_connection_operator_tx` for the connection of the policy. -/
  connection_allows : Bool

/-- The item of an issue. -/
def Db.source_item (s : Db) (corp_id : Uuid) (source : FactorySourceInput) :
    Option FactoryWorkItem :=
  s.factory_work_items.find? fun i => i.corp_id == corp_id
    && i.source.source_project_owner == source.project_owner
    && i.source.source_project_number == source.project_number
    && i.source.source_project_item_id == source.project_item_id

/-- `Uuid::new_v4` for a token: no operation was ever recorded with it and no item has it. -/
def Db.next_claim_token (s : Db) : Uuid :=
  s.new_v4 (s.factory_work_items.map FactoryWorkItem.claim_token
    ++ s.factory_operations.filterMap FactoryOperation.claim_token)

def Db.next_work_item_id (s : Db) : Uuid := s.new_v4 (s.factory_work_items.map FactoryWorkItem.id)

/-- A normalised claim. -/
structure NormalizedClaim where
  corp_id : Uuid
  actor_id : Uuid
  source : FactorySourceInput
  idempotency_key : String
  lease_seconds : Int
  policy : Json
  policy_text : String
  connection_allows : Bool

def NormalizedClaim.request (claim : NormalizedClaim) : ClaimRequest :=
  .claim claim.source claim.lease_seconds claim.policy_text

def normalize_claim (documents : PolicyDocuments) (input : ClaimFactoryWorkItemInput) :
    Except String NormalizedClaim := do
  let source ← normalize_factory_source input.source
  let idempotency_key ← normalize_factory_idempotency_key input.idempotency_key
  let lease_seconds ← validate_factory_lease_seconds input.lease_seconds
  let policy ← normalize_factory_policy documents.from_value documents.to_vec_len input.policy
  let connection ← factory_workspace_connection_id policy
  return { corp_id := input.corp_id, actor_id := input.actor_id, source, idempotency_key
           lease_seconds, policy, policy_text := documents.to_text policy
           connection_allows := connection.isNone || input.connection_allows }

/-- The actor may use the connection of the policy, if it has one. -/
def assert_claim_connection (claim : NormalizedClaim) : Except String Unit :=
  ensure (claim.connection_allows = true) "forbidden: actor cannot use the workspace connection"

/-- The call has been made before. -/
def replay_claim (s : Workshop) (now : Int) (claim : NormalizedClaim) (op : FactoryOperation) :
    Except String (FactoryWorkItemOutcome × Workshop) := do
  ensure_claim_operation_matches s op claim.actor_id none none claim.request
  let work_item ← context (s.factory_work_item claim.corp_id op.work_item_id)
    "idempotent factory claim references a missing work item"
  ensure_factory_source_matches work_item claim.source
  ensure (work_item.policy = claim.policy_text)
    "factory idempotency key was reused with a different policy snapshot"
  assert_claim_connection claim
  return (replayed_outcome work_item op now, s)

/-- The lease runs: the holder gets its token again, anybody else a conflict. -/
def recover_claim (s : Workshop) (claim : NormalizedClaim) (current : FactoryWorkItem) :
    Except String (FactoryWorkItemOutcome × Workshop) := do
  ensure (current.claim_owner_id = claim.actor_id) "conflict: factory work item is claimed"
  ensure_factory_source_matches current claim.source
  ensure (current.policy = claim.policy_text)
    "factory recovery policy does not match the persisted policy snapshot"
  assert_claim_connection claim
  let s := record_factory_operation_tx s claim.corp_id claim.idempotency_key current.id
    claim.actor_id
    current.version current.claim_token claim.request
  return ({ work_item := current, claim_token := some current.claim_token, replayed := true }, s)

/-- The row of an item that is claimed again: what has a mission keeps its state. -/
def FactoryWorkItem.reclaim (i : FactoryWorkItem) (actor_id token : Uuid) (lease_expires_at : Int) :
    FactoryWorkItem :=
  { i with
    state := if i.mission_id.isSome then i.state else .claimed
    version := i.version + 1
    claim_owner_id := actor_id
    claim_token := token
    lease_expires_at
    failure_detail := if i.mission_id.isSome then i.failure_detail else none }

/-- The lease is over. -/
def reclaim (s : Workshop) (now : Int) (claim : NormalizedClaim) (current : FactoryWorkItem) :
    Except String (FactoryWorkItem × Workshop) := do
  let token := s.next_claim_token
  ensure (current.claim_token ≠ token) "factory claim token collision"
  ensure_factory_source_matches current claim.source
  ensure (current.policy = claim.policy_text)
    "factory recovery policy does not match the persisted policy snapshot"
  let f := fun i : FactoryWorkItem => i.reclaim claim.actor_id token (now + claim.lease_seconds)
  return (f current, s.onFactoryWorkItems (updateWhere
    (fun i => i.id == current.id && i.corp_id == claim.corp_id) f))

/-- The issue has not been claimed before. -/
def new_claim (s : Workshop) (now : Int) (claim : NormalizedClaim) :
    Except String (FactoryWorkItem × Workshop) := do
  ensure_new_factory_policy_is_pinned claim.policy
  let item : FactoryWorkItem :=
    { id := s.next_work_item_id, corp_id := claim.corp_id, source := claim.source.columns
      source_issue_number := claim.source.issue_number, source_revision := claim.source.revision
      policy := claim.policy_text, state := .claimed, version := 1
      claim_owner_id := claim.actor_id, claim_token := s.next_claim_token
      lease_expires_at := now + claim.lease_seconds }
  return (item, s.onFactoryWorkItems (· ++ [item]))

/-- What both kinds of claims end with. -/
def finish_claim (s : Workshop) (claim : NormalizedClaim) (item : FactoryWorkItem)
    (event_type : String) : Except String (FactoryWorkItemOutcome × Workshop) := do
  assert_claim_connection claim
  let s := record_factory_operation_tx s claim.corp_id claim.idempotency_key item.id claim.actor_id
    item.version item.claim_token claim.request
  let s ← journal_factory_call s claim.corp_id claim.actor_id item (.other event_type) "claim" false
    (claim_payload item)
  return ({ work_item := item, claim_token := some item.claim_token, replayed := false }, s)

/-- The call has not been made before. -/
def make_claim (s : Workshop) (now : Int) (claim : NormalizedClaim) :
    Except String (FactoryWorkItemOutcome × Workshop) :=
  match s.source_item claim.corp_id claim.source with
  | some current => do
    ensure (factory_state_is_terminal current.state = false)
      "conflict: factory work item is terminal"
    if now < current.lease_expires_at then recover_claim s claim current
    else do
      let (item, s) ← reclaim s now claim current
      finish_claim s claim item "factory.work_item_reclaimed"
  | none => do
    let (item, s) ← new_claim s now claim
    finish_claim s claim item "factory.work_item_claimed"

/-- `claim_factory_work_item`. -/
def claim_factory_work_item (documents : PolicyDocuments) (s : Workshop) (now : Int)
    (input : ClaimFactoryWorkItemInput) : Except String (FactoryWorkItemOutcome × Workshop) := do
  let claim ← normalize_claim documents input
  assert_actor_scope_tx s.toDb claim.corp_id claim.actor_id
  match s.factory_operation claim.corp_id claim.idempotency_key with
  | some op => replay_claim s now claim op
  | none => make_claim s now claim

/-! ## Operations on a claimed item -/

/-- A replayed call about an item. -/
def replay_item_call (s : Workshop) (now : Int) (corp_id work_item_id actor_id claim_token : Uuid)
    (op : FactoryOperation) (request : ClaimRequest) :
    Except String (FactoryWorkItemOutcome × Workshop) := do
  ensure_claim_operation_matches s op actor_id (some work_item_id) (some claim_token) request
  let work_item ← context (s.factory_work_item corp_id work_item_id)
    "idempotent factory operation references a missing work item"
  return (replayed_outcome work_item op now, s)

structure RenewFactoryWorkItemInput where
  corp_id : Uuid
  work_item_id : Uuid
  actor_id : Uuid
  claim_token : Uuid
  expected_version : Int
  idempotency_key : String
  lease_seconds : Int

/-- `renew_factory_work_item`. -/
def renew_factory_work_item (s : Workshop) (now : Int) (input : RenewFactoryWorkItemInput) :
    Except String (FactoryWorkItemOutcome × Workshop) := do
  ensure (0 < input.expected_version) "expected factory work-item version must be positive"
  let idempotency_key ← normalize_factory_idempotency_key input.idempotency_key
  let lease_seconds ← validate_factory_lease_seconds input.lease_seconds
  let request := ClaimRequest.renew input.work_item_id input.expected_version lease_seconds
  assert_actor_scope_tx s.toDb input.corp_id input.actor_id
  match s.factory_operation input.corp_id idempotency_key with
  | some op =>
    replay_item_call s now input.corp_id input.work_item_id input.actor_id input.claim_token op
      request
  | none => do
    let current ← context (s.factory_work_item input.corp_id input.work_item_id)
      "factory work item not found"
    ensure_active_factory_control current input.actor_id input.claim_token input.expected_version
      now
    let f := fun i : FactoryWorkItem =>
      { i with version := i.version + 1, lease_expires_at := now + lease_seconds }
    let s := s.onFactoryWorkItems (updateWhere
      (fun i => i.id == input.work_item_id && i.corp_id == input.corp_id) f)
    let item := f current
    let s := record_factory_operation_tx s input.corp_id idempotency_key item.id input.actor_id
      item.version input.claim_token request
    let s ← journal_factory_call s input.corp_id input.actor_id item .factory_claim_renewed "renew"
      false (claim_payload item)
    return ({ work_item := item, claim_token := some input.claim_token, replayed := false }, s)

structure RejectFactoryMaterializationInput where
  corp_id : Uuid
  work_item_id : Uuid
  actor_id : Uuid
  claim_token : Uuid
  attempted_version : Int
  idempotency_key : String
  failure_detail : String

/-- A claimed item is blocked and its lease given back; a blocked one stays as it is. -/
def reject_claimed_item (s : Workshop) (now : Int) (input : RejectFactoryMaterializationInput)
    (current : FactoryWorkItem) (failure_detail : String) :
    Except String (FactoryWorkItem × Workshop) :=
  if current.state = .blocked then .ok (current, s)
  else do
    let f := fun i : FactoryWorkItem =>
      { i with state := .blocked, version := i.version + 1, lease_expires_at := now - 1
               failure_detail := some failure_detail }
    let s := s.onFactoryWorkItems (updateWhere
      (fun i => i.id == input.work_item_id && i.corp_id == input.corp_id) f)
    let item := f current
    let s ← journal_factory_call s input.corp_id input.actor_id item
      (.other "factory.materialization_rejected") "materialization-rejected" true
      (.obj [("previous_state", .str (FactoryWorkItemState.as_str current.state)),
        ("state", .str "blocked"), ("failure_detail", .str failure_detail)])
    return (item, s)

/-- `reject_factory_materialization`. The version is only recorded: the rejection of an attempt
must succeed whatever the attempt has left behind. -/
def reject_factory_materialization (s : Workshop) (now : Int)
    (input : RejectFactoryMaterializationInput) :
    Except String (FactoryWorkItemOutcome × Workshop) := do
  ensure (0 < input.attempted_version) "attempted factory work-item version must be positive"
  let failure_detail ←
    normalize_factory_text input.failure_detail "factory materialization rejection" 2000
  let idempotency_key ← normalize_factory_idempotency_key input.idempotency_key
  let request := ClaimRequest.materialize_rejected input.work_item_id input.attempted_version
    failure_detail
  assert_actor_scope_tx s.toDb input.corp_id input.actor_id
  match s.factory_operation input.corp_id idempotency_key with
  | some op =>
    replay_item_call s now input.corp_id input.work_item_id input.actor_id input.claim_token op
      request
  | none => do
    let current ← context (s.factory_work_item input.corp_id input.work_item_id)
      "factory work item not found"
    ensure (current.claim_owner_id = input.actor_id ∧ current.claim_token = input.claim_token)
      "conflict: stale or unauthorized factory claim token"
    ensure (current.mission_id = none)
      "conflict: factory materialization rejection cannot replace an existing mission"
    ensure (current.state ∈ [.claimed, .blocked])
      ("conflict: factory work item cannot reject materialization from state "
        ++ FactoryWorkItemState.as_str current.state)
    let (item, s) ← reject_claimed_item s now input current failure_detail
    let s := record_factory_operation_tx s input.corp_id idempotency_key item.id input.actor_id
      item.version input.claim_token request
    return ({ work_item := item, claim_token := none, replayed := false }, s)

structure UpgradeFactorySourceCommitInput where
  corp_id : Uuid
  work_item_id : Uuid
  actor_id : Uuid
  claim_token : Uuid
  expected_version : Int
  idempotency_key : String
  source_base_commit : String

/-- The policy of a claim from before base commits were pinned, with the commit. -/
def pin_legacy_policy (documents : PolicyDocuments) (item : FactoryWorkItem)
    (source_base_commit : String) : Except String (String × String) := do
  let policy ← context (documents.from_text item.policy)
    "factory policy snapshot must be a JSON object"
  let fields ← context policy.as_object "factory policy snapshot must be a JSON object"
  ensure (policy.text? "source_base_commit" = none)
    "factory source policy already has an immutable base commit"
  ensure ((policy.get? "source_commit_upgrade_required").bind Json.as_bool = some true)
    "factory source policy is not marked for an authorized legacy upgrade"
  let source_base_ref ← factory_policy_required_string policy "source_base_ref" 240
  validate_factory_base_ref source_base_ref
  let fields := Json.insertField fields "source_base_commit" (.str source_base_commit)
  let fields := Json.insertField fields "source_commit_upgrade_required" (.bool false)
  return (source_base_ref, documents.to_text (.obj fields))

/-- The tasks of a mission get the commit, before any of them has run. -/
def pin_mission_tasks (s : Workshop) (corp_id : Uuid) (item : FactoryWorkItem)
    (source_base_ref source_base_commit : String) : Except String Workshop :=
  match item.mission_id with
  | none => .ok s
  | some mission_id => do
    let of_mission := fun t : Task => t.corp_id == corp_id && t.mission_id == mission_id
    ensure ((s.runs.any fun r => s.tasks.any fun t => t.id == r.task_id && of_mission t) = false)
      "legacy source commit cannot be freshly pinned after a run exists"
    let source_repository :=
      item.source.source_repository_owner ++ "/" ++ item.source.source_repository_name
    ensure (∀ t ∈ s.tasks, of_mission t = true →
        t.contract.source_repository = some source_repository
          ∧ t.contract.source_base_ref = some source_base_ref
          ∧ t.contract.source_base_commit = none)
      "legacy mission tasks do not preserve the claimed repository and base ref"
    return s.onTasks (updateWhere of_mission fun t =>
      { t with contract := { t.contract with source_base_commit := some source_base_commit } })

/-- `upgrade_factory_source_commit`. -/
def upgrade_factory_source_commit (documents : PolicyDocuments) (s : Workshop) (now : Int)
    (input : UpgradeFactorySourceCommitInput) :
    Except String (FactoryWorkItemOutcome × Workshop) := do
  ensure (0 < input.expected_version) "expected factory work-item version must be positive"
  let source_base_commit := to_ascii_lowercase (trim input.source_base_commit)
  validate_factory_base_commit source_base_commit
  let idempotency_key ← normalize_factory_idempotency_key input.idempotency_key
  let request := ClaimRequest.upgrade_source_commit input.work_item_id input.expected_version
    source_base_commit
  assert_actor_scope_tx s.toDb input.corp_id input.actor_id
  match s.factory_operation input.corp_id idempotency_key with
  | some op =>
    replay_item_call s now input.corp_id input.work_item_id input.actor_id input.claim_token op
      request
  | none => do
    let current ← context (s.factory_work_item input.corp_id input.work_item_id)
      "factory work item not found"
    ensure_active_factory_control current input.actor_id input.claim_token input.expected_version
      now
    let (source_base_ref, policy) ← pin_legacy_policy documents current source_base_commit
    let s ← pin_mission_tasks s input.corp_id current source_base_ref source_base_commit
    let f := fun i : FactoryWorkItem =>
      { i with policy, version := i.version + 1, failure_detail := none }
    let s := s.onFactoryWorkItems (updateWhere
      (fun i => i.id == input.work_item_id && i.corp_id == input.corp_id) f)
    let item := f current
    let s := record_factory_operation_tx s input.corp_id idempotency_key item.id input.actor_id
      item.version input.claim_token request
    let s ← journal_factory_call s input.corp_id input.actor_id item
      (.other "factory.source_commit_pinned") "source-commit" true
      (.obj [("state", .str (FactoryWorkItemState.as_str item.state)),
      ("legacy_upgrade", .bool true)])
    return ({ work_item := item, claim_token := some input.claim_token, replayed := false }, s)

/-! ## The transition system -/

/-- The calls about claims, and those of the lifecycle. -/
inductive WorkshopOp where
  | lifecycle (op : Op)
  | claim_factory_work_item (now : Int) (input : ClaimFactoryWorkItemInput)
  | renew_factory_work_item (now : Int) (input : RenewFactoryWorkItemInput)
  | reject_factory_materialization (now : Int) (input : RejectFactoryMaterializationInput)
  | upgrade_factory_source_commit (now : Int) (input : UpgradeFactorySourceCommitInput)

variable (env : Env) (documents : PolicyDocuments)

/-- The committed state of a call, or the error that rolled it back. -/
def Workshop.exec (s : Workshop) : WorkshopOp → Except String Workshop
  | .lifecycle op => (fun db => { s with toDb := db }) <$> Store.exec env s.toDb op
  | .claim_factory_work_item now input =>
      Prod.snd <$> Store.claim_factory_work_item documents s now input
  | .renew_factory_work_item now input => Prod.snd <$> Store.renew_factory_work_item s now input
  | .reject_factory_materialization now input =>
    Prod.snd <$> Store.reject_factory_materialization s now input
  | .upgrade_factory_source_commit now input =>
    Prod.snd <$> Store.upgrade_factory_source_commit documents s now input

/-- Nothing has been claimed. -/
structure Workshop.Initial (s : Workshop) : Prop where
  db : Store.Initial s.toDb
  factory_work_items : s.factory_work_items = []
  factory_operations : s.factory_operations = []
  factory_requests : s.factory_requests = []

/-- The transition system of the claims. -/
def workshops : TransitionSystem Workshop WorkshopOp :=
  .ofExec Workshop.Initial (Workshop.exec env documents)

end Crony.Store
