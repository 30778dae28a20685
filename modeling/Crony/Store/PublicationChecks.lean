/-
The publications of pull requests, `publication.rs`: their rows, the normalisation of requests,
and the checks a publication has to pass.

A verified work item is published by a trusted publisher: it pushes a branch, opens a pull
request and moves the card of the project, all of it outside the store. The store makes the
authorisation durable, hands the publisher a token with a lease, and records each of the three
effects as a checkpoint. A publisher that fails or falls silent is replaced by a new attempt,
which goes on from the last checkpoint.

The columns that are set together are one optional value: the publisher with its token and
lease, as the table's CHECK demands, and the identity of the pull request. The columns that are
never updated are `PublicationOrder`. The request document of an operation is the value it is
built from: equal documents have equal fields. The events of publications are a table of their
own, and so are the credentials of publishers. Two read-only checks on measured checkpoints, and
a column of the recoveries the lifecycle does not model, are answers of the request.
-/
import Crony.Cli.Project
import Crony.Cli.Response
import Crony.Store.Claims
import Crony.Store.Publication

set_option autoImplicit false

open Crony.Lib
open Crony.Cli (eq_ignore_ascii_case split_once)

namespace Crony.Store

/-! ## Rows -/

inductive PullRequestPublicationState where
  | requested | publishing | branch_pushed | pull_request_created | published
  deriving DecidableEq

def PullRequestPublicationState.as_str : PullRequestPublicationState → String
  | .requested => "requested"
  | .publishing => "publishing"
  | .branch_pushed => "branch_pushed"
  | .pull_request_created => "pull_request_created"
  | .published => "published"

/-- `publication_state_rank`. -/
def publication_state_rank : PullRequestPublicationState → Nat
  | .requested => 0
  | .publishing => 1
  | .branch_pushed => 2
  | .pull_request_created => 3
  | .published => 4

/-- What an actor authorises. -/
structure PublicationAuthorization where
  id : Uuid
  actor_id : Uuid
  actor_role : String
  reason : String
  authorized_at : Int

/-- The document `publication_authorization` builds. -/
def PublicationAuthorization.document (a : PublicationAuthorization) : Json :=
  .obj [("id", .uuid a.id), ("kind", .str "explicit_human"),
    ("permission", .str "publish_pull_request"), ("actor_id", .uuid a.actor_id),
      ("actor_role", .str a.actor_role), ("reason", .str a.reason),
    ("authorized_at", .int a.authorized_at), ("auto_merge", .bool false), ("merge", .bool false),
    ("deploy", .bool false)]

/-- The columns of a publication that no statement updates. -/
structure PublicationOrder where
  id : Uuid
  corp_id : Uuid
  factory_work_item_id : Uuid
  mission_id : Uuid
  source_deliverable_id : Uuid
  artifact_id : Uuid
  task_id : Uuid
  run_id : Uuid
  source_issue_number : Int
  source_issue_url : String
  target_repository : String
  base_ref : String
  branch : String
  commit_sha : String
  title : String
  body : String
  actor_id : Uuid
  authorization_id : Uuid
  authorization_snapshot : PublicationAuthorization
  effect_key : String
  idempotency_key : String
  project_owner : String
  project_number : Int
  project_item_id : String
  project_status_before : String

/-- `publisher_id`, `publisher_token` and `publisher_lease_expires_at`. -/
structure Publisher where
  id : String
  token : Uuid
  lease_expires_at : Int

/-- The `pull_request_*` columns. -/
structure PullRequestIdentity where
  number : Int
  node_id : String
  url : String
  state : String
  draft : Bool
  base_ref : String
  head_sha : String
  head_repository_owner : String
  is_cross_repository : Bool
  deriving DecidableEq

structure PullRequestPublication extends PublicationOrder where
  state : PullRequestPublicationState
  version : Int
  attempt_count : Int
  publisher : Option Publisher
  failure_detail : Option String := none
  branch_pushed_at : Option Int := none
  pull_request : Option PullRequestIdentity := none
  project_status_after : Option String := none
  provenance : Json

inductive PublicationAttemptState where
  | running | failed | abandoned | published
  deriving DecidableEq

structure PublicationAttempt where
  id : Uuid
  corp_id : Uuid
  publication_id : Uuid
  attempt : Int
  actor_id : Uuid
  authorization_id : Uuid
  authorization_snapshot : PublicationAuthorization
  publisher_id : String
  state : PublicationAttemptState
  failure_detail : Option String := none

structure PublicationPublisherCredential where
  id : Uuid
  corp_id : Uuid
  publisher_id : String
  credential_hash : String
  created_by : Uuid
  expires_at : Int
  revoked : Bool := false

structure PublicationEvent where
  id : Uuid
  corp_id : Uuid
  room_id : Option Uuid
  actor_id : Uuid
  type : String
  aggregate_id : Uuid
  aggregate_version : Int
  correlation_id : Option Uuid
  payload : Json

/-! ## Requests -/

/-- The document `start_operation_request` builds. -/
structure StartRequest where
  work_item_id : Uuid
  source_deliverable_id : Uuid
  target_repository : String
  base_ref : String
  branch : String
  title : String
  body : String
  authorization_id : Uuid
  authorization_reason : String
  effect_key : String
  publisher_id : String
  lease_seconds : Int
  deriving DecidableEq

structure StartPullRequestPublicationInput extends StartRequest where
  corp_id : Uuid
  actor_id : Uuid
  actor_role : String
  idempotency_key : String
  publisher_credential_hash : String

/-- What a publisher has seen of the pull request. -/
structure PullRequestReport extends PullRequestIdentity where
  title : String
  body : String
  head_ref : String
  auto_merge_enabled : Bool
  deriving DecidableEq

inductive PullRequestPublicationCheckpointInput where
  | branch_pushed (commit_sha : String)
  | pull_request_created (report : PullRequestReport)
  | published (project_status project_field_id project_option_id : String)
  | failed (failure_detail : String)
  deriving DecidableEq

/-- The request of an operation, which also tells its kind. -/
inductive PublicationRequest where
  | start (request : StartRequest)
  | renew (publication_id : Uuid) (publisher_id : String) (expected_version lease_seconds : Int)
  | checkpoint (publisher_id : String) (checkpoint : PullRequestPublicationCheckpointInput)
  deriving DecidableEq

structure PublicationOperation where
  corp_id : Uuid
  idempotency_key : String
  publication_id : Uuid
  actor_id : Uuid
  resulting_version : Int
  publisher_token : Option Uuid
  request : PublicationRequest

/-- The database of the claims with the tables of the publications. -/
structure Press extends Workshop where
  publications : List PullRequestPublication := []
  publication_attempts : List PublicationAttempt := []
  publication_operations : List PublicationOperation := []
  publisher_credentials : List PublicationPublisherCredential := []
  publication_events : List PublicationEvent := []

/-! ## Normalising requests -/

/-- `normalize_publication_body`. -/
def normalize_publication_body (value : String) : Except String String := do
  let value := trim (String.ofList (unix_newlines value.toList))
  ensure (value ≠ "") "pull request body cannot be empty"
  ensure (byteLen value ≤ 65536) "pull request body cannot exceed 65536 bytes"
  ensure ('\x00' ∉ value.toList) "pull request body cannot contain NUL bytes"
  return value

/-- `validate_publication_lease_seconds`. -/
def validate_publication_lease_seconds (value : Int) : Except String Int := do
  ensure (5 ≤ value ∧ value ≤ 3600) "publication lease must be between 5 and 3600 seconds"
  return value

def normalize_credential_hash (value message : String) : Except String String := do
  let value := to_ascii_lowercase (trim value)
  ensure (byteLen value = 64 ∧ (value.toList.all fun c => (hexValue? c).isSome) = true) message
  return value

/-- `normalize_publication_publisher_credential_hash`. -/
def normalize_publication_publisher_credential_hash (value : String) : Except String String :=
  normalize_credential_hash value "forbidden: invalid publication publisher credential"

/-- `owner/name`, both parts normalised. -/
def normalize_target_repository (value : String) : Except String String :=
  match split (trim value) '/' with
  | [owner, name] => do
    let owner ← normalize_github_component owner "publication repository owner" 100
    let name ← normalize_github_component name "publication repository name" 100
    return owner ++ "/" ++ name
  | [_] | [] => .error "publication target repository omitted name"
  | _ => .error "publication target repository must use owner/name form"

/-- `normalize_start_input`. -/
def normalize_start_input (input : StartPullRequestPublicationInput) :
    Except String StartPullRequestPublicationInput := do
  let target_repository ← normalize_target_repository input.target_repository
  let base_ref ← normalize_factory_identifier input.base_ref "publication base ref" 240
  validate_factory_base_ref base_ref
  let branch ← normalize_factory_identifier input.branch "publication branch" 500
  validate_factory_branch_ref branch
  ensure (branch ≠ base_ref) "publication branch must differ from the target base ref"
  let title ← normalize_factory_text input.title "pull request title" 256
  let body ← normalize_publication_body input.body
  let authorization_reason ←
    normalize_factory_text input.authorization_reason "publication authorization reason" 2000
  let effect_key ← normalize_factory_identifier input.effect_key "publication effect key" 500
  let idempotency_key ←
    normalize_factory_identifier input.idempotency_key "publication idempotency key" 500
  let publisher_id ← normalize_factory_identifier input.publisher_id "trusted publisher id" 160
  let publisher_credential_hash ←
    normalize_publication_publisher_credential_hash input.publisher_credential_hash
  let actor_role ← normalize_factory_identifier input.actor_role "actor role" 40
  let lease_seconds ← validate_publication_lease_seconds input.lease_seconds
  return { input with
    target_repository, base_ref, branch, title, body, authorization_reason, effect_key
    idempotency_key, publisher_id, publisher_credential_hash, actor_role, lease_seconds }

/-- `normalize_publication_failure`. -/
def normalize_publication_failure (value : String) : Except String String :=
  let flattened := String.ofList ([' '].intercalate (split_whitespace value.toList))
  normalize_factory_text flattened "publication failure detail" 2000

def normalize_report (r : PullRequestReport) : Except String PullRequestReport := do
  ensure (0 < r.number) "pull request number must be positive"
  let node_id ← normalize_factory_identifier r.node_id "pull request node id" 200
  let url ← normalize_factory_text r.url "pull request URL" 500
  let state ← normalize_factory_identifier r.state "pull request state" 40
  let title ← normalize_factory_text r.title "pull request title" 256
  let body ← normalize_publication_body r.body
  let head_ref ← normalize_factory_identifier r.head_ref "pull request head ref" 500
  let base_ref ← normalize_factory_identifier r.base_ref "pull request base ref" 500
  validate_factory_base_ref base_ref
  let head_sha := to_ascii_lowercase (trim r.head_sha)
  validate_factory_base_commit head_sha
  let head_repository_owner ←
    normalize_github_component r.head_repository_owner "pull request head repository owner" 100
  return { r with
    node_id, url, state := to_ascii_uppercase state, title, body, head_ref, base_ref, head_sha
    head_repository_owner }

/-- `normalize_checkpoint`. -/
def normalize_checkpoint : PullRequestPublicationCheckpointInput →
    Except String PullRequestPublicationCheckpointInput
  | .branch_pushed commit_sha => do
    let commit_sha := to_ascii_lowercase (trim commit_sha)
    validate_factory_base_commit commit_sha
    return .branch_pushed commit_sha
  | .pull_request_created report => .pull_request_created <$> normalize_report report
  | .published project_status project_field_id project_option_id => do
    let project_status ← normalize_factory_text project_status "GitHub Project status" 100
    let project_field_id ←
      normalize_factory_identifier project_field_id "GitHub Project field id" 200
    let project_option_id ←
      normalize_factory_identifier project_option_id "GitHub Project option id" 200
    return .published project_status project_field_id project_option_id
  | .failed failure_detail => .failed <$> normalize_publication_failure failure_detail

/-! ## The pull request -/

/-- `value.trim_start_matches("refs/heads/")`: every leading occurrence goes. -/
def trim_heads : Nat → List Char → List Char
  | 0, cs => cs
  | n + 1, cs =>
    if "refs/heads/".toList.isPrefixOf cs then trim_heads n (cs.drop "refs/heads/".length) else cs

/-- The branch of a base ref. -/
def base_branch (base_ref : String) : String :=
  String.ofList (trim_heads base_ref.length base_ref.toList)

/-- `github_pull_request_url_matches`. -/
def github_pull_request_url_matches (url target_repository : String) (number : Int) : Bool :=
  match strip_prefix_str (trim_end_slashes url) "https://github.com/" with
  | none => false
  | some path =>
    match split path '/' with
    | [url_owner, url_repository, pull, url_number] =>
      pull == "pull" && url_number == toString number
        && (split_once target_repository '/').any fun target =>
          eq_ignore_ascii_case url_owner target.1 && eq_ignore_ascii_case url_repository target.2
    | _ => false

/-- `validate_pull_request_identity`. -/
def validate_pull_request_identity (publication : PullRequestPublication) (r : PullRequestReport) :
    Except String Unit := do
  ensure (r.auto_merge_enabled = false)
    "factory publication refuses pull requests with auto-merge enabled"
  ensure (r.state = "OPEN") ("factory publication requires an open pull request, not " ++ r.state)
  ensure (r.title = publication.title ∧ r.body = publication.body)
    "pull request title or body does not match the authorized publication content"
  ensure (r.head_ref = publication.branch)
    "pull request head does not match the authorized publication target"
  ensure (r.head_ref ≠ r.base_ref)
    "pull request head branch must differ from its resolved base branch"
  if publication.base_ref = "HEAD" then
    ensure (r.base_ref ≠ "HEAD" ∧ starts_with r.base_ref "refs/" = false)
      "symbolic publication base HEAD must resolve to an explicit GitHub branch name"
  else
    ensure (r.base_ref = base_branch publication.base_ref)
      "pull request base does not match the authorized publication target"
  let (target_owner, _) ← context (split_once publication.target_repository '/')
    "publication target repository omitted owner"
  ensure (r.is_cross_repository = false
      ∧ eq_ignore_ascii_case r.head_repository_owner target_owner = true
      ∧ eq_ignore_ascii_case r.head_sha publication.commit_sha = true)
    "pull request head repository or commit does not match the verified publication target"
  ensure (github_pull_request_url_matches r.url publication.target_repository r.number = true)
    "pull request URL does not match the authorized repository and number"

/-- `ensure_pull_request_identity_matches`. -/
def ensure_pull_request_identity_matches (publication : PullRequestPublication)
    (r : PullRequestIdentity) : Except String Unit :=
  ensure (publication.pull_request = some r)
    "conflict: pull request identity does not match the durable publication"

/-! ## Provenance -/

/-- `value[key] = v`, of an object; anything else the source would not index. -/
def Json.index_mut (value : Json) (key : String) (v : Json) : Json :=
  match value with
  | .obj fields => .obj (Json.insertField fields key v)
  | .null => .obj [(key, v)]
  | other => other

/-- `value.pointer("/outer/inner")`. -/
def Json.pointer (value : Json) (outer inner : String) : Option Json :=
  (value.get? outer).bind fun v => v.get? inner

def optional_uuid : Option Uuid → Json
  | some id => .uuid id
  | none => .null

inductive PublicationSourceProvenanceState where
  | current | legacy | invalid
  deriving DecidableEq

/-- The recovery a provenance names. -/
def persisted_recovery (provenance : Json) : Except String (Option Uuid) :=
  match Json.pointer provenance "source_issue" "recovery_id" with
  | none | some .null => .ok none
  | some (.str value) => do
    let id ← context (parse_str value) "publication provenance recovery id is invalid"
    return some id
  | some _ => .error "publication provenance recovery id has an invalid type"

/-- `publication_source_provenance_state`. -/
def publication_source_provenance_state (provenance : Json)
    (claimed_revision effective_revision : String) (recovery_id : Option Uuid) :
    Except String PublicationSourceProvenanceState := do
  let schema_version := (provenance.get? "schema_version").bind Json.as_u64
  let persisted_revision := (Json.pointer provenance "source_issue" "revision").bind Json.as_str
  if schema_version = some 1 then
    return if persisted_revision = some claimed_revision then .legacy else .invalid
  else if schema_version ≠ some 2 ∧ schema_version ≠ some 3 then return .invalid
  else do
    let persisted_claimed_revision :=
      (Json.pointer provenance "source_issue" "claimed_revision").bind Json.as_str
    let recovery ← persisted_recovery provenance
    return if persisted_revision = some effective_revision
        ∧ persisted_claimed_revision = some claimed_revision ∧ recovery = recovery_id
      then .current else .invalid

/-- `upgrade_publication_source_provenance`. -/
def upgrade_publication_source_provenance (provenance : Json)
    (claimed_revision effective_revision : String) (recovery_id : Option Uuid) :
    Except String Json := do
  let state ← publication_source_provenance_state provenance claimed_revision effective_revision
    recovery_id
  ensure (state = .legacy)
    "publication provenance is not an upgradeable schema-version-1 record"
  let root ← context provenance.as_object "publication provenance must be an object"
  let root := Json.insertField root "schema_version" (.int 2)
  let source_issue ← context (((Json.obj root).get? "source_issue").bind Json.as_object)
    "publication provenance omitted source issue"
  let source_issue := Json.insertField source_issue "revision" (.str effective_revision)
  let source_issue := Json.insertField source_issue "claimed_revision" (.str claimed_revision)
  let source_issue := Json.insertField source_issue "recovery_id" (optional_uuid recovery_id)
  return .obj (Json.insertField root "source_issue" (.obj source_issue))

/-- `provenance_matches`. -/
def provenance_matches (persisted : Json) (expected : Option Json) : Bool :=
  match expected with
  | some expected => (persisted.get? "checkpoint").any fun proof => Json.beq proof expected
  | none => (persisted.get? "checkpoint").all Json.isNull

/-- The proof of a measured checkpoint in a provenance against the one expected now. -/
def upgrade_checkpoint_proof (persisted : Json) (legacy : Bool) (expected : Option Json) :
    Except String Json :=
  let proof := (persisted.get? "checkpoint").filter fun proof => !proof.isNull
  match expected with
  | some expected => do
    ensure (proof.all (fun proof => Json.beq proof expected) = true)
      "publication checkpoint provenance changed"
    ensure (legacy = true ∨ proof.isSome) "publication checkpoint provenance is missing"
    return if legacy then Json.index_mut (Json.index_mut persisted "checkpoint" expected)
        "schema_version" (.int 3)
      else persisted
  | none => do
    ensure (legacy = true) "checkpoint publication lost its native authority"
    return persisted

/-- `checkpoint_publication::revalidated_provenance`. -/
def revalidated_provenance (persisted : Json) (expected : Option Json) : Except String Json := do
  let schema := (persisted.get? "schema_version").bind Json.as_u64
  let legacy := schema = some 1 ∨ schema = some 2
  ensure (legacy ∨ schema = some 3) "unsupported publication provenance schema"
  let upgraded ← upgrade_checkpoint_proof persisted (decide legacy) expected
  ensure (provenance_matches upgraded expected = true)
    "publication authority no longer matches its checkpoint provenance"
  return upgraded

/-! ## Prerequisites -/

/-- The checkpoint a publication rests on: the run it was measured in, and its provenance. -/
structure CheckpointPublication where
  origin_run_id : Uuid
  provenance : Json

/-- What the read-only checks answer that the model leaves out. -/
structure PublicationAnswers where
  /-- `checkpoint_publication::authority_tx`. -/
  checkpoint : Except String (Option CheckpointPublication)
  /-- `checkpoint_correction::publication_authority_with_checkpoint_tx`. -/
  correction : Except String Unit
  /-- The `observed_source_revision` of a recovery. -/
  observed_source_revision : Uuid → String

structure PublicationPrerequisites where
  work_item : FactoryWorkItem
  effective_source_revision : String
  source_recovery_id : Option Uuid
  mission_id : Uuid
  room_id : Uuid
  artifact_id : Uuid
  task_id : Uuid
  run_id : Uuid
  commit_sha : String
  deliverable_sha256 : String
  verification_sha256 : String
  base_commit : String
  source_branch : String
  project_status_before : String
  review_status : String
  task_ids : List Uuid
  run_ids : List Uuid
  evidence_ids : List Uuid
  checkpoint : Option CheckpointPublication

structure PublicationPrerequisiteRequest where
  corp_id : Uuid
  work_item_id : Uuid
  source_deliverable_id : Uuid
  target_repository : String
  base_ref : String
  branch : String
  body : String

/-- `PublicationPrerequisiteRequest::from_start`. -/
def PublicationPrerequisiteRequest.from_start (input : StartPullRequestPublicationInput) :
    PublicationPrerequisiteRequest :=
  { corp_id := input.corp_id, work_item_id := input.work_item_id
    source_deliverable_id := input.source_deliverable_id
    target_repository := input.target_repository, base_ref := input.base_ref
    branch := input.branch, body := input.body }

/-- `PublicationPrerequisiteRequest::from_publication`. -/
def PublicationPrerequisiteRequest.from_publication (publication : PullRequestPublication) :
    PublicationPrerequisiteRequest :=
  { corp_id := publication.corp_id, work_item_id := publication.factory_work_item_id
    source_deliverable_id := publication.source_deliverable_id
    target_repository := publication.target_repository, base_ref := publication.base_ref
    branch := publication.branch, body := publication.body }

/-- A text of the publication policy that is not blank. -/
def publication_policy_text (publication_policy : Json) (key : String) : Except String String :=
  context ((publication_policy.text? key).filter fun value => trim value != "")
    ("publication policy omitted " ++ key)

/-- What the policy of the item says about the publication. -/
structure PublicationTerms where
  base_commit : String
  review_status : String
  project_status_before : String

/-- The part of the prerequisites that holds the request against the policy of the item. -/
def publication_terms (item : FactoryWorkItem) (policy : Json)
    (request : PublicationPrerequisiteRequest) : Except String PublicationTerms := do
  ensure (policy.as_object.isSome = true) "factory policy snapshot must be an object"
  ensure (policy.bool? "auto_merge" = some false)
    "factory policy must explicitly disable auto_merge before publication"
  let publication_policy ← context ((policy.get? "publication").filter fun v => v.as_object.isSome)
    "factory policy does not authorize pull-request publication"
  ensure (publication_policy.bool? "allowed" = some true)
    "factory policy does not authorize pull-request publication"
  let target_allowlist ← context
    ((publication_policy.get? "repository_allowlist").bind Json.as_array)
    "publication policy omitted repository_allowlist"
  ensure ((target_allowlist.filterMap Json.as_str).any
      (fun repository => eq_ignore_ascii_case repository request.target_repository) = true)
    "publication target repository is outside the factory policy allowlist"
  ensure (request.target_repository
      = item.source.source_repository_owner ++ "/" ++ item.source.source_repository_name)
    "publication target repository must match the claimed source repository"
  let base_ref ← context ((publication_policy.text? "base_ref").filter fun value =>
    trim value != "" && decide (byteLen value ≤ 240)) "publication policy omitted base_ref"
  validate_factory_publication_base_ref base_ref
  ensure (request.base_ref = base_ref) ("publication base ref " ++ request.base_ref
    ++ " does not match factory policy " ++ base_ref)
  let base_commit ← factory_policy_required_string policy "source_base_commit" 64
  let base_commit := to_ascii_lowercase base_commit
  validate_factory_base_commit base_commit
  let branch_prefix := (publication_policy.text? "branch_prefix").getD "ecorp/"
  ensure (starts_with request.branch branch_prefix = true)
    ("publication branch must start with the authorized prefix " ++ branch_prefix)
  let review_status ← publication_policy_text publication_policy "review_status"
  let project_status_before ← publication_policy_text publication_policy "status_before"
  ensure (contains request.body item.source.source_issue_url = true)
    "pull request body must link the claimed source issue URL"
  return { base_commit, review_status, project_status_before }

/-- A source deliverable with the rows it is joined to. -/
structure DeliverableRow where
  deliverable : SourceDeliverable
  artifact : Artifact
  run : Run
  task : Task
  mission : Mission

/-- The query for the deliverable of a mission. -/
def Db.deliverable_row (s : Db) (corp_id deliverable_id mission_id : Uuid) :
    Option DeliverableRow := do
  let deliverable ← s.source_deliverables.find? fun d => d.id == deliverable_id
    && d.corp_id == corp_id
  let artifact ← s.artifacts.find? fun a => a.id == deliverable.artifact_id && a.corp_id == corp_id
  let run ← (s.run? deliverable.run_id).filter fun r => r.corp_id == corp_id
  let task ← (s.task? deliverable.task_id).filter fun t => t.corp_id == corp_id
  let mission ← (s.mission? task.mission_id).filter fun m => m.corp_id == corp_id
    && m.id == mission_id
  return { deliverable, artifact, run, task, mission }

/-- The commit of a deliverable that is ready to be merged. -/
def merge_ready_commit (row : DeliverableRow) (expected_base_commit : String) :
    Except String String := do
  let head_commit ← context (row.deliverable.head_commit.filter fun value => value != "")
    "merge-ready publication requires a committed deliverable"
  let commit_sha := to_ascii_lowercase head_commit
  validate_factory_base_commit commit_sha
  let base_commit := to_ascii_lowercase row.deliverable.base_commit
  ensure (row.deliverable.form = "commit_branch"
      ∧ row.deliverable.integration_state = "ready_for_review"
      ∧ base_commit = expected_base_commit ∧ commit_sha ≠ base_commit)
    "source deliverable is not a merge-ready commit/branch result"
  ensure (row.artifact.metadata.bool? "publication_ready" = some true
      ∧ (row.artifact.metadata.text? "git_bundle_sha256").any (fun sha => sha != "") = true)
    "source deliverable does not include a verified portable Git bundle"
  return commit_sha

/-- The verifier has passed what the deliverable was exported from. -/
def ensure_verified_deliverable (row : DeliverableRow) : Except String Unit :=
  ensure (row.artifact.status = .ready ∧ row.run.status = .completed
      ∧ row.run.verification_status = .passed ∧ row.run.workspace_disposition ≠ some .quarantined
      ∧ row.task.status = .completed ∧ row.task.verification_status = .passed
      ∧ row.mission.status = .completed
      ∧ row.run.verification_sha256 = some row.deliverable.verification_sha256
      ∧ row.run.deliverable_sha256 = some row.artifact.sha256)
    "source deliverable is not linked to passing persisted verifier state"

/-- `historical_suspend_is_recovered`. -/
def historical_suspend_is_recovered (run_id selected_run_id : Uuid) (breaker_stage : BreakerStage)
    (selected_lineage : Finset Uuid) : Bool :=
  run_id != selected_run_id && breaker_stage == .suspend && decide (run_id ∈ selected_lineage)

/-- `ensure_recovered_suspend_loop_metrics_allow_publication`. -/
def ensure_recovered_suspend_loop_metrics_allow_publication (no_progress_events repeated_tool_count
    no_progress_limit repeated_tool_limit : Int) : Except String Unit :=
  ensure (¬ ((0 < no_progress_limit ∧ no_progress_limit ≤ no_progress_events)
      ∨ (0 < repeated_tool_limit ∧ repeated_tool_limit ≤ repeated_tool_count)))
    "pull-request publication is blocked because current loop metrics require a hard breaker"

/-- The loop metrics of a run against the policy of its corp. -/
def ensure_loop_metrics_allow_publication (s : Db) (run : Run) : Except String Unit :=
  let policy := s.budget_policy run.corp_id
  ensure_recovered_suspend_loop_metrics_allow_publication run.no_progress_events
    run.repeated_tool_count policy.no_progress_event_limit policy.repeated_tool_limit

/-- What is asked of every run of the mission. -/
def ensure_run_allows_publication (s : Db) (now : Int) (corp_id selected_run_id : Uuid)
    (selected_lineage : Finset Uuid) (checkpoint : Option CheckpointPublication) (run : Run) :
    Except String Unit :=
  if run.id = selected_run_id then .ok ()
  else if checkpoint.any (fun checkpoint => checkpoint.origin_run_id == run.id) = true
      ∨ historical_suspend_is_recovered run.id selected_run_id run.breaker_stage selected_lineage
        = true
  then ensure_loop_metrics_allow_publication s run
  else if checkpoint.isSome then do
    ensure_breaker_allows_human_progress run.breaker_stage "pull-request publication"
    ensure_loop_metrics_allow_publication s run
  else ensure_run_not_hard_blocked_tx s now corp_id run.id run.breaker_stage
    "pull-request publication"

/-- `publication_recovery_for_lineage`. -/
def publication_recovery_for_lineage (completed_recoveries : List (Uuid × String × Uuid))
    (selected_lineage : Finset Uuid) : Option (Uuid × String) :=
  (completed_recoveries.find? fun r => decide (r.2.2 ∈ selected_lineage)).map fun r => (r.1, r.2.1)

/-- `publication_source_revision`. -/
def publication_source_revision (claimed_revision : String)
    (completed_recovery : Option (Uuid × String)) : String × Option Uuid :=
  match completed_recovery with
  | some (recovery_id, observed_revision) => (observed_revision, some recovery_id)
  | none => (claimed_revision, none)

/-- The completed recoveries of a task, the last one first. -/
def Db.completed_recoveries (s : Db) (observed : Uuid → String)
    (corp_id item_id mission_id task_id : Uuid) :
    List (Uuid × String × Uuid) :=
  (s.factory_verification_recoveries.reverse.filter fun r =>
      r.corp_id == corp_id && r.factory_work_item_id == item_id && r.mission_id == mission_id
        && r.task_id == task_id && r.status == .completed).filterMap fun r =>
    r.replacement_run_id.map fun run_id => (r.id, observed r.id, run_id)

/-- The runs of the mission, the first one first. -/
def Db.publication_runs (s : Db) (corp_id mission_id : Uuid) : List Run :=
  ((s.mission_runs mission_id).filter fun r => r.corp_id == corp_id).insertionSort fun a b =>
    a.created_at < b.created_at ∨ (a.created_at = b.created_at ∧ a.id ≤ b.id)

/-- `validate_publication_prerequisites`. -/
def validate_publication_prerequisites (documents : PolicyDocuments) (s : Db) (now : Int)
    (request : PublicationPrerequisiteRequest) (existing : Bool) (answers : PublicationAnswers) :
    Except String PublicationPrerequisites := do
  let work_item ← context (s.factory_work_item request.corp_id request.work_item_id)
    "factory work item not found"
  ensure (work_item.state = .verified ∨ (existing = true ∧ work_item.state = .publishing))
    ("conflict: pull-request publication requires a verified factory work item, not "
      ++ FactoryWorkItemState.as_str work_item.state)
  let mission_id ← context work_item.mission_id "verified factory work item has no mission"
  ensure_factory_mission_verified_tx s request.corp_id mission_id
  let policy ← context (documents.from_text work_item.policy)
    "factory policy snapshot must be an object"
  let terms ← publication_terms work_item policy request
  let row ← context (s.deliverable_row request.corp_id request.source_deliverable_id mission_id)
    "source deliverable is not linked to the factory mission"
  let commit_sha ← merge_ready_commit row terms.base_commit
  ensure_verified_deliverable row
  ensure_run_not_hard_blocked_tx s now request.corp_id row.run.id row.run.breaker_stage
    "pull-request publication"
  let run_rows := s.publication_runs request.corp_id mission_id
  let selected_lineage ← publication_resume_lineage row.run.id
    (run_rows.map fun run => (run.id, run.resumed_from_run_id))
  let checkpoint ← answers.checkpoint
  answers.correction
  ensure ((run_rows.any fun run => decide (run.id ∈ selected_lineage)
      && run.workspace_disposition == some .quarantined) = false)
    "quarantined source lineage cannot be published"
  let completed := s.completed_recoveries answers.observed_source_revision request.corp_id
    work_item.id mission_id row.task.id
  let (effective_source_revision, source_recovery_id) :=
    publication_source_revision work_item.source_revision
      (publication_recovery_for_lineage completed selected_lineage)
  let _ ← run_rows.mapM
    (ensure_run_allows_publication s now request.corp_id row.run.id selected_lineage checkpoint)
  let of_mission := fun task_id : Uuid =>
    s.tasks.any fun t => t.id == task_id && t.mission_id == mission_id
  let evidence_ids := (s.verification_evidence.filter fun e =>
    e.corp_id == request.corp_id && of_mission e.task_id && e.status == .passed).map
      VerificationEvidence.id
  ensure (evidence_ids ≠ [])
    "pull-request publication requires persisted passing verification evidence"
  return {
    work_item, effective_source_revision, source_recovery_id, mission_id
    room_id := row.mission.room_id, artifact_id := row.deliverable.artifact_id
    task_id := row.deliverable.task_id, run_id := row.deliverable.run_id, commit_sha
    deliverable_sha256 := row.artifact.sha256
    verification_sha256 := row.deliverable.verification_sha256
    base_commit := to_ascii_lowercase row.deliverable.base_commit
    source_branch := row.deliverable.branch
    project_status_before := terms.project_status_before, review_status := terms.review_status
    task_ids := (s.tasks.filter fun t =>
      t.corp_id == request.corp_id && t.mission_id == mission_id).map Task.id
    run_ids := run_rows.map Run.id, evidence_ids, checkpoint }

end Crony.Store
