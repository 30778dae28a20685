/-
`crony-server/src/artifacts.rs`: staging an artifact, and the message its provenance is signed
over.

A runner uploads an artifact as a JSON payload. `prepare_staging` checks size, digest, media
type, role, file name and metadata, and fills in the record; what the payload does not decide
comes from the identity the server assigned. The signature is an HMAC over `provenance_message`,
a text that joins the fields of the record with bars. Parsing a media type, writing JSON, hashing
and the HMAC itself belong to other crates and are parameters.
-/
import Crony.Encoding
import Crony.Lib.Guard
import Crony.Server.DependencySource

set_option autoImplicit false

open Crony.Lib

namespace Crony.Server

def ARTIFACT_VERIFIER : String := "crony-server:artifact-ingest-v1"

/-- The functions of `sha2`, `serde_json`, `mime` and `hmac` that staging calls. -/
structure ArtifactCrates extends Crates where
  /-- `mime::Mime::from_str(text)`, then `essence_str`. -/
  essence : String → Option String
  /-- `serde_json::to_vec`. -/
  to_vec : Json → Bytes
  /-- `Hmac::<Sha256>` with a key. -/
  hmac : Bytes → Bytes → Bytes

/-! ## Records -/

/-- `ArtifactIdentity`; a UUID has 128 bits. -/
structure ArtifactIdentity where
  id : Uuid
  corp_id : Uuid
  task_id : Uuid
  run_id : Uuid
  agent_id : Uuid
  runner_id : String
  id_lt : id < 2 ^ 128
  corp_id_lt : corp_id < 2 ^ 128
  task_id_lt : task_id < 2 ^ 128
  run_id_lt : run_id < 2 ^ 128
  agent_id_lt : agent_id < 2 ^ 128

/-- A `DateTime<Utc>`, in nanoseconds since the epoch. -/
abbrev Instant := Int

/-- `DateTime::timestamp_micros`. -/
def timestamp_micros (t : Instant) : Int := t / 1000

/-- `StoredArtifact`. -/
structure StoredArtifact where
  id : Uuid
  corp_id : Uuid
  task_id : Uuid
  run_id : Uuid
  producer_agent_id : Uuid
  producer_runner_id : String
  verifier : String
  object_key : String
  uri : String
  sha256 : String
  media_type : String
  bytes : Int
  artifact_role : String
  file_name : String
  metadata : Json
  provenance_signature : String
  retention_until : Instant

/-- `StagedArtifact`. -/
structure StagedArtifact where
  artifact : StoredArtifact
  staging_key : String
  bytes : Bytes

/-- The fields of `ArtifactStore` that staging reads. -/
structure ArtifactStore where
  signing_key : Bytes
  max_bytes : Nat

/-! ## Historical receipts -/

def RETAINED_COPILOT_RECEIPT_FILE : String := "copilot-evidence.json"
def RETAINED_COPILOT_RECEIPT_KIND : String := "historical_copilot_receipt_v1"
def MAX_RETAINED_PROVIDER_RECEIPT_BYTES : Nat := 16777216

/-- `RetainedProviderReceiptGrant`. -/
structure RetainedProviderReceiptGrant where
  schema_version : Nat
  collection_id : Uuid
  corp_id : Uuid
  task_id : Uuid
  run_id : Uuid
  workspace_run_id : Uuid
  source_run_id : Uuid
  checkpoint_run_id : Uuid
  provider_session_id : String
  historical_run_id : Uuid
  historical_termination_event_id : Uuid
  historical_checkpoint_event_id : Uuid
  source_checkpoint_event_id : Uuid
  expected_workspace_fingerprint : String
  expected_head_commit : String
  historical_model : Option String
  historical_reasoning_effort : Option String

def bounded_text (value : String) (limit : Nat) : Bool :=
  value != "" && decide (byteLen value ≤ limit) && !value.toList.any is_control

/-- `hex_digest`: lower case, one of the lengths. -/
def hex_digest (value : String) (lengths : List Nat) : Bool :=
  decide (byteLen value ∈ lengths)
    && value.toList.all fun c => decide (('0' ≤ c ∧ c ≤ '9') ∨ ('a' ≤ c ∧ c ≤ 'f'))

/-- `RetainedProviderReceiptGrant::validate`. -/
def RetainedProviderReceiptGrant.validate (grant : RetainedProviderReceiptGrant) :
    Except String Unit :=
  ensure (grant.schema_version = 1
      ∧ 0 ∉ [grant.collection_id, grant.corp_id, grant.task_id, grant.run_id,
          grant.workspace_run_id, grant.source_run_id, grant.checkpoint_run_id,
          grant.historical_run_id, grant.historical_termination_event_id,
          grant.historical_checkpoint_event_id, grant.source_checkpoint_event_id]
      ∧ grant.run_id ≠ grant.source_run_id ∧ grant.run_id ≠ grant.checkpoint_run_id
      ∧ grant.run_id ≠ grant.historical_run_id
      ∧ (parse_str grant.provider_session_id).any (fun id => id != 0) = true
      ∧ hex_digest grant.expected_workspace_fingerprint [64] = true
      ∧ hex_digest grant.expected_head_commit [40, 64] = true
      ∧ grant.historical_model.all (fun value => bounded_text value 200) = true
      ∧ grant.historical_reasoning_effort.all (fun value => bounded_text value 80) = true)
    "invalid retained-provider-receipt collection scope"

/-- `CopilotReceipt`. -/
structure CopilotReceipt where
  provider : String
  sdk_version : String
  session_id : String
  model : String
  reasoning_effort : Option String
  discovered_model_count : Nat
  assistant_messages : Nat
  tool_calls : Nat
  changed_paths : List String
  diff_sha256 : Option String

def copilot_receipt_fields : List String :=
  ["provider", "sdk_version", "session_id", "model", "reasoning_effort", "discovered_model_count",
    "assistant_messages", "tool_calls", "changed_paths", "diff_sha256"]

/-- `Deserialize` for `CopilotReceipt`; an absent optional field would be none, but all fields
are required to be there. -/
def CopilotReceipt.from_value (v : Json) : Option CopilotReceipt := do
  let fields ← object_fields copilot_receipt_fields v
  let provider ← text_field fields "provider"
  let sdk_version ← text_field fields "sdk_version"
  let session_id ← text_field fields "session_id"
  let model ← text_field fields "model"
  let reasoning_effort ← (fields.lookup "reasoning_effort").bind required_nullable_string
  let discovered_model_count ← (fields.lookup "discovered_model_count").bind Json.as_u64
  let assistant_messages ← (fields.lookup "assistant_messages").bind Json.as_u64
  let tool_calls ← (fields.lookup "tool_calls").bind Json.as_u64
  let changed_paths ← (fields.lookup "changed_paths").bind Json.as_array
  let changed_paths ← changed_paths.mapM Json.as_str
  let diff_sha256 ← (fields.lookup "diff_sha256").bind required_nullable_string
  return {
    provider, sdk_version, session_id, model, reasoning_effort, discovered_model_count
    assistant_messages, tool_calls, changed_paths, diff_sha256 }

/-- A path a receipt may not name. -/
def is_unsafe_receipt_path (path : String) : Bool :=
  !bounded_text path 4096 || starts_with path "/" || starts_with path "\\"
    || (as_bytes path)[1]? == some 0x3A
    || (path.toList.splitOnP fun c => c == '/' || c == '\\').any fun part => part == ['.', '.']

/-- `validate_retained_copilot_receipt`. -/
def validate_retained_copilot_receipt (crates : Crates) (bytes : Bytes)
    (grant : RetainedProviderReceiptGrant) : Except String Unit := do
  grant.validate
  ensure (bytes ≠ [] ∧ bytes.length ≤ MAX_RETAINED_PROVIDER_RECEIPT_BYTES)
    "retained native receipt exceeds its byte boundary"
  let value ← context (crates.from_slice bytes) "retained native receipt is not valid JSON"
  ensure (∀ name ∈ copilot_receipt_fields, (value.get? name).isSome = true)
    "retained native receipt has an incomplete native format"
  let receipt ← context (CopilotReceipt.from_value value)
    "retained native receipt does not match the native adapter format"
  ensure (receipt.provider = "github-copilot" ∧ receipt.sdk_version = "1.0.11"
      ∧ receipt.session_id = grant.provider_session_id
      ∧ receipt.model = grant.historical_model.getD "copilot-default"
      ∧ receipt.reasoning_effort = grant.historical_reasoning_effort
      ∧ receipt.changed_paths.length ≤ 20000
      ∧ receipt.changed_paths.any is_unsafe_receipt_path = false
      ∧ receipt.diff_sha256.all (fun digest => hex_digest digest [64]) = true
      ∧ ∀ count ∈ [receipt.discovered_model_count, receipt.assistant_messages, receipt.tool_calls],
          (count : Int) ≤ i64_max)
    "retained native receipt does not match its authorized historical context"

/-- A text, or null. -/
def nullable (text : Option String) : Json := (text.map Json.str).getD .null

/-- `Serialize` for `RetainedProviderReceiptGrant`. -/
def RetainedProviderReceiptGrant.to_value (grant : RetainedProviderReceiptGrant) : Json :=
  .obj [("schema_version", .int grant.schema_version),
    ("collection_id", .uuid grant.collection_id), ("corp_id", .uuid grant.corp_id),
    ("task_id", .uuid grant.task_id), ("run_id", .uuid grant.run_id),
    ("workspace_run_id", .uuid grant.workspace_run_id),
    ("source_run_id", .uuid grant.source_run_id),
    ("checkpoint_run_id", .uuid grant.checkpoint_run_id),
    ("provider_session_id", .str grant.provider_session_id),
    ("historical_run_id", .uuid grant.historical_run_id),
    ("historical_termination_event_id", .uuid grant.historical_termination_event_id),
    ("historical_checkpoint_event_id", .uuid grant.historical_checkpoint_event_id),
    ("source_checkpoint_event_id", .uuid grant.source_checkpoint_event_id),
    ("expected_workspace_fingerprint", .str grant.expected_workspace_fingerprint),
    ("expected_head_commit", .str grant.expected_head_commit),
    ("historical_model", nullable grant.historical_model),
    ("historical_reasoning_effort", nullable grant.historical_reasoning_effort)]

/-- `retained_provider_receipt_metadata`. -/
def retained_provider_receipt_metadata (grant : RetainedProviderReceiptGrant) : Json :=
  .obj [("workspace_relative_path", .str RETAINED_COPILOT_RECEIPT_FILE),
    ("retained_provider_receipt", .obj [("kind", .str RETAINED_COPILOT_RECEIPT_KIND),
      ("grant", grant.to_value),
      ("attestation", .str "collected_now_from_current_sealed_workspace"),
      ("receipt_generation", .str "historical"),
      ("original_server_artifact_acceptance_claimed", .bool false),
      ("historical_digest_attestation_claimed", .bool false),
      ("provider_completion_claimed", .bool false),
      ("provider_inference_started", .bool false)])]

/-! ## Media types -/

/-- `detect_binary_media_type`. -/
def detect_binary_media_type (bytes : Bytes) : Option String :=
  if [0x89, 0x50, 0x4E, 0x47, 0x0D, 0x0A, 0x1A, 0x0A].isPrefixOf bytes then some "image/png"
  else if [0xFF, 0xD8, 0xFF].isPrefixOf bytes then some "image/jpeg"
  else if (as_bytes "GIF87a").isPrefixOf bytes || (as_bytes "GIF89a").isPrefixOf bytes then
    some "image/gif"
  else if (as_bytes "%PDF-").isPrefixOf bytes then some "application/pdf"
  else if [0x50, 0x4B, 0x03, 0x04].isPrefixOf bytes then some "application/zip"
  else if [0x1F, 0x8B].isPrefixOf bytes then some "application/gzip"
  else if 12 ≤ bytes.length ∧ (as_bytes "RIFF").isPrefixOf bytes
      ∧ (bytes.drop 8).take 4 = as_bytes "WEBP" then some "image/webp"
  else if 12 ≤ bytes.length ∧ (as_bytes "RIFF").isPrefixOf bytes
      ∧ (bytes.drop 8).take 4 = as_bytes "WAVE" then some "audio/wav"
  else if 12 ≤ bytes.length ∧ (bytes.drop 4).take 4 = as_bytes "ftyp" then some "video/mp4"
  else none

/-- `is_zip_container`. -/
def is_zip_container (media_type : String) : Bool :=
  media_type == "application/epub+zip" || media_type == "application/java-archive"
    || starts_with media_type "application/vnd.openxmlformats-officedocument."
    || starts_with media_type "application/vnd.oasis.opendocument."

/-- The content fits its media type. -/
def verify_media_type (crates : Crates) (media_type : String) (bytes : Bytes) :
    Except String Unit :=
  if media_type = "application/json" ∨ ends_with media_type "+json" = true then
    ensure ((crates.from_slice bytes).isSome = true) "artifact declared JSON but content is invalid"
  else if media_type = "image/svg+xml" then do
    let text ← context (from_utf8 bytes) "artifact declared SVG but content is not UTF-8"
    ensure (contains (to_ascii_lowercase text) "<svg" = true)
      "artifact declared SVG but no svg element was found"
  else if media_type = "application/xml" ∨ media_type = "text/xml"
      ∨ ends_with media_type "+xml" = true then do
    let text ← context (from_utf8 bytes) "artifact declared XML but content is not UTF-8"
    ensure ((text.toList.dropWhile is_whitespace).head? = some '<')
      "artifact declared XML but content is not markup"
  else if starts_with media_type "text/" = true then
    ensure ((from_utf8 bytes).isSome = true) "artifact declared text but content is not UTF-8"
  else if media_type = "application/octet-stream" then .ok ()
  else do
    let detected ← context (detect_binary_media_type bytes)
      ("artifact media type " ++ media_type ++ " cannot be verified from its content")
    ensure (detected = media_type
      ∨ (detected = "application/zip" ∧ is_zip_container media_type = true))
      ("artifact media type mismatch: declared " ++ media_type ++ ", detected " ++ detected)

/-- `normalize_and_verify_media_type`. -/
def normalize_and_verify_media_type (crates : ArtifactCrates) (declared : String) (bytes : Bytes) :
    Except String String := do
  let parsed ← context (crates.essence declared) "artifact media type is invalid"
  let media_type := to_ascii_lowercase parsed
  verify_media_type crates.toCrates media_type bytes
  return media_type

/-! ## Metadata -/

/-- `valid_artifact_file_name`. -/
def valid_artifact_file_name (file_name : String) : Bool :=
  file_name != "" && decide (byteLen file_name ≤ 255)
    && !file_name.toList.any (fun c => c == '/' || c == '\\' || c == '"')
    && !file_name.toList.any is_control

def valid_hex (value : String) (minimum maximum : Nat) : Bool :=
  decide (minimum ≤ byteLen value) && decide (byteLen value ≤ maximum)
    && value.toList.all is_ascii_hexdigit

/-- `source_deliverable_metadata`. -/
def source_deliverable_metadata (payload : Json) : Except String Json := do
  let required (name : String) : Except String String :=
    context (payload.text? name) ("source deliverable omitted " ++ name)
  let form ← required "form"
  ensure (form ∈ ["commit_branch", "patch", "archive", "typed_artifact_set", "review_only_report"])
    "source deliverable form is invalid"
  let verification_sha256 ← required "verification_sha256"
  let base_commit ← required "base_commit"
  let head_commit := payload.text? "head_commit"
  let branch ← required "branch"
  let integration_state ← required "integration_state"
  let git_bundle_sha256 := payload.text? "git_bundle_sha256"
  let publication_ready := (payload.bool? "publication_ready").getD false
  ensure (valid_hex verification_sha256 64 64 = true ∧ valid_hex base_commit 40 64 = true
      ∧ head_commit.all (fun value => valid_hex value 40 64) = true ∧ branch ≠ ""
      ∧ byteLen branch ≤ 512
      ∧ integration_state ∈ ["not_applicable", "ready_for_review", "published", "integrated"])
    "source deliverable metadata is invalid"
  if form = "commit_branch" then
    ensure (head_commit.isSome = true
        ∧ git_bundle_sha256.any (fun value => valid_hex value 64 64) = true
        ∧ publication_ready = true)
      "commit/branch deliverable omitted its portable publication bundle"
  else
    ensure (git_bundle_sha256 = none ∧ publication_ready = false)
      "only commit/branch deliverables may be publication-ready"
  return .obj [("form", .str form), ("verification_sha256", .str verification_sha256),
    ("base_commit", .str base_commit), ("head_commit", nullable head_commit),
    ("branch", .str branch), ("integration_state", .str integration_state),
    ("git_bundle_sha256", nullable git_bundle_sha256),
    ("publication_ready", .bool publication_ready)]

/-- `Option<&Value> == Option<&Value>`. -/
def same_value : Option Json → Option Json → Bool
  | some a, some b => a.beq b
  | none, none => true
  | _, _ => false

/-- The metadata of an upload; that of a historical receipt comes from its grant. -/
def upload_metadata (crates : ArtifactCrates) (identity : ArtifactIdentity) (payload : Json)
    (retained_receipt : Option RetainedProviderReceiptGrant)
    (bytes : Bytes) (media_type artifact_role file_name : String) : Except String Json :=
  match retained_receipt with
  | some grant => do
    validate_retained_copilot_receipt crates.toCrates bytes grant
    let metadata := retained_provider_receipt_metadata grant
    ensure (identity.corp_id = grant.corp_id ∧ identity.task_id = grant.task_id
        ∧ identity.run_id = grant.run_id ∧ artifact_role = "provider_evidence"
        ∧ payload.text? "artifact_role" = some "provider_evidence"
        ∧ file_name = RETAINED_COPILOT_RECEIPT_FILE ∧ media_type = "application/json"
        ∧ same_value (payload.get? "workspace_relative_path")
            (metadata.get? "workspace_relative_path") = true
        ∧ same_value (payload.get? "retained_provider_receipt")
            (metadata.get? "retained_provider_receipt") = true)
      "retained provider receipt upload does not match its authorized collection"
    return metadata
  | none =>
    if artifact_role = "source_deliverable" then source_deliverable_metadata payload
    else match payload.text? "workspace_relative_path" with
    | some path => do
      ensure (repository_relative_path_is_valid path = true)
        "provider artifact workspace-relative path is invalid"
      return .obj [("workspace_relative_path", .str path)]
    | none => .ok (.obj [])

/-! ## The message -/

/-- `provenance_message`: the first format covers the records that existed before roles, file
names and metadata did. -/
def provenance_message (crates : ArtifactCrates) (artifact : StoredArtifact) : String :=
  if artifact.artifact_role = "provider_evidence" ∧ artifact.file_name = "artifact.bin"
      ∧ artifact.metadata.beq (.obj []) = true then
    "|".intercalate ["v1", uuid_text artifact.id, uuid_text artifact.corp_id,
      uuid_text artifact.task_id, uuid_text artifact.run_id, uuid_text artifact.producer_agent_id,
      artifact.producer_runner_id, artifact.verifier, artifact.object_key, artifact.uri,
      artifact.sha256, artifact.media_type, toString artifact.bytes,
      toString (timestamp_micros artifact.retention_until)]
  else
    "|".intercalate ["v2", uuid_text artifact.id, uuid_text artifact.corp_id,
      uuid_text artifact.task_id, uuid_text artifact.run_id, uuid_text artifact.producer_agent_id,
      artifact.producer_runner_id, artifact.verifier, artifact.object_key, artifact.uri,
      artifact.sha256, artifact.media_type, toString artifact.bytes, artifact.artifact_role,
      artifact.file_name, crates.digest (crates.to_vec artifact.metadata),
      toString (timestamp_micros artifact.retention_until)]

/-- `ArtifactStore::sign`. -/
def ArtifactStore.sign (store : ArtifactStore) (crates : ArtifactCrates)
    (artifact : StoredArtifact) : String :=
  String.ofList (hex_encode
    (crates.hmac store.signing_key (as_bytes (provenance_message crates artifact))))

/-! ## Staging -/

/-- The longest base64 text looked at; `usize` arithmetic. -/
def maximum_encoded (max_bytes : Nat) : Nat :=
  (min (max_bytes + 2) (2 ^ 64 - 1) / 3 * 4 + 4) % 2 ^ 64

/-- The bytes of an upload: as many as declared, within the limit. -/
def upload_bytes (store : ArtifactStore) (payload : Json) : Except String Bytes := do
  let declared_bytes ← context ((payload.get? "bytes").bind Json.as_u64)
    "artifact upload omitted bytes"
  ensure (declared_bytes ≠ 0 ∧ declared_bytes ≤ store.max_bytes)
    ("artifact size " ++ toString declared_bytes ++ " is outside the allowed range 1..="
      ++ toString store.max_bytes)
  let encoded ← context (payload.text? "content_base64") "artifact upload omitted content"
  ensure (byteLen encoded ≤ maximum_encoded store.max_bytes)
    "encoded artifact exceeds the configured byte limit"
  let bytes ← context (base64_bytes encoded) "artifact content is not valid base64"
  ensure (bytes.length = declared_bytes)
    ("artifact byte mismatch: declared " ++ toString declared_bytes ++ ", received "
      ++ toString bytes.length)
  return bytes

/-- The digest of an upload: the declared one, recomputed. -/
def upload_sha256 (crates : ArtifactCrates) (payload : Json) (bytes : Bytes) :
    Except String String := do
  let declared ← context (payload.text? "sha256") "artifact upload omitted sha256"
  let declared_sha := to_ascii_lowercase declared
  ensure (byteLen declared_sha = 64 ∧ declared_sha.toList.all is_ascii_hexdigit = true)
    "artifact sha256 is invalid"
  let actual_sha := crates.digest bytes
  ensure (actual_sha = declared_sha)
    ("artifact digest mismatch: declared " ++ declared_sha ++ ", received " ++ actual_sha)
  return actual_sha

/-- `ArtifactStore::prepare_staging_with_receipt`. -/
def ArtifactStore.prepare_staging_with_receipt (store : ArtifactStore) (crates : ArtifactCrates)
    (identity : ArtifactIdentity) (payload : Json) (retention_until : Instant)
    (retained_receipt : Option RetainedProviderReceiptGrant) : Except String StagedArtifact := do
  ensure ((payload.get? "retained_provider_receipt").isNone = true ∨ retained_receipt.isSome = true)
    "retained provider receipt requires current collection authority"
  let bytes ← upload_bytes store payload
  let actual_sha ← upload_sha256 crates payload bytes
  let declared ← context (payload.text? "media_type") "artifact upload omitted media_type"
  let media_type ← normalize_and_verify_media_type crates declared bytes
  let artifact_role := (payload.text? "artifact_role").getD "provider_evidence"
  ensure (artifact_role ∈ ["provider_evidence", "source_deliverable"]) "artifact role is invalid"
  let file_name := (payload.text? "file_name").getD "artifact.bin"
  ensure (valid_artifact_file_name file_name = true) "artifact file name is invalid"
  let metadata ← upload_metadata crates identity payload retained_receipt bytes media_type
    artifact_role file_name
  let object_key := "corps/" ++ uuid_text identity.corp_id ++ "/sha256/"
    ++ String.ofList (actual_sha.toList.take 2) ++ "/" ++ actual_sha
  let staging_key := "staging/corps/" ++ uuid_text identity.corp_id ++ "/" ++ uuid_text identity.id
  let uri := "/api/corps/" ++ uuid_text identity.corp_id ++ "/artifacts/" ++ uuid_text identity.id
  ensure ((bytes.length : Int) ≤ i64_max) "artifact size exceeds i64"
  let artifact : StoredArtifact :=
    { id := identity.id
      corp_id := identity.corp_id
      task_id := identity.task_id
      run_id := identity.run_id
      producer_agent_id := identity.agent_id
      producer_runner_id := identity.runner_id
      verifier := ARTIFACT_VERIFIER
      object_key, uri
      sha256 := actual_sha
      media_type
      bytes := bytes.length
      artifact_role, file_name, metadata
      provenance_signature := ""
      retention_until }
  return {
    artifact := { artifact with provenance_signature := store.sign crates artifact }
    staging_key, bytes }

/-- `ArtifactStore::prepare_staging`. -/
def ArtifactStore.prepare_staging (store : ArtifactStore) (crates : ArtifactCrates)
    (identity : ArtifactIdentity) (payload : Json) (retention_until : Instant) :
    Except String StagedArtifact :=
  store.prepare_staging_with_receipt crates identity payload retention_until none

/-- `ArtifactStore::prepare_retained_provider_receipt_staging`. -/
def ArtifactStore.prepare_retained_provider_receipt_staging (store : ArtifactStore)
    (crates : ArtifactCrates) (identity : ArtifactIdentity) (payload : Json)
    (retention_until : Instant) (grant : RetainedProviderReceiptGrant) :
    Except String StagedArtifact :=
  store.prepare_staging_with_receipt crates identity payload retention_until (some grant)

end Crony.Server
