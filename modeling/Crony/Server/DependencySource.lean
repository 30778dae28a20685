/-
`crony-server/src/dependency_source.rs`: the decoder of a typed source export.

A dependent task is shown the files of the tasks it depends on, and only files whose paths
lie in a narrow dialect: portable, visible, ASCII, without anything that smells of a
credential, and with an extension the exporter labels as text. The planner asks for the same
dialect before it hands a path out. The decoder takes the exported document apart: either it
returns every declared file, or an error.
-/
import Mathlib.Data.Finset.Card
import Mathlib.Data.Finset.Dedup
import Mathlib.Data.String.Basic
import Crony.Encoding
import Crony.Lib.Guard
import Crony.Lib.Sort

set_option autoImplicit false

open Crony.Lib

namespace Crony.Server

/-! ## Limits and errors -/

def TYPED_SOURCE_MEDIA_TYPE : String := "application/vnd.ecorp.deliverable+json"
def MAX_TYPED_SOURCE_FILES : Nat := 8
def MAX_TYPED_SOURCE_FILE_BYTES : Nat := 12 * 1024
def MAX_TYPED_SOURCE_PROMPT_BYTES : Nat := 16 * 1024
def MAX_TYPED_SOURCE_ENVELOPE_BYTES : Nat := 128 * 1024
def MAX_PATCH_BYTES : Nat := 64 * 1024
def FILE_FRAMING_BYTES : Nat := 128

inductive DependencySourceError where
  | invalid_expectation (what : String)
  | invalid_envelope
  | limit_exceeded (what : String)
  | contract_mismatch (what : String)
  | unsafe_path
  | duplicate_path
  | unsupported_change
  | unsupported_media_type
  | invalid_base64
  | byte_count_mismatch
  | digest_mismatch
  | invalid_text
  deriving DecidableEq, Repr

/-! ## Paths -/

/-- The device names Windows reserves, whatever the extension. -/
def is_device (stem : String) : Bool :=
  decide (stem ∈ ["con", "prn", "aux", "nul", "conin$", "conout$"])
    || (byteLen stem == 4 && (starts_with stem "com" || starts_with stem "lpt")
      && (stem.toList.getD 3 ' ').isDigit)

/-- The names under which credentials are kept. -/
def is_secret (lower : String) : Bool :=
  decide (lower ∈ ["_netrc", "npmrc", "terraform.rc", "kubeconfig", "accesstokens.json",
      "application_default_credentials.json"])
    || (["credentials", "secrets", "id_rsa", "id_dsa", "id_ecdsa", "id_ed25519"].any fun name =>
      lower == name || (strip_prefix_str lower name).any fun rest => starts_with rest ".")
    || [".pem", ".key", ".p12", ".pfx", ".p8", ".ppk", ".jks", ".keystore"].any fun suffix =>
      ends_with lower suffix

/-- A component of a safe path. -/
def safe_component (component : String) : Bool :=
  !(starts_with component "." || ends_with component "." || trim component != component)
    && !is_device ((split (to_ascii_lowercase component) '.').headD "")
    && !is_secret (to_ascii_lowercase component)

/-- `safe_path`. -/
def safe_path (path : String) : Bool :=
  repository_relative_path_is_valid path && is_ascii path
    && !(path.toList.any fun c => c == '*' || c == '?' || c == '[' || c == ']' || c == '<'
      || c == '>' || c == '"' || c == '|' || c == '~' || c == '%')
    && (split path '/').all safe_component

/-- `text_media_type`. -/
def text_media_type (path : String) : Option String := do
  let (_, extension) ← rsplit_once ((split path '/').getLastD path) '.'
  let extension := to_ascii_lowercase extension
  if extension = "json" then some "application/json"
  else if extension ∈ ["md", "txt", "rs", "ts", "tsx", "js", "mjs", "css", "html", "toml", "yaml",
      "yml"] then some "text/plain"
  else none

/-- `folded.strip_prefix(other)` leaves something below the directory `other`. -/
def lies_below (folded other : String) : Bool :=
  (strip_prefix_str folded other).any fun rest => starts_with rest "/"

/-- Two paths that one of the file systems in use cannot tell apart, or of which one is a
directory of the other; both in lower case. -/
def collides (folded other : String) : Bool :=
  folded == other || lies_below folded other || lies_below other folded

/-- The loop of `checked_paths`: the set of paths so far, and their folded forms. -/
def check_paths : List String → Finset String → List String →
    Except DependencySourceError (Finset String)
  | [], paths, _ => pure paths
  | value :: rest, paths, portable => do
    ensure (paths.card ≠ MAX_TYPED_SOURCE_FILES) (.limit_exceeded "file count limit")
    ensure (safe_path value = true) .unsafe_path
    let folded := to_ascii_lowercase value
    ensure (portable.any (collides folded) = false) .duplicate_path
    check_paths rest (insert value paths) (portable ++ [folded])

/-- `checked_paths`. -/
def checked_paths (values : List String) : Except DependencySourceError (Finset String) :=
  check_paths values ∅ []

/-- `validate_typed_source_paths`. -/
def validate_typed_source_paths (paths : List String) : Except DependencySourceError Unit := do
  ensure (paths ≠ []) (.invalid_expectation "declared file set must not be empty")
  let validated ← checked_paths paths
  ensure (∀ path ∈ validated, (text_media_type path).isSome = true) .unsupported_media_type

/-! ## Expectations -/

/-- The fields of `SourceDeliverable` the decoder compares. -/
structure SourceDeliverable where
  form : DeliverableForm
  sha256 : String
  media_type : String
  bytes : Int
  verification_sha256 : String
  base_commit : String
  head_commit : Option String
  branch : String
  deriving DecidableEq, Repr

structure ExpectedTypedSource where
  base_commit : String
  verification_sha256 : String
  declared_paths : List String
  changed_paths : Option (List String) := none
  source : Option SourceDeliverable := none
  deriving DecidableEq, Repr

structure DependencySourceFile where
  path : String
  sha256 : String
  content : String
  deriving DecidableEq, Repr

/-! ## The envelope -/

/-- The change of one file, as the document declares it. -/
structure ArchivedChange where
  path : String
  status : String
  mode : String
  sha256 : String
  bytes : Nat
  media_type : String
  content_base64 : String
  deriving DecidableEq, Repr

structure ArtifactSet where
  schema_version : Nat
  form : String
  base_commit : String
  head_commit : Option String
  branch : String
  verification_sha256 : String
  patch_sha256 : String
  patch_base64 : String
  changes : List ArchivedChange
  deriving DecidableEq, Repr

/-- The fields of an object that has no field twice and none but the given ones
(`deny_unknown_fields`). -/
def object_fields (names : List String) : Json → Option (List (String × Json))
  | .obj fields =>
    if (fields.map Prod.fst).Nodup ∧ ∀ field ∈ fields, field.1 ∈ names then some fields else none
  | _ => none

/-- A required text. -/
def text_field (fields : List (String × Json)) (name : String) : Option String :=
  (fields.lookup name).bind Json.as_str

/-- `required_nullable_string`. -/
def required_nullable_string : Json → Option (Option String)
  | .null => some none
  | .str text => some (some text)
  | _ => none

/-- `Deserialize` for the unit type. -/
def unit_field : Json → Option Unit
  | .null => some ()
  | _ => none

/-- `Deserialize` for `ArchivedChange`. -/
def ArchivedChange.from_value (v : Json) : Option ArchivedChange := do
  let fields ← object_fields ["path", "status", "mode", "sha256", "bytes", "media_type",
    "content_base64"] v
  let path ← text_field fields "path"
  let status ← text_field fields "status"
  let mode ← text_field fields "mode"
  let sha256 ← text_field fields "sha256"
  let bytes ← (fields.lookup "bytes").bind Json.as_u64
  let media_type ← text_field fields "media_type"
  let content_base64 ← text_field fields "content_base64"
  return { path, status, mode, sha256, bytes, media_type, content_base64 }

/-- `bounded_changes`. -/
def bounded_changes : Json → Option (List ArchivedChange)
  | .arr items =>
    if items.length ≤ MAX_TYPED_SOURCE_FILES then items.mapM ArchivedChange.from_value else none
  | _ => none

/-- `Deserialize` for `ArtifactSet`. -/
def ArtifactSet.from_value (v : Json) : Option ArtifactSet := do
  let fields ← object_fields ["schema_version", "form", "base_commit", "head_commit", "branch",
    "verification_sha256", "patch_sha256", "patch_base64", "git_bundle_sha256",
    "git_bundle_base64", "changes"] v
  let schema_version ← (fields.lookup "schema_version").bind Json.as_u64
  guard (schema_version < 2 ^ 32)
  let form ← text_field fields "form"
  let base_commit ← text_field fields "base_commit"
  let head_commit ← (fields.lookup "head_commit").bind required_nullable_string
  let branch ← text_field fields "branch"
  let verification_sha256 ← text_field fields "verification_sha256"
  let patch_sha256 ← text_field fields "patch_sha256"
  let patch_base64 ← text_field fields "patch_base64"
  (fields.lookup "git_bundle_sha256").bind unit_field
  (fields.lookup "git_bundle_base64").bind unit_field
  let changes ← (fields.lookup "changes").bind bounded_changes
  return {
    schema_version, form, base_commit, head_commit, branch, verification_sha256, patch_sha256
    patch_base64, changes }

/-! ## Checks -/

/-- `lowercase_hex`. -/
def lowercase_hex (value : String) : Bool :=
  value.toList.all fun c => (decide ('0' ≤ c) && decide (c ≤ '9'))
    || (decide ('a' ≤ c) && decide (c ≤ 'f'))

/-- `valid_digest`. -/
def valid_digest (value : String) : Bool := byteLen value == 64 && lowercase_hex value

/-- `valid_commit`. -/
def valid_commit (value : String) : Bool :=
  (byteLen value == 40 || byteLen value == 64) && lowercase_hex value

/-- `encoded_len`. -/
def encoded_len (bytes : Nat) : Nat := (bytes + 2) / 3 * 4

/-- `decode_base64`. -/
def decode_base64 (encoded : String) (limit : Nat) : Except DependencySourceError Bytes := do
  ensure (byteLen encoded ≤ encoded_len limit) (.limit_exceeded "encoded byte limit")
  let decoded ← context (base64_bytes encoded) .invalid_base64
  ensure (decoded.length ≤ limit) (.limit_exceeded "decoded byte limit")
  return decoded

/-- The optional second set of paths. -/
def check_changed_paths (changed_paths : Option (List String)) (declared : Finset String) :
    Except DependencySourceError Unit :=
  match changed_paths with
  | none => pure ()
  | some changed => do
    let changed ← checked_paths changed
    ensure (changed = declared) (.contract_mismatch "changed paths")

/-- The checks before the document is read; the result is the declared set. -/
def check_expectation (bytes : Bytes) (expected : ExpectedTypedSource) :
    Except DependencySourceError (Finset String) := do
  ensure (bytes.length ≤ MAX_TYPED_SOURCE_ENVELOPE_BYTES) (.limit_exceeded "envelope byte limit")
  ensure (valid_commit expected.base_commit = true
      ∧ valid_digest expected.verification_sha256 = true)
    (.invalid_expectation "base commit or verification SHA-256")
  validate_typed_source_paths expected.declared_paths
  let declared := expected.declared_paths.toFinset
  check_changed_paths expected.changed_paths declared
  return declared

/-- `check_source_record`. -/
def check_source_record (crates : Crates) (bytes : Bytes) (document : ArtifactSet)
    (source : SourceDeliverable) : Except DependencySourceError Unit := do
  ensure (source.form = .typed_artifact_set ∧ source.base_commit = document.base_commit
      ∧ source.verification_sha256 = document.verification_sha256
      ∧ source.branch = document.branch ∧ source.head_commit = document.head_commit)
    (.contract_mismatch "source deliverable identity")
  ensure (source.media_type = TYPED_SOURCE_MEDIA_TYPE) .unsupported_media_type
  ensure (source.bytes = bytes.length) .byte_count_mismatch
  ensure (source.sha256 = crates.digest bytes) .digest_mismatch

/-- The optional cross-check against the source record. -/
def check_source (crates : Crates) (bytes : Bytes) (document : ArtifactSet) :
    Option SourceDeliverable → Except DependencySourceError Unit
  | none => pure ()
  | some source => check_source_record crates bytes document source

/-- A branch name the decoder accepts. -/
def valid_branch (branch : String) : Bool :=
  branch != "" && decide (byteLen branch ≤ 512) && trim branch == branch
    && !branch.toList.any is_control

/-- The checks on the document's own fields. -/
def check_document (document : ArtifactSet) (expected : ExpectedTypedSource) :
    Except DependencySourceError Unit := do
  ensure (document.schema_version = 1 ∧ document.form = "typed_artifact_set") .invalid_envelope
  ensure (document.base_commit = expected.base_commit) (.contract_mismatch "base commit")
  ensure (document.verification_sha256 = expected.verification_sha256)
    (.contract_mismatch "verification SHA-256")
  ensure ((∀ head ∈ document.head_commit, valid_commit head = true)
      ∧ valid_branch document.branch = true ∧ valid_digest document.patch_sha256 = true)
    .invalid_envelope

/-- The loop over the metadata of the changes. -/
def check_changes : List ArchivedChange → Nat → Except DependencySourceError Unit
  | [], _ => pure ()
  | change :: rest, prompt_bytes => do
    ensure (change.status ∈ ["A", "M", "T"] ∧ change.mode ∈ ["100644", "100755"])
      .unsupported_change
    ensure (text_media_type change.path = some change.media_type) .unsupported_media_type
    ensure (valid_digest change.sha256 = true) .invalid_envelope
    ensure (change.bytes ≤ MAX_TYPED_SOURCE_FILE_BYTES
        ∧ byteLen change.content_base64 ≤ encoded_len MAX_TYPED_SOURCE_FILE_BYTES)
      (.limit_exceeded "per-file byte limit")
    ensure (byteLen change.content_base64 = encoded_len change.bytes) .byte_count_mismatch
    let prompt_bytes :=
      prompt_bytes + (change.bytes + byteLen change.path + 64 + FILE_FRAMING_BYTES)
    ensure (prompt_bytes ≤ MAX_TYPED_SOURCE_PROMPT_BYTES)
      (.limit_exceeded "per-parent prompt byte limit")
    check_changes rest prompt_bytes

/-- A character a handoff may not contain. -/
def is_unsupported (c : Char) : Bool := is_control c && !(c == '\t' || c == '\n' || c == '\r')

/-- The loop body that decodes one file. -/
def decode_change (crates : Crates) (change : ArchivedChange) :
    Except DependencySourceError DependencySourceFile := do
  let decoded ← decode_base64 change.content_base64 MAX_TYPED_SOURCE_FILE_BYTES
  ensure (decoded.length = change.bytes) .byte_count_mismatch
  ensure (crates.digest decoded = change.sha256) .digest_mismatch
  let content ← context (from_utf8 decoded) .invalid_text
  ensure (content.toList.any is_unsupported = false) .invalid_text
  ensure (change.media_type = "application/json" → crates.is_json content = true)
    .unsupported_media_type
  return { path := change.path, sha256 := change.sha256, content }

/-- `decode_typed_source`. -/
def decode_typed_source (crates : Crates) (bytes : Bytes) (expected : ExpectedTypedSource) :
    Except DependencySourceError (List DependencySourceFile) := do
  let declared ← check_expectation bytes expected
  let document ← context ((crates.from_slice bytes).bind ArtifactSet.from_value) .invalid_envelope
  check_document document expected
  check_source crates bytes document expected.source
  let actual ← checked_paths (document.changes.map ArchivedChange.path)
  ensure (actual = declared) (.contract_mismatch "declared file set")
  check_changes document.changes 0
  let patch ← decode_base64 document.patch_base64 MAX_PATCH_BYTES
  ensure (crates.digest patch = document.patch_sha256) .digest_mismatch
  let files ← document.changes.mapM (decode_change crates)
  return sort_by_key DependencySourceFile.path files

end Crony.Server
