/-
The deliverable export of the runner, `deliverable.rs`.

Before anything is exported the runner compares the changed paths with the task's write
scope. The scopes arrive as the contract stores them, so a scope outside the runner's grammar
is found only here, after the work is done.

The export reads a temporary index that `git add` has filled from the worktree. What Git and
the file system answer about it is a record of answers; everything the runner computes from
them is here: which paths changed, which of them may be exported, and the document.
-/
import Mathlib.Data.Prod.Lex
import Mathlib.Data.String.Basic
import Crony.Encoding
import Crony.Lib.Guard
import Crony.Lib.Sort

set_option autoImplicit false

open Crony.Lib

namespace Crony.Runner

/-- The error of a scope outside the grammar. -/
def malformed_scope : String := "task write scope must be an exact relative path or end in /**"

/-- `reject_out_of_scope_changes`; a change is a status and a path. -/
def reject_out_of_scope_changes (changes : List (String × String)) (write_scope : List String) :
    Except String Unit := do
  ensure (write_scope ≠ []) "deliverable export requires an explicit task write scope"
  ensure (∀ scope ∈ write_scope, write_scope_is_valid scope = true) malformed_scope
  match changes.find? fun (_, path) => !write_scope.any fun scope =>
    write_scope_allows_path scope path with
  | some (_, path) => .error ("deliverable contains path outside the task write scope: " ++ path)
  | none => pure ()

/-! ## Git -/

/-- What Git and the file system answer about the worktree and the temporary index; an answer
is an error when the command fails. -/
structure Git where
  /-- `git diff --cached --name-status -z --no-renames`, from the base commit. -/
  name_status : Except String Bytes
  /-- `git ls-files --stage`, for one path. -/
  ls_files : String → Except String String
  /-- `git show`, for one path of the index. -/
  show_path : String → Except String Bytes
  /-- `git diff --cached --binary`, from the base commit. -/
  diff : Except String Bytes
  /-- No component of the path is a link, and the file lies in the worktree. -/
  physical : String → Except String Unit
  write_tree : Except String String
  /-- `git rev-parse commit^{tree}`. -/
  tree_of : String → Except String String
  head : Except String String
  /-- `git commit-tree`, of a tree with a message. -/
  commit_tree : String → String → Except String String
  /-- `git update-ref`, from the old head to a commit. -/
  update_ref : String → String → Except String Unit
  /-- `git reset --mixed HEAD`, for the exported paths. -/
  refresh : List String → Except String Unit
  /-- `create_git_bundle`, of a head commit. -/
  create_git_bundle : String → Except String Bytes

/-- The fields of `WorkspaceLease` the export reads. -/
structure WorkspaceLease where
  branch : String
  base_commit : String
  deriving DecidableEq, Repr

/-- `validate_relative`. -/
def validate_relative (value : String) : Except String Unit :=
  ensure (repository_relative_path_is_valid value = true)
    "deliverable path must stay inside the worktree"

/-- The statuses and paths among the fields of `--name-status -z`. -/
def status_fields : List Bytes → Except String (List (String × String))
  | [] => pure []
  | [status] => do
    let _ ← context (from_utf8 status) "Git path is not UTF-8"
    .error "Git name-status output omitted a path"
  | status :: path :: rest => do
    let status ← context (from_utf8 status) "Git path is not UTF-8"
    let path ← context (from_utf8 path) "Git path is not UTF-8"
    validate_relative path
    let changes ← status_fields rest
    return (status, path) :: changes

/-- The key `changed_paths` sorts by. -/
def change_key (change : String × String) : String ×ₗ String := toLex (change.2, change.1)

/-- `changed_paths`. -/
def changed_paths (git : Git) : Except String (List (String × String)) := do
  let output ← git.name_status
  let changes ← status_fields ((output.splitOn 0).filter fun field => !field.isEmpty)
  return sort_by_key change_key changes

/-- `index_mode`: the first word of the answer. -/
def index_mode (git : Git) (path : String) : Except String String := do
  let text ← git.ls_files path
  context ((split_whitespace text.toList).head?.map String.ofList) "Git index omitted file mode"

/-! ## Secrets -/

/-- Directories no export may touch. -/
def sensitive_directories : List String :=
  [".git", ".codex", ".claude", ".ssh", ".aws", ".azure", ".kube", ".docker", ".gnupg",
    ".password-store", ".terraform.d", ".pulumi", ".oci", ".gem", ".nuget", ".m2", ".gradle",
    ".composer", ".vercel", ".netlify", ".wrangler", ".fly", ".yarn"]

/-- Directories below `.config` no export may touch. -/
def sensitive_configurations : List String :=
  ["gcloud", "gh", "hub", "glab", "doctl", "heroku", "op", "rclone", "containers",
    "github-copilot", "openai", "anthropic", "huggingface", "kaggle", "wandb", "pypoetry",
    "composer", "pip", "uv", "npm", "yarn", "pnpm", "bun", "deno", "vercel", "netlify",
    "cloudflare", "fly", "azure-devops"]

/-- Files no export may touch. -/
def sensitive_files : List String :=
  [".npmrc", ".pypirc", ".netrc", "_netrc", ".git-credentials", ".vault-token", ".sentryclirc",
    ".terraformrc", ".yarnrc", ".yarnrc.yml", ".yarnrc.yaml", "terraform.rc", "npmrc", "id_rsa",
    "id_ed25519", "application_default_credentials.json", "accesstokens.json", "kubeconfig",
    "credentials", "credentials.json", "credentials.toml", "secrets.json"]

/-- `sensitive_path`. -/
def sensitive_path (path : String) : Bool :=
  let normalized := String.ofList
    ((path.toList.map fun c => if c = '\\' then '/' else c).map Char.toLower)
  let components := split normalized '/'
  let file_name := components.getLastD normalized
  components.any (fun component => decide (component ∈ sensitive_directories))
    || (components.zip components.tail).any (fun (parent, component) =>
      parent == ".config" && decide (component ∈ sensitive_configurations))
    || starts_with file_name ".env" || decide (file_name ∈ sensitive_files)
    || ends_with file_name ".pem" || ends_with file_name ".key" || ends_with file_name ".p12"
    || ends_with file_name ".pfx"

/-- The body of `reject_unsafe_changes`. -/
def reject_unsafe_change (git : Git) (change : String × String) : Except String Unit := do
  let (status, path) := change
  ensure (sensitive_path path = false)
    ("deliverable contains a secret-like or runner-internal path: " ++ path)
  if starts_with status "D" then pure ()
  else do
    let mode ← index_mode git path
    ensure (mode ≠ "120000") ("deliverable cannot contain symbolic link " ++ path)
    ensure (mode ≠ "160000") ("deliverable cannot contain Git link " ++ path)
    ensure (mode = "100644" ∨ mode = "100755")
      ("deliverable contains unsupported file mode " ++ mode ++ ": " ++ path)
    git.physical path

/-- `reject_unsafe_changes`. -/
def reject_unsafe_changes (git : Git) (changes : List (String × String)) : Except String Unit :=
  changes.forM (reject_unsafe_change git)

/-! ## The document -/

/-- `Path::file_name`: the last component. A slash at the end and components `.` do not count,
and `..` is no file name. -/
def path_file_name (path : String) : Option String :=
  ((split path '/').reverse.find? fun component => component != "" && component != ".").filter
    fun component => component != ".."

/-- `Path::extension`: what follows the last dot of the file name, unless nothing precedes it. -/
def path_extension (path : String) : Option String := do
  let name ← path_file_name path
  let (stem, extension) ← rsplit_once name '.'
  if stem = "" then none else some extension

/-- `infer_media_type`. -/
def infer_media_type (path : String) : String :=
  let extension := to_ascii_lowercase ((path_extension path).getD "")
  if extension = "json" then "application/json"
  else if extension ∈ ["md", "txt", "rs", "ts", "tsx", "js", "mjs", "css", "html", "toml", "yaml",
      "yml"] then "text/plain"
  else if extension = "png" then "image/png"
  else if extension ∈ ["jpg", "jpeg"] then "image/jpeg"
  else if extension = "svg" then "image/svg+xml"
  else if extension = "pdf" then "application/pdf"
  else "application/octet-stream"

/-- `ArchivedChange`; a deletion has only a path and a status. -/
structure ArchivedChange where
  path : String
  status : String
  mode : Option String := none
  sha256 : Option String := none
  bytes : Option Nat := none
  media_type : Option String := none
  content_base64 : Option String := none
  deriving DecidableEq, Repr

/-- A text or `null`. -/
def nullable (text : Option String) : Json := (text.map Json.str).getD .null

/-- `Serialize` for `ArchivedChange`; the fields of a JSON value are sorted by name. -/
def ArchivedChange.to_value (c : ArchivedChange) : Json :=
  .obj [("bytes", (c.bytes.map fun n => Json.int n).getD .null),
    ("content_base64", nullable c.content_base64), ("media_type", nullable c.media_type),
    ("mode", nullable c.mode), ("path", .str c.path), ("sha256", nullable c.sha256),
    ("status", .str c.status)]

/-- The body of `archive_changes`. -/
def archive_change (crates : Crates) (git : Git) (include_content : Bool)
    (change : String × String) : Except String ArchivedChange := do
  let (status, path) := change
  if starts_with status "D" then return { path, status }
  else do
    let content ← git.show_path path
    let mode ← index_mode git path
    return {
      path, status, mode := some mode, sha256 := some (crates.digest content)
      bytes := some content.length, media_type := some (infer_media_type path)
      content_base64 := if include_content then some (base64_text content) else none }

/-- `archive_changes`. -/
def archive_changes (crates : Crates) (git : Git) (changes : List (String × String))
    (include_content : Bool) : Except String (List ArchivedChange) :=
  changes.mapM (archive_change crates git include_content)

/-- `DeliverableForm::as_str`. -/
def form_text : DeliverableForm → String
  | .commit_branch => "commit_branch"
  | .patch => "patch"
  | .archive => "archive"
  | .typed_artifact_set => "typed_artifact_set"
  | .review_only_report => "review_only_report"

/-- `DeliverableForm`s whose document carries the files. -/
def includes_content : DeliverableForm → Bool
  | .archive | .typed_artifact_set | .commit_branch => true
  | .patch | .review_only_report => false

/-- The JSON document of every form but a patch; the fields are sorted by name. -/
def document (crates : Crates) (form : DeliverableForm) (lease : WorkspaceLease)
    (head_commit : Option String) (verification_sha256 : String) (patch : Bytes)
    (git_bundle : Option Bytes) (archived : List ArchivedChange) : Json :=
  .obj [("base_commit", .str lease.base_commit), ("branch", .str lease.branch),
    ("changes", .arr (archived.map ArchivedChange.to_value)), ("form", .str (form_text form)),
    ("git_bundle_base64", nullable (git_bundle.map base64_text)),
    ("git_bundle_sha256", nullable (git_bundle.map crates.digest)),
    ("head_commit", nullable head_commit),
    ("patch_base64", nullable (if includes_content form then some (base64_text patch) else none)),
    ("patch_sha256", .str (crates.digest patch)), ("schema_version", .int 1),
    ("verification_sha256", .str verification_sha256)]

/-! ## The export -/

def MAX_DELIVERABLE_BYTES : Nat := 16777216

/-- `ExportedDeliverable`. -/
structure ExportedDeliverable where
  bytes : Bytes
  file_name : String
  media_type : String
  form : DeliverableForm
  verification_sha256 : String
  base_commit : String
  head_commit : Option String
  branch : String
  git_bundle_sha256 : Option String
  publication_ready : Bool
  deriving DecidableEq, Repr

/-- `commit_index`. -/
def commit_index (git : Git) (lease : WorkspaceLease) (verification_sha256 : String)
    (changes : List (String × String)) (preserve_head_commit : Option String) :
    Except String (Option String) := do
  let tree ← git.write_tree
  let base_tree ← git.tree_of lease.base_commit
  let old_head ← git.head
  match preserve_head_commit with
  | some expected_head => do
    ensure (old_head = expected_head)
      ("verifier-only deliverable expected head " ++ expected_head ++ ", found " ++ old_head)
    let expected_tree ← git.tree_of expected_head
    ensure (tree = expected_tree)
      ("verifier-only deliverable tree changed from preserved head " ++ expected_head)
    return some expected_head
  | none => do
    let message :=
      "ECorp verified deliverable\n\nVerification-SHA256: " ++ verification_sha256 ++ "\n"
    let commit ←
      if tree = base_tree then pure lease.base_commit else git.commit_tree tree message
    git.update_ref commit old_head
    if changes ≠ [] then git.refresh (changes.map Prod.snd)
    return some commit

/-- The head commit, for a deliverable that is committed. -/
def commit_deliverable (git : Git) (spec : DeliverableSpec) (lease : WorkspaceLease)
    (verification_sha256 : String) (changes : List (String × String))
    (preserve_head_commit : Option String) : Except String (Option String) :=
  if spec.commit_after_verification = true ∨ spec.form = .commit_branch then
    commit_index git lease verification_sha256 changes preserve_head_commit
  else pure none

/-- The bundle of a commit-branch deliverable. -/
def bundle_deliverable (git : Git) (spec : DeliverableSpec) (head_commit : Option String) :
    Except String (Option Bytes) :=
  if spec.form = .commit_branch then do
    let head_commit ← context head_commit "commit/branch deliverable omitted its committed head"
    let bundle ← git.create_git_bundle head_commit
    return some bundle
  else pure none

/-- The file name of a form's document. -/
def document_name : DeliverableForm → String
  | .archive => "ecorp-source-archive.json"
  | .typed_artifact_set => "ecorp-artifact-set.json"
  | .commit_branch => "ecorp-commit-branch.json"
  | .review_only_report => "ecorp-review-report.json"
  | .patch => "ecorp-deliverable.patch"

/-- The bytes of a deliverable, and their media type. -/
def serialize_deliverable (crates : Crates) (git : Git) (form : DeliverableForm)
    (lease : WorkspaceLease) (head_commit : Option String) (verification_sha256 : String)
    (patch : Bytes) (git_bundle : Option Bytes) (changes : List (String × String)) :
    Except String (Bytes × String) :=
  if form = .patch then pure (patch, "text/x-diff")
  else do
    let archived ← archive_changes crates git changes (includes_content form)
    return (crates.to_vec_pretty
      (document crates form lease head_commit verification_sha256 patch git_bundle archived),
      "application/vnd.ecorp.deliverable+json")

/-- `export_with_index`, from the filled index on; `report` is the serialised verification
report. -/
def export_with_index (crates : Crates) (git : Git) (spec : DeliverableSpec)
    (lease : WorkspaceLease)
    (report : Bytes) (write_scope : List String) (preserve_head_commit : Option String) :
    Except String ExportedDeliverable := do
  spec.paths.forM validate_relative
  let changes ← changed_paths git
  reject_out_of_scope_changes changes write_scope
  reject_unsafe_changes git changes
  let verification_sha256 := crates.digest report
  let head_commit ←
    commit_deliverable git spec lease verification_sha256 changes preserve_head_commit
  let patch ← git.diff
  let git_bundle ← bundle_deliverable git spec head_commit
  let (bytes, media_type) ← serialize_deliverable crates git spec.form lease head_commit
    verification_sha256 patch git_bundle changes
  ensure (bytes ≠ []) "deliverable export produced no bytes"
  ensure (bytes.length ≤ MAX_DELIVERABLE_BYTES)
    s!"deliverable size {bytes.length} exceeds the runner limit {MAX_DELIVERABLE_BYTES}"
  return {
    bytes, file_name := document_name spec.form, media_type, form := spec.form
    verification_sha256, base_commit := lease.base_commit, head_commit, branch := lease.branch
    git_bundle_sha256 := git_bundle.map crates.digest
    publication_ready := decide (spec.form = .commit_branch) }

end Crony.Runner
