/-
Workspace fingerprints and verification snapshots: `crony-runner/src/workspace.rs`, on Unix.

A fingerprint is the digest of a byte stream with one record for every file, directory and
symbolic link below the root, sorted by relative path; the top-level `.git` is left out. A
snapshot copies the same entries into a fresh directory. Both accept a symbolic link only if its
target, followed on the disk, ends inside the root.

A file yields exactly as many bytes as its metadata declare, so that one counter stands for the
two of the source, and no read deadline is set. Names and link targets are byte strings.
-/
import Mathlib.Data.List.Lex
import Crony.Encoding
import Crony.Lib.Framing
import Crony.Lib.Guard
import Crony.Lib.Listing
import Crony.Lib.Realpath
import Crony.Lib.Sort

set_option autoImplicit false

open Crony.Lib

namespace Crony.Runner

def dot_git : Name := [0x2E, 0x67, 0x69, 0x74]

/-- `is_git_control_path`. -/
def is_git_control_path (root path : List Name) : Bool :=
  root.isPrefixOf path && (path.drop root.length).head? == some dot_git

/-- `fs::read_link`. -/
def read_link (disk : Node) (path : List Name) : Option Bytes :=
  match disk.at path with
  | some (.link target) => some target
  | _ => none

/-- `validated_snapshot_symlink_target`: the target as it is written; where it ends is looked up
on the disk. -/
def validated_snapshot_symlink_target (disk : Node) (root source : List Name) :
    Except String Bytes := do
  let target ← context (read_link disk source) "read verifier snapshot symlink"
  ensure (target.head? ≠ some slash) "verifier snapshot symlink has an absolute target"
  let canonical ← context (canonicalize disk (source.dropLast ++ target.splitOn slash))
    "canonicalize verifier snapshot symlink target"
  ensure (root.isPrefixOf canonical = true ∧ is_git_control_path root canonical = false)
    "verifier snapshot symlink escapes the preserved workspace"
  return target

/-! ## Fingerprints -/

/-- `MAX_ENTRIES`, of a fingerprint and of a snapshot. -/
def MAX_ENTRIES : Nat := 100000

/-- `fingerprint_mode`. -/
def fingerprint_mode (mode : Nat) : Nat := mode &&& 0o7777

mutual

/-- `collect_fingerprint_entries` below the directory at `relative`. -/
def collect_fingerprint_entries (relative : List Name) :
    List (Name × Node) → List (List Name) → Except String (List (List Name))
  | [], entries => .ok entries
  | (name, node) :: rest, entries =>
    if is_git_control_path [] (relative ++ [name]) then
      collect_fingerprint_entries relative rest entries
    else do
      let entries := entries ++ [relative ++ [name]]
      ensure (entries.length ≤ MAX_ENTRIES) "workspace fingerprint exceeds 100000 entries"
      let entries ← collect_fingerprint_node (relative ++ [name]) node entries
      collect_fingerprint_entries relative rest entries

/-- Only directories are entered; a link to one is not. -/
def collect_fingerprint_node (relative : List Name) :
    Node → List (List Name) → Except String (List (List Name))
  | .dir _ below, entries => collect_fingerprint_entries relative below entries
  | .file _ _, entries => .ok entries
  | .link _, entries => .ok entries
  | .other, entries => .ok entries

end

/-- `portable_relative`. -/
def portable_relative (relative : List Name) : Except String Bytes := do
  ensure (∀ name ∈ relative, (from_utf8 name).isSome = true)
    "workspace fingerprint path is not UTF-8"
  return [slash].intercalate relative

/-- The order of texts is that of their bytes. -/
def text_order (text : Bytes) : List Nat := text.map UInt8.toNat

/-- `fingerprint_entries`. -/
def fingerprint_entries (root_entries : List (Name × Node)) :
    Except String (List (Bytes × List Name)) := do
  let paths ← collect_fingerprint_entries [] root_entries []
  let entries ← paths.mapM fun path => do return (← portable_relative path, path)
  return sort_by_key (fun entry => text_order entry.1) entries

/-- What has been hashed, and how many bytes the files have declared. -/
structure Hashing where
  stream : Bytes := []
  declared_bytes : Nat := 0

/-- The loop body of `fingerprint_workspace_with_limits`. -/
def fingerprint_entry (disk : Node) (root : List Name) (max_bytes : Option Nat) (state : Hashing)
    (entry : Bytes × List Name) : Except String Hashing :=
  let (relative, path) := entry
  match disk.at (root ++ path) with
  | some (.link _) => do
    let target ← validated_snapshot_symlink_target disk root (root ++ path)
    return { state with
      stream := state.stream ++ ([0x4C, 0] ++ relative ++ [0] ++ target ++ [0]) }
  | some (.dir mode _) =>
    .ok { state with
      stream := state.stream
        ++ ([0x44, 0] ++ relative ++ [0] ++ le_bytes 4 (fingerprint_mode mode)) }
  | some (.file mode content) => do
    let declared_bytes := state.declared_bytes + content.length
    ensure (declared_bytes < 2 ^ 64) "workspace fingerprint byte count overflow"
    ensure (∀ maximum ∈ max_bytes, declared_bytes ≤ maximum)
      "workspace checkpoint exceeds its byte limit"
    return {
      stream := state.stream ++ ([0x46, 0] ++ relative ++ [0] ++ le_bytes 4 (fingerprint_mode mode)
        ++ le_bytes 8 content.length ++ content ++ [0])
      declared_bytes }
  | some .other => .error "workspace fingerprint encountered unsupported entry"
  | none => .error "inspect workspace fingerprint path"

/-- The bytes `fingerprint_workspace_with_limits` feeds to the hash. -/
def fingerprint_stream (disk : Node) (root : List Name) (max_bytes : Option Nat) :
    Except String Bytes := do
  let root ← context (canonicalize disk root) "resolve workspace fingerprint root"
  match disk.at root with
  | some (.dir _ root_entries) => do
    let entries ← fingerprint_entries root_entries
    let state ← entries.foldlM (fingerprint_entry disk root max_bytes) {}
    return state.stream
  | _ => .error "read workspace fingerprint directory"

/-- `fingerprint_workspace_with_limits`. -/
def fingerprint_workspace_with_limits (crates : Crates) (disk : Node) (root : List Name)
    (max_bytes : Option Nat) : Except String String := do
  return crates.digest (← fingerprint_stream disk root max_bytes)

/-- `fingerprint_workspace`. -/
def fingerprint_workspace (crates : Crates) (disk : Node) (root : List Name) :
    Except String String :=
  fingerprint_workspace_with_limits crates disk root none

/-! ## Snapshots -/

/-- `MAX_BYTES` of a snapshot. -/
def MAX_SNAPSHOT_BYTES : Nat := 4 * 1024 * 1024 * 1024

/-- The counters of a copy. -/
structure Copied where
  entries : Nat := 0
  bytes : Nat := 0

mutual

/-- `copy_snapshot_directory`, from the directory at `relative` below the root into the one at
the same place below the destination. -/
def copy_snapshot_directory (root destination relative : List Name) :
    List (Name × Node) → Node → Copied → Except String (Node × Copied)
  | [], disk, copied => .ok (disk, copied)
  | (name, node) :: rest, disk, copied =>
    if is_git_control_path root (root ++ (relative ++ [name])) then
      copy_snapshot_directory root destination relative rest disk copied
    else do
      let copied := { copied with entries := copied.entries + 1 }
      ensure (copied.entries ≤ MAX_ENTRIES)
        "verifier-only workspace snapshot exceeds 100000 entries"
      let (disk, copied) ←
        copy_snapshot_entry root destination (relative ++ [name]) node disk copied
      copy_snapshot_directory root destination relative rest disk copied

/-- One entry. A link is copied as it is written; the mode of a directory is set after what it
holds has been copied. -/
def copy_snapshot_entry (root destination relative : List Name) :
    Node → Node → Copied → Except String (Node × Copied)
  | .link _, disk, copied => do
    let target ← validated_snapshot_symlink_target disk root (root ++ relative)
    let disk ← context (create disk (destination ++ relative) (.link target))
      "copy verifier snapshot symlink"
    return (disk, copied)
  | .dir mode entries, disk, copied => do
    let disk ← context (create disk (destination ++ relative) (.dir 0o755 []))
      "create verifier snapshot directory"
    let (disk, copied) ← copy_snapshot_directory root destination relative entries disk copied
    let disk ← context (set_mode disk mode (destination ++ relative))
      "preserve verifier snapshot directory permissions"
    return (disk, copied)
  | .file mode content, disk, copied => do
    let bytes := copied.bytes + content.length
    ensure (bytes < 2 ^ 64) "verifier-only workspace snapshot byte count overflowed"
    ensure (bytes ≤ MAX_SNAPSHOT_BYTES)
      "verifier-only workspace snapshot exceeds 4294967296 bytes"
    let disk ← context (create disk (destination ++ relative) (.file mode content))
      "copy verifier snapshot file"
    return (disk, { copied with bytes })
  | .other, _, _ => .error "verifier-only workspace snapshot encountered unsupported entry"

end

/-- `copy_workspace_snapshot` of the canonical path `root`: the disk with the copy. The parent
of the destination is canonical too. -/
def copy_workspace_snapshot (disk : Node) (root destination : List Name) : Except String Node := do
  ensure ((disk.at destination).isNone = true)
    "verifier-only workspace snapshot target already exists"
  let disk ← context (create disk destination (.dir 0o700 []))
    "create verifier-only workspace snapshot"
  match disk.at root with
  | some (.dir _ entries) => do
    let (disk, _) ← copy_snapshot_directory root destination [] entries disk {}
    return disk
  | _ => .error "read verifier snapshot directory"

/-- The part of `verification_snapshot` that copies: the root is canonicalized first. -/
def verification_snapshot (disk : Node) (root destination : List Name) : Except String Node := do
  let root ← context (canonicalize disk root) "canonicalize verifier-only source workspace"
  copy_workspace_snapshot disk root destination

end Crony.Runner
