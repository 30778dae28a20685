/-
Workspace fingerprints are injective and do not depend on the order of enumeration.

What is hashed is read off the code once (`fingerprint_stream_eq_ok`): the visible paths of the
tree, sorted, one record each. The records are self-delimiting, so the stream determines the
list of records; a record determines its path and what the path shows; and which paths there are
is a matter of the tree, not of its enumeration.
-/
import Mathlib.Algebra.Order.BigOperators.Group.List
import Mathlib.Algebra.Order.Ring.Nat
import Crony.Runner.Workspace

set_option autoImplicit false

open Crony.Lib

namespace Crony.Runner

/-! ## The paths that are hashed -/

/-- A path outside the top-level `.git`. -/
def visible (path : List Name) : Bool := !(path.head? == some dot_git)

/-- The visible paths below a directory. -/
def visible_paths (entries : List (Name × Node)) : List (List Name) :=
  (paths_below [] entries).filter visible

theorem is_git_control_path_nil (path : List Name) :
    is_git_control_path [] path = !visible path := by
  rw [is_git_control_path, visible, Bool.not_not, List.length_nil, List.drop_zero]
  cases path <;> rfl

mutual

theorem prefix_of_mem_paths_below (path : List Name) (entries : List (Name × Node)) (p : List Name)
    (h : p ∈ paths_below path entries) : ∃ name rest, p = path ++ name :: rest := by
  match entries, h with
  | (name, node) :: rest, h =>
    rw [paths_below, List.mem_cons, List.mem_append] at h
    rcases h with rfl | h | h
    · exact ⟨name, [], rfl⟩
    · obtain ⟨other, below, rfl⟩ := prefix_of_mem_paths_in (path ++ [name]) node p h
      exact ⟨name, other :: below, by simp⟩
    · exact prefix_of_mem_paths_below path rest p h

theorem prefix_of_mem_paths_in (path : List Name) (n : Node) (p : List Name)
    (h : p ∈ paths_in path n) : ∃ name rest, p = path ++ name :: rest := by
  match n, h with
  | .dir _ entries, h =>
    rw [paths_in] at h
    exact prefix_of_mem_paths_below path entries p h

end

/-- What is below an invisible path is invisible. -/
theorem filter_paths_in_of_not_visible {path : List Name} {n : Node} (hne : path ≠ [])
    (h : visible path = false) : (paths_in path n).filter visible = [] := by
  rw [List.filter_eq_nil_iff]
  intro p hp hvisible
  obtain ⟨name, rest, rfl⟩ := prefix_of_mem_paths_in path n p hp
  obtain ⟨first, path, rfl⟩ := List.exists_cons_of_ne_nil hne
  rw [visible] at h hvisible
  rw [List.cons_append, List.head?_cons] at hvisible
  rw [List.head?_cons] at h
  rw [h] at hvisible
  cases hvisible

mutual

/-- **The collection** has the visible paths, in the order of enumeration, if they are not too
many. -/
theorem collect_fingerprint_entries_eq_ok (relative : List Name) (entries : List (Name × Node))
    (found result : List (List Name)) (hfound : found.length ≤ MAX_ENTRIES) :
    collect_fingerprint_entries relative entries found = .ok result ↔
      result = found ++ (paths_below relative entries).filter visible
        ∧ result.length ≤ MAX_ENTRIES := by
  match entries with
  | [] =>
    rw [collect_fingerprint_entries, paths_below, List.filter_nil, List.append_nil]
    constructor
    · rintro ⟨⟩
      exact ⟨rfl, hfound⟩
    · rintro ⟨rfl, -⟩
      rfl
  | (name, node) :: rest =>
    rw [collect_fingerprint_entries, is_git_control_path_nil, paths_below]
    by_cases hvisible : visible (relative ++ [name]) = true
    · rw [hvisible, List.filter_cons_of_pos hvisible, List.filter_append, if_neg (by simp)]
      simp only [bind_eq_ok, ensure_eq_ok]
      constructor
      · rintro ⟨_, hone, below, hbelow, hrest⟩
        obtain ⟨rfl, hlen⟩ :=
          (collect_fingerprint_node_eq_ok (relative ++ [name]) node _ below hone).mp hbelow
        obtain ⟨rfl, hlen⟩ := (collect_fingerprint_entries_eq_ok relative rest _ result hlen).mp
          hrest
        exact ⟨by simp, hlen⟩
      · rintro ⟨rfl, hlen⟩
        simp only [List.length_append, List.length_cons] at hlen
        have hone : (found ++ [relative ++ [name]]).length ≤ MAX_ENTRIES := by
          rw [List.length_append, List.length_singleton]
          omega
        have hbelow : (found ++ [relative ++ [name]]
            ++ (paths_in (relative ++ [name]) node).filter visible).length ≤ MAX_ENTRIES := by
          rw [List.length_append, List.length_append, List.length_singleton]
          omega
        refine ⟨(), hone, _,
          (collect_fingerprint_node_eq_ok (relative ++ [name]) node _ _ hone).mpr ⟨rfl, hbelow⟩,
          (collect_fingerprint_entries_eq_ok relative rest _ _ hbelow).mpr ⟨by simp, ?_⟩⟩
        simp only [List.length_append, List.length_cons]
        omega
    · -- the control directory is skipped, with everything below it
      have hvisible : visible (relative ++ [name]) = false := by simpa using hvisible
      have hbelow := filter_paths_in_of_not_visible (n := node)
        (List.append_ne_nil_of_right_ne_nil relative (List.cons_ne_nil name [])) hvisible
      rw [hvisible, List.filter_cons_of_neg (by simp [hvisible]), List.filter_append, hbelow,
        List.nil_append, Bool.not_false, if_pos rfl]
      exact collect_fingerprint_entries_eq_ok relative rest found result hfound

theorem collect_fingerprint_node_eq_ok (relative : List Name) (node : Node)
    (found result : List (List Name)) (hfound : found.length ≤ MAX_ENTRIES) :
    collect_fingerprint_node relative node found = .ok result ↔
      result = found ++ (paths_in relative node).filter visible ∧ result.length ≤ MAX_ENTRIES := by
  match node with
  | .dir _ entries =>
    rw [collect_fingerprint_node, paths_in]
    exact collect_fingerprint_entries_eq_ok relative entries found result hfound
  | .file _ _ | .link _ | .other =>
    rw [collect_fingerprint_node, paths_in, List.filter_nil, List.append_nil]
    constructor
    · rintro ⟨⟩
      exact ⟨rfl, hfound⟩
    · rintro ⟨rfl, -⟩
      rfl

end

/-! ## The entries -/

/-- All names of the path are UTF-8. -/
def Portable (path : List Name) : Prop := ∀ name ∈ path, (from_utf8 name).isSome = true

instance (path : List Name) : Decidable (Portable path) :=
  inferInstanceAs (Decidable (∀ name ∈ path, (from_utf8 name).isSome = true))

/-- The path as the stream has it. -/
def relative_text (path : List Name) : Bytes := [slash].intercalate path

/-- An entry with its path. -/
def entry_of (path : List Name) : Bytes × List Name := (relative_text path, path)

theorem portable_relative_eq_ok {path : List Name} {text : Bytes} :
    portable_relative path = .ok text ↔ Portable path ∧ text = relative_text path := by
  rw [portable_relative]
  simp only [bind_eq_ok, ensure_eq_ok, pure_eq_ok]
  constructor
  · rintro ⟨_, hportable, rfl⟩
    exact ⟨hportable, rfl⟩
  · rintro ⟨hportable, rfl⟩
    exact ⟨(), hportable, rfl⟩

theorem mapM_portable_eq_ok {paths : List (List Name)} {entries : List (Bytes × List Name)} :
    (paths.mapM fun path => do return (← portable_relative path, path)) = Except.ok
      (ε := String) entries ↔
      (∀ path ∈ paths, Portable path) ∧ entries = paths.map entry_of := by
  induction paths generalizing entries with
  | nil =>
    simp only [List.mapM_nil, pure_eq_ok, List.map_nil, List.not_mem_nil, false_implies,
      implies_true, true_and]
    exact eq_comm
  | cons path paths ih =>
    simp only [List.mapM_cons, bind_eq_ok, pure_eq_ok, portable_relative_eq_ok, ih]
    constructor
    · rintro ⟨_, ⟨_, ⟨hpath, rfl⟩, rfl⟩, _, ⟨hpaths, rfl⟩, rfl⟩
      exact ⟨List.forall_mem_cons.mpr ⟨hpath, hpaths⟩, rfl⟩
    · rintro ⟨hall, rfl⟩
      obtain ⟨hpath, hpaths⟩ := List.forall_mem_cons.mp hall
      exact ⟨_, ⟨_, ⟨hpath, rfl⟩, rfl⟩, _, ⟨hpaths, rfl⟩, rfl⟩

/-- The entries, sorted by their texts. -/
def sorted_entries (paths : List (List Name)) : List (Bytes × List Name) :=
  sort_by_key (fun entry => text_order entry.1) (paths.map entry_of)

theorem fingerprint_entries_eq_ok {root_entries : List (Name × Node)}
    {entries : List (Bytes × List Name)} :
    fingerprint_entries root_entries = .ok entries ↔
      (visible_paths root_entries).length ≤ MAX_ENTRIES
        ∧ (∀ path ∈ visible_paths root_entries, Portable path)
        ∧ entries = sorted_entries (visible_paths root_entries) := by
  have hzero : ([] : List (List Name)).length ≤ MAX_ENTRIES := Nat.zero_le _
  rw [fingerprint_entries]
  simp only [bind_eq_ok, pure_eq_ok,
    collect_fingerprint_entries_eq_ok [] root_entries [] _ hzero, List.nil_append]
  constructor
  · rintro ⟨_, ⟨rfl, hlen⟩, entries', hentries, rfl⟩
    obtain ⟨hportable, rfl⟩ := mapM_portable_eq_ok.mp hentries
    exact ⟨hlen, hportable, rfl⟩
  · rintro ⟨hlen, hportable, rfl⟩
    exact ⟨_, ⟨rfl, hlen⟩, _, mapM_portable_eq_ok.mpr ⟨hportable, rfl⟩, rfl⟩

/-! ## The stream -/

/-- The mode as the stream has it. -/
def portable_shape : Shape → Shape
  | .file mode content => .file (fingerprint_mode mode) content
  | .dir mode => .dir (fingerprint_mode mode)
  | .link target => .link target
  | .other => .other

/-- The record of an entry: its kind, its path, and what the path shows. -/
def record : Bytes × Shape → Bytes
  | (text, .link target) => [0x4C, 0] ++ text ++ [0] ++ target ++ [0]
  | (text, .dir mode) => [0x44, 0] ++ text ++ [0] ++ le_bytes 4 mode
  | (text, .file mode content) =>
    [0x46, 0] ++ text ++ [0] ++ le_bytes 4 mode ++ le_bytes 8 content.length ++ content ++ [0]
  | (_, .other) => []

/-- The bytes a path counts for. -/
def declared : Option Shape → Nat
  | some (.file _ content) => content.length
  | _ => 0

/-- What is at the path of an entry is hashed: a link has to end inside the root. -/
def Hashed (disk : Node) (root path : List Name) : Prop :=
  ∃ shape, look disk (root ++ path) = some shape ∧ shape ≠ .other
    ∧ ∀ target, shape = .link target →
        validated_snapshot_symlink_target disk root (root ++ path) = .ok target

/-- A number of bytes within the limits. -/
def Fits (max_bytes : Option Nat) (bytes : Nat) : Prop :=
  bytes < 2 ^ 64 ∧ ∀ maximum ∈ max_bytes, bytes ≤ maximum

theorem Fits.mono {max_bytes : Option Nat} {a b : Nat} (h : Fits max_bytes b) (hab : a ≤ b) :
    Fits max_bytes a :=
  ⟨Nat.lt_of_le_of_lt hab h.1, fun maximum hmax => Nat.le_trans hab (h.2 maximum hmax)⟩

/-- What is written for an entry. -/
def item (disk : Node) (root : List Name) (entry : Bytes × List Name) : Bytes × Shape :=
  (entry.1, portable_shape ((look disk (root ++ entry.2)).getD .other))

/-- A validated target is the one the link has. -/
theorem target_of_validated {disk : Node} {root source : List Name} {target : Bytes}
    (h : validated_snapshot_symlink_target disk root source = .ok target) :
    disk.at source = some (.link target) := by
  rw [validated_snapshot_symlink_target] at h
  simp only [bind_eq_ok, ensure_eq_ok, context_eq_ok, pure_eq_ok] at h
  obtain ⟨target', hread, _, -, _, -, _, -, rfl⟩ := h
  rw [read_link] at hread
  split at hread
  · injection hread with hread
    rw [← hread]
    assumption
  · cases hread

/-- **One entry.** -/
theorem fingerprint_entry_eq_ok {disk : Node} {root : List Name} {max_bytes : Option Nat}
    {state result : Hashing} {entry : Bytes × List Name}
    (hstate : Fits max_bytes state.declared_bytes) :
    fingerprint_entry disk root max_bytes state entry = .ok result ↔
      Hashed disk root entry.2
        ∧ Fits max_bytes (state.declared_bytes + declared (look disk (root ++ entry.2)))
        ∧ result = { stream := state.stream ++ record (item disk root entry)
                     declared_bytes :=
                       state.declared_bytes + declared (look disk (root ++ entry.2)) } := by
  obtain ⟨text, path⟩ := entry
  rw [fingerprint_entry, Hashed, item, look]
  cases hat : disk.at (root ++ path) with
  | none => simp
  | some n =>
    cases n with
    | link target =>
      simp only [Option.map_some, Node.shape, declared, Nat.add_zero, Option.getD_some,
        portable_shape, record, bind_eq_ok, pure_eq_ok]
      constructor
      · rintro ⟨target', hvalid, rfl⟩
        have hsame := target_of_validated hvalid
        rw [hat] at hsame
        injection hsame with hsame
        injection hsame with hsame
        subst hsame
        exact ⟨⟨_, rfl, by simp, fun t ht => by injection ht with ht; rw [← ht]; exact hvalid⟩,
          hstate, rfl⟩
      · rintro ⟨⟨_, hshape, -, hvalid⟩, -, rfl⟩
        injection hshape with hshape
        exact ⟨target, hvalid target hshape.symm, rfl⟩
    | dir mode entries =>
      simp only [Option.map_some, Node.shape, declared, Nat.add_zero, Option.getD_some,
        portable_shape, record]
      constructor
      · rintro ⟨⟩
        exact ⟨⟨_, rfl, by simp, fun t ht => by cases ht⟩, hstate, rfl⟩
      · rintro ⟨-, -, rfl⟩
        rfl
    | file mode content =>
      simp only [Option.map_some, Node.shape, declared, Option.getD_some, portable_shape, record,
        bind_eq_ok, ensure_eq_ok, pure_eq_ok]
      constructor
      · rintro ⟨_, hlt, _, hle, rfl⟩
        exact ⟨⟨_, rfl, by simp, fun t ht => by cases ht⟩, ⟨hlt, hle⟩, rfl⟩
      · rintro ⟨-, ⟨hlt, hle⟩, rfl⟩
        exact ⟨(), hlt, (), hle, rfl⟩
    | other =>
      simp only [Option.map_some, Node.shape, reduceCtorEq, false_iff]
      rintro ⟨⟨_, hshape, hother, -⟩, -⟩
      injection hshape with hshape
      exact hother hshape.symm

/-- The bytes the files of the entries declare. -/
def total (disk : Node) (root : List Name) (entries : List (Bytes × List Name)) : Nat :=
  (entries.map fun entry => declared (look disk (root ++ entry.2))).sum

/-- **All entries.** -/
theorem foldlM_fingerprint_entry_eq_ok {disk : Node} {root : List Name} {max_bytes : Option Nat}
    {entries : List (Bytes × List Name)} {state result : Hashing}
    (hstate : Fits max_bytes state.declared_bytes) :
    entries.foldlM (fingerprint_entry disk root max_bytes) state = .ok result ↔
      (∀ entry ∈ entries, Hashed disk root entry.2)
        ∧ Fits max_bytes (state.declared_bytes + total disk root entries)
        ∧ result = { stream := state.stream ++ entries.flatMap fun e => record (item disk root e)
                     declared_bytes := state.declared_bytes + total disk root entries } := by
  induction entries generalizing state with
  | nil =>
    simp only [List.foldlM_nil, pure_eq_ok, List.flatMap_nil, List.append_nil, total, List.map_nil,
      List.sum_nil, Nat.add_zero, List.not_mem_nil, false_implies, implies_true, true_and]
    constructor
    · rintro rfl
      exact ⟨hstate, rfl⟩
    · rintro ⟨-, rfl⟩
      rfl
  | cons entry entries ih =>
    simp only [List.foldlM_cons, bind_eq_ok, fingerprint_entry_eq_ok hstate, List.flatMap_cons,
      total, List.map_cons, List.sum_cons]
    constructor
    · rintro ⟨_, ⟨hentry, hfits, rfl⟩, hrest⟩
      obtain ⟨hentries, htotal, rfl⟩ := (ih hfits).mp hrest
      refine ⟨List.forall_mem_cons.mpr ⟨hentry, hentries⟩, ?_, ?_⟩
      · rw [← Nat.add_assoc]
        exact htotal
      · rw [← Nat.add_assoc, ← List.append_assoc]
        rfl
    · rintro ⟨hall, htotal, rfl⟩
      obtain ⟨hentry, hentries⟩ := List.forall_mem_cons.mp hall
      have htotal : Fits max_bytes (state.declared_bytes + declared (look disk (root ++ entry.2))
          + total disk root entries) := by
        rw [Nat.add_assoc]
        exact htotal
      have hfits := htotal.mono (Nat.le_add_right _ _)
      refine ⟨_, ⟨hentry, hfits, rfl⟩, (ih hfits).mpr ⟨hentries, htotal, ?_⟩⟩
      rw [List.append_assoc, Nat.add_assoc]
      rfl

/-- **What is hashed.** The fingerprint succeeds exactly when the root is a directory, the
visible paths are not too many, are UTF-8, can be hashed and stay within the byte limits; it is
taken of the records of the sorted entries. -/
structure Fingerprinted (disk : Node) (root : List Name) (max_bytes : Option Nat)
    (canonical : List Name) (mode : Nat) (entries : List (Name × Node)) : Prop where
  resolved : canonicalize disk root = some canonical
  directory : disk.at canonical = some (.dir mode entries)
  count : (visible_paths entries).length ≤ MAX_ENTRIES
  portable : ∀ path ∈ visible_paths entries, Portable path
  hashed : ∀ path ∈ visible_paths entries, Hashed disk canonical path
  fits : Fits max_bytes (total disk canonical (sorted_entries (visible_paths entries)))

theorem mem_sorted_entries {paths : List (List Name)} {entry : Bytes × List Name} :
    entry ∈ sorted_entries paths ↔ ∃ path ∈ paths, entry_of path = entry := by
  rw [sorted_entries, mem_sort_by_key, List.mem_map]

theorem fingerprint_stream_eq_ok {disk : Node} {root : List Name} {max_bytes : Option Nat}
    {stream : Bytes} (hmax : Fits max_bytes 0) :
    fingerprint_stream disk root max_bytes = .ok stream ↔
      ∃ canonical mode entries, Fingerprinted disk root max_bytes canonical mode entries
        ∧ stream = ((sorted_entries (visible_paths entries)).map (item disk canonical)).flatMap
          record := by
  rw [fingerprint_stream, bind_eq_ok]
  simp only [context_eq_ok]
  constructor
  · rintro ⟨canonical, hcanonical, h⟩
    split at h
    · rename_i mode entries hat
      simp only [bind_eq_ok, fingerprint_entries_eq_ok, pure_eq_ok] at h
      obtain ⟨_, ⟨hcount, hportable, rfl⟩, state, hfold, rfl⟩ := h
      obtain ⟨hhashed, hfits, rfl⟩ := (foldlM_fingerprint_entry_eq_ok hmax).mp hfold
      refine ⟨canonical, mode, entries, ⟨hcanonical, hat, hcount, hportable, ?_, ?_⟩, ?_⟩
      · exact fun path hpath => hhashed (entry_of path) (mem_sorted_entries.mpr ⟨path, hpath, rfl⟩)
      · rwa [Nat.zero_add] at hfits
      · rw [List.flatMap_map]
        rfl
    · cases h
  · rintro ⟨canonical, mode, entries, h, rfl⟩
    refine ⟨canonical, h.resolved, ?_⟩
    rw [h.directory]
    simp only [bind_eq_ok, fingerprint_entries_eq_ok, pure_eq_ok]
    refine ⟨_, ⟨h.count, h.portable, rfl⟩, _, (foldlM_fingerprint_entry_eq_ok hmax).mpr
      ⟨?_, ?_, rfl⟩, ?_⟩
    · intro entry hentry
      obtain ⟨path, hpath, rfl⟩ := mem_sorted_entries.mp hentry
      exact h.hashed path hpath
    · rw [Nat.zero_add]
      exact h.fits
    · rw [List.flatMap_map]
      rfl

theorem fits_zero (max_bytes : Option Nat) : Fits max_bytes 0 :=
  ⟨by decide, fun _ _ => Nat.zero_le _⟩

/-! ## Reading the stream back -/

/-- A record that can be read back. -/
def Readable : Bytes × Shape → Prop
  | (text, .link target) => 0 ∉ text ∧ 0 ∉ target
  | (text, .dir mode) => 0 ∉ text ∧ mode < 256 ^ 4
  | (text, .file mode content) => 0 ∉ text ∧ mode < 256 ^ 4 ∧ content.length < 256 ^ 8
  | (_, .other) => False

theorem record_ne_nil {i : Bytes × Shape} (h : Readable i) : record i ≠ [] := by
  obtain ⟨text, shape⟩ := i
  cases shape with
  | other => exact absurd h id
  | link | dir | file => simp [record]

/-- A text and its terminator, and what follows. -/
theorem terminated_inj {a b r s : Bytes} (ha : 0 ∉ a) (hb : 0 ∉ b)
    (h : a ++ ([0] ++ r) = b ++ ([0] ++ s)) : a = b ∧ r = s := by
  rw [← List.append_assoc, ← List.append_assoc] at h
  exact Delimited.terminated 0 a b r s ha hb h

/-- A fixed-width number, and what follows. -/
theorem le_bytes_append_inj {width m n : Nat} {r s : Bytes} (hm : m < 256 ^ width)
    (hn : n < 256 ^ width) (h : le_bytes width m ++ r = le_bytes width n ++ s) : m = n ∧ r = s :=
  Delimited.of_length (length_le_bytes width) (fun _ _ ha hb => le_bytes_inj ha hb) m n r s hm hn h

/-- **Records are self-delimiting.** -/
theorem delimited_record : Delimited Readable record := by
  rintro ⟨text, shape⟩ ⟨text', shape'⟩ r s ha hb h
  cases shape with
  | other => exact absurd ha id
  | link target =>
    cases shape' with
    | other => exact absurd hb id
    | dir | file => simp [record] at h
    | link target' =>
      simp only [record, List.append_assoc, List.append_cancel_left_eq] at h
      obtain ⟨rfl, htarget⟩ := terminated_inj ha.1 hb.1 h
      obtain ⟨rfl, hrest⟩ := terminated_inj ha.2 hb.2 htarget
      exact ⟨rfl, hrest⟩
  | dir mode =>
    cases shape' with
    | other => exact absurd hb id
    | link | file => simp [record] at h
    | dir mode' =>
      simp only [record, List.append_assoc, List.append_cancel_left_eq] at h
      obtain ⟨rfl, hmode⟩ := terminated_inj ha.1 hb.1 h
      obtain ⟨rfl, hrest⟩ := le_bytes_append_inj ha.2 hb.2 hmode
      exact ⟨rfl, hrest⟩
  | file mode content =>
    cases shape' with
    | other => exact absurd hb id
    | link | dir => simp [record] at h
    | file mode' content' =>
      simp only [record, List.append_assoc, List.append_cancel_left_eq] at h
      obtain ⟨rfl, hmode⟩ := terminated_inj ha.1 hb.1 h
      obtain ⟨rfl, hcount⟩ := le_bytes_append_inj ha.2.1 hb.2.1 hmode
      -- the length says where the content ends
      obtain ⟨hlength, hcontent⟩ := le_bytes_append_inj ha.2.2 hb.2.2 hcount
      obtain ⟨rfl, hrest⟩ := List.append_inj hcontent hlength
      exact ⟨rfl, List.append_cancel_left hrest⟩

/-! ## The tree below a root -/

/-- What a path below the root shows, with the mode as the stream has it. -/
def shown (disk : Node) (root path : List Name) : Option Shape :=
  (look disk (root ++ path)).map portable_shape

/-- **The same tree apart from `.git`.** The same paths below the roots, showing the same. -/
def SameTree (disk₁ : Node) (root₁ : List Name) (disk₂ : Node) (root₂ : List Name) : Prop :=
  ∀ path, path ≠ [] → visible path = true → shown disk₁ root₁ path = shown disk₂ root₂ path

section

variable {disk : Node} {root canonical : List Name} {max_bytes : Option Nat} {mode : Nat}
  {entries : List (Name × Node)}

/-- The paths that are hashed are the visible ones that show something. -/
theorem mem_visible_paths (hdisk : disk.Valid) (h : disk.at canonical = some (.dir mode entries))
    {path : List Name} :
    path ∈ visible_paths entries ↔
      path ≠ [] ∧ visible path = true ∧ (shown disk canonical path).isSome = true := by
  have hlook : (shown disk canonical path).isSome = ((Node.dir mode entries).at path).isSome := by
    rw [shown, Option.isSome_map, look_append disk canonical path h, look_isSome]
  rw [visible_paths, List.mem_filter, mem_paths_below [] entries (hdisk.at h), hlook]
  constructor
  · rintro ⟨⟨q, hne, rfl, hat⟩, hvisible⟩
    exact ⟨hne, hvisible, hat⟩
  · rintro ⟨hne, hvisible, hat⟩
    exact ⟨⟨path, hne, rfl, hat⟩, hvisible⟩

theorem nodup_visible_paths (hdisk : disk.Valid)
    (h : disk.at canonical = some (.dir mode entries)) :
    (visible_paths entries).Nodup :=
  (nodup_paths_below [] entries (hdisk.at h)).filter _

/-- The names of a path that is hashed are valid. -/
theorem validName_of_mem (hdisk : disk.Valid) (h : disk.at canonical = some (.dir mode entries))
    {path : List Name} (hpath : path ∈ visible_paths entries) : ∀ name ∈ path, ValidName name := by
  have hshown := ((mem_visible_paths hdisk h).mp hpath).2.2
  rw [shown, Option.isSome_map, look_append disk canonical path h, look_isSome,
    Option.isSome_iff_exists] at hshown
  obtain ⟨m, hm⟩ := hshown
  exact (hdisk.at h).names_at hm

/-- What is written for a path that is hashed. -/
theorem item_of_mem (hdisk : disk.Valid) (h : disk.at canonical = some (.dir mode entries))
    {path : List Name} (hpath : path ∈ visible_paths entries) :
    shown disk canonical path = some (item disk canonical (entry_of path)).2 := by
  obtain ⟨shape, hshape⟩ := Option.isSome_iff_exists.mp ((mem_visible_paths hdisk h).mp hpath).2.2
  rw [shown, Option.map_eq_some_iff] at hshape
  obtain ⟨raw, hraw, -⟩ := hshape
  rw [shown, item, entry_of, hraw]
  rfl

end

/-- Paths of valid names are told apart by their texts. -/
theorem relative_text_inj {p q : List Name} (hp : ∀ name ∈ p, ValidName name)
    (hq : ∀ name ∈ q, ValidName name) (hpne : p ≠ []) (hqne : q ≠ [])
    (h : relative_text p = relative_text q) : p = q := by
  have hsplit := congrArg (List.splitOn slash) h
  rwa [relative_text, relative_text,
    List.splitOn_intercalate slash (fun name hname => (hp name hname).slash) hpne,
    List.splitOn_intercalate slash (fun name hname => (hq name hname).slash) hqne] at hsplit

theorem text_order_inj {a b : Bytes} (h : text_order a = text_order b) : a = b :=
  List.map_injective_iff.mpr (fun _ _ hxy => UInt8.toNat_inj.mp hxy) h

section

variable {disk : Node} {root canonical : List Name} {max_bytes : Option Nat} {mode : Nat}
  {entries : List (Name × Node)}

theorem nul_notMem_relative_text {path : List Name} (h : ∀ name ∈ path, ValidName name) :
    0 ∉ relative_text path := by
  intro hmem
  rcases eq_or_mem_of_mem_intercalate hmem with hslash | ⟨name, hname, hnul⟩
  · exact absurd hslash (by decide)
  · exact (h name hname).nul hnul

/-- What is written can be read back. -/
theorem readable_item (hdisk : disk.Valid)
    (h : Fingerprinted disk root max_bytes canonical mode entries) {path : List Name}
    (hpath : path ∈ visible_paths entries) : Readable (item disk canonical (entry_of path)) := by
  obtain ⟨shape, hlook, hother, -⟩ := h.hashed path hpath
  have htext := nul_notMem_relative_text (validName_of_mem hdisk h.directory hpath)
  have hmode : ∀ m, fingerprint_mode m < 256 ^ 4 := by
    intro m
    have hle : fingerprint_mode m ≤ 0o7777 := Nat.and_le_right
    exact Nat.lt_of_le_of_lt hle (by decide)
  rw [item, entry_of, hlook, Option.getD_some]
  cases shape with
  | other => exact absurd rfl hother
  | link target => exact ⟨htext, hdisk.targets _ target (look_eq_link.mp hlook)⟩
  | dir m => exact ⟨htext, hmode m⟩
  | file m content =>
    refine ⟨htext, hmode m, ?_⟩
    -- a single file declares no more than all of them
    have hmem : entry_of path ∈ sorted_entries (visible_paths entries) :=
      mem_sorted_entries.mpr ⟨path, hpath, rfl⟩
    have hle : declared (look disk (canonical ++ (entry_of path).2))
        ≤ total disk canonical (sorted_entries (visible_paths entries)) :=
      List.single_le_sum (fun _ _ => Nat.zero_le _) _ (List.mem_map_of_mem hmem)
    have hlt := Nat.lt_of_le_of_lt hle h.fits.1
    rw [entry_of, hlook] at hlt
    exact Nat.lt_of_lt_of_le hlt (by decide)

/-- Every item of the stream is of a visible path, with what it shows. -/
theorem mem_items (hdisk : disk.Valid) (h : disk.at canonical = some (.dir mode entries))
    {i : Bytes × Shape} :
    i ∈ (sorted_entries (visible_paths entries)).map (item disk canonical) ↔
      ∃ path ∈ visible_paths entries, i.1 = relative_text path
        ∧ shown disk canonical path = some i.2 := by
  rw [List.mem_map]
  constructor
  · rintro ⟨entry, hentry, rfl⟩
    obtain ⟨path, hpath, rfl⟩ := mem_sorted_entries.mp hentry
    exact ⟨path, hpath, rfl, item_of_mem hdisk h hpath⟩
  · rintro ⟨path, hpath, htext, hshown⟩
    refine ⟨entry_of path, mem_sorted_entries.mpr ⟨path, hpath, rfl⟩, ?_⟩
    have hitem := item_of_mem hdisk h hpath
    rw [hshown] at hitem
    injection hitem with hitem
    exact Prod.ext htext.symm hitem.symm

end

section

variable {disk₁ disk₂ : Node} {canonical₁ canonical₂ : List Name} {mode₁ mode₂ : Nat}
  {entries₁ entries₂ : List (Name × Node)}

/-- What the first tree shows, the second does, if the items are the same. -/
theorem shown_of_items (hdisk₁ : disk₁.Valid) (hdisk₂ : disk₂.Valid)
    (h₁ : disk₁.at canonical₁ = some (.dir mode₁ entries₁))
    (h₂ : disk₂.at canonical₂ = some (.dir mode₂ entries₂))
    (hitems : (sorted_entries (visible_paths entries₁)).map (item disk₁ canonical₁)
      = (sorted_entries (visible_paths entries₂)).map (item disk₂ canonical₂))
    {path : List Name} (hne : path ≠ []) (hvisible : visible path = true) {shape : Shape}
    (hshown : shown disk₁ canonical₁ path = some shape) :
    shown disk₂ canonical₂ path = some shape := by
  have hpath : path ∈ visible_paths entries₁ :=
    (mem_visible_paths hdisk₁ h₁).mpr ⟨hne, hvisible, by rw [hshown]; rfl⟩
  have hitem : (relative_text path, shape)
      ∈ (sorted_entries (visible_paths entries₁)).map (item disk₁ canonical₁) :=
    (mem_items hdisk₁ h₁).mpr ⟨path, hpath, rfl, hshown⟩
  rw [hitems] at hitem
  obtain ⟨other, hother, htext, hsame⟩ := (mem_items hdisk₂ h₂).mp hitem
  have heq : path = other :=
    relative_text_inj (validName_of_mem hdisk₁ h₁ hpath) (validName_of_mem hdisk₂ h₂ hother) hne
      ((mem_visible_paths hdisk₂ h₂).mp hother).1 htext
  rw [heq]
  exact hsame

/-- The visible paths of the same tree, in whatever order they are enumerated. -/
theorem visible_paths_perm (hdisk₁ : disk₁.Valid) (hdisk₂ : disk₂.Valid)
    (h₁ : disk₁.at canonical₁ = some (.dir mode₁ entries₁))
    (h₂ : disk₂.at canonical₂ = some (.dir mode₂ entries₂))
    (hsame : SameTree disk₁ canonical₁ disk₂ canonical₂) :
    (visible_paths entries₁).Perm (visible_paths entries₂) := by
  rw [List.perm_ext_iff_of_nodup (nodup_visible_paths hdisk₁ h₁) (nodup_visible_paths hdisk₂ h₂)]
  intro path
  rw [mem_visible_paths hdisk₁ h₁, mem_visible_paths hdisk₂ h₂]
  constructor
  · rintro ⟨hne, hvisible, hshown⟩
    exact ⟨hne, hvisible, hsame path hne hvisible ▸ hshown⟩
  · rintro ⟨hne, hvisible, hshown⟩
    exact ⟨hne, hvisible, (hsame path hne hvisible).symm ▸ hshown⟩

/-- **Order.** The same tree is sorted to the same entries. -/
theorem sorted_entries_eq (hdisk₁ : disk₁.Valid) (hdisk₂ : disk₂.Valid)
    (h₁ : disk₁.at canonical₁ = some (.dir mode₁ entries₁))
    (h₂ : disk₂.at canonical₂ = some (.dir mode₂ entries₂))
    (hsame : SameTree disk₁ canonical₁ disk₂ canonical₂) :
    sorted_entries (visible_paths entries₁) = sorted_entries (visible_paths entries₂) := by
  refine sort_by_key_congr ((visible_paths_perm hdisk₁ hdisk₂ h₁ h₂ hsame).map entry_of) ?_
  intro a ha b hb hkey
  obtain ⟨p, hp, rfl⟩ := List.mem_map.mp ha
  obtain ⟨q, hq, rfl⟩ := List.mem_map.mp hb
  have htext : relative_text p = relative_text q := text_order_inj hkey
  rw [relative_text_inj (validName_of_mem hdisk₁ h₁ hp) (validName_of_mem hdisk₁ h₁ hq)
    ((mem_visible_paths hdisk₁ h₁).mp hp).1 ((mem_visible_paths hdisk₁ h₁).mp hq).1 htext]

/-- The same tree has the same items. -/
theorem items_eq (hdisk₁ : disk₁.Valid) (hdisk₂ : disk₂.Valid)
    (h₁ : disk₁.at canonical₁ = some (.dir mode₁ entries₁))
    (h₂ : disk₂.at canonical₂ = some (.dir mode₂ entries₂))
    (hsame : SameTree disk₁ canonical₁ disk₂ canonical₂) :
    (sorted_entries (visible_paths entries₁)).map (item disk₁ canonical₁)
      = (sorted_entries (visible_paths entries₂)).map (item disk₂ canonical₂) := by
  rw [← sorted_entries_eq hdisk₁ hdisk₂ h₁ h₂ hsame]
  apply List.map_congr_left
  intro entry hentry
  obtain ⟨path, hpath, rfl⟩ := mem_sorted_entries.mp hentry
  have hpath₂ : path ∈ visible_paths entries₂ :=
    (visible_paths_perm hdisk₁ hdisk₂ h₁ h₂ hsame).mem_iff.mp hpath
  obtain ⟨hne, hvisible, -⟩ := (mem_visible_paths hdisk₁ h₁).mp hpath
  have hshown := hsame path hne hvisible
  rw [item_of_mem hdisk₁ h₁ hpath, item_of_mem hdisk₂ h₂ hpath₂] at hshown
  injection hshown with hshown
  exact Prod.ext rfl hshown

end

/-- Two enumerations of one disk accept the same links. -/
theorem validated_congr {disk disk' : Node} (h : ∀ path, look disk path = look disk' path)
    (root source : List Name) :
    validated_snapshot_symlink_target disk root source
      = validated_snapshot_symlink_target disk' root source := by
  have hread : read_link disk source = read_link disk' source := by
    have hsource := h source
    rw [read_link, read_link]
    cases hat : disk.at source with
    | none =>
      rw [look, hat, look] at hsource
      cases hat' : disk'.at source with
      | none => rfl
      | some n =>
        rw [hat'] at hsource
        cases hsource
    | some n =>
      rw [look, hat, look] at hsource
      cases hat' : disk'.at source with
      | none =>
        rw [hat'] at hsource
        cases hsource
      | some m =>
        rw [hat'] at hsource
        have hshape : n.shape = m.shape := by simpa using hsource
        cases n <;> cases m <;> cases hshape <;> rfl
  have hcanonical : ∀ path, canonicalize disk path = canonicalize disk' path := fun path =>
    resolve_congr h MAXSYMLINKS [] path
  rw [validated_snapshot_symlink_target, validated_snapshot_symlink_target, hread]
  simp only [hcanonical]

/-- **Enumeration.** However its directories are enumerated, a disk has the same stream. -/
theorem fingerprint_stream_of_look {disk disk' : Node} {root : List Name}
    {max_bytes : Option Nat} {stream : Bytes} (hdisk : disk.Valid) (hdisk' : disk'.Valid)
    (h : ∀ path, look disk path = look disk' path)
    (hstream : fingerprint_stream disk root max_bytes = .ok stream) :
    fingerprint_stream disk' root max_bytes = .ok stream := by
  obtain ⟨canonical, mode, entries, hprint, rfl⟩ :=
    (fingerprint_stream_eq_ok (fits_zero max_bytes)).mp hstream
  obtain ⟨entries', hdirectory'⟩ :=
    look_eq_dir.mp ((h canonical) ▸ look_eq_dir.mpr ⟨entries, hprint.directory⟩)
  have hsame : SameTree disk canonical disk' canonical := fun path _ _ => by
    rw [shown, shown, h]
  have hperm := visible_paths_perm hdisk hdisk' hprint.directory hdirectory' hsame
  have hsorted := sorted_entries_eq hdisk hdisk' hprint.directory hdirectory' hsame
  refine (fingerprint_stream_eq_ok (fits_zero max_bytes)).mpr ⟨canonical, mode, entries', ?_, ?_⟩
  · refine ⟨?_, hdirectory', ?_, ?_, ?_, ?_⟩
    · rw [canonicalize, ← resolve_congr h]
      exact hprint.resolved
    · rw [← hperm.length_eq]
      exact hprint.count
    · exact fun path hpath => hprint.portable path (hperm.mem_iff.mpr hpath)
    · intro path hpath
      obtain ⟨shape, hlook, hother, hlink⟩ := hprint.hashed path (hperm.mem_iff.mpr hpath)
      refine ⟨shape, by rw [← h]; exact hlook, hother, fun target htarget => ?_⟩
      rw [← validated_congr h]
      exact hlink target htarget
    · have htotal : total disk' canonical (sorted_entries (visible_paths entries'))
          = total disk canonical (sorted_entries (visible_paths entries)) := by
        rw [total, total, hsorted]
        simp only [h]
      rw [htotal]
      exact hprint.fits
  · rw [items_eq hdisk hdisk' hprint.directory hdirectory' hsame]

/-- The streams of two trees are the same exactly when the trees are. -/
theorem stream_eq_iff {disk₁ disk₂ : Node} {root₁ root₂ canonical₁ canonical₂ : List Name}
    {max₁ max₂ : Option Nat} {stream₁ stream₂ : Bytes}
    (hdisk₁ : disk₁.Valid) (hdisk₂ : disk₂.Valid)
    (hcanonical₁ : canonicalize disk₁ root₁ = some canonical₁)
    (hcanonical₂ : canonicalize disk₂ root₂ = some canonical₂)
    (h₁ : fingerprint_stream disk₁ root₁ max₁ = .ok stream₁)
    (h₂ : fingerprint_stream disk₂ root₂ max₂ = .ok stream₂) :
    stream₁ = stream₂ ↔ SameTree disk₁ canonical₁ disk₂ canonical₂ := by
  obtain ⟨c₁, mode₁, entries₁, hprint₁, rfl⟩ := (fingerprint_stream_eq_ok (fits_zero max₁)).mp h₁
  obtain ⟨c₂, mode₂, entries₂, hprint₂, rfl⟩ := (fingerprint_stream_eq_ok (fits_zero max₂)).mp h₂
  have hc₁ : c₁ = canonical₁ := Option.some_inj.mp (hprint₁.resolved.symm.trans hcanonical₁)
  have hc₂ : c₂ = canonical₂ := Option.some_inj.mp (hprint₂.resolved.symm.trans hcanonical₂)
  subst hc₁ hc₂
  constructor
  · intro hstream
    have hreadable₁ : ∀ i ∈ (sorted_entries (visible_paths entries₁)).map (item disk₁ c₁),
        Readable i := by
      intro i hi
      obtain ⟨entry, hentry, rfl⟩ := List.mem_map.mp hi
      obtain ⟨path, hpath, rfl⟩ := mem_sorted_entries.mp hentry
      exact readable_item hdisk₁ hprint₁ hpath
    have hreadable₂ : ∀ i ∈ (sorted_entries (visible_paths entries₂)).map (item disk₂ c₂),
        Readable i := by
      intro i hi
      obtain ⟨entry, hentry, rfl⟩ := List.mem_map.mp hi
      obtain ⟨path, hpath, rfl⟩ := mem_sorted_entries.mp hentry
      exact readable_item hdisk₂ hprint₂ hpath
    have hitems := delimited_record.flatMap_inj (fun _ => record_ne_nil) hreadable₁ hreadable₂
        hstream
    intro path hne hvisible
    cases hshown : shown disk₁ c₁ path with
    | some shape =>
      exact (shown_of_items hdisk₁ hdisk₂ hprint₁.directory hprint₂.directory hitems hne hvisible
        hshown).symm
    | none =>
      -- what the second tree showed, the first would
      cases hshown₂ : shown disk₂ c₂ path with
      | none => rfl
      | some shape =>
        have hback := shown_of_items hdisk₂ hdisk₁ hprint₂.directory hprint₁.directory hitems.symm
            hne
          hvisible hshown₂
        rw [hshown] at hback
        cases hback
  · intro hsame
    rw [items_eq hdisk₁ hdisk₂ hprint₁.directory hprint₂.directory hsame]

/-- **Fingerprints are injective and independent of the order of enumeration.** The streams of
two trees, and with them their fingerprints, are equal exactly when below the roots, apart from
the top-level `.git`, the same paths show the same; and any enumeration of the disk has the same
stream. -/
theorem fingerprint_injective {crates : Crates} {disk₁ disk₂ : Node}
    {root₁ root₂ canonical₁ canonical₂ : List Name} {max₁ max₂ : Option Nat}
    {stream₁ stream₂ : Bytes} (hdisk₁ : disk₁.Valid) (hdisk₂ : disk₂.Valid)
    (hcanonical₁ : canonicalize disk₁ root₁ = some canonical₁)
    (hcanonical₂ : canonicalize disk₂ root₂ = some canonical₂)
    (h₁ : fingerprint_stream disk₁ root₁ max₁ = .ok stream₁)
    (h₂ : fingerprint_stream disk₂ root₂ max₂ = .ok stream₂)
    (hsha256 : crates.sha256 stream₁ = crates.sha256 stream₂ → stream₁ = stream₂) :
    (stream₁ = stream₂ ↔ SameTree disk₁ canonical₁ disk₂ canonical₂)
      ∧ (fingerprint_workspace_with_limits crates disk₁ root₁ max₁
            = fingerprint_workspace_with_limits crates disk₂ root₂ max₂
          ↔ SameTree disk₁ canonical₁ disk₂ canonical₂)
      ∧ ∀ disk', disk'.Valid → (∀ path, look disk₁ path = look disk' path) →
          fingerprint_stream disk' root₁ max₁ = .ok stream₁ := by
  have hiff := stream_eq_iff hdisk₁ hdisk₂ hcanonical₁ hcanonical₂ h₁ h₂
  refine ⟨hiff, ?_, fun disk' hdisk' hlook => fingerprint_stream_of_look hdisk₁ hdisk' hlook h₁⟩
  rw [← hiff, fingerprint_workspace_with_limits, fingerprint_workspace_with_limits, h₁, h₂, ok_bind,
    ok_bind]
  constructor
  · intro hprint
    have hdigest : crates.digest stream₁ = crates.digest stream₂ := Except.ok.inj hprint
    rw [Crates.digest, Crates.digest, String.ofList_inj] at hdigest
    exact hsha256 (Vector.toList_inj.mp (hex_encode_inj hdigest))
  · rintro rfl
    rfl

/-! ## Two copies of a small tree -/

namespace Small

def a : Name := [0x61]
def b : Name := [0x62]
def c : Name := [0x63]

/-- A file, a link to it, and an empty directory, below `a`. -/
def disk₁ : Node :=
  .dir 0o755 [(a, .dir 0o700 [(c, .dir 0o755 []), (b, .link a), (dot_git, .file 0o644 [1]),
    (a, .file 0o644 [0x68, 0x69])])]

/-- The same below `b`, enumerated in another order, without the control directory. -/
def disk₂ : Node :=
  .dir 0o755 [(b, .dir 0o755 [(a, .file 0o644 [0x68, 0x69]), (b, .link a), (c, .dir 0o755 [])])]

/-- What is hashed for both. -/
def stream : Bytes :=
  [70, 0, 97, 0, 164, 1, 0, 0, 2, 0, 0, 0, 0, 0, 0, 0, 104, 105, 0, 76, 0, 98, 0, 97, 0,
    68, 0, 99, 0, 237, 1, 0, 0]

def crates : Crates :=
  { sha256 := fun bytes => if bytes = stream then
      #v[78, 43, 67, 27, 213, 59, 186, 173, 51, 103, 39, 179, 195, 131, 137, 90, 235, 206, 102,
        58, 32, 224, 19, 136, 210, 252, 250, 143, 197, 107, 157, 67]
      else Vector.replicate 32 0
    to_vec_pretty := fun _ => []
    from_slice := fun _ => none
    is_json := fun _ => false }

set_option maxRecDepth 20000 in
theorem fingerprint_injective_small :
    SameTree disk₁ [a] disk₂ [b]
      ∧ fingerprint_workspace_with_limits crates disk₁ [a] none
          = fingerprint_workspace_with_limits crates disk₂ [b] none := by
  have hdisk₁ : disk₁.Valid := Node.valid_of_check (by decide)
  have hdisk₂ : disk₂.Valid := Node.valid_of_check (by decide)
  have h₁ : fingerprint_stream disk₁ [a] none = .ok stream := by decide +kernel
  have h₂ : fingerprint_stream disk₂ [b] none = .ok stream := by decide +kernel
  have hsame := @fingerprint_injective crates disk₁ disk₂ [a] [b] [a] [b] none none stream stream
    hdisk₁ hdisk₂ (by decide +kernel) (by decide +kernel) h₁ h₂ fun _ => rfl
  exact ⟨hsame.1.mp rfl, hsame.2.1.mpr (hsame.1.mp rfl)⟩

end Small

end Crony.Runner
