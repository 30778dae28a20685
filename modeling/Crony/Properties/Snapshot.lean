/-
Verification snapshots.

What a copy does is followed through the tree once (`Copies`): outside the new entries nothing
changes, below them the copy shows what the source shows, and the counters say how much there
was. A link whose target stays below the root at every step (`inside`) is resolved in the copy
as it is in the source. A link that leaves the root and comes back is not: its target is
validated by where it ends.
-/
import Crony.Properties.Fingerprint

set_option autoImplicit false

open Crony.Lib

namespace Crony.Runner

/-! ## What a copy does -/

theorem is_git_control_path_append (root path : List Name) :
    is_git_control_path root (root ++ path) = !visible path := by
  have hupto : root.isPrefixOf (root ++ path) = true :=
    List.isPrefixOf_iff_prefix.mpr (List.prefix_append root path)
  rw [is_git_control_path, hupto, List.drop_left, visible, Bool.not_not, Bool.true_and]

theorem visible_append {path : List Name} (hne : path ≠ []) (rest : List Name) :
    visible (path ++ rest) = visible path := by
  obtain ⟨name, path, rfl⟩ := List.exists_cons_of_ne_nil hne
  rfl

/-- What is below a visible path is visible. -/
theorem filter_paths_in_of_visible {path : List Name} {n : Node} (hne : path ≠ [])
    (h : visible path = true) : (paths_in path n).filter visible = paths_in path n := by
  rw [List.filter_eq_self]
  intro p hp
  obtain ⟨name, rest, rfl⟩ := prefix_of_mem_paths_in path n p hp
  rw [visible_append hne]
  exact h

/-- The visible entries of the directory at `relative`. -/
def tops (relative : List Name) (entries : List (Name × Node)) : List (List Name) :=
  (entries.map fun entry => relative ++ [entry.1]).filter visible

/-- The bytes that the files at the paths below the root declare. -/
def bytes_at (source : Node) (root : List Name) (paths : List (List Name)) : Nat :=
  (paths.map fun path => declared (look source (root ++ path))).sum

/-- **A copy** of the entries at `tops`, which brings the paths `paths`, of which `counted` were
counted before. -/
structure Copies (source : Node) (root destination : List Name) (tops paths : List (List Name))
    (counted : Nat) (disk disk' : Node) (copied copied' : Copied) : Prop where
  frame : ∀ q, (∀ top ∈ tops, ¬ destination ++ top <+: q) → look disk' q = look disk q
  same : ∀ top ∈ tops, ∀ q, look disk' (destination ++ (top ++ q)) = look source
    (root ++ (top ++ q))
  entries : copied'.entries + counted = copied.entries + paths.length
  entries_le : copied.entries ≤ MAX_ENTRIES → copied'.entries ≤ MAX_ENTRIES
  bytes : copied'.bytes = copied.bytes + bytes_at source root paths
  bytes_le : copied.bytes ≤ MAX_SNAPSHOT_BYTES → copied'.bytes ≤ MAX_SNAPSHOT_BYTES
  plain : ∀ path ∈ paths, look source (root ++ path) ≠ some .other
  valid : disk.Valid → disk'.Valid

/-- Copies of entries at different places, one after the other. -/
theorem Copies.append {source : Node} {root destination : List Name}
    {tops₁ tops₂ paths₁ paths₂ : List (List Name)} {counted₁ counted₂ : Nat}
    {disk disk' disk'' : Node} {copied copied' copied'' : Copied}
    (h₁ : Copies source root destination tops₁ paths₁ counted₁ disk disk' copied copied')
    (h₂ : Copies source root destination tops₂ paths₂ counted₂ disk' disk'' copied' copied'')
    (hdisjoint : ∀ a ∈ tops₁, ∀ b ∈ tops₂, ∀ q, ¬ b <+: a ++ q) :
    Copies source root destination (tops₁ ++ tops₂) (paths₁ ++ paths₂) (counted₁ + counted₂)
      disk disk'' copied copied'' where
  frame := by
    intro q hq
    rw [h₂.frame q fun top htop => hq top (List.mem_append_right _ htop)]
    exact h₁.frame q fun top htop => hq top (List.mem_append_left _ htop)
  same := by
    intro top htop q
    rcases List.mem_append.mp htop with htop | htop
    · rw [h₂.frame, h₁.same top htop q]
      intro b hb hupto
      exact hdisjoint top htop b hb q ((List.prefix_append_right_inj destination).mp hupto)
    · exact h₂.same top htop q
  entries := by
    have e₁ := h₁.entries
    have e₂ := h₂.entries
    rw [List.length_append]
    omega
  entries_le := fun h => h₂.entries_le (h₁.entries_le h)
  bytes := by
    rw [h₂.bytes, h₁.bytes, bytes_at, bytes_at, bytes_at, List.map_append, List.sum_append]
    omega
  bytes_le := fun h => h₂.bytes_le (h₁.bytes_le h)
  plain := by
    intro path hpath
    rcases List.mem_append.mp hpath with hpath | hpath
    · exact h₁.plain path hpath
    · exact h₂.plain path hpath
  valid := fun h => h₂.valid (h₁.valid h)

section

variable {source : Node} {root destination : List Name}

/-- A copy that only creates a node without anything below it. -/
theorem Copies.leaf {relative : List Name} {node disk disk' : Node} {copied copied' : Copied}
    (hat : source.at (root ++ relative) = some node) (hnode : node.Valid)
    (hdir : ∀ mode entries, node ≠ .dir mode entries) (hother : node ≠ .other)
    (hnames : ∀ name ∈ destination ++ relative, ValidName name)
    (hcreate : create disk (destination ++ relative) node = some disk')
    (hentries : copied'.entries = copied.entries)
    (hbytes : copied'.bytes = copied.bytes + declared (some node.shape))
    (hle : copied.bytes ≤ MAX_SNAPSHOT_BYTES → copied'.bytes ≤ MAX_SNAPSHOT_BYTES) :
    Copies source root destination [relative] (relative :: paths_in relative node) 1 disk disk'
      copied copied' := by
  have hnone : paths_in relative node = [] := by
    cases node with
    | dir mode entries => exact absurd rfl (hdir mode entries)
    | file | link | other => rfl
  have hlook : look source (root ++ relative) = some node.shape := by
    rw [look, hat]
    rfl
  rw [hnone]
  refine ⟨?_, ?_, ?_, ?_, ?_, hle, ?_, fun hdisk => hdisk.create hnode hnames hcreate⟩
  · intro q hq
    rw [look_create hcreate, if_neg (hq relative (List.mem_singleton_self _))]
  · intro top htop q
    rw [List.mem_singleton.mp htop, ← List.append_assoc, ← List.append_assoc, look_create hcreate,
      if_pos (List.prefix_append _ q), List.drop_left, look_append source _ q hat]
  · rw [hentries, List.length_singleton]
  · intro h
    rw [hentries]
    exact h
  · rw [hbytes, bytes_at, List.map_singleton, List.sum_singleton, hlook]
  · intro path hpath
    rw [List.mem_singleton.mp hpath, hlook]
    cases node with
    | other => exact absurd rfl hother
    | file | link | dir => simp [Node.shape]

mutual

/-- **The copy of a directory's entries.** -/
theorem copies_directory (hdisjoint : ∀ q, ¬ destination <+: root ++ q)
    (hdestination : ∀ name ∈ destination, ValidName name) (relative : List Name) {mode : Nat}
    (entries : List (Name × Node)) (hvalid : (Node.dir mode entries).Valid)
    (hrelative : ∀ name ∈ relative, ValidName name)
    (hat : ∀ entry ∈ entries, source.at (root ++ (relative ++ [entry.1])) = some entry.2)
    (disk disk' : Node) (copied copied' : Copied)
    (hcur : ∀ q, look disk (root ++ q) = look source (root ++ q))
    (h : copy_snapshot_directory root destination relative entries disk copied
      = .ok (disk', copied')) :
    Copies source root destination (tops relative entries)
      ((paths_below relative entries).filter visible) 0 disk disk' copied copied' := by
  match entries, hvalid, hat, h with
  | [], _, _, h =>
    injection h with h
    injection h with hdisk hcopied
    subst hdisk hcopied
    exact ⟨fun q _ => rfl, (fun top htop => by cases htop), rfl, id, rfl, id,
      (fun path hpath => by cases hpath), id⟩
  | (name, node) :: rest, hvalid, hat, h =>
    rw [copy_snapshot_directory, is_git_control_path_append] at h
    have hat_rest : ∀ entry ∈ rest, source.at (root ++ (relative ++ [entry.1])) = some entry.2 :=
      fun entry hentry => hat entry (List.mem_cons_of_mem _ hentry)
    have hat_name := hat (name, node) List.mem_cons_self
    have hne : relative ++ [name] ≠ [] :=
      List.append_ne_nil_of_right_ne_nil _ (List.cons_ne_nil _ _)
    obtain ⟨hnodup, hnames⟩ := hvalid.names [] mode _ rfl
    rw [List.map_cons, List.nodup_cons] at hnodup
    by_cases hvisible : visible (relative ++ [name]) = true
    · rw [hvisible, Bool.not_true, if_neg (by simp)] at h
      simp only [bind_eq_ok, ensure_eq_ok, Prod.exists] at h
      obtain ⟨_, hcount, disk₁, copied₁, hentry, hrest⟩ := h
      have hrelative' : ∀ n ∈ relative ++ [name], ValidName n := by
        intro n hn
        rcases List.mem_append.mp hn with hn | hn
        · exact hrelative n hn
        · rw [List.mem_singleton.mp hn]
          exact hnames (name, node) List.mem_cons_self
      have hone := copies_entry hdisjoint hdestination (relative ++ [name]) hne hvisible hrelative'
        node hvalid.head hat_name disk disk₁ _ copied₁ hcur hentry
      -- the source is not touched
      have hcur₁ : ∀ q, look disk₁ (root ++ q) = look source (root ++ q) := by
        intro q
        rw [hone.frame, hcur]
        intro top _ hupto
        exact hdisjoint q ((List.prefix_append destination top).trans hupto)
      have hmany := copies_directory hdisjoint hdestination relative rest hvalid.tail hrelative
          hat_rest
        disk₁ disk' copied₁ copied' hcur₁ hrest
      have hboth := hone.append hmany (by
        intro a ha b hb q hupto
        obtain ⟨entry, hentry, rfl⟩ := List.mem_map.mp (List.mem_filter.mp hb).1
        rw [List.mem_singleton.mp ha, List.append_assoc, List.prefix_append_right_inj] at hupto
        have hsame : entry.1 = name := (List.cons_prefix_cons.mp hupto).1
        exact hnodup.1 (List.mem_map.mpr ⟨entry, hentry, hsame⟩))
      have htops : tops relative ((name, node) :: rest) = [relative ++ [name]]
          ++ tops relative rest := by
        rw [tops, List.map_cons, List.filter_cons_of_pos hvisible]
        rfl
      have hpaths : (paths_below relative ((name, node) :: rest)).filter visible
          = (relative ++ [name]) :: paths_in (relative ++ [name]) node
            ++ (paths_below relative rest).filter visible := by
        rw [paths_below, List.filter_cons_of_pos hvisible, List.filter_append,
          filter_paths_in_of_visible hne hvisible]
        rfl
      rw [htops, hpaths]
      refine ⟨hboth.frame, hboth.same, ?_, ?_, hboth.bytes, hboth.bytes_le, hboth.plain,
        hboth.valid⟩
      · have hentries := hboth.entries
        simp only at hentries
        omega
      · exact fun _ => hboth.entries_le hcount
    · -- the control directory is skipped
      have hvisible : visible (relative ++ [name]) = false := by simpa using hvisible
      rw [hvisible, Bool.not_false, if_pos rfl] at h
      have hmany := copies_directory hdisjoint hdestination relative rest hvalid.tail hrelative
          hat_rest
        disk disk' copied copied' hcur h
      have htops : tops relative ((name, node) :: rest) = tops relative rest := by
        rw [tops, List.map_cons, List.filter_cons_of_neg (by simp [hvisible])]
        rfl
      have hpaths : (paths_below relative ((name, node) :: rest)).filter visible
          = (paths_below relative rest).filter visible := by
        rw [paths_below, List.filter_cons_of_neg (by simp [hvisible]), List.filter_append,
          filter_paths_in_of_not_visible hne hvisible, List.nil_append]
      rw [htops, hpaths]
      exact hmany

/-- **The copy of an entry.** -/
theorem copies_entry (hdisjoint : ∀ q, ¬ destination <+: root ++ q)
    (hdestination : ∀ name ∈ destination, ValidName name) (relative : List Name)
    (hne : relative ≠ []) (hvisible : visible relative = true)
    (hrelative : ∀ name ∈ relative, ValidName name) (node : Node) (hnode : node.Valid)
    (hat : source.at (root ++ relative) = some node)
    (disk disk' : Node) (copied copied' : Copied)
    (hcur : ∀ q, look disk (root ++ q) = look source (root ++ q))
    (h : copy_snapshot_entry root destination relative node disk copied = .ok (disk', copied')) :
    Copies source root destination [relative] (relative :: paths_in relative node) 1 disk disk'
      copied copied' := by
  have hnames : ∀ name ∈ destination ++ relative, ValidName name := by
    intro name hname
    rcases List.mem_append.mp hname with hname | hname
    · exact hdestination name hname
    · exact hrelative name hname
  match node, hnode, hat, h with
  | .other, _, _, h => cases h
  | .link target, hnode, hat, h =>
    rw [copy_snapshot_entry] at h
    simp only [bind_eq_ok, context_eq_ok, pure_eq_ok, Prod.mk.injEq] at h
    obtain ⟨target', hread, disk₁, hcreate, rfl, rfl⟩ := h
    have hsame : target' = target := by
      have hlook := hcur relative
      rw [look_eq_link.mpr hat, look_eq_link.mpr (target_of_validated hread)] at hlook
      injection hlook with hlook
      injection hlook
    subst hsame
    exact .leaf hat hnode (fun _ _ heq => by cases heq) (fun heq => by cases heq) hnames hcreate rfl
      rfl id
  | .file mode content, hnode, hat, h =>
    rw [copy_snapshot_entry] at h
    simp only [bind_eq_ok, ensure_eq_ok, context_eq_ok, pure_eq_ok, Prod.mk.injEq] at h
    obtain ⟨_, -, _, hle, disk₁, hcreate, rfl, rfl⟩ := h
    exact .leaf hat hnode (fun _ _ heq => by cases heq) (fun heq => by cases heq) hnames hcreate rfl
      rfl fun _ => hle
  | .dir mode entries, hnode, hat, h =>
    rw [copy_snapshot_entry] at h
    simp only [bind_eq_ok, context_eq_ok, pure_eq_ok, Prod.exists, Prod.mk.injEq] at h
    obtain ⟨disk₁, hcreate, disk₂, copied₂, hbelow, disk₃, hmode, rfl, rfl⟩ := h
    have hempty : (Node.dir 0o755 []).Valid := Node.valid_of_check rfl
    have hcur₁ : ∀ q, look disk₁ (root ++ q) = look source (root ++ q) := by
      intro q
      rw [look_create hcreate, if_neg, hcur]
      exact fun hupto => hdisjoint q ((List.prefix_append destination relative).trans hupto)
    have hat' : ∀ entry ∈ entries, source.at (root ++ (relative ++ [entry.1])) = some entry.2 := by
      intro entry hentry
      rw [← List.append_assoc, at_child hat]
      exact child_of_mem (hnode.names [] mode entries rfl).1 hentry
    have hmany := copies_directory hdisjoint hdestination relative entries hnode hrelative hat'
        disk₁
      disk₂ copied copied₂ hcur₁ hbelow
    -- what the directory holds is visible, since the directory is
    have hfilter : (paths_below relative entries).filter visible = paths_below relative
        entries := by
      have hin := filter_paths_in_of_visible (n := .dir mode entries) hne hvisible
      rwa [paths_in] at hin
    rw [hfilter] at hmany
    have hlook : look source (root ++ relative) = some (.dir mode) := look_eq_dir.mpr ⟨entries, hat⟩
    rw [paths_in]
    refine ⟨?_, ?_, ?_, hmany.entries_le, ?_, hmany.bytes_le, ?_, fun hdisk =>
      (hmany.valid (hdisk.create hempty hnames hcreate)).set_mode hmode⟩
    · intro q hq
      have hnot := hq relative (List.mem_singleton_self _)
      have hpath : q ≠ destination ++ relative := fun heq => hnot (heq ▸ List.prefix_refl _)
      rw [look_set_mode hmode, if_neg hpath, hmany.frame, look_create hcreate, if_neg hnot]
      intro top htop hupto
      obtain ⟨entry, -, rfl⟩ := List.mem_map.mp (List.mem_filter.mp htop).1
      rw [← List.append_assoc] at hupto
      exact hnot ((List.prefix_append _ _).trans hupto)
    · intro top htop q
      rw [List.mem_singleton.mp htop]
      have htop_of : ∀ entry ∈ entries, relative ++ [entry.1] ∈ tops relative entries := by
        intro entry hentry
        refine List.mem_filter.mpr ⟨List.mem_map.mpr ⟨entry, hentry, rfl⟩, ?_⟩
        rw [visible_append hne]
        exact hvisible
      cases q with
      | nil =>
        -- the directory itself, with its mode set
        have hframe : look disk₂ (destination ++ relative) = some (.dir 0o755) := by
          rw [hmany.frame, look_create hcreate, if_pos (List.prefix_refl _), List.drop_length]
          · rfl
          · intro top htop hupto
            obtain ⟨entry, -, rfl⟩ := List.mem_map.mp (List.mem_filter.mp htop).1
            have hlength := hupto.length_le
            simp only [List.length_append, List.length_singleton] at hlength
            omega
        rw [List.append_nil, look_set_mode hmode, if_pos rfl, hframe, hlook]
        rfl
      | cons name q =>
        have hpath : destination ++ (relative ++ name :: q) ≠ destination ++ relative := by
          intro heq
          have hlength := congrArg List.length heq
          simp only [List.length_append, List.length_cons] at hlength
          omega
        rw [look_set_mode hmode, if_neg hpath]
        cases hchild : child entries name with
        | some c =>
          have hsame := hmany.same (relative ++ [name]) (htop_of (name, c) (child_mem hchild)) q
          have hsplit : relative ++ name :: q = relative ++ [name] ++ q := by simp
          rw [hsplit]
          exact hsame
        | none =>
          -- what the source does not have, the copy does not either
          have hsource : look source (root ++ (relative ++ name :: q)) = none := by
            rw [← List.append_assoc, look_append source _ _ hat, look, Node.at_cons, hchild]
            rfl
          rw [hsource, hmany.frame, ← List.append_assoc, look_create hcreate,
            if_pos (List.prefix_append _ _), List.drop_left]
          · rfl
          · intro top htop hupto
            obtain ⟨entry, hentry, rfl⟩ := List.mem_map.mp (List.mem_filter.mp htop).1
            rw [List.prefix_append_right_inj, List.prefix_append_right_inj] at hupto
            have hsame : entry.1 = name := (List.cons_prefix_cons.mp hupto).1
            exact child_eq_none hchild (List.mem_map.mpr ⟨entry, hentry, hsame⟩)
    · have hentries := hmany.entries
      rw [List.length_cons]
      omega
    · have hzero : declared (some (Shape.dir mode)) = 0 := rfl
      rw [hmany.bytes, bytes_at, bytes_at, List.map_cons, List.sum_cons, hlook, hzero, Nat.zero_add]
    · intro path hpath
      rcases List.mem_cons.mp hpath with rfl | hpath
      · rw [hlook]
        simp
      · exact hmany.plain path hpath

end

end

/-! ## Links that stay inside -/

/-- One walk below the root: it does not go up from the root, into the control directory, or to
an absolute path. -/
def inside_with (follow : List Name → List Name → Option (List Name)) (disk : Node)
    (root : List Name) : List Name → List Name → Option (List Name)
  | cur, [] => some cur
  | cur, component :: rest =>
    match look disk (root ++ cur) with
    | some (.dir _) =>
      if component = [] ∨ component = dot then inside_with follow disk root cur rest
      else if component = dotdot then
        if cur = [] then none else inside_with follow disk root cur.dropLast rest
      else if visible (cur ++ [component]) = false then none
      else
        match look disk (root ++ (cur ++ [component])) with
        | some (.link target) =>
          if target.head? = some slash then none else follow cur (target.splitOn slash ++ rest)
        | some _ => inside_with follow disk root (cur ++ [component]) rest
        | none => none
    | _ => none

/-- Where a walk ends that stays below the root, after at most `n` links. -/
def inside (disk : Node) (root : List Name) : Nat → List Name → List Name → Option (List Name)
  | 0 => inside_with (fun _ _ => none) disk root
  | n + 1 => inside_with (inside disk root n) disk root

/-- **The links of a workspace stay inside**: each target is relative, and followed from the
directory of the link it is below the root, outside the control directory, at every step. -/
def LinksInside (disk : Node) (root : List Name) : Prop :=
  ∀ path target, path ≠ [] → visible path = true →
    look disk (root ++ path) = some (.link target) →
    target.head? ≠ some slash
      ∧ (inside disk root MAXSYMLINKS path.dropLast (target.splitOn slash)).isSome = true

theorem visible_dropLast {path : List Name} (h : visible path = true) :
    visible path.dropLast = true := by
  cases path with
  | nil => rfl
  | cons name rest =>
    cases rest with
    | nil => rfl
    | cons next rest => exact h

/-- What a walk inside shows is what resolution sees. -/
theorem resolve_with_of_inside {follow follow' : List Name → List Name → Option (List Name)}
    {disk : Node} {root : List Name}
    (hfollow : ∀ cur rest r, visible cur = true → follow cur rest = some r →
      follow' (root ++ cur) rest = some (root ++ r) ∧ visible r = true)
    {cur rest r : List Name} (hvisible : visible cur = true)
    (h : inside_with follow disk root cur rest = some r) :
    resolve_with follow' disk (root ++ cur) rest = some (root ++ r) ∧ visible r = true := by
  induction rest generalizing cur with
  | nil =>
    injection h with h
    rw [← h]
    exact ⟨rfl, hvisible⟩
  | cons component rest ih =>
    rw [inside_with] at h
    split at h
    · rename_i mode hdir
      obtain ⟨entries, hat⟩ := look_eq_dir.mp hdir
      rw [resolve_with, hat]
      simp only
      by_cases hplain : component = [] ∨ component = dot
      · rw [if_pos hplain] at h ⊢
        exact ih hvisible h
      · rw [if_neg hplain] at h ⊢
        by_cases hup : component = dotdot
        · rw [if_pos hup] at h ⊢
          split at h
          · cases h
          · rename_i hne
            rw [List.dropLast_append_of_ne_nil hne]
            exact ih (visible_dropLast hvisible) h
        · rw [if_neg hup] at h ⊢
          split at h
          · cases h
          · rename_i hnext
            have hnext : visible (cur ++ [component]) = true := by simpa using hnext
            have hchild := at_child hat component
            rw [List.append_assoc] at hchild
            rw [look, hchild] at h
            cases hc : child entries component with
            | none =>
              rw [hc] at h
              cases h
            | some m =>
              rw [hc] at h
              cases m with
              | link target =>
                simp only [Option.map_some, Node.shape] at h
                split at h
                · cases h
                · rename_i hrelative
                  simp only [hrelative, if_false]
                  exact hfollow cur _ r hvisible h
              | file mode content | dir mode entries | other =>
                simp only [Option.map_some, Node.shape] at h
                rw [List.append_assoc]
                exact ih hnext h
    · cases h

theorem resolve_of_inside {disk : Node} {root : List Name} {n : Nat} {cur rest r : List Name}
    (hvisible : visible cur = true) (h : inside disk root n cur rest = some r) :
    resolve disk n (root ++ cur) rest = some (root ++ r) ∧ visible r = true := by
  induction n generalizing cur rest r with
  | zero => exact resolve_with_of_inside (fun _ _ _ _ hnone => by cases hnone) hvisible h
  | succ n ih => exact resolve_with_of_inside (fun _ _ _ hcur hr => ih hcur hr) hvisible h

/-- Two roots that show the same directory tree have the same walks inside. -/
theorem inside_with_congr {follow follow' : List Name → List Name → Option (List Name)}
    {disk disk' : Node} {root root' : List Name}
    (hfollow : ∀ cur rest, visible cur = true → follow cur rest = follow' cur rest)
    (hroot : ∃ mode mode', look disk root = some (.dir mode) ∧ look disk' root' = some (.dir mode'))
    (h : ∀ path, path ≠ [] → visible path = true →
      look disk (root ++ path) = look disk' (root' ++ path))
    {cur : List Name} (rest : List Name) (hvisible : visible cur = true) :
    inside_with follow disk root cur rest = inside_with follow' disk' root' cur rest := by
  induction rest generalizing cur with
  | nil => rfl
  | cons component rest ih =>
    -- both walks are at a directory or neither is
    have hkind : (∃ mode mode', look disk (root ++ cur) = some (.dir mode)
          ∧ look disk' (root' ++ cur) = some (.dir mode'))
        ∨ look disk (root ++ cur) = look disk' (root' ++ cur) := by
      cases cur with
      | nil =>
        left
        rw [List.append_nil, List.append_nil]
        exact hroot
      | cons name cur => exact Or.inr (h _ (List.cons_ne_nil _ _) hvisible)
    have hbody : ∀ mode mode', look disk (root ++ cur) = some (.dir mode) →
        look disk' (root' ++ cur) = some (.dir mode') →
        inside_with follow disk root cur (component :: rest)
          = inside_with follow' disk' root' cur (component :: rest) := by
      intro mode mode' hdir hdir'
      rw [inside_with, inside_with, hdir, hdir']
      simp only
      split
      · exact ih hvisible
      · split
        · split
          · rfl
          · exact ih (visible_dropLast hvisible)
        · split
          · rfl
          · rename_i hnext
            have hnext : visible (cur ++ [component]) = true := by simpa using hnext
            have hne : cur ++ [component] ≠ [] :=
              List.append_ne_nil_of_right_ne_nil _ (List.cons_ne_nil _ _)
            rw [h _ hne hnext]
            split
            · split
              · rfl
              · exact hfollow cur _ hvisible
            · exact ih hnext
            · rfl
    rcases hkind with ⟨mode, mode', hdir, hdir'⟩ | hsame
    · exact hbody mode mode' hdir hdir'
    · by_cases hdir : ∃ mode, look disk (root ++ cur) = some (.dir mode)
      · obtain ⟨mode, hdir⟩ := hdir
        exact hbody mode mode hdir (hsame ▸ hdir)
      · rw [inside_with, inside_with, ← hsame]
        cases hlook : look disk (root ++ cur) with
        | none => rfl
        | some shape =>
          cases shape with
          | dir mode => exact absurd ⟨mode, hlook⟩ hdir
          | file | link | other => rfl

theorem inside_congr {disk disk' : Node} {root root' : List Name}
    (hroot : ∃ mode mode', look disk root = some (.dir mode) ∧ look disk' root' = some (.dir mode'))
    (h : ∀ path, path ≠ [] → visible path = true →
      look disk (root ++ path) = look disk' (root' ++ path))
    (n : Nat) {cur : List Name} (rest : List Name) (hvisible : visible cur = true) :
    inside disk root n cur rest = inside disk' root' n cur rest := by
  induction n generalizing cur rest with
  | zero => exact inside_with_congr (fun _ _ _ => rfl) hroot h rest hvisible
  | succ n ih => exact inside_with_congr (fun _ rest hcur => ih rest hcur) hroot h rest hvisible

/-- **A link that stays inside** is accepted, and ends where the walk does. -/
theorem validated_of_inside {disk : Node} (hdisk : disk.Valid) {root path : List Name}
    {target : Bytes} (hne : path ≠ []) (hvisible : visible path = true)
    (hlink : look disk (root ++ path) = some (.link target)) (hrelative : target.head? ≠ some slash)
    {r : List Name}
    (hinside : inside disk root MAXSYMLINKS path.dropLast (target.splitOn slash) = some r) :
    validated_snapshot_symlink_target disk root (root ++ path) = .ok target
      ∧ canonicalize disk ((root ++ path).dropLast ++ target.splitOn slash) = some (root ++ r)
      ∧ visible r = true := by
  have hat := look_eq_link.mp hlink
  obtain ⟨hresolve, hr⟩ := resolve_of_inside (visible_dropLast hvisible) hinside
  -- the directory of the link is on the disk
  have hdrop : (root ++ path).dropLast = root ++ path.dropLast := List.dropLast_append_of_ne_nil hne
  have hparent : ∃ mode entries, disk.at (root ++ path.dropLast) = some (.dir mode entries) := by
    have hsplit : root ++ path = (root ++ path.dropLast) ++ [path.getLast hne] := by
      rw [List.append_assoc, List.dropLast_concat_getLast]
    rw [hsplit, Node.at_append] at hat
    cases hparent : disk.at (root ++ path.dropLast) with
    | none =>
      rw [hparent] at hat
      cases hat
    | some n =>
      rw [hparent] at hat
      obtain ⟨mode, entries, rfl⟩ := Node.dir_of_at_cons hat
      exact ⟨mode, entries, rfl⟩
  obtain ⟨mode, entries, hparent⟩ := hparent
  have hcanonical : canonicalize disk ((root ++ path).dropLast ++ target.splitOn slash)
      = some (root ++ r) := by
    rw [hdrop, canonicalize, @resolve_walk disk [] (root ++ path.dropLast) mode entries hparent
      (hdisk.names_at hparent), List.nil_append]
    exact hresolve
  refine ⟨?_, hcanonical, hr⟩
  have hread : read_link disk (root ++ path) = some target := by
    rw [read_link, hat]
  have hupto : root.isPrefixOf (root ++ r) = true :=
    List.isPrefixOf_iff_prefix.mpr (List.prefix_append root r)
  rw [validated_snapshot_symlink_target, hread, context, ok_bind, ensure_of hrelative, ok_bind,
    hcanonical, context, ok_bind,
    ensure_of ⟨hupto, by rw [is_git_control_path_append, hr]; rfl⟩, ok_bind]
  rfl

/-! ## Snapshots -/

/-- The target, of a link. -/
def link_target : Option Shape → Option Bytes
  | some (.link target) => some target
  | _ => none

/-- All names of the workspace are UTF-8. -/
def PortableNames (disk : Node) (root : List Name) : Prop :=
  ∀ path, path ≠ [] → visible path = true → (look disk (root ++ path)).isSome = true → Portable path

/-- Two roots that show the same everywhere below them. -/
def ShowsSame (disk : Node) (root : List Name) (disk' : Node) (root' : List Name) : Prop :=
  ∀ path, path ≠ [] → visible path = true → look disk (root ++ path) = look disk' (root' ++ path)

theorem ShowsSame.sameTree {disk disk' : Node} {root root' : List Name}
    (h : ShowsSame disk root disk' root') : SameTree disk root disk' root' := by
  intro path hne hvisible
  rw [shown, shown, h path hne hvisible]

/-- **What can be fingerprinted elsewhere.** A tree that was counted and measured, with names
and links that can be carried over, is fingerprinted wherever it is shown. -/
theorem fingerprinted_of_showsSame {source disk : Node} {root root' : List Name} {mode mode' : Nat}
    {entries entries' : List (Name × Node)} (hsource : source.Valid) (hdisk : disk.Valid)
    (hat : source.at root = some (.dir mode entries))
    (hat' : disk.at root' = some (.dir mode' entries'))
    (hsame : ShowsSame source root disk root')
    (hcount : (visible_paths entries).length ≤ MAX_ENTRIES)
    (hbytes : bytes_at source root (visible_paths entries) < 2 ^ 64)
    (hplain : ∀ path ∈ visible_paths entries, look source (root ++ path) ≠ some .other)
    (hportable : PortableNames source root) (hlinks : LinksInside source root) :
    Fingerprinted disk root' none root' mode' entries' := by
  have hperm := visible_paths_perm hsource hdisk hat hat' hsame.sameTree
  refine ⟨canonicalize_of_dir hdisk hat', hat', by rw [← hperm.length_eq]; exact hcount, ?_, ?_, ?_⟩
  · intro path hpath
    obtain ⟨hne, hvisible, hshown⟩ :=
      (mem_visible_paths hsource hat).mp (hperm.mem_iff.mpr hpath)
    rw [shown, Option.isSome_map] at hshown
    exact hportable path hne hvisible hshown
  · intro path hpath
    have hpath := hperm.mem_iff.mpr hpath
    obtain ⟨hne, hvisible, hshown⟩ := (mem_visible_paths hsource hat).mp hpath
    rw [shown, Option.isSome_map, Option.isSome_iff_exists] at hshown
    obtain ⟨shape, hshape⟩ := hshown
    have hshape' : look disk (root' ++ path) = some shape := by
      rw [← hsame path hne hvisible]
      exact hshape
    refine ⟨shape, hshape', fun hother => hplain path hpath (hother ▸ hshape), ?_⟩
    rintro target rfl
    obtain ⟨hrelative, hinside⟩ := hlinks path target hne hvisible hshape
    rw [inside_congr ⟨mode, mode', look_eq_dir.mpr ⟨entries, hat⟩, look_eq_dir.mpr ⟨entries', hat'⟩⟩
      hsame _ _ (visible_dropLast hvisible)] at hinside
    obtain ⟨r, hr⟩ := Option.isSome_iff_exists.mp hinside
    exact (validated_of_inside hdisk hne hvisible hshape' hrelative hr).1
  · have htotal : total disk root' (sorted_entries (visible_paths entries'))
        = bytes_at source root (visible_paths entries) := by
      have hsorted : (sorted_entries (visible_paths entries')).Perm
          ((visible_paths entries).map entry_of) :=
        (sort_by_key_perm _ _).trans (hperm.symm.map entry_of)
      rw [total, (hsorted.map _).sum_eq, List.map_map, bytes_at]
      congr 1
      apply List.map_congr_left
      intro path hpath
      obtain ⟨hne, hvisible, -⟩ := (mem_visible_paths hsource hat).mp hpath
      exact congrArg declared (hsame path hne hvisible).symm
    rw [htotal]
    exact ⟨hbytes, fun _ hmax => by cases hmax⟩

/-- **A faithful snapshot.** The fingerprint of the copy is that of the source, and every link of
the copy ends inside it, at the image of where the link of the source ends. -/
structure FaithfulSnapshot (crates : Crates) (disk : Node) (root canonical : List Name)
    (disk' : Node) (destination : List Name) : Prop where
  fingerprints : ∃ print, fingerprint_workspace crates disk' destination = .ok print
    ∧ fingerprint_workspace crates disk root = .ok print
  links : ∀ path target, path ≠ [] → look disk' (destination ++ path) = some (.link target) →
    ∃ r, visible r = true
      ∧ canonicalize disk ((canonical ++ path).dropLast ++ target.splitOn slash)
        = some (canonical ++ r)
      ∧ canonicalize disk' ((destination ++ path).dropLast ++ target.splitOn slash)
        = some (destination ++ r)

section

variable {crates : Crates} {disk disk' : Node} {root destination canonical : List Name}

/-- What a successful snapshot leaves behind: the copy shows what the source shows, and there is
nothing else in it. -/
structure Snapshotted (disk : Node) (canonical : List Name) (disk' : Node)
    (destination : List Name) (entries : List (Name × Node)) : Prop where
  valid : disk'.Valid
  directory : ∃ mode, disk.at canonical = some (.dir mode entries)
  copy : look disk' destination = some (.dir 0o700)
  same : ShowsSame disk canonical disk' destination
  control : ∀ path, visible path = false → look disk' (destination ++ path) = none
  count : (visible_paths entries).length ≤ MAX_ENTRIES
  bytes : bytes_at disk canonical (visible_paths entries) ≤ MAX_SNAPSHOT_BYTES
  plain : ∀ path ∈ visible_paths entries, look disk (canonical ++ path) ≠ some .other

/-- A new node elsewhere leaves a node as it is. -/
theorem at_create {disk disk' node : Node} {path q : List Name}
    (h : create disk path node = some disk') (hpq : ¬ path <+: q) (hqp : ¬ q <+: path) :
    disk'.at q = disk.at q := by
  induction path generalizing disk disk' q with
  | nil => cases h
  | cons name rest ih =>
    cases disk with
    | file | link | other => cases h
    | dir mode entries =>
      obtain ⟨other, q, rfl⟩ : ∃ other q', q = other :: q' := by
        cases q with
        | nil => exact absurd List.nil_prefix hqp
        | cons other q => exact ⟨other, q, rfl⟩
      cases rest with
      | nil =>
        cases hchild : child entries name with
        | some m =>
          simp only [create, hchild] at h
          cases h
        | none =>
          simp only [create, hchild] at h
          injection h with h
          subst h
          have hother : other ≠ name := by
            rintro rfl
            have hupto : [other] <+: other :: q := List.prefix_append [other] q
            exact hpq hupto
          rw [Node.at_cons, Node.at_cons, child_append_singleton entries name node other hchild,
            if_neg hother]
      | cons next rest =>
        cases hchild : child entries name with
        | none =>
          simp only [create, hchild] at h
          cases h
        | some below =>
          simp only [create, hchild, Option.map_eq_some_iff] at h
          obtain ⟨below', hbelow, rfl⟩ := h
          rw [Node.at_cons, Node.at_cons, child_replace_child entries name below' other
            (by rw [hchild]; rfl)]
          by_cases hother : other = name
          · subst hother
            rw [if_pos rfl, hchild, Option.bind_some, Option.bind_some]
            exact ih hbelow (fun hupto => hpq (List.cons_prefix_cons.mpr ⟨rfl, hupto⟩))
              fun hupto => hqp (List.cons_prefix_cons.mpr ⟨rfl, hupto⟩)
          · rw [if_neg hother]

/-- **The snapshot**, seen from outside. -/
theorem snapshotted_of_ok (hdisk : disk.Valid) (hdestination : ∀ name ∈ destination, ValidName name)
    (hbelow : ¬ canonical <+: destination)
    (h : copy_workspace_snapshot disk canonical destination = .ok disk') :
    ∃ entries, Snapshotted disk canonical disk' destination entries := by
  rw [copy_workspace_snapshot] at h
  simp only [bind_eq_ok, ensure_eq_ok, context_eq_ok] at h
  obtain ⟨_, hfresh, disk₁, hcreate, h⟩ := h
  split at h
  · rename_i mode entries hat₁
    simp only [bind_eq_ok, pure_eq_ok, Prod.exists] at h
    obtain ⟨disk₂, copied, hcopy, rfl⟩ := h
    -- the root is not below the destination, which was not there
    have habove : ¬ destination <+: canonical := by
      rintro ⟨rest, rfl⟩
      have hlook := look_create hcreate (destination ++ rest)
      rw [if_pos (List.prefix_append _ _), List.drop_left] at hlook
      cases rest with
      | nil => exact hbelow (by rw [List.append_nil])
      | cons name rest =>
        have hdir : look disk₁ (destination ++ name :: rest) = some (.dir mode) :=
          look_eq_dir.mpr ⟨entries, hat₁⟩
        rw [hlook] at hdir
        cases hdir
    have hdisjoint : ∀ q, ¬ destination <+: canonical ++ q := by
      intro q hupto
      rcases List.prefix_or_prefix_of_prefix hupto (List.prefix_append canonical q) with h | h
      · exact habove h
      · exact hbelow h
    have hat : disk.at canonical = some (.dir mode entries) := by
      rw [← at_create hcreate habove hbelow]
      exact hat₁
    have hlook₁ : ∀ q, look disk₁ (canonical ++ q) = look disk (canonical ++ q) := by
      intro q
      rw [look_create hcreate, if_neg (hdisjoint q)]
    have hvalid₁ : disk₁.Valid := hdisk.create (Node.valid_of_check rfl) hdestination hcreate
    have hentries : ∀ entry ∈ entries, disk.at (canonical ++ ([] ++ [entry.1])) = some entry.2 := by
      intro entry hentry
      rw [List.nil_append, at_child hat]
      exact child_of_mem (hdisk.names canonical mode entries hat).1 hentry
    have hcopies := copies_directory hdisjoint hdestination [] entries (hdisk.at hat) (by simp)
      hentries disk₁ disk₂ {} copied hlook₁ hcopy
    have hpaths : (paths_below [] entries).filter visible = visible_paths entries := rfl
    rw [hpaths] at hcopies
    -- below the destination there was nothing before
    have hempty : ∀ path, path ≠ [] → look disk₁ (destination ++ path) = none := by
      intro path hne
      rw [look_create hcreate, if_pos (List.prefix_append _ _), List.drop_left]
      obtain ⟨name, path, rfl⟩ := List.exists_cons_of_ne_nil hne
      rfl
    refine ⟨entries, hcopies.valid hvalid₁, ⟨mode, hat⟩, ?_, ?_, ?_, ?_, ?_, hcopies.plain⟩
    · rw [hcopies.frame, look_create hcreate, if_pos (List.prefix_refl _), List.drop_length]
      · rfl
      · intro top htop hupto
        obtain ⟨entry, -, rfl⟩ := List.mem_map.mp (List.mem_filter.mp htop).1
        have hlength := hupto.length_le
        simp only [List.length_append, List.length_singleton] at hlength
        omega
    · intro path hne hvisible
      obtain ⟨name, path, rfl⟩ := List.exists_cons_of_ne_nil hne
      cases hchild : child entries name with
      | some c =>
        have htop : [name] ∈ tops [] entries :=
          List.mem_filter.mpr ⟨List.mem_map.mpr ⟨(name, c), child_mem hchild, rfl⟩, hvisible⟩
        exact (hcopies.same [name] htop path).symm
      | none =>
        have hsource : look disk (canonical ++ name :: path) = none := by
          rw [look_append disk _ _ hat, look, Node.at_cons, hchild]
          rfl
        rw [hsource, hcopies.frame, hempty _ hne]
        intro top htop hupto
        obtain ⟨entry, hentry, rfl⟩ := List.mem_map.mp (List.mem_filter.mp htop).1
        rw [List.prefix_append_right_inj] at hupto
        have hsame : entry.1 = name := (List.cons_prefix_cons.mp hupto).1
        exact child_eq_none hchild (List.mem_map.mpr ⟨entry, hentry, hsame⟩)
    · intro path hvisible
      have hne : path ≠ [] := by
        rintro rfl
        cases hvisible
      rw [hcopies.frame, hempty path hne]
      rintro top htop ⟨rest, hrest⟩
      obtain ⟨htop, htop_visible⟩ := List.mem_filter.mp htop
      obtain ⟨entry, -, rfl⟩ := List.mem_map.mp htop
      rw [List.append_assoc, List.append_cancel_left_eq] at hrest
      have htop_ne : ([] : List Name) ++ [entry.1] ≠ [] := by simp
      rw [← hrest, visible_append htop_ne, htop_visible] at hvisible
      cases hvisible
    · have hcount := hcopies.entries
      have hle := hcopies.entries_le (Nat.zero_le _)
      simp only at hcount
      omega
    · have hbytes := hcopies.bytes
      have hle := hcopies.bytes_le (Nat.zero_le _)
      simp only at hbytes
      omega
  · cases h

/-- A workspace whose fingerprint succeeds has portable names. -/
theorem portableNames_of_fingerprint {print : String} (hdisk : disk.Valid)
    (hcanonical : canonicalize disk root = some canonical)
    (h : fingerprint_workspace crates disk root = .ok print) : PortableNames disk canonical := by
  rw [fingerprint_workspace, fingerprint_workspace_with_limits] at h
  simp only [bind_eq_ok, pure_eq_ok] at h
  obtain ⟨stream, hstream, -⟩ := h
  obtain ⟨c, mode, entries, hprint, -⟩ := (fingerprint_stream_eq_ok (fits_zero none)).mp hstream
  have hc : c = canonical := Option.some_inj.mp (hprint.resolved.symm.trans hcanonical)
  subst hc
  intro path hne hvisible hsome
  exact hprint.portable path
    ((mem_visible_paths hdisk hprint.directory).mpr
      ⟨hne, hvisible, by rw [shown, Option.isSome_map]; exact hsome⟩)

/-- What the workspace shows is at one of its paths. -/
theorem mem_visible_paths_of_look {mode : Nat} {entries : List (Name × Node)} (hdisk : disk.Valid)
    (hat : disk.at canonical = some (.dir mode entries)) {path : List Name} (hne : path ≠ [])
    (hvisible : visible path = true) (hsome : (look disk (canonical ++ path)).isSome = true) :
    path ∈ visible_paths entries := by
  rw [mem_visible_paths hdisk hat]
  refine ⟨hne, hvisible, ?_⟩
  rw [shown, Option.isSome_map]
  exact hsome

/-- Portability, looked up path by path. -/
theorem portableNames_of_paths {mode : Nat} {entries : List (Name × Node)} (hdisk : disk.Valid)
    (hat : disk.at canonical = some (.dir mode entries))
    (h : ∀ path ∈ visible_paths entries, Portable path) : PortableNames disk canonical :=
  fun path hne hvisible hsome => h path (mem_visible_paths_of_look hdisk hat hne hvisible hsome)

/-- The condition on the links, looked up path by path. -/
theorem linksInside_of_paths {mode : Nat} {entries : List (Name × Node)} (hdisk : disk.Valid)
    (hat : disk.at canonical = some (.dir mode entries))
    (h : ∀ path ∈ visible_paths entries, ∀ target ∈ link_target (look disk (canonical ++ path)),
      target.head? ≠ some slash
        ∧ (inside disk canonical MAXSYMLINKS path.dropLast (target.splitOn slash)).isSome = true) :
    LinksInside disk canonical := by
  intro path target hne hvisible hlink
  have hmem := mem_visible_paths_of_look hdisk hat hne hvisible (by rw [hlink]; rfl)
  exact h path hmem target (by rw [hlink]; rfl)

/-- **Snapshots are faithful** where the links of the workspace stay inside it and its names are
UTF-8; and they are not where a name is not. -/
theorem snapshot_faithful (hdisk : disk.Valid)
    (hdestination : ∀ name ∈ destination, ValidName name)
    (hcanonical : canonicalize disk root = some canonical) (hbelow : ¬ canonical <+: destination)
    (h : verification_snapshot disk root destination = .ok disk') :
    (LinksInside disk canonical ∧ PortableNames disk canonical →
        FaithfulSnapshot crates disk root canonical disk' destination)
      ∧ (FaithfulSnapshot crates disk root canonical disk' destination →
        PortableNames disk canonical) := by
  rw [verification_snapshot, hcanonical, context, ok_bind] at h
  obtain ⟨entries, hsnap⟩ := snapshotted_of_ok hdisk hdestination hbelow h
  obtain ⟨mode, hat⟩ := hsnap.directory
  obtain ⟨entries', hat'⟩ := look_eq_dir.mp hsnap.copy
  refine ⟨?_, fun hfaithful => ?_⟩
  · rintro ⟨hlinks, hportable⟩
    have hbytes : bytes_at disk canonical (visible_paths entries) < 2 ^ 64 :=
      Nat.lt_of_le_of_lt hsnap.bytes (by decide)
    have hprint : Fingerprinted disk root none canonical mode entries :=
      { fingerprinted_of_showsSame hdisk hdisk hat hat (fun _ _ _ => rfl) hsnap.count hbytes
          hsnap.plain hportable hlinks with resolved := hcanonical }
    have hprint' : Fingerprinted disk' destination none destination 0o700 entries' :=
      fingerprinted_of_showsSame hdisk hsnap.valid hat hat' hsnap.same hsnap.count hbytes
        hsnap.plain
        hportable hlinks
    have hstream := (fingerprint_stream_eq_ok (fits_zero none)).mpr ⟨_, _, _, hprint, rfl⟩
    have hstream' := (fingerprint_stream_eq_ok (fits_zero none)).mpr ⟨_, _, _, hprint', rfl⟩
    rw [← items_eq hdisk hsnap.valid hat hat' hsnap.same.sameTree] at hstream'
    let items := (sorted_entries (visible_paths entries)).map (item disk canonical)
    refine ⟨⟨crates.digest (items.flatMap record), ?_, ?_⟩, ?_⟩
    · rw [fingerprint_workspace, fingerprint_workspace_with_limits, hstream', ok_bind]
      rfl
    · rw [fingerprint_workspace, fingerprint_workspace_with_limits, hstream, ok_bind]
      rfl
    · intro path target hne hlink
      have hvisible : visible path = true := by
        by_contra hnot
        rw [hsnap.control path (by simpa using hnot)] at hlink
        cases hlink
      have hlink₀ : look disk (canonical ++ path) = some (.link target) := by
        rw [hsnap.same path hne hvisible]
        exact hlink
      obtain ⟨hrelative, hinside⟩ := hlinks path target hne hvisible hlink₀
      obtain ⟨r, hr⟩ := Option.isSome_iff_exists.mp hinside
      have hr' := hr
      rw [inside_congr ⟨mode, 0o700, look_eq_dir.mpr ⟨entries, hat⟩, hsnap.copy⟩ hsnap.same _ _
        (visible_dropLast hvisible)] at hr'
      obtain ⟨-, hsource, hvisible_r⟩ := validated_of_inside hdisk hne hvisible hlink₀ hrelative hr
      obtain ⟨-, hcopy, -⟩ := validated_of_inside hsnap.valid hne hvisible hlink hrelative hr'
      exact ⟨r, hvisible_r, hsource, hcopy⟩
  · obtain ⟨print, -, hprint⟩ := hfaithful.fingerprints
    exact portableNames_of_fingerprint hdisk hcanonical hprint

end

/-! ## A link that returns, and one that stays -/

namespace Returning

def a : Name := [0x61]
def b : Name := [0x62]
def f : Name := [0x66]
def l : Name := [0x6C]
def s : Name := [0x73]
def w : Name := [0x77]

/-- A workspace at `/a/w` with a file `f` and a link `l` to it, and a directory `/b`. -/
def disk (target : Bytes) : Node :=
  .dir 0o755 [(a, .dir 0o755 [(w, .dir 0o700 [(f, .file 0o644 [0x68, 0x69]), (l, .link target)])]),
    (b, .dir 0o755 [])]

/-- The disk with the snapshot at `/b/s`. -/
def disk' (target : Bytes) : Node :=
  .dir 0o755 [(a, .dir 0o755 [(w, .dir 0o700 [(f, .file 0o644 [0x68, 0x69]), (l, .link target)])]),
    (b, .dir 0o755 [(s, .dir 0o700 [(f, .file 0o644 [0x68, 0x69]), (l, .link target)])])]

/-- `../w/f`: up from the workspace, and back into it by its name. -/
def up : Bytes := dotdot ++ slash :: w ++ slash :: f

/-- The link is copied, as its target is inside the workspace; and in the copy it leads nowhere. -/
theorem snapshot_unfaithful :
    ∃ disk₁ disk₂ root destination canonical, disk₁.Valid
      ∧ (∀ name ∈ destination, ValidName name) ∧ canonicalize disk₁ root = some canonical
      ∧ ¬ canonical <+: destination ∧ verification_snapshot disk₁ root destination = .ok disk₂
      ∧ PortableNames disk₁ canonical
      ∧ ∀ crates, ¬ FaithfulSnapshot crates disk₁ root canonical disk₂ destination := by
  have hvalid : (disk up).Valid := Node.valid_of_check (by decide)
  refine ⟨disk up, disk' up, [a, w], [b, s], [a, w], hvalid, by decide, by decide +kernel,
    by decide, rfl, ?_, ?_⟩
  · have hat : (disk up).at [a, w]
        = some (.dir 0o700 [(f, .file 0o644 [0x68, 0x69]), (l, .link up)]) := rfl
    exact portableNames_of_paths hvalid hat (by decide +kernel)
  · intro crates hfaithful
    obtain ⟨print, hprint, -⟩ := hfaithful.fingerprints
    rw [fingerprint_workspace, fingerprint_workspace_with_limits] at hprint
    simp only [bind_eq_ok, pure_eq_ok] at hprint
    obtain ⟨stream, hstream, -⟩ := hprint
    have hrejected : (fingerprint_stream (disk' up) [b, s] none).toOption = none := by
      decide +kernel
    rw [hstream] at hrejected
    cases hrejected

/-- The link `f` stays inside. -/
theorem snapshot_faithful_beside :
    LinksInside (disk f) [a, w] ∧ PortableNames (disk f) [a, w]
      ∧ FaithfulSnapshot Small.crates (disk f) [a, w] [a, w] (disk' f) [b, s] := by
  have hvalid : (disk f).Valid := Node.valid_of_check (by decide)
  have hat : (disk f).at [a, w]
      = some (.dir 0o700 [(f, .file 0o644 [0x68, 0x69]), (l, .link f)]) := rfl
  have hlinks := linksInside_of_paths hvalid hat (by decide +kernel)
  have hportable := portableNames_of_paths hvalid hat (by decide +kernel)
  exact ⟨hlinks, hportable, (snapshot_faithful hvalid (by decide) (by decide +kernel) (by decide)
    rfl).1 ⟨hlinks, hportable⟩⟩

end Returning

end Crony.Runner
