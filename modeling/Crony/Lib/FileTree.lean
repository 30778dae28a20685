/-
Trees of files.

A directory holds named nodes, in the order in which they are enumerated; names are distinct,
not empty, and contain neither a slash nor NUL. A path is a list of names, and `look` says what
is there, links not followed. This file names nothing of the repository.
-/
import Mathlib.Data.List.Basic
import Mathlib.Data.List.Infix

set_option autoImplicit false

namespace Crony.Lib

/-- A file name, or a component of a path. -/
abbrev Name := List UInt8

def slash : UInt8 := 0x2F
def dot : Name := [0x2E]
def dotdot : Name := [0x2E, 0x2E]

/-- A node of the tree; `other` is a socket, a pipe or a device. -/
inductive Node where
  | file (mode : Nat) (content : List UInt8)
  | dir (mode : Nat) (entries : List (Name × Node))
  | link (target : List UInt8)
  | other

/-- The entry of a name. -/
def child : List (Name × Node) → Name → Option Node
  | [], _ => none
  | (n, node) :: rest, name => if n = name then some node else child rest name

/-- The node at a path, without following links. -/
def Node.at : Node → List Name → Option Node
  | n, [] => some n
  | .dir _ entries, name :: rest =>
    match child entries name with
    | some n => n.at rest
    | none => none
  | _, _ :: _ => none

/-- A name a directory entry can have. -/
structure ValidName (name : Name) : Prop where
  ne_nil : name ≠ []
  ne_dot : name ≠ dot
  ne_dotdot : name ≠ dotdot
  slash : slash ∉ name
  nul : 0 ∉ name

instance (name : Name) : Decidable (ValidName name) :=
  decidable_of_iff (name ≠ [] ∧ name ≠ dot ∧ name ≠ dotdot ∧ slash ∉ name ∧ 0 ∉ name)
    ⟨fun h => ⟨h.1, h.2.1, h.2.2.1, h.2.2.2.1, h.2.2.2.2⟩,
      fun h => ⟨h.ne_nil, h.ne_dot, h.ne_dotdot, h.slash, h.nul⟩⟩

/-- **Validity.** The names of every directory are valid and distinct, and link targets are
texts without NUL. -/
structure Node.Valid (n : Node) : Prop where
  names : ∀ path mode entries, n.at path = some (.dir mode entries) →
    (entries.map Prod.fst).Nodup ∧ ∀ entry ∈ entries, ValidName entry.1
  targets : ∀ path target, n.at path = some (.link target) → 0 ∉ target

/-! ## Lookups -/

theorem child_mem {entries : List (Name × Node)} {name : Name} {node : Node}
    (h : child entries name = some node) : (name, node) ∈ entries := by
  induction entries with
  | nil => cases h
  | cons entry rest ih =>
    obtain ⟨n, m⟩ := entry
    rw [child] at h
    split at h
    · rename_i hname
      injection h with h
      rw [hname, h]
      exact List.mem_cons_self
    · exact List.mem_cons_of_mem _ (ih h)

/-- Distinct names are found. -/
theorem child_of_mem {entries : List (Name × Node)} (hnodup : (entries.map Prod.fst).Nodup)
    {name : Name} {node : Node} (h : (name, node) ∈ entries) : child entries name = some node := by
  induction entries with
  | nil => cases h
  | cons entry rest ih =>
    obtain ⟨n, m⟩ := entry
    rw [List.map_cons, List.nodup_cons] at hnodup
    rw [child]
    rcases List.mem_cons.mp h with heq | hrest
    · injection heq with hname hnode
      rw [if_pos hname.symm, hnode]
    · have hne : n ≠ name := by
        rintro rfl
        exact hnodup.1 (List.mem_map.mpr ⟨(n, node), hrest, rfl⟩)
      rw [if_neg hne]
      exact ih hnodup.2 hrest

@[simp] theorem Node.at_nil (n : Node) : n.at [] = some n := by
  cases n <;> rfl

theorem Node.at_cons (mode : Nat) (entries : List (Name × Node)) (name : Name) (rest : List Name) :
    (Node.dir mode entries).at (name :: rest) = (child entries name).bind fun n => n.at rest := by
  rw [Node.at]
  cases child entries name <;> rfl

theorem Node.at_append (n : Node) (p q : List Name) :
    n.at (p ++ q) = (n.at p).bind fun m => m.at q := by
  induction p generalizing n with
  | nil => simp
  | cons name p ih =>
    cases n with
    | dir mode entries =>
      rw [List.cons_append, Node.at_cons, Node.at_cons]
      cases child entries name with
      | none => rfl
      | some m => exact ih m
    | file | link | other => rfl

/-- Only directories have something below them. -/
theorem Node.dir_of_at_cons {n m : Node} {name : Name} {rest : List Name}
    (h : n.at (name :: rest) = some m) : ∃ mode entries, n = .dir mode entries := by
  cases n with
  | dir mode entries => exact ⟨mode, entries, rfl⟩
  | file | link | other => cases h

theorem Node.Valid.at {n m : Node} (h : n.Valid) {path : List Name} (hat : n.at path = some m) :
    m.Valid where
  names := fun rest mode entries hrest =>
    h.names (path ++ rest) mode entries (by rw [Node.at_append, hat]; exact hrest)
  targets := fun rest target hrest =>
    h.targets (path ++ rest) target (by rw [Node.at_append, hat]; exact hrest)

/-- The names on the way to a node are valid. -/
theorem Node.Valid.names_at {n m : Node} (h : n.Valid) {path : List Name}
    (hat : n.at path = some m) : ∀ name ∈ path, ValidName name := by
  induction path generalizing n with
  | nil => simp
  | cons name rest ih =>
    obtain ⟨mode, entries, rfl⟩ := Node.dir_of_at_cons hat
    rw [Node.at_cons] at hat
    cases hchild : child entries name with
    | none =>
      rw [hchild] at hat
      cases hat
    | some c =>
      rw [hchild] at hat
      have hc : (Node.dir mode entries).at [name] = some c := by
        rw [Node.at_cons, hchild]
        simp
      intro other hother
      rcases List.mem_cons.mp hother with rfl | hother
      · exact (h.names [] mode entries rfl).2 _ (child_mem hchild)
      · exact ih (h.at hc) hat other hother

/-! ## Checking validity -/

mutual

/-- Validity, checked node by node. -/
def Node.check : Node → Bool
  | .dir _ entries => decide (entries.map Prod.fst).Nodup && check_entries entries
  | .link target => !target.contains 0
  | .file _ _ => true
  | .other => true

def check_entries : List (Name × Node) → Bool
  | [] => true
  | (name, node) :: rest => decide (ValidName name) && node.check && check_entries rest

end

theorem check_of_mem {entries : List (Name × Node)} (h : check_entries entries = true)
    {entry : Name × Node} (hentry : entry ∈ entries) :
    ValidName entry.1 ∧ entry.2.check = true := by
  induction entries with
  | nil => cases hentry
  | cons first rest ih =>
    obtain ⟨name, node⟩ := first
    rw [check_entries, Bool.and_eq_true, Bool.and_eq_true, decide_eq_true_eq] at h
    rcases List.mem_cons.mp hentry with rfl | hentry
    · exact h.1
    · exact ih h.2 hentry

theorem Node.check_at {n m : Node} (h : n.check = true) {path : List Name}
    (hat : n.at path = some m) : m.check = true := by
  induction path generalizing n with
  | nil =>
    rw [Node.at_nil] at hat
    injection hat with hat
    exact hat ▸ h
  | cons name rest ih =>
    obtain ⟨mode, entries, rfl⟩ := Node.dir_of_at_cons hat
    rw [Node.at_cons] at hat
    rw [Node.check, Bool.and_eq_true] at h
    cases hchild : child entries name with
    | none =>
      rw [hchild] at hat
      cases hat
    | some c =>
      rw [hchild] at hat
      exact ih (check_of_mem h.2 (child_mem hchild)).2 hat

/-- A tree that passes the check is valid. -/
theorem Node.valid_of_check {n : Node} (h : n.check = true) : n.Valid where
  names := by
    intro path mode entries hat
    have hdir := Node.check_at h hat
    rw [Node.check, Bool.and_eq_true, decide_eq_true_eq] at hdir
    exact ⟨hdir.1, fun entry hentry => (check_of_mem hdir.2 hentry).1⟩
  targets := by
    intro path target hat
    have hlink := Node.check_at h hat
    simpa [Node.check] using hlink

/-! ## What a path shows -/

/-- A node without what is below it. -/
inductive Shape where
  | file (mode : Nat) (content : List UInt8)
  | dir (mode : Nat)
  | link (target : List UInt8)
  | other
  deriving DecidableEq, Repr

def Node.shape : Node → Shape
  | .file mode content => .file mode content
  | .dir mode _ => .dir mode
  | .link target => .link target
  | .other => .other

/-- What `lstat`, `readlink` and `read` show at a path. -/
def look (disk : Node) (path : List Name) : Option Shape := (disk.at path).map Node.shape

theorem look_append (disk : Node) (p q : List Name) {n : Node} (h : disk.at p = some n) :
    look disk (p ++ q) = look n q := by
  rw [look, look, Node.at_append, h]
  rfl

theorem look_eq_link {disk : Node} {path : List Name} {target : List UInt8} :
    look disk path = some (.link target) ↔ disk.at path = some (.link target) := by
  rw [look]
  cases disk.at path with
  | none => simp
  | some n => cases n <;> simp [Node.shape]

theorem look_eq_dir {disk : Node} {path : List Name} {mode : Nat} :
    look disk path = some (.dir mode) ↔ ∃ entries, disk.at path = some (.dir mode entries) := by
  rw [look]
  cases disk.at path with
  | none => simp
  | some n => cases n <;> simp [Node.shape]

theorem look_eq_file {disk : Node} {path : List Name} {mode : Nat} {content : List UInt8} :
    look disk path = some (.file mode content) ↔ disk.at path = some (.file mode content) := by
  rw [look]
  cases disk.at path with
  | none => simp
  | some n => cases n <;> simp [Node.shape]

theorem look_isSome {disk : Node} {path : List Name} :
    (look disk path).isSome = (disk.at path).isSome := by
  rw [look, Option.isSome_map]

/-- The entry of a directory, from the path of the directory. -/
theorem at_child {disk : Node} {path : List Name} {mode : Nat} {entries : List (Name × Node)}
    (h : disk.at path = some (.dir mode entries)) (name : Name) :
    disk.at (path ++ [name]) = child entries name := by
  rw [Node.at_append, h, Option.bind_some, Node.at_cons]
  cases child entries name <;> simp

/-! ## Changes -/

/-- The entries with the node under a name replaced. -/
def replace_child (entries : List (Name × Node)) (name : Name) (node : Node) :
    List (Name × Node) :=
  entries.map fun entry => if entry.1 = name then (name, node) else entry

/-- A new node at a path whose parent is a directory without an entry of that name. -/
def create (disk : Node) : List Name → Node → Option Node
  | [], _ => none
  | name :: rest, node =>
    match disk with
    | .dir mode entries =>
      match rest, child entries name with
      | [], none => some (.dir mode (entries ++ [(name, node)]))
      | [], some _ => none
      | _ :: _, some below =>
        (create below rest node).map fun below => .dir mode (replace_child entries name below)
      | _ :: _, none => none
    | _ => none

/-- `chmod` of the node at a path. -/
def set_mode (disk : Node) (mode : Nat) : List Name → Option Node
  | [] =>
    match disk with
    | .dir _ entries => some (.dir mode entries)
    | .file _ content => some (.file mode content)
    | _ => none
  | name :: rest =>
    match disk with
    | .dir own entries =>
      match child entries name with
      | some below => (set_mode below mode rest).map fun below =>
          .dir own (replace_child entries name below)
      | none => none
    | _ => none

theorem child_append_singleton (entries : List (Name × Node)) (name : Name) (node : Node)
    (other : Name) (h : child entries name = none) :
    child (entries ++ [(name, node)]) other = if other = name then
      some node else child entries other := by
  induction entries with
  | nil =>
    rw [List.nil_append, child, child]
    by_cases hother : name = other
    · rw [if_pos hother, if_pos hother.symm]
    · rw [if_neg hother, if_neg (Ne.symm hother), child]
  | cons entry rest ih =>
    obtain ⟨n, m⟩ := entry
    rw [child] at h
    split at h
    · cases h
    · rename_i hne
      rw [List.cons_append, child, child, ih h]
      by_cases hother : n = other
      · subst hother
        rw [if_pos rfl, if_neg hne, if_pos rfl]
      · rw [if_neg hother, if_neg hother]

theorem child_replace_child (entries : List (Name × Node)) (name : Name) (node : Node)
    (other : Name) (h : (child entries name).isSome = true) :
    child (replace_child entries name node) other
      = if other = name then some node else child entries other := by
  induction entries with
  | nil => cases h
  | cons entry rest ih =>
    obtain ⟨n, m⟩ := entry
    rw [replace_child, List.map_cons, ← replace_child]
    by_cases hn : n = name
    · subst hn
      rw [if_pos rfl, child, child]
      by_cases hother : n = other
      · rw [if_pos hother, if_pos hother.symm]
      · rw [if_neg hother, if_neg (Ne.symm hother), if_neg hother]
        -- further entries of the name are not found, whatever they hold
        clear ih h
        induction rest with
        | nil => rfl
        | cons entry rest ih =>
          obtain ⟨n', m'⟩ := entry
          rw [replace_child, List.map_cons, ← replace_child]
          by_cases hn' : n' = n
          · rw [if_pos hn', child, child, if_neg hother, if_neg (hn' ▸ hother)]
            exact ih
          · rw [if_neg hn', child, child]
            by_cases hother' : n' = other
            · rw [if_pos hother', if_pos hother']
            · rw [if_neg hother', if_neg hother']
              exact ih
    · rw [child, if_neg hn] at h
      rw [if_neg hn, child, child, ih h]
      by_cases hother : n = other
      · subst hother
        rw [if_pos rfl, if_neg hn, if_pos rfl]
      · rw [if_neg hother, if_neg hother]

/-- The validity of a directory is that of what it holds. -/
theorem Node.valid_dir_iff {mode : Nat} {entries : List (Name × Node)} :
    (Node.dir mode entries).Valid ↔
      (entries.map Prod.fst).Nodup ∧ ∀ entry ∈ entries, ValidName entry.1 ∧ entry.2.Valid := by
  constructor
  · intro h
    obtain ⟨hnodup, hnames⟩ := h.names [] mode entries rfl
    refine ⟨hnodup, fun entry hentry => ⟨hnames entry hentry, ?_⟩⟩
    have hat : (Node.dir mode entries).at [entry.1] = some entry.2 := by
      rw [Node.at_cons, child_of_mem hnodup (by exact hentry), Option.bind_some, Node.at_nil]
    exact h.at hat
  · rintro ⟨hnodup, hentries⟩
    have hbelow : ∀ name path m, (Node.dir mode entries).at (name :: path) = some m →
        ∃ entry ∈ entries, entry.2.at path = some m := by
      intro name path m hm
      rw [Node.at_cons] at hm
      cases hchild : child entries name with
      | none =>
        rw [hchild] at hm
        cases hm
      | some c =>
        rw [hchild] at hm
        exact ⟨(name, c), child_mem hchild, hm⟩
    refine ⟨?_, ?_⟩
    · intro path mode' entries' hat
      cases path with
      | nil =>
        rw [Node.at_nil] at hat
        injection hat with hat
        injection hat with _ hsame
        rw [← hsame]
        exact ⟨hnodup, fun entry hentry => (hentries entry hentry).1⟩
      | cons name path =>
        obtain ⟨entry, hentry, hm⟩ := hbelow name path _ hat
        exact (hentries entry hentry).2.names path mode' entries' hm
    · intro path target hat
      cases path with
      | nil =>
        rw [Node.at_nil] at hat
        cases hat
      | cons name path =>
        obtain ⟨entry, hentry, hm⟩ := hbelow name path _ hat
        exact (hentries entry hentry).2.targets path target hm

theorem child_eq_none {entries : List (Name × Node)} {name : Name}
    (h : child entries name = none) : name ∉ entries.map Prod.fst := by
  induction entries with
  | nil => simp
  | cons entry rest ih =>
    obtain ⟨n, m⟩ := entry
    rw [child] at h
    split at h
    · cases h
    · rename_i hne
      rw [List.map_cons, List.mem_cons, not_or]
      exact ⟨fun heq => hne heq.symm, ih h⟩

theorem map_fst_replace_child (entries : List (Name × Node)) (name : Name) (node : Node) :
    (replace_child entries name node).map Prod.fst = entries.map Prod.fst := by
  rw [replace_child, List.map_map]
  apply List.map_congr_left
  intro entry _
  by_cases h : entry.1 = name
  · simp [h]
  · simp [h]

/-- Replacing a node by a valid one keeps a directory valid. -/
theorem valid_replace_child {mode : Nat} {entries : List (Name × Node)} {name : Name} {node : Node}
    (h : (Node.dir mode entries).Valid) (hnode : node.Valid) :
    (Node.dir mode (replace_child entries name node)).Valid := by
  obtain ⟨hnodup, hentries⟩ := Node.valid_dir_iff.mp h
  refine Node.valid_dir_iff.mpr ⟨by rw [map_fst_replace_child]; exact hnodup, ?_⟩
  intro entry hentry
  obtain ⟨old, hold, rfl⟩ := List.mem_map.mp hentry
  split
  · rename_i hname
    exact ⟨hname ▸ (hentries old hold).1, hnode⟩
  · exact hentries old hold

/-- A valid node under valid names keeps the tree valid. -/
theorem Node.Valid.create {disk disk' : Node} {path : List Name} {node : Node} (hdisk : disk.Valid)
    (hnode : node.Valid) (hpath : ∀ name ∈ path, ValidName name)
    (h : create disk path node = some disk') : disk'.Valid := by
  induction path generalizing disk disk' with
  | nil => cases h
  | cons name rest ih =>
    cases disk with
    | file | link | other => cases h
    | dir mode entries =>
      obtain ⟨hnodup, hentries⟩ := Node.valid_dir_iff.mp hdisk
      cases rest with
      | nil =>
        cases hchild : child entries name with
        | some m =>
          simp only [Lib.create, hchild] at h
          cases h
        | none =>
          simp only [Lib.create, hchild] at h
          injection h with h
          subst h
          refine Node.valid_dir_iff.mpr ⟨?_, ?_⟩
          · rw [List.map_append, List.nodup_append]
            refine ⟨hnodup, by simp, ?_⟩
            rintro a ha b hb rfl
            obtain rfl := List.mem_singleton.mp hb
            exact child_eq_none hchild ha
          · intro entry hentry
            rw [List.mem_append, List.mem_singleton] at hentry
            rcases hentry with hentry | rfl
            · exact hentries entry hentry
            · exact ⟨hpath name List.mem_cons_self, hnode⟩
      | cons next rest =>
        cases hchild : child entries name with
        | none =>
          simp only [Lib.create, hchild] at h
          cases h
        | some below =>
          simp only [Lib.create, hchild, Option.map_eq_some_iff] at h
          obtain ⟨below', hbelow, rfl⟩ := h
          have hvalid : below.Valid := (hentries _ (child_mem hchild)).2
          exact valid_replace_child hdisk
            (ih hvalid (fun n hn => hpath n (List.mem_cons_of_mem name hn)) hbelow)

/-- A mode is not part of validity. -/
theorem Node.Valid.set_mode {disk disk' : Node} {mode : Nat} {path : List Name}
    (hdisk : disk.Valid) (h : set_mode disk mode path = some disk') : disk'.Valid := by
  induction path generalizing disk disk' with
  | nil =>
    cases disk with
    | link | other => cases h
    | dir own entries =>
      injection h with h
      subst h
      exact Node.valid_dir_iff.mpr (Node.valid_dir_iff.mp hdisk)
    | file own content =>
      injection h with h
      subst h
      exact Node.valid_of_check rfl
  | cons name rest ih =>
    cases disk with
    | file | link | other => cases h
    | dir own entries =>
      rw [Lib.set_mode] at h
      cases hchild : child entries name with
      | none =>
        rw [hchild] at h
        cases h
      | some below =>
        rw [hchild] at h
        simp only [Option.map_eq_some_iff] at h
        obtain ⟨below', hbelow, rfl⟩ := h
        have hvalid : below.Valid := ((Node.valid_dir_iff.mp hdisk).2 _ (child_mem hchild)).2
        exact valid_replace_child hdisk (ih hvalid hbelow)

/-- **Creation** changes nothing but the paths below the new node. -/
theorem look_create {disk disk' : Node} {path : List Name} {node : Node}
    (h : create disk path node = some disk') (q : List Name) :
    look disk' q = if path <+: q then look node (q.drop path.length) else look disk q := by
  induction path generalizing disk disk' q with
  | nil => cases h
  | cons name rest ih =>
    cases disk with
    | file | link | other => cases h
    | dir mode entries =>
      cases rest with
      | nil =>
        cases hchild : child entries name with
        | some m =>
          simp only [create, hchild] at h
          cases h
        | none =>
          simp only [create, hchild] at h
          injection h with h
          subst h
          cases q with
          | nil => rfl
          | cons other q =>
            rw [look, Node.at_cons, child_append_singleton entries name node other hchild]
            by_cases hother : other = name
            · subst hother
              have hupto : [other] <+: other :: q := List.prefix_append [other] q
              rw [if_pos rfl, if_pos hupto]
              rfl
            · have hnot : ¬ [name] <+: other :: q := by
                intro hupto
                exact hother (List.cons_prefix_cons.mp hupto).1.symm
              rw [if_neg hother, if_neg hnot, look, Node.at_cons]
      | cons next rest =>
        cases hchild : child entries name with
        | none =>
          simp only [create, hchild] at h
          cases h
        | some below =>
          simp only [create, hchild, Option.map_eq_some_iff] at h
          obtain ⟨below', hbelow, rfl⟩ := h
          cases q with
          | nil => rfl
          | cons other q =>
            rw [look, Node.at_cons, child_replace_child entries name below' other
              (by rw [hchild]; rfl)]
            by_cases hother : other = name
            · subst hother
              have hq := ih hbelow q
              rw [if_pos rfl, Option.bind_some, ← look, hq]
              by_cases hupto : next :: rest <+: q
              · rw [if_pos hupto, if_pos (List.cons_prefix_cons.mpr ⟨rfl, hupto⟩)]
                rfl
              · rw [if_neg hupto, if_neg fun hcons => hupto (List.cons_prefix_cons.mp hcons).2,
                  look, look, Node.at_cons, hchild]
                rfl
            · have hnot : ¬ name :: next :: rest <+: other :: q := by
                intro hupto
                exact hother (List.cons_prefix_cons.mp hupto).1.symm
              rw [if_neg hother, if_neg hnot, look, Node.at_cons]

/-- A directory or a file with another mode. -/
def Shape.set_mode (mode : Nat) : Shape → Shape
  | .dir _ => .dir mode
  | .file _ content => .file mode content
  | shape => shape

/-- **`chmod`** changes nothing but the mode at its path. -/
theorem look_set_mode {disk disk' : Node} {mode : Nat} {path : List Name}
    (h : set_mode disk mode path = some disk') (q : List Name) :
    look disk' q = if q = path then (look disk q).map (Shape.set_mode mode) else look disk q := by
  induction path generalizing disk disk' q with
  | nil =>
    cases disk with
    | link | other => cases h
    | dir own entries =>
      injection h with h
      subst h
      cases q with
      | nil => rfl
      | cons name q => rfl
    | file own content =>
      injection h with h
      subst h
      cases q with
      | nil => rfl
      | cons name q => rfl
  | cons name rest ih =>
    cases disk with
    | file | link | other => cases h
    | dir own entries =>
      rw [Lib.set_mode] at h
      cases hchild : child entries name with
      | none =>
        rw [hchild] at h
        cases h
      | some below =>
        rw [hchild] at h
        simp only [Option.map_eq_some_iff] at h
        obtain ⟨below', hbelow, rfl⟩ := h
        cases q with
        | nil => rfl
        | cons other q =>
          rw [look, Node.at_cons, child_replace_child entries name below' other
            (by rw [hchild]; rfl)]
          by_cases hother : other = name
          · subst hother
            have hq := ih hbelow q
            have hlook : look (Node.dir own entries) (other :: q) = look below q := by
              rw [look, look, Node.at_cons, hchild]
              rfl
            rw [if_pos rfl, Option.bind_some, ← look, hq, hlook]
            by_cases heq : q = rest
            · rw [if_pos heq, if_pos (by rw [heq])]
            · rw [if_neg heq, if_neg fun hcons => heq (List.cons.inj hcons).2]
          · rw [if_neg hother, if_neg fun hcons => hother (List.cons.inj hcons).1, look,
              Node.at_cons]

end Crony.Lib
