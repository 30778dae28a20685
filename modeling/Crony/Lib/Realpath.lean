/-
Paths without links.

`resolve` is `realpath`: it walks a path component by component, goes up at `..`, and splices in
the target of every symbolic link it meets, at most so many times. Where it ends depends only on
what the paths of the disk show. This file names nothing of the repository.
-/
import Crony.Lib.FileTree

set_option autoImplicit false

namespace Crony.Lib

/-! ## Resolution -/

/-- One walk along the components of a path; what follows a link is left to `follow`. -/
def resolve_with (follow : List Name → List Name → Option (List Name)) (disk : Node) :
    List Name → List Name → Option (List Name)
  | cur, [] => some cur
  | cur, component :: rest =>
    match disk.at cur with
    | some (.dir _ entries) =>
      if component = [] ∨ component = dot then resolve_with follow disk cur rest
      else if component = dotdot then resolve_with follow disk cur.dropLast rest
      else
        match child entries component with
        | some (.link target) =>
          follow (if target.head? = some slash then [] else cur) (target.splitOn slash ++ rest)
        | some _ => resolve_with follow disk (cur ++ [component]) rest
        | none => none
    | _ => none

/-- The path without links that a walk from a directory ends at, after at most `n` links. -/
def resolve (disk : Node) : Nat → List Name → List Name → Option (List Name)
  | 0 => resolve_with (fun _ _ => none) disk
  | n + 1 => resolve_with (resolve disk n) disk

/-- The links `realpath` follows before it gives up. -/
def MAXSYMLINKS : Nat := 40

/-- `realpath` of an absolute path. -/
def canonicalize (disk : Node) (path : List Name) : Option (List Name) :=
  resolve disk MAXSYMLINKS [] path

/-- Resolution depends only on what the paths show. -/
theorem resolve_with_congr {follow follow' : List Name → List Name → Option (List Name)}
    {disk disk' : Node} (hfollow : ∀ cur rest, follow cur rest = follow' cur rest)
    (h : ∀ path, look disk path = look disk' path) (cur rest : List Name) :
    resolve_with follow disk cur rest = resolve_with follow' disk' cur rest := by
  induction rest generalizing cur with
  | nil => rfl
  | cons component rest ih =>
    have hcur := h cur
    rw [resolve_with, resolve_with]
    cases hat : disk.at cur with
    | none =>
      rw [look, hat, look] at hcur
      cases hat' : disk'.at cur with
      | none => rfl
      | some n =>
        rw [hat'] at hcur
        cases hcur
    | some n =>
      cases n with
      | dir mode entries =>
        obtain ⟨entries', hat'⟩ := look_eq_dir.mp (hcur ▸ look_eq_dir.mpr ⟨entries, hat⟩)
        rw [hat']
        simp only [ih]
        have hchild := h (cur ++ [component])
        rw [look, look, at_child hat, at_child hat'] at hchild
        split
        · rfl
        · split
          · rfl
          · cases hc : child entries component with
            | none =>
              rw [hc] at hchild
              cases hc' : child entries' component with
              | none => rfl
              | some m' =>
                rw [hc'] at hchild
                cases hchild
            | some m =>
              rw [hc] at hchild
              cases hc' : child entries' component with
              | none =>
                rw [hc'] at hchild
                cases hchild
              | some m' =>
                rw [hc'] at hchild
                have hshape : m.shape = m'.shape := by simpa using hchild
                cases m <;> cases m' <;> cases hshape <;> simp [hfollow]
      | file mode content =>
        have hat' := look_eq_file.mp (hcur ▸ look_eq_file.mpr hat)
        rw [hat']
      | link target =>
        have hat' := look_eq_link.mp (hcur ▸ look_eq_link.mpr hat)
        rw [hat']
      | other =>
        rw [look, hat, look] at hcur
        cases hat' : disk'.at cur with
        | none => rfl
        | some m =>
          rw [hat'] at hcur
          have hshape : Shape.other = m.shape := by simpa [Node.shape] using hcur
          cases m <;> cases hshape
          rfl

theorem resolve_congr {disk disk' : Node} (h : ∀ path, look disk path = look disk' path)
    (n : Nat) (cur rest : List Name) : resolve disk n cur rest = resolve disk' n cur rest := by
  induction n generalizing cur rest with
  | zero => exact resolve_with_congr (fun _ _ => rfl) h cur rest
  | succ n ih => exact resolve_with_congr ih h cur rest

/-- A walk down directories to where it is going. -/
theorem resolve_with_walk {follow : List Name → List Name → Option (List Name)} {disk : Node}
    {cur path : List Name} {mode : Nat} {entries : List (Name × Node)}
    (h : disk.at (cur ++ path) = some (.dir mode entries)) (hpath : ∀ name ∈ path, ValidName name)
    (rest : List Name) :
    resolve_with follow disk cur (path ++ rest) = resolve_with follow disk (cur ++ path) rest := by
  induction path generalizing cur with
  | nil => rw [List.nil_append, List.append_nil]
  | cons name path ih =>
    have hname := hpath name List.mem_cons_self
    -- where the walk is and where it goes next are directories
    have hcur : ∃ mode' entries', disk.at cur = some (.dir mode' entries') := by
      rw [Node.at_append] at h
      cases hat : disk.at cur with
      | none =>
        rw [hat] at h
        cases h
      | some n =>
        rw [hat] at h
        obtain ⟨mode', entries', rfl⟩ := Node.dir_of_at_cons h
        exact ⟨mode', entries', rfl⟩
    obtain ⟨mode', entries', hat⟩ := hcur
    have hsplit : cur ++ name :: path = cur ++ [name] ++ path := by simp
    rw [hsplit] at h ⊢
    have hnext : ∃ mode'' entries'', child entries' name = some (.dir mode'' entries'') := by
      rw [← at_child hat]
      cases path with
      | nil =>
        rw [List.append_nil] at h
        exact ⟨mode, entries, h⟩
      | cons next path =>
        rw [Node.at_append] at h
        cases hn : disk.at (cur ++ [name]) with
        | none =>
          rw [hn] at h
          cases h
        | some n =>
          rw [hn] at h
          obtain ⟨mode'', entries'', rfl⟩ := Node.dir_of_at_cons h
          exact ⟨mode'', entries'', rfl⟩
    obtain ⟨mode'', entries'', hchild⟩ := hnext
    rw [List.cons_append, resolve_with, hat]
    have hplain : ¬ (name = [] ∨ name = dot) := by
      rintro (rfl | rfl)
      · exact hname.ne_nil rfl
      · exact hname.ne_dot rfl
    simp only [hplain, hname.ne_dotdot, hchild, if_false]
    exact ih h fun n hn => hpath n (List.mem_cons_of_mem name hn)

theorem resolve_walk {disk : Node} {cur path : List Name} {mode : Nat}
    {entries : List (Name × Node)} (h : disk.at (cur ++ path) = some (.dir mode entries))
    (hpath : ∀ name ∈ path, ValidName name) (n : Nat) (rest : List Name) :
    resolve disk n cur (path ++ rest) = resolve disk n (cur ++ path) rest := by
  cases n with
  | zero => exact resolve_with_walk h hpath rest
  | succ n => exact resolve_with_walk h hpath rest

theorem resolve_nil (disk : Node) (n : Nat) (cur : List Name) :
    resolve disk n cur [] = some cur := by
  cases n <;> rfl

/-- The path of a directory is its own canonical path. -/
theorem canonicalize_of_dir {disk : Node} (hdisk : disk.Valid) {path : List Name} {mode : Nat}
    {entries : List (Name × Node)} (h : disk.at path = some (.dir mode entries)) :
    canonicalize disk path = some path := by
  have hwalk := @resolve_walk disk [] path mode entries h (hdisk.names_at h) MAXSYMLINKS []
  rw [List.append_nil, List.nil_append, resolve_nil] at hwalk
  exact hwalk

end Crony.Lib
