/-
The paths of a tree.

A directory is listed in the order of its enumeration, what is below an entry right behind the
entry. Every path at which there is something is listed once. This file names nothing of the
repository.
-/
import Crony.Lib.FileTree

set_option autoImplicit false

namespace Crony.Lib

/-! ## Listings -/

mutual

/-- The paths below the entries of a directory, in the order of enumeration. -/
def paths_below (path : List Name) : List (Name × Node) → List (List Name)
  | [] => []
  | (name, node) :: rest =>
      (path ++ [name]) :: (paths_in (path ++ [name]) node ++ paths_below path rest)

/-- The paths below a node. -/
def paths_in (path : List Name) : Node → List (List Name)
  | .dir _ entries => paths_below path entries
  | .file _ _ => []
  | .link _ => []
  | .other => []

end

/-! ## What is listed -/

/-- A directory without its first entry is valid. -/
theorem Node.Valid.tail {mode : Nat} {entry : Name × Node} {rest : List (Name × Node)}
    (h : (Node.dir mode (entry :: rest)).Valid) : (Node.dir mode rest).Valid := by
  obtain ⟨hnodup, hnames⟩ := h.names [] mode (entry :: rest) rfl
  rw [List.map_cons, List.nodup_cons] at hnodup
  -- below the directory nothing else is found without the entry
  have hbelow : ∀ name path m, (Node.dir mode rest).at (name :: path) = some m →
      (Node.dir mode (entry :: rest)).at (name :: path) = some m := by
    intro name path m hm
    rw [Node.at_cons] at hm ⊢
    cases hchild : child rest name with
    | none =>
      rw [hchild] at hm
      cases hm
    | some c =>
      have hne : entry.1 ≠ name := by
        rintro rfl
        exact hnodup.1 (List.mem_map.mpr ⟨_, child_mem hchild, rfl⟩)
      have hcons : child (entry :: rest) name = some c := by
        rw [child, if_neg hne, hchild]
      rw [hchild] at hm
      rw [hcons]
      exact hm
  refine ⟨?_, ?_⟩
  · intro path mode' entries' hat
    cases path with
    | nil =>
      rw [Node.at_nil] at hat
      injection hat with hat
      injection hat with hmode hentries
      rw [← hentries]
      exact ⟨hnodup.2, fun e he => hnames e (List.mem_cons_of_mem _ he)⟩
    | cons name path => exact h.names _ mode' entries' (hbelow name path _ hat)
  · intro path target hat
    cases path with
    | nil =>
      rw [Node.at_nil] at hat
      cases hat
    | cons name path => exact h.targets _ target (hbelow name path _ hat)

/-- The node of the first entry. -/
theorem Node.at_head (mode : Nat) (name : Name) (node : Node) (rest : List (Name × Node))
    (path : List Name) :
    (Node.dir mode ((name, node) :: rest)).at (name :: path) = node.at path := by
  rw [Node.at_cons, child, if_pos rfl]
  rfl

theorem Node.at_tail {mode : Nat} {name other : Name} (node : Node) (rest : List (Name × Node))
    (path : List Name) (h : name ≠ other) :
    (Node.dir mode ((name, node) :: rest)).at (other :: path)
      = (Node.dir mode rest).at (other :: path) := by
  rw [Node.at_cons, Node.at_cons, child, if_neg h]

theorem Node.Valid.head {mode : Nat} {name : Name} {node : Node} {rest : List (Name × Node)}
    (h : (Node.dir mode ((name, node) :: rest)).Valid) : node.Valid := by
  have hat : (Node.dir mode ((name, node) :: rest)).at [name] = some node := by
    rw [Node.at_head, Node.at_nil]
  exact h.at hat

/-- Nothing is below what is not a directory. -/
theorem listed_leaf {n : Node} {path p : List Name} (h : ∀ mode entries, n ≠ .dir mode entries) :
    p ∈ ([] : List (List Name)) ↔ ∃ q, q ≠ [] ∧ p = path ++ q ∧ (n.at q).isSome = true := by
  constructor
  · intro hmem
    cases hmem
  · rintro ⟨q, hne, -, hat⟩
    obtain ⟨name, q, rfl⟩ := List.exists_cons_of_ne_nil hne
    obtain ⟨m, hm⟩ := Option.isSome_iff_exists.mp hat
    obtain ⟨mode, entries, rfl⟩ := Node.dir_of_at_cons hm
    exact absurd rfl (h mode entries)

mutual

/-- **The listing of a directory** has the paths at which there is something below it. -/
theorem mem_paths_below {mode : Nat} (path : List Name) (entries : List (Name × Node))
    (h : (Node.dir mode entries).Valid) (p : List Name) :
    p ∈ paths_below path entries ↔
      ∃ q, q ≠ [] ∧ p = path ++ q ∧ ((Node.dir mode entries).at q).isSome = true := by
  match entries, h with
  | [], _ =>
    constructor
    · intro hmem
      cases hmem
    · rintro ⟨q, hne, -, hat⟩
      cases q with
      | nil => exact absurd rfl hne
      | cons name q => cases hat
  | (name, node) :: rest, h =>
    have hin := mem_paths_in (path ++ [name]) node h.head p
    have hbelow := mem_paths_below path rest h.tail p
    have hnodup := (h.names [] mode _ rfl).1
    rw [List.map_cons, List.nodup_cons] at hnodup
    rw [paths_below, List.mem_cons, List.mem_append, hin, hbelow]
    constructor
    · rintro (rfl | ⟨q, hne, rfl, hat⟩ | ⟨q, hne, rfl, hat⟩)
      · refine ⟨[name], List.cons_ne_nil _ _, rfl, ?_⟩
        rw [Node.at_head, Node.at_nil]
        rfl
      · refine ⟨name :: q, List.cons_ne_nil _ _, by simp, ?_⟩
        rw [Node.at_head]
        exact hat
      · obtain ⟨other, q, rfl⟩ := List.exists_cons_of_ne_nil hne
        refine ⟨other :: q, hne, rfl, ?_⟩
        have hother : name ≠ other := by
          rintro rfl
          rw [Node.at_cons] at hat
          cases hchild : child rest name with
          | none =>
            rw [hchild] at hat
            cases hat
          | some c => exact hnodup.1 (List.mem_map.mpr ⟨_, child_mem hchild, rfl⟩)
        rw [Node.at_tail node rest q hother]
        exact hat
    · rintro ⟨q, hne, rfl, hat⟩
      obtain ⟨other, q, rfl⟩ := List.exists_cons_of_ne_nil hne
      by_cases hother : name = other
      · subst hother
        rw [Node.at_head] at hat
        cases q with
        | nil => exact Or.inl rfl
        | cons next q => exact Or.inr (Or.inl ⟨next :: q, List.cons_ne_nil _ _, by simp, hat⟩)
      · rw [Node.at_tail node rest q hother] at hat
        exact Or.inr (Or.inr ⟨other :: q, hne, rfl, hat⟩)

theorem mem_paths_in (path : List Name) (n : Node) (h : n.Valid) (p : List Name) :
    p ∈ paths_in path n ↔ ∃ q, q ≠ [] ∧ p = path ++ q ∧ (n.at q).isSome = true := by
  match n, h with
  | .dir mode entries, h =>
    rw [paths_in]
    exact mem_paths_below path entries h p
  | .file _ _, _ => exact listed_leaf fun mode entries heq => by cases heq
  | .link _, _ => exact listed_leaf fun mode entries heq => by cases heq
  | .other, _ => exact listed_leaf fun mode entries heq => by cases heq

end

mutual

/-- No path is listed twice. -/
theorem nodup_paths_below {mode : Nat} (path : List Name) (entries : List (Name × Node))
    (h : (Node.dir mode entries).Valid) : (paths_below path entries).Nodup := by
  match entries, h with
  | [], _ => exact List.nodup_nil
  | (name, node) :: rest, h =>
    have hnodup := (h.names [] mode _ rfl).1
    rw [List.map_cons, List.nodup_cons] at hnodup
    -- what is listed below the other entries does not begin with this name
    have hrest : ∀ q, path ++ name :: q ∉ paths_below path rest := by
      intro q hmem
      obtain ⟨q', hne, heq, hat⟩ := (mem_paths_below path rest h.tail _).mp hmem
      have heq := List.append_cancel_left heq
      rw [← heq, Node.at_cons] at hat
      cases hchild : child rest name with
      | none =>
        rw [hchild] at hat
        cases hat
      | some c => exact hnodup.1 (List.mem_map.mpr ⟨_, child_mem hchild, rfl⟩)
    rw [paths_below, List.nodup_cons, List.mem_append, List.nodup_append]
    refine ⟨?_, nodup_paths_in (path ++ [name]) node h.head, nodup_paths_below path rest h.tail, ?_⟩
    · rintro (hmem | hmem)
      · obtain ⟨q, hne, heq, -⟩ := (mem_paths_in (path ++ [name]) node h.head _).mp hmem
        exact hne (List.self_eq_append_right.mp heq)
      · exact hrest [] hmem
    · rintro p hin _ hbelow rfl
      obtain ⟨q, -, rfl, -⟩ := (mem_paths_in (path ++ [name]) node h.head _).mp hin
      rw [List.append_assoc] at hbelow
      exact hrest q hbelow

theorem nodup_paths_in (path : List Name) (n : Node) (h : n.Valid) : (paths_in path n).Nodup := by
  match n, h with
  | .dir mode entries, h =>
    rw [paths_in]
    exact nodup_paths_below path entries h
  | .file _ _, _ => exact List.nodup_nil
  | .link _, _ => exact List.nodup_nil
  | .other, _ => exact List.nodup_nil

end

end Crony.Lib
