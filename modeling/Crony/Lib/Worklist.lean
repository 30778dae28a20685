/-
A search with a worklist.

The nodes of a graph are found by their keys; a key may lead nowhere, and the edges may run in
circles. The search takes the key on top of a stack, passes over what it has visited, and puts
the successors of a new node on the stack, until it meets a node that satisfies the goal. It
visits every node at most once, and with that it ends. Whether it finds the goal is decided by
reachability alone: the invariant is that a visited node is no goal and that each of its
successors is visited or on the stack.
-/
import Mathlib.Data.Finset.Card
import Mathlib.Logic.Relation

set_option autoImplicit false

namespace Crony.Lib

/-- A graph whose nodes are found by keys; only finitely many keys have one. -/
structure Graph (κ ν : Type) where
  keys : List κ
  node : κ → Option ν
  next : ν → List κ
  node_mem : ∀ k n, node k = some n → k ∈ keys

namespace Graph

variable {κ ν : Type} [DecidableEq κ] (g : Graph κ ν) (goal : ν → Bool)

/-- The stack, its top first, with some keys pushed one after another. -/
def push (new stack : List κ) : List κ := new.reverse ++ stack

omit [DecidableEq κ] in
theorem mem_push {new stack : List κ} {k : κ} : k ∈ push new stack ↔ k ∈ new ∨ k ∈ stack := by
  rw [push, List.mem_append, List.mem_reverse]

/-- What the search has not visited yet. -/
def open_keys (visited : List κ) : Finset κ := g.keys.toFinset.filter (· ∉ visited)

theorem open_keys_lt {k : κ} {n : ν} {visited : List κ} (hnode : g.node k = some n)
    (hnew : k ∉ visited) : (g.open_keys (k :: visited)).card < (g.open_keys visited).card := by
  apply Finset.card_lt_card
  rw [Finset.ssubset_iff_of_subset]
  · refine ⟨k, ?_, ?_⟩
    · rw [open_keys, Finset.mem_filter, List.mem_toFinset]
      exact ⟨g.node_mem k n hnode, hnew⟩
    · rw [open_keys, Finset.mem_filter]
      rintro ⟨-, hk⟩
      exact hk List.mem_cons_self
  · intro l hl
    rw [open_keys, Finset.mem_filter] at hl ⊢
    exact ⟨hl.1, fun h => hl.2 (List.mem_cons_of_mem k h)⟩

theorem open_keys_le (k : κ) (visited : List κ) :
    (g.open_keys (k :: visited)).card ≤ (g.open_keys visited).card := by
  apply Finset.card_le_card
  intro l hl
  rw [open_keys, Finset.mem_filter] at hl ⊢
  exact ⟨hl.1, fun h => hl.2 (List.mem_cons_of_mem k h)⟩

/-- **The search**: the stack, its top first, and what has been visited. -/
def search : List κ → List κ → Bool
  | [], _ => false
  | k :: rest, visited =>
    if k ∈ visited then search rest visited
    else
      match _hnode : g.node k with
      | none => search rest (k :: visited)
      | some n =>
        if goal n then true else search (push (g.next n) rest) (k :: visited)
termination_by stack visited => ((g.open_keys visited).card, stack.length)
decreasing_by
  · exact Prod.Lex.right _ (by simp)
  · rcases Nat.lt_or_eq_of_le (g.open_keys_le k visited) with hlt | heq
    · exact Prod.Lex.left _ _ hlt
    · rw [heq]
      exact Prod.Lex.right _ (by simp)
  · exact Prod.Lex.left _ _ (g.open_keys_lt _hnode ‹_›)

/-- One step along an edge. -/
def Edge (k l : κ) : Prop := ∃ n, g.node k = some n ∧ l ∈ g.next n

/-- A goal can be reached from a key. -/
def Reaches (k : κ) : Prop :=
  ∃ l n, Relation.ReflTransGen g.Edge k l ∧ g.node l = some n ∧ goal n = true

omit [DecidableEq κ] in
theorem reaches_of_edge {k l : κ} (hedge : g.Edge k l) (h : g.Reaches goal l) :
    g.Reaches goal k := by
  obtain ⟨m, n, hpath, hnode, hgoal⟩ := h
  exact ⟨m, n, Relation.ReflTransGen.head hedge hpath, hnode, hgoal⟩

/-- **What is found can be reached.** -/
theorem reaches_of_search {stack visited : List κ} (h : g.search goal stack visited = true) :
    ∃ k ∈ stack, g.Reaches goal k := by
  fun_induction search g goal stack visited with
  | case1 => cases h
  | case2 k rest visited hold ih =>
    obtain ⟨l, hl, hreach⟩ := ih h
    exact ⟨l, List.mem_cons_of_mem k hl, hreach⟩
  | case3 k rest visited hnew hnode ih =>
    obtain ⟨l, hl, hreach⟩ := ih h
    exact ⟨l, List.mem_cons_of_mem k hl, hreach⟩
  | case4 k rest visited hnew n hnode hgoal =>
    exact ⟨k, List.mem_cons_self, k, n, Relation.ReflTransGen.refl, hnode, hgoal⟩
  | case5 k rest visited hnew n hnode hgoal ih =>
    obtain ⟨l, hl, hreach⟩ := ih h
    rcases mem_push.mp hl with hl | hl
    · have hedge : g.Edge k l := ⟨n, hnode, hl⟩
      exact ⟨k, List.mem_cons_self, g.reaches_of_edge goal hedge hreach⟩
    · exact ⟨l, List.mem_cons_of_mem k hl, hreach⟩

/-- The invariant of the search. -/
def Explored (stack visited : List κ) : Prop :=
  ∀ k ∈ visited, ∀ n, g.node k = some n →
    goal n = false ∧ ∀ l ∈ g.next n, l ∈ visited ∨ l ∈ stack

/-- **What can be reached is found.** At the end the visited keys are closed under the edges. -/
theorem not_reaches_of_search {stack visited : List κ} (hexplored : g.Explored goal stack visited)
    (h : g.search goal stack visited = false) :
    ∀ k, k ∈ stack ∨ k ∈ visited → ¬ g.Reaches goal k := by
  fun_induction search g goal stack visited with
  | case1 visited =>
    intro k hk
    have hvisited : k ∈ visited := by simpa using hk
    rintro ⟨l, n, hpath, hnode, hgoal⟩
    have hclosed : l ∈ visited := by
      clear hnode hgoal
      induction hpath with
      | refl => exact hvisited
      | tail _ hedge ih =>
        obtain ⟨m, hm, hl⟩ := hedge
        simpa using (hexplored _ ih m hm).2 _ hl
    have hfalse := (hexplored l hclosed n hnode).1
    rw [hgoal] at hfalse
    cases hfalse
  | case2 k rest visited hold ih =>
    intro l hl
    apply ih _ h
    · rcases hl with hl | hl
      · rcases List.mem_cons.mp hl with rfl | hl
        · exact Or.inr hold
        · exact Or.inl hl
      · exact Or.inr hl
    · intro m hm n hn
      obtain ⟨hfalse, hnext⟩ := hexplored m hm n hn
      refine ⟨hfalse, fun l hl => ?_⟩
      rcases hnext l hl with hl | hl
      · exact Or.inl hl
      · rcases List.mem_cons.mp hl with rfl | hl
        · exact Or.inl hold
        · exact Or.inr hl
  | case3 k rest visited hnew hnode ih =>
    intro l hl
    apply ih _ h
    · rcases hl with hl | hl
      · rcases List.mem_cons.mp hl with rfl | hl
        · exact Or.inr List.mem_cons_self
        · exact Or.inl hl
      · exact Or.inr (List.mem_cons_of_mem k hl)
    · intro m hm n hn
      rcases List.mem_cons.mp hm with rfl | hm
      · rw [hnode] at hn
        cases hn
      · obtain ⟨hfalse, hnext⟩ := hexplored m hm n hn
        refine ⟨hfalse, fun l hl => ?_⟩
        rcases hnext l hl with hl | hl
        · exact Or.inl (List.mem_cons_of_mem k hl)
        · rcases List.mem_cons.mp hl with rfl | hl
          · exact Or.inl List.mem_cons_self
          · exact Or.inr hl
  | case4 k rest visited hnew n hnode hgoal => cases h
  | case5 k rest visited hnew n hnode hgoal ih =>
    intro l hl
    apply ih _ h
    · rcases hl with hl | hl
      · rcases List.mem_cons.mp hl with rfl | hl
        · exact Or.inr List.mem_cons_self
        · exact Or.inl (mem_push.mpr (Or.inr hl))
      · exact Or.inr (List.mem_cons_of_mem k hl)
    · intro m hm n' hn'
      rcases List.mem_cons.mp hm with rfl | hm
      · rw [hnode] at hn'
        injection hn' with hn'
        subst hn'
        refine ⟨by simpa using hgoal, fun l hl => Or.inr ?_⟩
        exact mem_push.mpr (Or.inl hl)
      · obtain ⟨hfalse, hnext⟩ := hexplored m hm n' hn'
        refine ⟨hfalse, fun l hl => ?_⟩
        rcases hnext l hl with hl | hl
        · exact Or.inl (List.mem_cons_of_mem k hl)
        · rcases List.mem_cons.mp hl with rfl | hl
          · exact Or.inl List.mem_cons_self
          · exact Or.inr (mem_push.mpr (Or.inr hl))

/-- **The search from one key** decides whether a goal can be reached. -/
theorem search_iff (k : κ) : g.search goal [k] [] = true ↔ g.Reaches goal k := by
  constructor
  · intro h
    obtain ⟨l, hl, hreach⟩ := g.reaches_of_search goal h
    rw [List.mem_singleton] at hl
    exact hl ▸ hreach
  · intro hreach
    by_contra h
    have hexplored : g.Explored goal [k] [] := fun l hl => by cases hl
    exact g.not_reaches_of_search goal hexplored (by simpa using h) k (Or.inl List.mem_cons_self)
      hreach

end Graph

end Crony.Lib
