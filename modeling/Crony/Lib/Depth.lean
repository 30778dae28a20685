/-
Chains in a dependency relation.

`r k d` says that `k` depends on `d`. A chain ending in `k` is a walk from `k` to one of
its dependencies, to one of theirs, and so on; the depth of `k` is the length of the
longest such chain. A node that has a depth lies on no cycle, because a cycle could be
walked once more.
-/
import Mathlib.Logic.Relation
import Mathlib.Order.Bounds.Basic

set_option autoImplicit false

namespace Crony.Lib

universe u

variable {α : Type u} {r : α → α → Prop}

/-- A chain of `n` dependencies ending in `k`. -/
inductive Chain (r : α → α → Prop) : Nat → α → Prop where
  | start (k : α) : Chain r 0 k
  | step {n : Nat} {k d : α} (h : r k d) (c : Chain r n d) : Chain r (n + 1) k

/-- The longest chain ending in `k` has length `n`. -/
def Depth (r : α → α → Prop) (k : α) (n : Nat) : Prop := IsGreatest {m | Chain r m k} n

/-- No node depends on itself, directly or through others. -/
def Acyclic (r : α → α → Prop) : Prop := ∀ k, ¬ Relation.TransGen r k k

theorem Depth.unique {k : α} {m n : Nat} (hm : Depth r k m) (hn : Depth r k n) : m = n :=
  IsGreatest.unique hm hn

/-- A chain can be continued behind every node that reaches its end. -/
theorem Chain.prolong {k d : α} (h : Relation.TransGen r k d) {n : Nat} (c : Chain r n d) :
    ∃ m, n < m ∧ Chain r m k := by
  induction h using Relation.TransGen.head_induction_on with
  | single hkd => exact ⟨n + 1, by omega, Chain.step hkd c⟩
  | head hkx _ ih =>
    obtain ⟨m, hm, cm⟩ := ih
    exact ⟨m + 1, by omega, Chain.step hkx cm⟩

/-- **A node with a depth lies on no cycle.** -/
theorem Depth.not_cyclic {k : α} {n : Nat} (h : Depth r k n) : ¬ Relation.TransGen r k k := by
  intro hcycle
  obtain ⟨m, hm, cm⟩ := Chain.prolong hcycle h.1
  have hle : m ≤ n := h.2 cm
  omega

/-- The depth of a node from the depths of its dependencies: `n` is above all of them, and
it is attained unless there are none. -/
theorem Depth.of_dependencies {k : α} {n : Nat}
    (habove : ∀ d, r k d → ∃ m, Depth r d m ∧ m + 1 ≤ n)
    (hattained : n = 0 ∨ ∃ d m, r k d ∧ Depth r d m ∧ n = m + 1) : Depth r k n := by
  refine ⟨?_, ?_⟩
  · rcases hattained with rfl | ⟨d, m, hkd, hd, rfl⟩
    · exact Chain.start k
    · exact Chain.step hkd hd.1
  · rintro m c
    cases c with
    | start => exact Nat.zero_le n
    | step hkd c =>
      obtain ⟨m', hd, hle⟩ := habove _ hkd
      have hc : _ ≤ m' := hd.2 c
      omega

end Crony.Lib
