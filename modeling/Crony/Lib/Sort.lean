/-
Arrangements of a table.

A list that is sorted by a key depends only on which elements it has, as soon as no two of
them share a key: two sorted arrangements of the same elements are the same list. Code that
sorts before it selects is therefore independent of the order in which it was given its
candidates.
-/
import Mathlib.Data.List.Sort
import Crony.Lib.Table

set_option autoImplicit false

namespace Crony.Lib

universe u v

variable {α : Type u} {κ : Type v} [LinearOrder κ]

/-- `sort_by_key`: elements with equal keys keep their order. -/
def sort_by_key (key : α → κ) (l : List α) : List α :=
  l.insertionSort fun a b => key a ≤ key b

theorem sort_by_key_perm (key : α → κ) (l : List α) : (sort_by_key key l).Perm l := by
  rw [sort_by_key]
  exact List.perm_insertionSort _ l

theorem mem_sort_by_key {key : α → κ} {l : List α} {a : α} : a ∈ sort_by_key key l ↔ a ∈ l :=
  (sort_by_key_perm key l).mem_iff

/-- The result is sorted. -/
theorem sort_by_key_pairwise (key : α → κ) (l : List α) :
    (sort_by_key key l).Pairwise fun a b => key a ≤ key b := by
  have : Std.Total fun a b : α => key a ≤ key b := ⟨fun a b => le_total (key a) (key b)⟩
  have : IsTrans α fun a b => key a ≤ key b := ⟨fun _ _ _ => le_trans⟩
  rw [sort_by_key]
  exact List.pairwise_insertionSort _ l

/-- **Sorting forgets the order.** Two arrangements of elements with distinct keys are sorted
to the same list. -/
theorem sort_by_key_congr {key : α → κ} {l m : List α} (hperm : l.Perm m)
    (hkey : ∀ a ∈ l, ∀ b ∈ l, key a = key b → a = b) : sort_by_key key l = sort_by_key key m := by
  have hsorted : (sort_by_key key l).Perm (sort_by_key key m) :=
    (sort_by_key_perm key l).trans (hperm.trans (sort_by_key_perm key m).symm)
  refine hsorted.eq_of_pairwise ?_ (sort_by_key_pairwise key l) (sort_by_key_pairwise key m)
  intro a b ha hb hab hba
  have ha' : a ∈ l := mem_sort_by_key.mp ha
  have hb' : b ∈ l := hperm.mem_iff.mpr (mem_sort_by_key.mp hb)
  exact hkey a ha' b hb' (le_antisymm hab hba)

/-- A list with strictly increasing keys is its own sorting. -/
theorem sort_by_key_eq_self {key : α → κ} {l : List α}
    (h : l.Pairwise fun a b => key a < key b) : sort_by_key key l = l := by
  have hle : l.Pairwise fun a b => key a ≤ key b := h.imp fun hab => le_of_lt hab
  have : Std.Total fun a b : α => key a ≤ key b := ⟨fun a b => le_total (key a) (key b)⟩
  have : IsTrans α fun a b => key a ≤ key b := ⟨fun _ _ _ => le_trans⟩
  rw [sort_by_key]
  exact hle.insertionSort_eq

/-- A keyed lookup does not depend on the order of the rows. -/
theorem Keyed.find?_perm {β : Type*} [DecidableEq β] {k : α → β} {l m : List α} (h : Keyed k l)
    (hperm : l.Perm m) (x : β) : l.find? (fun a => k a == x) = m.find? fun a => k a == x := by
  have hm : Keyed k m := (hperm.map k).nodup_iff.mp h
  rcases hl : l.find? (fun a => k a == x) with _ | a
  · symm
    rw [List.find?_eq_none] at hl ⊢
    exact fun a ha => hl a (hperm.mem_iff.mpr ha)
  · have ha : a ∈ m := hperm.mem_iff.mp (List.mem_of_find?_eq_some hl)
    have hx : k a = x := by simpa using List.find?_some hl
    rw [← hx]
    exact (hm.find?_eq_some ha).symm

end Crony.Lib
