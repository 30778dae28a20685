/-
Replacing one row of a keyed table.

A statement that addresses a row by its key writes one row and leaves the others as they are.
Said that way, two statements on the same row are one, and a query after them finds either the
new row or a row that was there before. This file has the rules for such tables. It names
nothing of the repository.
-/
import Crony.Lib.Table

set_option autoImplicit false

namespace Crony.Lib

universe u v

variable {α : Type u} {κ : Type v}

/-- The row with the key becomes `b`; every other row stays. -/
def Replaced (k : α → κ) (key : κ) (b : α) (l m : List α) : Prop :=
  Updated (fun x y => (k x = key ∧ y = b) ∨ (k x ≠ key ∧ y = x)) l m

namespace Replaced

variable {k : α → κ} {key : κ} {a b c : α} {l m n : List α}

/-- A statement whose clause selects the key of `a`. -/
theorem of_updateWhere {p : α → Bool} {f : α → α} (hl : Keyed k l) (ha : a ∈ l)
    (hp : ∀ x ∈ l, p x = true ↔ k x = k a) : Replaced k (k a) (f a) l (updateWhere p f l) := by
  refine Updated.of_updateWhere ?_ ?_
  · intro x hx hpx
    have hkey := (hp x hx).mp hpx
    obtain rfl := hl.eq_of_mem hx ha hkey
    exact Or.inl ⟨rfl, rfl⟩
  · intro x hx hpx
    refine Or.inr ⟨fun hkey => ?_, rfl⟩
    rw [(hp x hx).mpr hkey] at hpx
    cases hpx

/-- Nothing is written. -/
theorem refl (hl : Keyed k l) (ha : a ∈ l) : Replaced k (k a) a l l := by
  refine Updated.refl ?_
  intro x hx
  by_cases hkey : k x = k a
  · exact Or.inl ⟨hkey, hl.eq_of_mem hx ha hkey⟩
  · exact Or.inr ⟨hkey, rfl⟩

/-- Of two statements on the same row the second counts. -/
theorem trans (h : Replaced k key b l m) (h' : Replaced k key c m n) (hb : k b = key) :
    Replaced k key c l n := by
  refine Updated.trans h h' ?_
  rintro x - y z (⟨hx, rfl⟩ | ⟨hx, rfl⟩) (⟨hy, rfl⟩ | ⟨hy, rfl⟩)
  · exact Or.inl ⟨hx, rfl⟩
  · exact absurd hb hy
  · exact absurd hy hx
  · exact Or.inr ⟨hx, rfl⟩

/-- Row by row. -/
theorem updated (h : Replaced k (k a) b l m) (hl : Keyed k l) (ha : a ∈ l) :
    Updated (fun x y => (x = a ∧ y = b) ∨ y = x) l m := by
  refine Updated.mono h fun x hx y hy => ?_
  rcases hy with ⟨hkey, hb⟩ | ⟨-, hsame⟩
  · exact Or.inl ⟨hl.eq_of_mem hx ha hkey, hb⟩
  · exact Or.inr hsame

/-- The new row is in the table. -/
theorem mem (h : Replaced k key b l m) (ha : a ∈ l) (hkey : k a = key) : b ∈ m := by
  obtain ⟨y, hy, ⟨-, rfl⟩ | ⟨hx, -⟩⟩ := Updated.exists_new h ha
  · exact hy
  · exact absurd hkey hx

/-- A row of the table is the new one, or was there before under another key. -/
theorem old (h : Replaced k key b l m) {y : α} (hy : y ∈ m) : y = b ∨ (y ∈ l ∧ k y ≠ key) := by
  obtain ⟨x, hx, ⟨-, rfl⟩ | ⟨hne, rfl⟩⟩ := Updated.exists_old h hy
  · exact Or.inl rfl
  · exact Or.inr ⟨hx, hne⟩

/-- A row under another key is still there. -/
theorem kept (h : Replaced k key b l m) {x : α} (hx : x ∈ l) (hne : k x ≠ key) : x ∈ m := by
  obtain ⟨y, hy, ⟨hkey, -⟩ | ⟨-, rfl⟩⟩ := Updated.exists_new h hx
  · exact absurd hkey hne
  · exact hy

/-- The keys are the same. -/
theorem keyed (h : Replaced k key b l m) (hl : Keyed k l) (hb : k b = key) : Keyed k m := by
  refine Updated.keyed h hl ?_
  rintro x y (⟨hx, rfl⟩ | ⟨-, rfl⟩)
  · exact hb.trans hx.symm
  · rfl

end Replaced

end Crony.Lib
