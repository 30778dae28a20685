/-
Texts that are put together from parts, and what can be read back.

Parts joined by a separator can be read back where none of them contains it; where some do, what
is left is the list of all pieces between separators. This file names nothing of the repository.
-/
import Mathlib.Algebra.Ring.Nat
import Mathlib.Data.List.Basic

set_option autoImplicit false

namespace Crony.Lib

universe u

variable {α : Type u}

/-! ## Separators -/

theorem intercalate_cons_cons (x : α) (l l' : List α) (ls : List (List α)) :
    [x].intercalate (l :: l' :: ls) = l ++ x :: [x].intercalate (l' :: ls) := by
  simp [List.intercalate, List.intersperse]

/-- What occurs in a part occurs in the whole. -/
theorem mem_intercalate {x : α} {ls : List (List α)} {l : List α} {a : α} (hl : l ∈ ls)
    (ha : a ∈ l) :
    a ∈ [x].intercalate ls := by
  induction ls with
  | nil => cases hl
  | cons l' ls ih =>
    cases ls with
    | nil =>
      rw [List.mem_singleton] at hl
      subst hl
      simpa using ha
    | cons l'' ls =>
      rw [intercalate_cons_cons, List.mem_append, List.mem_cons]
      rcases List.mem_cons.mp hl with rfl | hl
      · exact Or.inl ha
      · exact Or.inr (Or.inr (ih hl))

/-- What occurs in the whole is the separator or occurs in a part. -/
theorem eq_or_mem_of_mem_intercalate {x : α} {ls : List (List α)} {a : α}
    (h : a ∈ [x].intercalate ls) : a = x ∨ ∃ l ∈ ls, a ∈ l := by
  induction ls with
  | nil => simp at h
  | cons l ls ih =>
    cases ls with
    | nil =>
      have h : a ∈ l := by simpa using h
      exact Or.inr ⟨l, List.mem_singleton_self l, h⟩
    | cons l' ls =>
      rw [intercalate_cons_cons, List.mem_append, List.mem_cons] at h
      rcases h with h | h | h
      · exact Or.inr ⟨l, List.mem_cons_self, h⟩
      · exact Or.inl h
      · rcases ih h with h | ⟨m, hm, ha⟩
        · exact Or.inl h
        · exact Or.inr ⟨m, List.mem_cons_of_mem l hm, ha⟩

section

variable [DecidableEq α] {x : α}

/-- A part without the separator is one piece. -/
theorem splitOn_of_notMem {l : List α} (h : x ∉ l) : l.splitOn x = [l] := by
  have hone : ∀ part ∈ [l], x ∉ part := by simpa using h
  simpa using List.splitOn_intercalate x hone (List.cons_ne_nil _ _)

/-- The pieces of joined parts are the pieces of the parts. -/
theorem splitOn_intercalate_eq_flatMap (ls : List (List α)) (h : ls ≠ []) :
    ([x].intercalate ls).splitOn x = ls.flatMap (List.splitOn x) := by
  induction ls with
  | nil => exact absurd rfl h
  | cons l ls ih =>
    cases ls with
    | nil => simp
    | cons l' ls =>
      rw [intercalate_cons_cons, List.splitOn_append_cons_self, ih (List.cons_ne_nil _ _)]
      exact List.flatMap_cons.symm

/-- Parts are determined by their pieces. -/
theorem eq_of_splitOn_eq {l m : List α} (h : l.splitOn x = m.splitOn x) : l = m := by
  have hl : [x].intercalate (l.splitOn x) = l := List.intercalate_splitOn x
  have hm : [x].intercalate (m.splitOn x) = m := List.intercalate_splitOn x
  rw [← hl, h, hm]

end

/-! ## Self-delimiting records -/

universe v

section

variable {β : Type v}

/-- **Self-delimiting.** Where a record of the values in `P` ends can be read off the record,
whatever follows it. -/
def Delimited (P : β → Prop) (write : β → List α) : Prop :=
  ∀ a b r s, P a → P b → write a ++ r = write b ++ s → a = b ∧ r = s

/-- Records of one length that differ for different values. -/
theorem Delimited.of_length {P : β → Prop} {write : β → List α} {n : Nat}
    (hlength : ∀ a, (write a).length = n)
    (hinj : ∀ a b, P a → P b → write a = write b → a = b) : Delimited P write := by
  intro a b r s ha hb h
  obtain ⟨hwrite, hrest⟩ := List.append_inj h (by rw [hlength, hlength])
  exact ⟨hinj a b ha hb hwrite, hrest⟩

/-- A text that ends at a terminator it does not contain. -/
theorem Delimited.terminated (x : α) : Delimited (fun l => x ∉ l) fun l : List α => l ++ [x] := by
  intro a b r s ha hb h
  simp only [List.append_assoc, List.singleton_append] at h
  induction a generalizing b with
  | nil =>
    cases b with
    | nil =>
      injection h with _ h
      exact ⟨rfl, h⟩
    | cons y b =>
      injection h with hxy _
      exact absurd (hxy ▸ List.mem_cons_self) hb
  | cons y a ih =>
    cases b with
    | nil =>
      injection h with hyx _
      exact absurd (hyx ▸ List.mem_cons_self) ha
    | cons z b =>
      injection h with hyz h
      obtain ⟨rfl, hrest⟩ := ih b (fun hmem => ha (List.mem_cons_of_mem _ hmem))
        (fun hmem => hb (List.mem_cons_of_mem _ hmem)) h
      exact ⟨by rw [hyz], hrest⟩

/-- **Records one after the other.** Nonempty self-delimiting records can be read back from
their concatenation. -/
theorem Delimited.flatMap_inj {P : β → Prop} {write : β → List α} (h : Delimited P write)
    (hne : ∀ a, P a → write a ≠ []) {l m : List β} (hl : ∀ a ∈ l, P a) (hm : ∀ a ∈ m, P a)
    (heq : l.flatMap write = m.flatMap write) : l = m := by
  induction l generalizing m with
  | nil =>
    cases m with
    | nil => rfl
    | cons b m =>
      rw [List.flatMap_nil, List.flatMap_cons] at heq
      exact absurd (List.append_eq_nil_iff.mp heq.symm).1 (hne b (hm b List.mem_cons_self))
  | cons a l ih =>
    cases m with
    | nil =>
      rw [List.flatMap_nil, List.flatMap_cons] at heq
      exact absurd (List.append_eq_nil_iff.mp heq).1 (hne a (hl a List.mem_cons_self))
    | cons b m =>
      rw [List.flatMap_cons, List.flatMap_cons] at heq
      obtain ⟨rfl, hrest⟩ := h a b _ _ (hl a List.mem_cons_self) (hm b List.mem_cons_self) heq
      rw [ih (fun c hc => hl c (List.mem_cons_of_mem _ hc))
        (fun c hc => hm c (List.mem_cons_of_mem _ hc)) hrest]

end

/-! ## Fixed-width integers -/

/-- The bytes of a number, the lowest first. -/
def le_bytes : Nat → Nat → List UInt8
  | 0, _ => []
  | width + 1, n => UInt8.ofNat (n % 256) :: le_bytes width (n / 256)

@[simp] theorem length_le_bytes (width n : Nat) : (le_bytes width n).length = width := by
  induction width generalizing n with
  | zero => rfl
  | succ width ih => rw [le_bytes, List.length_cons, ih]

/-- A number that fits is determined by its bytes. -/
theorem le_bytes_inj {width m n : Nat} (hm : m < 256 ^ width) (hn : n < 256 ^ width)
    (h : le_bytes width m = le_bytes width n) : m = n := by
  induction width generalizing m n with
  | zero =>
    rw [Nat.pow_zero] at hm hn
    omega
  | succ width ih =>
    rw [le_bytes, le_bytes] at h
    injection h with hlow hhigh
    have hlow : m % 256 = n % 256 := by
      have hval := congrArg UInt8.toNat hlow
      rwa [UInt8.toNat_ofNat', UInt8.toNat_ofNat', Nat.mod_mod, Nat.mod_mod] at hval
    have hhigh : m / 256 = n / 256 := by
      apply ih _ _ hhigh
      · rw [Nat.pow_succ] at hm
        omega
      · rw [Nat.pow_succ] at hn
        omega
    omega

end Crony.Lib
