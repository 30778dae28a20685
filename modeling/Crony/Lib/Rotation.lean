/-
Taking turns.

A list sorted by a key falls into chunks of equal keys; a cursor names the key visited last,
and the next turn starts behind it, cyclically. This file has the three pieces: chunks of a
sorted list, the position behind a cursor, and two facts about turns taken round a list, that
windows of `m` turns laid end to end cover it and that as many single turns as it has elements
visit each element once.
-/
import Mathlib.Data.List.Rotate
import Mathlib.Data.List.Sort

set_option autoImplicit false

namespace Crony.Lib

universe u v

variable {α : Type u} {κ : Type v}

/-! ## Chunks -/

/-- `slice::chunk_by`: the maximal runs of neighbours that are `same`. -/
def chunk_by (same : α → α → Bool) : List α → List (List α)
  | [] => []
  | a :: l =>
    match chunk_by same l with
    | (b :: peers) :: rest =>
      if same a b then (a :: b :: peers) :: rest else [a] :: (b :: peers) :: rest
    | chunks => [a] :: chunks

theorem chunk_by_flatten (same : α → α → Bool) (l : List α) : (chunk_by same l).flatten = l := by
  induction l with
  | nil => rfl
  | cons a l ih =>
    simp only [chunk_by]
    split
    · rename_i b peers rest hchunks
      rw [hchunks] at ih
      split
      · rw [← ih]
        rfl
      · rw [← ih]
        rfl
    · rw [List.flatten_cons, ih]
      rfl

theorem chunk_by_ne_nil {same : α → α → Bool} {l chunk : List α} (h : chunk ∈ chunk_by same l) :
    chunk ≠ [] := by
  induction l generalizing chunk with
  | nil => cases h
  | cons a l ih =>
    simp only [chunk_by] at h
    split at h
    · rename_i b peers rest hchunks
      have hrest : ∀ c ∈ rest, c ≠ [] := fun c hc =>
        ih (by rw [hchunks]; exact List.mem_cons_of_mem _ hc)
      split at h
      · rcases List.mem_cons.mp h with rfl | h
        · exact List.cons_ne_nil _ _
        · exact hrest chunk h
      · rcases List.mem_cons.mp h with rfl | h
        · exact List.cons_ne_nil _ _
        · rcases List.mem_cons.mp h with rfl | h
          · exact List.cons_ne_nil _ _
          · exact hrest chunk h
    · rcases List.mem_cons.mp h with rfl | h
      · exact List.cons_ne_nil _ _
      · exact ih h

section Sorted

variable [LinearOrder κ] {key : α → κ} {l : List α}

/-- The members of a chunk share their key. -/
theorem chunk_by_key {chunk : List α} (h : chunk ∈ chunk_by (fun a b => key a == key b) l) {a b : α}
    (ha : a ∈ chunk) (hb : b ∈ chunk) : key a = key b := by
  induction l generalizing chunk a b with
  | nil => cases h
  | cons x l ih =>
    simp only [chunk_by] at h
    split at h
    · rename_i y peers rest hchunks
      have hpeers : ∀ {c d : α}, c ∈ y :: peers → d ∈ y :: peers → key c = key d := fun hc hd =>
        ih (by rw [hchunks]; exact List.mem_cons_self) hc hd
      have hrest : chunk ∈ rest → key a = key b := fun hc =>
        ih (by rw [hchunks]; exact List.mem_cons_of_mem _ hc) ha hb
      split at h
      · rename_i hxy
        have hx : ∀ {c : α}, c ∈ x :: y :: peers → key c = key y := by
          intro c hc
          rcases List.mem_cons.mp hc with rfl | hc
          · exact beq_iff_eq.mp hxy
          · exact hpeers hc List.mem_cons_self
        rcases List.mem_cons.mp h with rfl | h
        · rw [hx ha, hx hb]
        · exact hrest h
      · rcases List.mem_cons.mp h with rfl | h
        · rw [List.mem_singleton.mp ha, List.mem_singleton.mp hb]
        · rcases List.mem_cons.mp h with rfl | h
          · exact hpeers ha hb
          · exact hrest h
    · rcases List.mem_cons.mp h with rfl | h
      · rw [List.mem_singleton.mp ha, List.mem_singleton.mp hb]
      · exact ih h ha hb

/-- The chunks of a sorted list have increasing keys. -/
theorem chunk_by_pairwise (hl : l.Pairwise fun a b => key a ≤ key b) :
    (chunk_by (fun a b => key a == key b) l).Pairwise
      fun c d => ∀ a ∈ c, ∀ b ∈ d, key a < key b := by
  induction l with
  | nil => exact List.Pairwise.nil
  | cons x l ih =>
    obtain ⟨hx, hl⟩ := List.pairwise_cons.mp hl
    have hchunked := ih hl
    have hflatten := chunk_by_flatten (fun a b => key a == key b) l
    simp only [chunk_by]
    split
    · rename_i y peers rest hchunks
      rw [hchunks] at hchunked hflatten
      obtain ⟨hy, hrest⟩ := List.pairwise_cons.mp hchunked
      have hxy : key x ≤ key y := hx y (by rw [← hflatten]; exact List.mem_cons_self)
      split
      · rename_i heq
        have hkey : key x = key y := beq_iff_eq.mp heq
        refine List.pairwise_cons.mpr ⟨?_, hrest⟩
        intro d hd a ha b hb
        rcases List.mem_cons.mp ha with rfl | ha
        · rw [hkey]
          exact hy d hd y List.mem_cons_self b hb
        · exact hy d hd a ha b hb
      · rename_i hne
        have hlt : key x < key y := lt_of_le_of_ne hxy fun h => hne (beq_iff_eq.mpr h)
        refine List.pairwise_cons.mpr ⟨?_, hchunked⟩
        intro d hd a ha b hb
        obtain rfl := List.mem_singleton.mp ha
        rcases List.mem_cons.mp hd with rfl | hd
        · have hmem : y :: peers ∈ chunk_by (fun a b => key a == key b) l := by
            rw [hchunks]
            exact List.mem_cons_self
          rw [chunk_by_key hmem hb List.mem_cons_self]
          exact hlt
        · exact hlt.trans (hy d hd y List.mem_cons_self b hb)
    · rename_i chunks hnone
      have hnil : chunk_by (fun a b => key a == key b) l = [] := by
        rcases hc : chunk_by (fun a b => key a == key b) l with _ | ⟨c, rest⟩
        · rfl
        · rcases c with _ | ⟨y, peers⟩
          · exact absurd rfl (chunk_by_ne_nil (by rw [hc]; exact List.mem_cons_self))
          · exact absurd hc (hnone y peers rest)
      rw [hnil]
      exact List.pairwise_singleton _ _

/-- A chunk of a sorted list has all elements with its key, in order. -/
theorem chunk_by_eq_filter (hl : l.Pairwise fun a b => key a ≤ key b) {chunk : List α}
    (h : chunk ∈ chunk_by (fun a b => key a == key b) l) {a : α} (ha : a ∈ chunk) :
    l.filter (fun b => key b == key a) = chunk := by
  have hpairwise : (chunk_by (fun a b => key a == key b) l).Pairwise
      fun c d => ∀ a ∈ c, ∀ b ∈ d, key a < key b := chunk_by_pairwise hl
  obtain ⟨before, after, hsplit⟩ := List.append_of_mem h
  have hkey : ∀ b ∈ chunk, key b = key a := fun b hb => chunk_by_key h hb ha
  rw [hsplit] at hpairwise
  obtain ⟨-, hchunk, hbefore⟩ := List.pairwise_append.mp hpairwise
  have hafter := (List.pairwise_cons.mp hchunk).1
  rw [← chunk_by_flatten (fun a b => key a == key b) l, hsplit, List.flatten_append,
    List.flatten_cons, List.filter_append, List.filter_append]
  have hnone : before.flatten.filter (fun b => key b == key a) = [] := by
    refine List.filter_eq_nil_iff.mpr ?_
    intro b hb hba
    obtain ⟨c, hc, hb⟩ := List.mem_flatten.mp hb
    exact absurd (beq_iff_eq.mp hba) (ne_of_lt (hbefore c hc chunk List.mem_cons_self b hb a ha))
  have hnone' : after.flatten.filter (fun b => key b == key a) = [] := by
    refine List.filter_eq_nil_iff.mpr ?_
    intro b hb hba
    obtain ⟨c, hc, hb⟩ := List.mem_flatten.mp hb
    exact absurd (beq_iff_eq.mp hba) (ne_of_gt (hafter c hc a ha b hb))
  have hall : chunk.filter (fun b => key b == key a) = chunk :=
    List.filter_eq_self.mpr fun b hb => beq_iff_eq.mpr (hkey b hb)
  rw [hnone, hnone', hall, List.nil_append, List.append_nil]

end Sorted

/-! ## The position behind a cursor -/

/-- `slice::partition_point` of a partitioned slice. -/
def partition_point (p : α → Bool) (l : List α) : Nat := (l.takeWhile p).length

theorem partition_point_map {β : Type v} (f : α → β) (p : β → Bool) (l : List α) :
    partition_point (fun a => p (f a)) l = partition_point p (l.map f) := by
  unfold partition_point
  rw [List.takeWhile_map, List.length_map]
  rfl

/-- Behind the element at a position of a strictly sorted list is the next position. -/
theorem partition_point_getElem [LinearOrder κ] {l : List κ} (hl : l.Pairwise (· < ·)) {i : Nat}
    (hi : i < l.length) : partition_point (fun a => decide (a ≤ l[i])) l = i + 1 := by
  induction l generalizing i with
  | nil => exact absurd hi (Nat.not_lt_zero i)
  | cons x l ih =>
    obtain ⟨hx, hl⟩ := List.pairwise_cons.mp hl
    cases i with
    | zero =>
      have hnone : l.takeWhile (fun a => decide (a ≤ x)) = [] := by
        cases l with
        | nil => rfl
        | cons y l =>
          have hlt : ¬ y ≤ x := not_le_of_gt (hx y List.mem_cons_self)
          rw [List.takeWhile_cons, decide_eq_false hlt]
          rfl
      unfold partition_point
      rw [List.getElem_cons_zero, List.takeWhile_cons, decide_eq_true (le_refl x), if_pos rfl,
        hnone]
      rfl
    | succ i =>
      have hi' : i < l.length := Nat.lt_of_succ_lt_succ hi
      have hle : x ≤ l[i] := le_of_lt (hx _ (List.getElem_mem hi'))
      have htail := ih hl hi'
      unfold partition_point at htail ⊢
      rw [List.getElem_cons_succ, List.takeWhile_cons, decide_eq_true hle, if_pos rfl,
        List.length_cons, htail]

/-! ## Turns round a list -/

/-- **Windows laid end to end cover the list.** -/
theorem mem_windows {l : List α} {a : α} (ha : a ∈ l) (start : Nat) {m n : Nat} (hm : 0 < m)
    (hcover : l.length ≤ n * m) :
    ∃ i, i < n ∧ a ∈ (l.rotate (start + i * m)).take m := by
  obtain ⟨j, hj, rfl⟩ := List.getElem_of_mem ha
  have hpos : 0 < l.length := Nat.lt_of_le_of_lt (Nat.zero_le j) hj
  -- `d` turns after the start the list is at position `j`
  have hd : ∃ d, d < l.length ∧ (d + start) % l.length = j := by
    refine ⟨(j + (l.length - start % l.length)) % l.length, Nat.mod_lt _ hpos, ?_⟩
    have hlt : start % l.length < l.length := Nat.mod_lt _ hpos
    rw [Nat.add_mod, Nat.mod_mod, ← Nat.add_mod, Nat.add_assoc]
    have hsum : l.length - start % l.length + start
        = l.length + l.length * (start / l.length) := by
      have hdiv := Nat.mod_add_div start l.length
      omega
    rw [hsum, ← Nat.add_assoc, Nat.add_mul_mod_self_left, Nat.add_mod_right, Nat.mod_eq_of_lt hj]
  obtain ⟨d, hdlt, hdj⟩ := hd
  have hdiv : d / m < n := Nat.div_lt_of_lt_mul (by rw [Nat.mul_comm] at hcover; omega)
  have hmod : d % m < m := Nat.mod_lt d hm
  have hoff : d % m < (l.rotate (start + d / m * m)).length := by
    rw [List.length_rotate]
    exact Nat.lt_of_le_of_lt (Nat.mod_le d m) hdlt
  refine ⟨d / m, hdiv, ?_⟩
  have hget : (l.rotate (start + d / m * m))[d % m] = l[j] := by
    rw [List.getElem_rotate]
    have hpos : d % m + (start + d / m * m) = d + start := by
      have hsplit := Nat.mod_add_div d m
      rw [Nat.mul_comm m] at hsplit
      omega
    simp only [hpos, hdj]
  rw [← hget]
  have htake : d % m < ((l.rotate (start + d / m * m)).take m).length := by
    rw [List.length_take]
    omega
  have hsame : ((l.rotate (start + d / m * m)).take m)[d % m]
      = (l.rotate (start + d / m * m))[d % m] := List.getElem_take
  rw [← hsame]
  exact List.getElem_mem htake

/-- **As many turns as elements visit each element once.** -/
theorem turns_perm {l : List α} {f : Nat → Option α} {start : Nat}
    (hf : ∀ v, f v = l[(start + v) % l.length]?) {n : Nat} {window : List (Option α)}
    (hwindow : window <:+: (List.range n).map f) (hlength : window.length = l.length) :
    window.Perm (l.map some) := by
  obtain ⟨before, after, hsplit⟩ := hwindow
  have heq : window = (l.rotate (start + before.length)).map some := by
    refine List.ext_getElem (by rw [List.length_map, List.length_rotate, hlength]) ?_
    intro i hi hi'
    have hin : before.length + i < ((List.range n).map f).length := by
      rw [← hsplit, List.length_append, List.length_append]
      omega
    have hget : ((List.range n).map f)[before.length + i] = window[i] := by
      simp only [← hsplit]
      rw [List.getElem_append_left (by rw [List.length_append]; omega),
        List.getElem_append_right (Nat.le_add_right _ _)]
      simp only [Nat.add_sub_cancel_left]
    have hpos : 0 < l.length := by omega
    rw [← hget, List.getElem_map, List.getElem_range, hf, List.getElem_map, List.getElem_rotate,
      List.getElem?_eq_getElem (Nat.mod_lt _ hpos)]
    have hturn : start + (before.length + i) = i + (start + before.length) := by omega
    simp only [hturn]
  rw [heq]
  exact (List.rotate_perm l _).map some

end Crony.Lib
