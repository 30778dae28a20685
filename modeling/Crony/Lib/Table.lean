/-
Tables as lists of rows.

The store keeps every piece of state in SQL tables. What the proofs need of SQL
is small: `UPDATE … SET … WHERE …` visits every row once and leaves the rows the
`WHERE` clause does not select as they are, `INSERT` adds one row, `SELECT … LIMIT 1`
finds a row. This file is that fragment over a list of rows of any type, with the
membership and key lemmas the invariants are stated through. It names nothing of
the repository.
-/
import Mathlib.Data.List.Nodup
import Mathlib.Data.List.Forall2
import Mathlib.Algebra.BigOperators.Group.List.Basic
import Mathlib.Algebra.Order.Ring.Int

set_option autoImplicit false

namespace Crony.Lib

universe u v

variable {α : Type u} {κ : Type v}

/-! ## `UPDATE` -/

/-- `UPDATE table SET row = f row WHERE p row`. -/
def updateWhere (p : α → Bool) (f : α → α) (l : List α) : List α :=
  l.map fun a => if p a then f a else a

/-- A row of the updated table is the image of a row of the table. -/
theorem mem_updateWhere {p : α → Bool} {f : α → α} {l : List α} {b : α} :
    b ∈ updateWhere p f l ↔ ∃ a ∈ l, (if p a then f a else a) = b := by
  rw [updateWhere, List.mem_map]

@[simp] theorem updateWhere_nil (p : α → Bool) (f : α → α) :
    updateWhere p f [] = [] := rfl

@[simp] theorem length_updateWhere (p : α → Bool) (f : α → α) (l : List α) :
    (updateWhere p f l).length = l.length := by
  rw [updateWhere, List.length_map]

/-- A column the assignment does not write keeps its values, in order. -/
theorem map_updateWhere_of_frame {β : Type*} (g : α → β) {p : α → Bool} {f : α → α}
    (l : List α) (hg : ∀ a, p a = true → g (f a) = g a) :
    (updateWhere p f l).map g = l.map g := by
  rw [updateWhere, List.map_map]
  refine List.map_congr_left fun a _ => ?_
  by_cases hp : p a = true
  · simp [hp, hg a hp]
  · simp [hp]

/-- An `UPDATE` whose `WHERE` clause selects nothing changes nothing. -/
theorem updateWhere_of_none {p : α → Bool} {f : α → α} {l : List α}
    (h : ∀ a ∈ l, p a = false) : updateWhere p f l = l := by
  have hmap : l.map (fun a => if p a then f a else a) = l.map id :=
    List.map_congr_left fun a ha => by simp [h a ha]
  rw [updateWhere, hmap, List.map_id]

/-- An `UPDATE` that leaves the table as it is assigns the rows it selects their old values. -/
theorem eq_of_updateWhere_eq_self {p : α → Bool} {f : α → α} {l : List α}
    (h : updateWhere p f l = l) {a : α} (ha : a ∈ l) (hp : p a = true) : f a = a := by
  have hmap : l.map (fun a => if p a then f a else a) = l.map id := by
    rw [List.map_id]
    exact h
  have := List.map_inj_left.mp hmap a ha
  rwa [if_pos hp] at this

/-- Two updates of the same rows are one. -/
theorem updateWhere_updateWhere {p : α → Bool} {f g : α → α} {l : List α}
    (hf : ∀ a, p a = true → p (f a) = true) :
    updateWhere p g (updateWhere p f l) = updateWhere p (g ∘ f) l := by
  rw [updateWhere, updateWhere, updateWhere, List.map_map]
  refine List.map_congr_left fun a _ => ?_
  cases hp : p a with
  | true => simp [hp, hf a hp]
  | false => simp [hp]

/-! ## Keys

`keyed k l` is the `PRIMARY KEY` (or `UNIQUE`) constraint on the column `k`. -/

/-- No two rows of the table agree on the column `k`. -/
def Keyed (k : α → κ) (l : List α) : Prop := (l.map k).Nodup

/-- Rows of a keyed table are determined by their key. -/
theorem Keyed.eq_of_mem {k : α → κ} {l : List α} (h : Keyed k l) {a b : α}
    (ha : a ∈ l) (hb : b ∈ l) (hk : k a = k b) : a = b :=
  List.inj_on_of_nodup_map h ha hb hk

/-- An update that does not write the key column keeps the key. -/
theorem Keyed.updateWhere {k : α → κ} {l : List α} (h : Keyed k l) {p : α → Bool}
    {f : α → α} (hf : ∀ a, p a = true → k (f a) = k a) :
    Keyed k (updateWhere p f l) := by
  rw [Keyed, map_updateWhere_of_frame k l hf]
  exact h

/-- Appending rows with new and pairwise different keys keeps the key. -/
theorem Keyed.append {k : α → κ} {l m : List α} (hl : Keyed k l) (hm : Keyed k m)
    (hd : ∀ a ∈ l, ∀ b ∈ m, k a ≠ k b) : Keyed k (l ++ m) := by
  rw [Keyed, List.map_append]
  refine List.Nodup.append hl hm ?_
  intro x hx hy
  obtain ⟨a, ha, rfl⟩ := List.mem_map.mp hx
  obtain ⟨b, hb, hab⟩ := List.mem_map.mp hy
  exact hd a ha b hb hab.symm

/-- Inserting one row whose key is new keeps the key. -/
theorem Keyed.append_singleton {k : α → κ} {l : List α} (hl : Keyed k l) {b : α}
    (hb : ∀ a ∈ l, k a ≠ k b) : Keyed k (l ++ [b]) := by
  refine hl.append (by simp [Keyed]) ?_
  intro a ha c hc
  rw [List.mem_singleton] at hc
  subst hc
  exact hb a ha

/-- The row a keyed `SELECT` finds is the only row with that key. -/
theorem Keyed.find?_eq_some [BEq κ] [LawfulBEq κ] {k : α → κ} {l : List α}
    (h : Keyed k l) {a : α} (ha : a ∈ l) :
    l.find? (fun b => k b == k a) = some a := by
  cases hf : l.find? (fun b => k b == k a) with
  | none =>
    have := List.find?_eq_none.mp hf a ha
    simp at this
  | some b =>
    have hb := List.find?_some hf
    have hmem := List.mem_of_find?_eq_some hf
    rw [h.eq_of_mem hmem ha (by simpa using hb)]

/-- A keyed table has one row under the key of each of its rows. -/
theorem Keyed.filter_eq_singleton [DecidableEq κ] {k : α → κ} {l : List α} (h : Keyed k l) {a : α}
    (ha : a ∈ l) : l.filter (fun b => decide (k b = k a)) = [a] := by
  induction l with
  | nil => cases ha
  | cons b l ih =>
    rw [Keyed, List.map_cons, List.nodup_cons] at h
    rw [List.filter_cons]
    rcases List.mem_cons.mp ha with rfl | ha
    · rw [if_pos (decide_eq_true rfl)]
      have hnone : l.filter (fun b => decide (k b = k a)) = [] := by
        rw [List.filter_eq_nil_iff]
        intro b hb hk
        exact h.1 (List.mem_map.mpr ⟨b, hb, of_decide_eq_true hk⟩)
      rw [hnone]
    · have hne : k b ≠ k a := fun hk => h.1 (hk ▸ List.mem_map_of_mem ha)
      rw [if_neg (by simpa using hne)]
      exact ih h.2 ha

/-- Writing a new key into one row keeps the key. -/
theorem Keyed.updateWhere_key {k : α → κ} {l : List α} (h : Keyed k l) {p : α → Bool} {f : α → α}
    (hone : ∀ a ∈ l, ∀ b ∈ l, p a = true → p b = true → a = b)
    (hnew : ∀ a ∈ l, p a = true → ∀ b ∈ l, p b = false → k b ≠ k (f a)) :
    Keyed k (Crony.Lib.updateWhere p f l) := by
  have hnodup : l.Nodup := List.Nodup.of_map k h
  rw [Keyed, Crony.Lib.updateWhere, List.map_map, List.nodup_map_iff_inj_on hnodup]
  intro a ha b hb hk
  simp only [Function.comp_apply] at hk
  by_cases hpa : p a = true
  · by_cases hpb : p b = true
    · exact hone a ha b hb hpa hpb
    · rw [if_pos hpa, if_neg hpb] at hk
      exact absurd hk.symm (hnew a ha hpa b hb (Bool.eq_false_iff.mpr hpb))
  · by_cases hpb : p b = true
    · rw [if_neg hpa, if_pos hpb] at hk
      exact absurd hk (hnew b hb hpb a ha (Bool.eq_false_iff.mpr hpa))
    · rw [if_neg hpa, if_neg hpb] at hk
      exact h.eq_of_mem ha hb hk

/-! ## What a statement does to each row

`Updated R l m`: the table `m` is `l` with every row `a` replaced by a row `b` with
`R a b`. It is how a method's effect on a table is stated when only some columns of the
result matter. -/

/-- Every row is replaced by a related one, in place. -/
def Updated (R : α → α → Prop) (l m : List α) : Prop :=
  ∃ φ : α → α, m = l.map φ ∧ ∀ a ∈ l, R a (φ a)

namespace Updated

variable {R S Q : α → α → Prop} {l m n : List α}

theorem refl (h : ∀ a ∈ l, R a a) : Updated R l l :=
  ⟨id, by rw [List.map_id], h⟩

/-- An `UPDATE` relates the rows it selects to their new values and every other row to
itself. -/
theorem of_updateWhere {p : α → Bool} {f : α → α}
    (hsel : ∀ a ∈ l, p a = true → R a (f a)) (hrest : ∀ a ∈ l, p a = false → R a a) :
    Updated R l (updateWhere p f l) := by
  refine ⟨fun a => if p a then f a else a, rfl, ?_⟩
  intro a ha
  cases hp : p a with
  | true => simpa [hp] using hsel a ha hp
  | false => simpa [hp] using hrest a ha hp

/-- Two statements in a row. -/
theorem trans (h : Updated R l m) (h' : Updated S m n)
    (hR : ∀ a ∈ l, ∀ b c, R a b → S b c → Q a c) : Updated Q l n := by
  obtain ⟨φ, rfl, hφ⟩ := h
  obtain ⟨ψ, rfl, hψ⟩ := h'
  refine ⟨ψ ∘ φ, by rw [List.map_map], ?_⟩
  intro a ha
  exact hR a ha _ _ (hφ a ha) (hψ _ (List.mem_map_of_mem ha))

theorem mono (h : Updated R l m) (hR : ∀ a ∈ l, ∀ b, R a b → S a b) : Updated S l m := by
  obtain ⟨φ, hm, hφ⟩ := h
  exact ⟨φ, hm, fun a ha => hR a ha _ (hφ a ha)⟩

/-- Every new row comes from an old one. -/
theorem exists_old (h : Updated R l m) {b : α} (hb : b ∈ m) : ∃ a ∈ l, R a b := by
  obtain ⟨φ, rfl, hφ⟩ := h
  obtain ⟨a, ha, rfl⟩ := List.mem_map.mp hb
  exact ⟨a, ha, hφ a ha⟩

/-- Every old row becomes a new one. -/
theorem exists_new (h : Updated R l m) {a : α} (ha : a ∈ l) : ∃ b ∈ m, R a b := by
  obtain ⟨φ, rfl, hφ⟩ := h
  exact ⟨φ a, List.mem_map_of_mem ha, hφ a ha⟩

theorem length_eq (h : Updated R l m) : m.length = l.length := by
  obtain ⟨φ, rfl, -⟩ := h
  exact List.length_map φ

/-- A column the relation keeps has the same values, in order. -/
theorem map_eq {β : Type*} {g : α → β} (h : Updated R l m)
    (hg : ∀ a b, R a b → g b = g a) : m.map g = l.map g := by
  obtain ⟨φ, rfl, hφ⟩ := h
  rw [List.map_map]
  exact List.map_congr_left fun a ha => hg a _ (hφ a ha)

/-- A query that selects neither the rewritten rows nor what they become finds the row it
found before. -/
theorem find?_eq {q : α → Bool} (h : Updated R l m)
    (hR : ∀ a ∈ l, ∀ b, R a b → b = a ∨ (q a = false ∧ q b = false)) : m.find? q = l.find? q := by
  obtain ⟨φ, rfl, hφ⟩ := h
  induction l with
  | nil => rfl
  | cons a l ih =>
    have hl := ih (fun b hb => hR b (List.mem_cons_of_mem a hb))
      fun b hb => hφ b (List.mem_cons_of_mem a hb)
    rw [List.map_cons, List.find?_cons, List.find?_cons, hl]
    rcases hR a List.mem_cons_self _ (hφ a List.mem_cons_self) with hsame | ⟨hqa, hqb⟩
    · rw [hsame]
    · rw [hqa, hqb]

/-- A query on columns the statement does not write finds what its row became. -/
theorem find?_some {q : α → Bool} (h : Updated R l m) (hR : ∀ a b, R a b → q b = q a) {a : α}
    (ha : l.find? q = some a) : ∃ b, m.find? q = some b ∧ R a b := by
  obtain ⟨φ, rfl, hφ⟩ := h
  induction l with
  | nil => cases ha
  | cons c l ih =>
    have hc := hR c _ (hφ c List.mem_cons_self)
    rw [List.find?_cons] at ha
    rw [List.map_cons, List.find?_cons, hc]
    by_cases hq : q c = true
    · rw [hq] at ha ⊢
      obtain rfl := Option.some.inj ha
      exact ⟨φ c, rfl, hφ c List.mem_cons_self⟩
    · rw [Bool.not_eq_true] at hq
      rw [hq] at ha ⊢
      exact ih ha fun b hb => hφ b (List.mem_cons_of_mem c hb)

/-- The same for `EXISTS`. -/
theorem any_eq {q : α → Bool} (h : Updated R l m)
    (hR : ∀ a ∈ l, ∀ b, R a b → b = a ∨ (q a = false ∧ q b = false)) : m.any q = l.any q := by
  rw [← List.isSome_find?, ← List.isSome_find?, h.find?_eq hR]

theorem keyed {k : α → κ} (h : Updated R l m) (hl : Keyed k l)
    (hk : ∀ a b, R a b → k b = k a) : Keyed k m := by
  rw [Keyed, h.map_eq hk]
  exact hl

end Updated

/-! ## Queries over some columns

`l.map g = m.map g` says that two tables agree on the columns `g`. A query that reads no
other column cannot tell them apart. -/

section Columns

universe w

variable {β : Type*} {g : α → β} {l m : List α} {p q : α → Bool}

theorem map_filter_congr (h : l.map g = m.map g) (hpq : ∀ a b, g a = g b → p a = q b) :
    (l.filter p).map g = (m.filter q).map g := by
  induction l generalizing m with
  | nil =>
    rw [List.map_eq_nil_iff.mp h.symm]
    rfl
  | cons a l ih =>
    cases m with
    | nil => cases h
    | cons b m =>
      rw [List.map_cons, List.map_cons, List.cons.injEq] at h
      obtain ⟨hab, hlm⟩ := h
      rw [List.filter_cons, List.filter_cons, hpq a b hab]
      by_cases hb : q b = true
      · rw [if_pos hb, if_pos hb, List.map_cons, List.map_cons, hab, ih hlm]
      · rw [if_neg hb, if_neg hb, ih hlm]

theorem map_find?_congr (h : l.map g = m.map g) (hpq : ∀ a b, g a = g b → p a = q b) :
    (l.find? p).map g = (m.find? q).map g := by
  rw [← List.head?_filter, ← List.head?_filter, ← List.head?_map, ← List.head?_map,
    map_filter_congr h hpq]

theorem mapM_congr_columns {M : Type w → Type*} [Monad M] [LawfulMonad M] {γ : Type w} {f : α → M γ}
    (h : l.map g = m.map g) (hf : ∀ a b, g a = g b → f a = f b) : l.mapM f = m.mapM f := by
  induction l generalizing m with
  | nil => rw [List.map_eq_nil_iff.mp h.symm]
  | cons a l ih =>
    cases m with
    | nil => cases h
    | cons b m =>
      rw [List.map_cons, List.map_cons, List.cons.injEq] at h
      rw [List.mapM_cons, List.mapM_cons, hf a b h.1, ih h.2]

end Columns

/-! ## Partial unique indexes

`UniqueWhere p k l` is `CREATE UNIQUE INDEX … ON table (k) WHERE p`: among the rows that
satisfy `p` no two agree on `k`. -/

def UniqueWhere (p : α → Bool) (k : α → κ) (l : List α) : Prop :=
  ((l.filter p).map k).Nodup

namespace UniqueWhere

variable {p : α → Bool} {k : α → κ} {l m : List α}

theorem eq_of_mem (h : UniqueWhere p k l) {a b : α} (ha : a ∈ l) (hb : b ∈ l)
    (hpa : p a = true) (hpb : p b = true) (hk : k a = k b) : a = b :=
  List.inj_on_of_nodup_map h (List.mem_filter.mpr ⟨ha, hpa⟩) (List.mem_filter.mpr ⟨hb, hpb⟩) hk

/-- An update that keeps the key and lets no new row under the index keeps the index. -/
theorem updated {R : α → α → Prop} (h : UniqueWhere p k l) (hlm : Updated R l m)
    (hk : ∀ a b, R a b → k b = k a) (hp : ∀ a ∈ l, ∀ b, R a b → p b = true → p a = true) :
    UniqueWhere p k m := by
  obtain ⟨φ, rfl, hφ⟩ := hlm
  have hsub : List.Sublist (((l.map φ).filter p).map k) ((l.filter p).map k) := by
    clear h
    induction l with
    | nil => simp
    | cons a l ih =>
      have ih' := ih (fun b hb => hp b (List.mem_cons_of_mem a hb))
        (fun b hb => hφ b (List.mem_cons_of_mem a hb))
      have ha := hφ a List.mem_cons_self
      have hpa := hp a List.mem_cons_self (φ a) ha
      rw [List.map_cons, List.filter_cons, List.filter_cons]
      by_cases hn : p (φ a) = true
      · rw [if_pos hn, if_pos (hpa hn), List.map_cons, List.map_cons, hk a (φ a) ha]
        exact ih'.cons_cons (k a)
      · rw [if_neg hn]
        by_cases ho : p a = true
        · rw [if_pos ho, List.map_cons]
          exact ih'.cons (k a)
        · rw [if_neg ho]
          exact ih'
  exact List.Nodup.sublist hsub h

/-- A row may be inserted under the index when no indexed row has its key. -/
theorem append_singleton (h : UniqueWhere p k l) {b : α}
    (hb : p b = true → ∀ a ∈ l, p a = true → k a ≠ k b) : UniqueWhere p k (l ++ [b]) := by
  rw [UniqueWhere, List.filter_append, List.filter_singleton]
  by_cases hp : p b = true
  · rw [hp, cond_true]
    refine Keyed.append_singleton (k := k) (l := l.filter p) h ?_
    intro a ha
    obtain ⟨hal, hpa⟩ := List.mem_filter.mp ha
    exact hb hp a hal hpa
  · rw [Bool.not_eq_true] at hp
    rw [hp, cond_false, List.append_nil]
    exact h

/-- A partial unique index leaves at most one row for each key. -/
theorem length_filter_le_one [DecidableEq κ] (h : UniqueWhere p k l) (key : κ) :
    (l.filter fun a => p a && k a == key).length ≤ 1 := by
  have hcount := List.nodup_iff_count_le_one.mp h key
  rw [List.count, List.countP_map, List.countP_filter, List.countP_eq_length_filter] at hcount
  refine Nat.le_trans (Nat.le_of_eq ?_) hcount
  congr 1
  refine List.filter_congr fun a _ => ?_
  rw [Function.comp_apply, Bool.and_comm]

/-- Rows outside the index may be inserted freely. -/
theorem append_of_none (h : UniqueWhere p k l) (hm : ∀ a ∈ m, p a = false) :
    UniqueWhere p k (l ++ m) := by
  have hnone : m.filter p = [] := by
    rw [List.filter_eq_nil_iff]
    intro a ha hp
    rw [hm a ha] at hp
    cases hp
  rw [UniqueWhere, List.filter_append, hnone, List.append_nil]
  exact h

end UniqueWhere

/-! ## Rows a transaction leaves alone -/

/-- The rows `p` selects are the same rows, in the same order. -/
def SameWhere (p : α → Bool) (l m : List α) : Prop := m.filter p = l.filter p

namespace SameWhere

variable {p : α → Bool} {l m n : List α}

theorem refl : SameWhere p l l := rfl

theorem trans (h : SameWhere p l m) (h' : SameWhere p m n) : SameWhere p l n :=
  Eq.trans h' h

/-- An update of rows outside `p` that stay outside. -/
theorem of_updated {R : α → α → Prop} (h : Updated R l m)
    (hkeep : ∀ a ∈ l, ∀ b, R a b → p a = true → b = a)
    (hout : ∀ a ∈ l, ∀ b, R a b → p a = false → p b = false) : SameWhere p l m := by
  obtain ⟨φ, rfl, hφ⟩ := h
  rw [SameWhere]
  induction l with
  | nil => rfl
  | cons a l ih =>
    have hrest := ih (fun b hb => hkeep b (List.mem_cons_of_mem a hb))
      (fun b hb => hout b (List.mem_cons_of_mem a hb)) fun b hb => hφ b (List.mem_cons_of_mem a hb)
    have ha := hφ a List.mem_cons_self
    rw [List.map_cons, List.filter_cons, List.filter_cons, hrest]
    by_cases hp : p a = true
    · rw [hkeep a List.mem_cons_self _ ha hp]
    · rw [if_neg hp, if_neg]
      rw [hout a List.mem_cons_self _ ha (Bool.eq_false_iff.mpr hp)]
      exact Bool.false_ne_true

theorem of_updateWhere {q : α → Bool} {f : α → α}
    (hsel : ∀ a ∈ l, q a = true → p a = false ∧ p (f a) = false) :
    SameWhere p l (updateWhere q f l) := by
  refine of_updated (R := fun a b => (p a = true → b = a) ∧ (p a = false → p b = false))
    (Updated.of_updateWhere ?_ ?_) (fun a _ b h => h.1) fun a _ b h => h.2
  · intro a ha hq
    obtain ⟨hp, hpf⟩ := hsel a ha hq
    refine ⟨fun h => ?_, fun _ => hpf⟩
    rw [hp] at h
    cases h
  · exact fun a _ _ => ⟨fun _ => rfl, id⟩

theorem append_singleton {b : α} (hb : p b = false) : SameWhere p l (l ++ [b]) := by
  rw [SameWhere, List.filter_append, List.filter_singleton, hb, cond_false, List.append_nil]

end SameWhere

/-! ## `SUM` -/

section Totals

variable {l : List α} {a : α} {p : α → Bool} {f : α → α} (g : α → Int)

/-- A table without repeated rows has a total the row `a` contributes to once. -/
theorem sum_filter_ne [DecidableEq α] (hl : l.Nodup) (ha : a ∈ l) :
    ((l.filter fun x => x != a).map g).sum = (l.map g).sum - g a := by
  have herase := List.sum_map_erase g ha
  rw [hl.erase_eq_filter a] at herase
  omega

/-- Writing one row changes a total by the difference. -/
theorem sum_updateWhere (hl : l.Nodup) (ha : a ∈ l) (hp : ∀ x ∈ l, p x = true ↔ x = a) :
    ((updateWhere p f l).map g).sum = (l.map g).sum - g a + g (f a) := by
  induction l with
  | nil => cases ha
  | cons b l ih =>
    obtain ⟨hb, hl⟩ := List.nodup_cons.mp hl
    have htail : ∀ x ∈ l, p x = true ↔ x = a := fun x hx => hp x (List.mem_cons_of_mem b hx)
    have hhead := hp b List.mem_cons_self
    rw [updateWhere, List.map_cons, List.map_cons, List.sum_cons, List.map_cons, List.sum_cons]
    rcases List.mem_cons.mp ha with rfl | ha
    · -- The row is the first one; no other row is written.
      have hrest : updateWhere p f l = l := by
        refine updateWhere_of_none fun x hx => Bool.eq_false_iff.mpr fun hpx => ?_
        rw [(htail x hx).mp hpx] at hx
        exact hb hx
      rw [if_pos (hhead.mpr rfl), ← updateWhere, hrest]
      omega
    · have hne : ¬ p b = true := fun hpb => hb (hhead.mp hpb ▸ ha)
      have := ih hl ha htail
      rw [updateWhere] at this
      rw [if_neg hne, this]
      omega

end Totals

end Crony.Lib
