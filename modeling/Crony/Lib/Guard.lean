/-
Guarded computations.

A store method is a sequence of checks and statements; the first one that fails
rolls the transaction back and returns its error text. This file is the small
calculus for such code over `Except`: `ensure` for a condition, `context` for an
optional value, and the lemmas that turn "the method returned" into the facts its
checks established. It names nothing of the repository.
-/
import Mathlib.Logic.Basic

set_option autoImplicit false

namespace Crony.Lib

universe u v

variable {ε : Type u} {α β : Type v}

/-- Fail with `e` unless `p` holds. -/
def ensure (p : Prop) [Decidable p] (e : ε) : Except ε Unit :=
  if p then .ok () else .error e

/-- The value of an option, or the error `e`. -/
def context (o : Option α) (e : ε) : Except ε α :=
  match o with
  | some a => .ok a
  | none => .error e

/-- What a transaction that was committed leaves behind: the new state, and the value
or the error its method returns all the same. -/
structure Committed (ε : Type u) (σ α : Type v) where
  result : Except ε α
  state : σ

@[simp] theorem ensure_eq_ok {p : Prop} [Decidable p] {e : ε} {u : Unit} :
    ensure p e = .ok u ↔ p := by
  unfold ensure
  split <;> simp_all

@[simp] theorem context_eq_ok {o : Option α} {e : ε} {a : α} :
    context o e = .ok a ↔ o = some a := by
  cases o <;> simp [context]

/-- **Inversion of a sequence.** A sequence of two computations succeeds exactly
when the first does and the second does on its result. -/
@[simp] theorem bind_eq_ok {x : Except ε α} {f : α → Except ε β} {b : β} :
    (x >>= f) = .ok b ↔ ∃ a, x = .ok a ∧ f a = .ok b := by
  cases x <;> simp [bind, Except.bind]

@[simp] theorem pure_eq_ok {a b : α} : (pure a : Except ε α) = .ok b ↔ a = b := by
  simp [pure, Except.pure]

/-- A mapped computation succeeds exactly when the computation does. -/
theorem map_eq_ok {x : Except ε α} {f : α → β} {b : β} :
    f <$> x = .ok b ↔ ∃ a, x = .ok a ∧ f a = b := by
  cases x <;> simp [Functor.map, Except.map]

theorem ensure_of {p : Prop} [Decidable p] {e : ε} (h : p) : ensure p e = .ok () := by
  rw [ensure, if_pos h]

theorem ensure_of_not {p : Prop} [Decidable p] {e : ε} (h : ¬ p) :
    ensure p e = .error e := by
  rw [ensure, if_neg h]

theorem ok_bind (a : α) (f : α → Except ε β) : (Except.ok a >>= f) = f a := rfl

theorem error_bind (e : ε) (f : α → Except ε β) :
    ((Except.error e : Except ε α) >>= f) = .error e := rfl

/-- A query stops where its `WHERE` clause fails. -/
theorem guard_bind_of_not {c : Prop} [Decidable c] {β : Type} {k : Unit → Option β} (h : ¬ c) :
    (guard c : Option Unit).bind k = none := by
  show (if c then pure () else failure : Option Unit).bind k = none
  rw [if_neg h]
  rfl

/-- Every result of a traversal comes from an element. -/
theorem mem_of_mapM_eq_some {f : α → Option β} {l : List α} {m : List β}
    (h : l.mapM f = some m) {b : β} (hb : b ∈ m) : ∃ a ∈ l, f a = some b := by
  induction l generalizing m with
  | nil =>
    simp only [List.mapM_nil, Option.pure_def, Option.some.injEq] at h
    subst h
    cases hb
  | cons a l ih =>
    simp only [List.mapM_cons, Option.bind_eq_bind, Option.bind_eq_some_iff, Option.pure_def,
      Option.some.injEq] at h
    obtain ⟨c, hc, rest, hrest, rfl⟩ := h
    rcases List.mem_cons.mp hb with rfl | hb
    · exact ⟨a, List.mem_cons_self, hc⟩
    · obtain ⟨x, hx, hfx⟩ := ih hrest hb
      exact ⟨x, List.mem_cons_of_mem a hx, hfx⟩

/-- Every result of a traversal that succeeds comes from an element. -/
theorem mem_of_mapM_eq_ok {f : α → Except ε β} {l : List α} {m : List β}
    (h : l.mapM f = .ok m) {b : β} (hb : b ∈ m) : ∃ a ∈ l, f a = .ok b := by
  induction l generalizing m with
  | nil =>
    simp only [List.mapM_nil, pure_eq_ok] at h
    subst h
    cases hb
  | cons a l ih =>
    simp only [List.mapM_cons, bind_eq_ok, pure_eq_ok] at h
    obtain ⟨c, hc, rest, hrest, rfl⟩ := h
    rcases List.mem_cons.mp hb with rfl | hb
    · exact ⟨a, List.mem_cons_self, hc⟩
    · obtain ⟨x, hx, hfx⟩ := ih hrest hb
      exact ⟨x, List.mem_cons_of_mem a hx, hfx⟩

/-- Every element of a traversal that succeeds has a result. -/
theorem exists_of_mapM_eq_ok {f : α → Except ε β} {l : List α} {m : List β}
    (h : l.mapM f = .ok m) {a : α} (ha : a ∈ l) : ∃ b ∈ m, f a = .ok b := by
  induction l generalizing m with
  | nil => cases ha
  | cons x l ih =>
    simp only [List.mapM_cons, bind_eq_ok, pure_eq_ok] at h
    obtain ⟨c, hc, rest, hrest, rfl⟩ := h
    rcases List.mem_cons.mp ha with rfl | ha
    · exact ⟨c, List.mem_cons_self, hc⟩
    · obtain ⟨b, hb, hfb⟩ := ih hrest ha
      exact ⟨b, List.mem_cons_of_mem c hb, hfb⟩

/-! ## Failures -/

theorem ensure_eq_error {p : Prop} [Decidable p] {e e' : ε} :
    ensure p e = .error e' ↔ ¬ p ∧ e = e' := by
  by_cases h : p
  · rw [ensure_of h]
    simp [h]
  · rw [ensure_of_not h, Except.error.injEq]
    simp [h]

/-- A sequence fails when its first part does, or its second on the result of the first. -/
theorem bind_eq_error {x : Except ε α} {f : α → Except ε β} {e : ε} :
    (x >>= f) = .error e ↔ x = .error e ∨ ∃ a, x = .ok a ∧ f a = .error e := by
  cases x with
  | error d => rw [error_bind, Except.error.injEq, Except.error.injEq]; simp
  | ok a => rw [ok_bind]; simp

/-- A traversal fails at one of its elements. -/
theorem of_mapM_eq_error {f : α → Except ε β} {l : List α} {e : ε} (h : l.mapM f = .error e) :
    ∃ a ∈ l, f a = .error e := by
  induction l with
  | nil =>
    rw [List.mapM_nil] at h
    cases h
  | cons a l ih =>
    rw [List.mapM_cons, bind_eq_error] at h
    rcases h with h | ⟨b, -, h⟩
    · exact ⟨a, List.mem_cons_self, h⟩
    · rw [bind_eq_error] at h
      rcases h with h | ⟨bs, -, h⟩
      · obtain ⟨x, hx, hfx⟩ := ih h
        exact ⟨x, List.mem_cons_of_mem a hx, hfx⟩
      · cases h

/-- A guard over options passes when its condition holds. -/
theorem guard_of {p : Prop} [Decidable p] (h : p) : (guard p : Option Unit) = some () := if_pos h

/-- A guard over options fails when its condition does not hold. -/
theorem guard_of_not {p : Prop} [Decidable p] (h : ¬ p) : (guard p : Option Unit) = none := if_neg h

end Crony.Lib
