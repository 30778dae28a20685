/-
Transition systems whose steps are commands.

A command either succeeds and moves the state or fails and leaves it alone; the
state after a command is therefore a function of both. Runs are sequences of
commands, and a run may be restricted to commands that meet a condition in the
state they are issued in. This file states reachability along such runs and the
invariant rules the development uses. It names nothing of the repository.
-/
import Mathlib.Logic.Relation
import Mathlib.Data.List.Infix

set_option autoImplicit false

namespace Crony.Lib

universe u v

/-- Initial states, and the state each command leads to. -/
structure TransitionSystem (σ : Type u) (ι : Type v) where
  init : σ → Prop
  step : σ → ι → σ

namespace TransitionSystem

variable {σ : Type u} {ι : Type v} (T : TransitionSystem σ ι)

/-- One step by a command that meets `ok` where it is issued. -/
def Next (ok : σ → ι → Prop) (s t : σ) : Prop := ∃ i, ok s i ∧ T.step s i = t

/-- `t` is reached from `s` by commands that each meet `ok`. -/
def Reaches (ok : σ → ι → Prop) : σ → σ → Prop :=
  Relation.ReflTransGen (T.Next ok)

/-- The states of the runs whose commands all meet `ok`. -/
def ReachableVia (ok : σ → ι → Prop) (t : σ) : Prop :=
  ∃ s, T.init s ∧ T.Reaches ok s t

/-- The states of all runs. -/
def Reachable (t : σ) : Prop := T.ReachableVia (fun _ _ => True) t

variable {T} {ok ok' : σ → ι → Prop} {I : σ → Prop}

/-- **Invariant rule.** What holds initially and is kept by every step that meets
`ok` holds in every state of the runs whose steps meet `ok`. -/
theorem ReachableVia.invariant {t : σ} (h : T.ReachableVia ok t)
    (h0 : ∀ s, T.init s → I s)
    (hstep : ∀ s i, I s → ok s i → I (T.step s i)) : I t := by
  obtain ⟨s, hs, hrun⟩ := h
  induction hrun with
  | refl => exact h0 s hs
  | tail _ hn ih =>
    obtain ⟨i, hok, rfl⟩ := hn
    exact hstep _ i ih hok

/-- One more step of a restricted run. -/
theorem ReachableVia.step {s : σ} (h : T.ReachableVia ok s) {i : ι} (hi : ok s i) :
    T.ReachableVia ok (T.step s i) := by
  obtain ⟨s₀, hs₀, hrun⟩ := h
  exact ⟨s₀, hs₀, hrun.tail ⟨i, hi, rfl⟩⟩

/-- A run under a stronger condition is a run under a weaker one. -/
theorem ReachableVia.mono {s : σ} (h : T.ReachableVia ok s)
    (hok : ∀ s i, ok s i → ok' s i) : T.ReachableVia ok' s := by
  obtain ⟨s₀, hs₀, hrun⟩ := h
  have hle : T.Next ok ≤ T.Next ok' := by
    rintro a b ⟨i, hi, rfl⟩
    exact ⟨i, hok a i hi, rfl⟩
  exact ⟨s₀, hs₀, Relation.ReflTransGen.mono hle _ _ hrun⟩

/-- Every state of a restricted run is a state of a run. -/
theorem ReachableVia.reachable {s : σ} (h : T.ReachableVia ok s) : T.Reachable s :=
  h.mono fun _ _ _ => trivial

/-- Induction along restricted runs, with reachability of the intermediate states
at hand, so that an invariant proved earlier can be used in the step. -/
theorem ReachableVia.invariant_of_reachable {t : σ} (h : T.ReachableVia ok t)
    (h0 : ∀ s, T.init s → I s)
    (hstep : ∀ s i, T.ReachableVia ok s → I s → ok s i → I (T.step s i)) : I t := by
  have hboth : T.ReachableVia ok t ∧ I t := by
    refine h.invariant (I := fun s => T.ReachableVia ok s ∧ I s) ?_ ?_
    · intro s hs
      exact ⟨⟨s, hs, Relation.ReflTransGen.refl⟩, h0 s hs⟩
    · rintro s i ⟨hr, hI⟩ hi
      exact ⟨hr.step hi, hstep s i hr hI hi⟩
  exact hboth.2

/-- What every step keeps is kept from any state on. -/
theorem Reaches.preserves {s t : σ} (h : T.Reaches ok s t) (hs : I s)
    (hstep : ∀ a i, I a → ok a i → I (T.step a i)) : I t := by
  induction h with
  | refl => exact hs
  | tail _ hn ih =>
    obtain ⟨i, hi, rfl⟩ := hn
    exact hstep _ i ih hi

/-- What the steps by commands of a kind keep still holds at the end of a run, or a step by a
command of another kind ended it. -/
theorem Reaches.kept_or_ended {J : σ → Prop} {p : σ → ι → Prop} {s t : σ} (h : T.Reaches ok s t)
    (hJ : ∀ a i, J a → J (T.step a i)) (hs : J s) (h0 : I s)
    (hstep : ∀ a i, J a → I a → ok a i → p a i → I (T.step a i)) :
    I t ∨ ∃ a i, T.Reaches ok s a ∧ ok a i ∧ ¬ p a i ∧ I a ∧ ¬ I (T.step a i)
      ∧ T.Reaches ok (T.step a i) t := by
  have hinv : ∀ b, T.Reaches ok s b → J b := fun b hb =>
    hb.preserves hs fun a i ha _ => hJ a i ha
  induction h with
  | refl => exact Or.inl h0
  | @tail b c hb hn ih =>
    obtain ⟨i, hok, rfl⟩ := hn
    rcases ih with hI | ⟨a, j, ha, hj, hp, hIa, hend, hrest⟩
    · by_cases hIc : I (T.step b i)
      · exact Or.inl hIc
      · have hp : ¬ p b i := fun hp => hIc (hstep b i (hinv b hb) hI hok hp)
        exact Or.inr ⟨b, i, hb, hok, hp, hI, hIc, Relation.ReflTransGen.refl⟩
    · exact Or.inr ⟨a, j, ha, hj, hp, hIa, hend, hrest.tail ⟨i, hok, rfl⟩⟩

/-! ## Runs as lists of commands -/

/-- The state after a list of commands. -/
def run (T : TransitionSystem σ ι) (s : σ) (commands : List ι) : σ := commands.foldl T.step s

/-- Every command of the list meets `ok` where it is issued. -/
def Meets (T : TransitionSystem σ ι) (ok : σ → ι → Prop) : σ → List ι → Prop
  | _, [] => True
  | s, i :: commands => ok s i ∧ Meets T ok (T.step s i) commands

instance decidableMeets (T : TransitionSystem σ ι) (ok : σ → ι → Prop)
    [hok : ∀ s i, Decidable (ok s i)] : ∀ s commands, Decidable (T.Meets ok s commands)
  | _, [] => .isTrue trivial
  | s, i :: commands =>
    @instDecidableAnd _ _ (hok s i) (decidableMeets T ok (T.step s i) commands)

/-- A run in two parts meets `ok` when both parts do, the second from where the first ends. -/
theorem meets_append {s : σ} {before after : List ι} :
    T.Meets ok s (before ++ after) ↔ T.Meets ok s before ∧ T.Meets ok (T.run s before) after := by
  induction before generalizing s with
  | nil => exact (and_iff_right trivial).symm
  | cons i before ih =>
    rw [List.cons_append]
    simp only [Meets, ih, and_assoc]
    rfl

theorem Reaches.run {s : σ} {commands : List ι} (h : T.Meets ok s commands) :
    T.Reaches ok s (T.run s commands) := by
  induction commands generalizing s with
  | nil => exact Relation.ReflTransGen.refl
  | cons i commands ih => exact Relation.ReflTransGen.head ⟨i, h.1, rfl⟩ (ih h.2)

/-- A list of commands that each meet `ok` reaches its final state. -/
theorem ReachableVia.run {s : σ} (hs : T.init s) {commands : List ι}
    (h : T.Meets ok s commands) : T.ReachableVia ok (T.run s commands) :=
  ⟨s, hs, Reaches.run h⟩

theorem Reachable.run {s : σ} (hs : T.init s) (commands : List ι) :
    T.Reachable (T.run s commands) := by
  refine ReachableVia.run hs ?_
  clear hs
  induction commands generalizing s with
  | nil => trivial
  | cons i commands ih => exact ⟨trivial, ih⟩

/-- Two conditions that agree in the states where `I` holds, and every command keeps `I`, are
met by the same runs. -/
theorem meets_congr (hI : ∀ s i, I s → I (T.step s i)) (hiff : ∀ s i, I s → (ok s i ↔ ok' s i))
    {s : σ} (hs : I s) (commands : List ι) : T.Meets ok s commands ↔ T.Meets ok' s commands := by
  induction commands generalizing s with
  | nil => exact Iff.rfl
  | cons i commands ih => exact and_congr (hiff s i hs) (ih (hI s i hs))

/-- The states of a run: what is known of each of them says when its commands all meet
`ok`, if in the states where `I` holds a command keeps `I` exactly when it meets `ok`. -/
theorem prefixes_iff_meets {J : σ → Prop} (hJ : ∀ s i, J s → J (T.step s i))
    (hstep : ∀ s i, J s → I s → (I (T.step s i) ↔ ok s i)) {s : σ} (hs : J s) (h0 : I s)
    (commands : List ι) :
    (∀ before, before <+: commands → I (T.run s before)) ↔ T.Meets ok s commands := by
  induction commands generalizing s with
  | nil =>
    refine ⟨fun _ => trivial, ?_⟩
    intro _ before hbefore
    rw [List.prefix_nil.mp hbefore]
    exact h0
  | cons i commands ih =>
    constructor
    · intro h
      have hi : I (T.step s i) := h [i] (List.prefix_append [i] commands)
      refine ⟨(hstep s i hs h0).mp hi, (ih (hJ s i hs) hi).mp ?_⟩
      intro before hbefore
      exact h (i :: before) (List.cons_prefix_cons.mpr ⟨rfl, hbefore⟩)
    · rintro ⟨hok, hrest⟩ before hbefore
      have hi : I (T.step s i) := (hstep s i hs h0).mpr hok
      cases before with
      | nil => exact h0
      | cons j before =>
        obtain ⟨rfl, hafter⟩ := List.cons_prefix_cons.mp hbefore
        exact (ih (hJ s j hs) hi).mpr hrest before hafter

/-! ## Systems whose commands may fail -/

section Commands

universe w

variable {ε : Type w} {init : σ → Prop} {exec : σ → ι → Except ε σ}

/-- The system of a partial function: a command that fails leaves the state alone. -/
def ofExec (init : σ → Prop) (exec : σ → ι → Except ε σ) : TransitionSystem σ ι where
  init := init
  step := fun s i =>
    match exec s i with
    | .ok t => t
    | .error _ => s

theorem ofExec_step_ok {s t : σ} {i : ι} (h : exec s i = .ok t) :
    (ofExec init exec).step s i = t := by
  simp only [ofExec, h]

/-- What committed commands establish from `s`, given that nothing happening does too, every
command establishes. -/
theorem ofExec_step_cases {P : σ → Prop} {s : σ} {i : ι} (hsame : P s)
    (hexec : ∀ t, exec s i = .ok t → P t) : P ((ofExec init exec).step s i) := by
  simp only [ofExec]
  split
  · rename_i t h
    exact hexec t h
  · exact hsame

/-- **Invariant rule for commands.** Only commands that commit have to be looked at. -/
theorem ReachableVia.invariant_of_exec {t : σ} (h : (ofExec init exec).ReachableVia ok t)
    (h0 : ∀ s, init s → I s) (hexec : ∀ s i t, I s → ok s i → exec s i = .ok t → I t) : I t :=
  h.invariant h0 fun s i hI hok => ofExec_step_cases hI fun t ht => hexec s i t hI hok ht

/-- What committed commands keep is kept from any state on. -/
theorem Reaches.preserves_of_exec {s t : σ} (h : (ofExec init exec).Reaches ok s t) (hs : I s)
    (hexec : ∀ s i t, I s → ok s i → exec s i = .ok t → I t) : I t :=
  h.preserves hs fun s i hI hok => ofExec_step_cases hI fun t ht => hexec s i t hI hok ht

end Commands

end TransitionSystem

end Crony.Lib
