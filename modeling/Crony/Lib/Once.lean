/-
Calls that are made once.

A system that has to put up with repeated requests keeps a ledger: a call carries a key, a
call that has an effect leaves its key in the ledger, and a call whose key is there already is
answered without an effect. Then a key stands for one effect at most, however often and in
whatever order its calls are repeated. This file states that rule for the transition systems
of commands. It names nothing of the repository.
-/
import Crony.Lib.Transition

set_option autoImplicit false

namespace Crony.Lib

namespace TransitionSystem

universe u v w

variable {σ : Type u} {ι : Type v} {κ : Type w}

/-- In the states where `I` holds, the commands of `T` leave their keys in a ledger and have no
effect when they find them there. What counts as no effect is said by `quiet`. -/
structure Ledger (T : TransitionSystem σ ι) (I : σ → Prop) (quiet : σ → σ → Prop)
    (key : ι → Option κ) (recorded : σ → κ → Prop) : Prop where
  keeps : ∀ s i, I s → I (T.step s i)
  /-- No entry is ever removed. -/
  kept : ∀ s i k, I s → recorded s k → recorded (T.step s i) k
  /-- A command whose key is there has no effect. -/
  replay : ∀ s i k, I s → key i = some k → recorded s k → quiet s (T.step s i)
  /-- A command that has an effect leaves its key. -/
  entry : ∀ s i k, I s → key i = some k → quiet s (T.step s i) ∨ recorded (T.step s i) k

namespace Ledger

variable {T : TransitionSystem σ ι} {I : σ → Prop} {quiet : σ → σ → Prop} {key : ι → Option κ}
  {recorded : σ → κ → Prop} {ok : σ → ι → Prop}

/-- An entry is there in every later state. -/
theorem kept_of_reaches (h : T.Ledger I quiet key recorded) {s t : σ} (hs : I s) {k : κ}
    (hk : recorded s k) (hrun : T.Reaches ok s t) : I t ∧ recorded t k := by
  refine hrun.preserves (I := fun u => I u ∧ recorded u k) ⟨hs, hk⟩ ?_
  rintro a i ⟨ha, hka⟩ -
  exact ⟨h.keeps a i ha, h.kept a i k ha hka⟩

/-- **A key has one effect at most.** Of two commands with the same key, one later in a run than
the other, at most one has an effect. -/
theorem once (h : T.Ledger I quiet key recorded) {s t : σ} (hs : I s) {i j : ι} {k : κ}
    (hi : key i = some k) (hj : key j = some k) (hrun : T.Reaches ok (T.step s i) t) :
    quiet s (T.step s i) ∨ quiet t (T.step t j) := by
  rcases h.entry s i k hs hi with hsame | hk
  · exact Or.inl hsame
  · obtain ⟨ht, hkt⟩ := h.kept_of_reaches (h.keeps s i hs) hk hrun
    exact Or.inr (h.replay t j k ht hj hkt)

end Ledger

end TransitionSystem

end Crony.Lib
