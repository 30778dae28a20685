/-
One-time tokens.

A party proves who it is with a token, and every success exchanges the token for a new
one; whoever is in charge may revoke a party. What such a protocol is for is a statement
about its history: no token succeeds twice, and no token issued before a revocation
succeeds after it. This file states both over a log of what happened and gives the rule
by which a state keeps them: it is enough to say which tokens are still good. It names
nothing of the repository.
-/
import Mathlib.Logic.Basic
import Mathlib.Data.List.Basic

set_option autoImplicit false

namespace Crony.Lib

universe u v

/-- What happens to tokens of type `τ`, presented by parties of type `κ`. -/
inductive TokenEntry (κ : Type u) (τ : Type v) where
  | issued (token : τ)
  | presented (party : κ) (token : τ)
  | revoked (party : κ)
  deriving DecidableEq, Repr

namespace TokenEntry

variable {κ : Type u} {τ : Type v}

/-- No token succeeds twice, for whichever party. -/
def Once (log : List (TokenEntry κ τ)) : Prop :=
  ∀ before party token after, log = before ++ presented party token :: after →
    ∀ other, presented other token ∉ after

/-- No token issued before a party's revocation succeeds for the party after it. -/
def Fenced (log : List (TokenEntry κ τ)) : Prop :=
  ∀ before party after, log = before ++ revoked party :: after →
    ∀ token, issued token ∈ before → presented party token ∉ after

/-- A list that ends in `b` is cut at an element of its front or at `b`. -/
theorem append_singleton_cases {α : Type*} {log before after : List α} {a b : α}
    (h : log ++ [b] = before ++ a :: after) :
    (∃ rest, log = before ++ a :: rest ∧ after = rest ++ [b])
    ∨ (log = before ∧ a = b ∧ after = []) := by
  rcases List.eq_nil_or_concat after with rfl | ⟨rest, c, rfl⟩
  · obtain ⟨hlog, hb⟩ := List.append_inj' h rfl
    exact Or.inr ⟨hlog, (List.singleton_inj.mp hb).symm, rfl⟩
  · rw [List.concat_eq_append] at h
    have h' : log ++ [b] = (before ++ a :: rest) ++ [c] := by
      rw [h, List.append_assoc, List.cons_append]
    obtain ⟨hlog, hb⟩ := List.append_inj' h' rfl
    rw [List.singleton_inj.mp hb]
    exact Or.inl ⟨rest, hlog, List.concat_eq_append⟩

/-- `Live` tells the tokens that are still good, and the log is sound about them. -/
structure Guarded (Live : κ → τ → Prop) (log : List (TokenEntry κ τ)) : Prop where
  live_issued : ∀ party token, Live party token → issued token ∈ log
  presented_issued : ∀ party token, presented party token ∈ log → issued token ∈ log
  presented_dead : ∀ party token other, presented party token ∈ log → ¬ Live other token
  revoked_dead : ∀ before party after, log = before ++ revoked party :: after →
    ∀ token, issued token ∈ before → ¬ Live party token
  once : Once log
  fenced : Fenced log

variable {Live Live' : κ → τ → Prop} {log : List (TokenEntry κ τ)}

theorem Guarded.nil (h : ∀ party token, ¬ Live party token) : Guarded Live [] where
  live_issued := fun party token hl => absurd hl (h party token)
  presented_issued := fun _ _ hp => absurd hp List.not_mem_nil
  presented_dead := fun _ _ _ hp => absurd hp List.not_mem_nil
  revoked_dead := fun before party after hlog => by simp at hlog
  once := fun before party token after hlog => by simp at hlog
  fenced := fun before party after hlog => by simp at hlog

/-- Tokens may stop being good at any time. -/
theorem Guarded.mono (h : Guarded Live log)
    (hle : ∀ party token, Live' party token → Live party token) :
    Guarded Live' log where
  live_issued := fun party token hl => h.live_issued party token (hle party token hl)
  presented_issued := h.presented_issued
  presented_dead := fun party token other hp hl =>
    h.presented_dead party token other hp (hle other token hl)
  revoked_dead := fun before party after hlog token hi hl =>
    h.revoked_dead before party after hlog token hi (hle party token hl)
  once := h.once
  fenced := h.fenced

/-- A new token may become good. -/
theorem Guarded.issue (h : Guarded Live log) {token : τ} (hfresh : issued token ∉ log)
    (hlive : ∀ party t, Live' party t → Live party t ∨ t = token) :
    Guarded Live' (log ++ [issued token]) := by
  have hpresented : ∀ party t, presented party t ∈ log ++ [issued token] →
      presented party t ∈ log := by
    intro party t ht
    simpa using ht
  refine ⟨?_, ?_, ?_, ?_, ?_, ?_⟩
  · intro party t hl
    rcases hlive party t hl with hl | rfl
    · exact List.mem_append_left _ (h.live_issued party t hl)
    · exact List.mem_append_right _ List.mem_cons_self
  · intro party t hp
    exact List.mem_append_left _ (h.presented_issued party t (hpresented party t hp))
  · intro party t other hp hl
    have hold := hpresented party t hp
    rcases hlive other t hl with hl | rfl
    · exact h.presented_dead party t other hold hl
    · exact hfresh (h.presented_issued party t hold)
  · intro before party after hcut t hi hl
    rcases append_singleton_cases hcut with ⟨rest, hlog, -⟩ | ⟨-, heq, -⟩
    · rcases hlive party t hl with hl | rfl
      · exact h.revoked_dead before party rest hlog t hi hl
      · refine hfresh ?_
        rw [hlog]
        exact List.mem_append_left _ hi
    · cases heq
  · intro before party t after hcut other hp
    rcases append_singleton_cases hcut with ⟨rest, hlog, rfl⟩ | ⟨-, heq, -⟩
    · have hp : presented other t ∈ rest := by simpa using hp
      exact h.once before party t rest hlog other hp
    · cases heq
  · intro before party after hcut t hi hp
    rcases append_singleton_cases hcut with ⟨rest, hlog, rfl⟩ | ⟨-, heq, -⟩
    · have hp : presented party t ∈ rest := by simpa using hp
      exact h.fenced before party rest hlog t hi hp
    · cases heq

/-- A good token may be presented, and is good for nobody afterwards. -/
theorem Guarded.present (h : Guarded Live log) {party : κ} {token : τ} (hgood : Live party token)
    (hlive : ∀ other t, Live' other t → Live other t ∧ t ≠ token) :
    Guarded Live' (log ++ [presented party token]) := by
  refine ⟨?_, ?_, ?_, ?_, ?_, ?_⟩
  · intro other t hl
    exact List.mem_append_left _ (h.live_issued other t (hlive other t hl).1)
  · intro other t hp
    rcases List.mem_append.mp hp with hp | hp
    · exact List.mem_append_left _ (h.presented_issued other t hp)
    · obtain ⟨rfl, rfl⟩ := (presented.injEq _ _ _ _).mp (List.mem_singleton.mp hp)
      exact List.mem_append_left _ (h.live_issued other t hgood)
  · intro other t third hp hl
    rcases List.mem_append.mp hp with hp | hp
    · exact h.presented_dead other t third hp (hlive third t hl).1
    · obtain ⟨rfl, rfl⟩ := (presented.injEq _ _ _ _).mp (List.mem_singleton.mp hp)
      exact (hlive third t hl).2 rfl
  · intro before other after hcut t hi hl
    rcases append_singleton_cases hcut with ⟨rest, hlog, -⟩ | ⟨-, heq, -⟩
    · exact h.revoked_dead before other rest hlog t hi (hlive other t hl).1
    · cases heq
  · intro before other t after hcut third hp
    rcases append_singleton_cases hcut with ⟨rest, hlog, rfl⟩ | ⟨-, -, rfl⟩
    · rcases List.mem_append.mp hp with hp | hp
      · exact h.once before other t rest hlog third hp
      · -- The token was presented before, so it was no longer good.
        obtain ⟨rfl, rfl⟩ := (presented.injEq _ _ _ _).mp (List.mem_singleton.mp hp)
        refine h.presented_dead other t third ?_ hgood
        rw [hlog]
        exact List.mem_append_right _ List.mem_cons_self
    · exact absurd hp List.not_mem_nil
  · intro before other after hcut t hi hp
    rcases append_singleton_cases hcut with ⟨rest, hlog, rfl⟩ | ⟨-, heq, -⟩
    · rcases List.mem_append.mp hp with hp | hp
      · exact h.fenced before other rest hlog t hi hp
      · obtain ⟨rfl, rfl⟩ := (presented.injEq _ _ _ _).mp (List.mem_singleton.mp hp)
        exact h.revoked_dead before other rest hlog t hi hgood
    · cases heq

/-- A party may be revoked once none of its tokens is good. -/
theorem Guarded.revoke (h : Guarded Live log) {party : κ} (hdead : ∀ token, ¬ Live party token) :
    Guarded Live (log ++ [revoked party]) := by
  have hpresented : ∀ other t, presented other t ∈ log ++ [revoked party] →
      presented other t ∈ log := by
    intro other t ht
    simpa using ht
  refine ⟨?_, ?_, ?_, ?_, ?_, ?_⟩
  · intro other t hl
    exact List.mem_append_left _ (h.live_issued other t hl)
  · intro other t hp
    exact List.mem_append_left _ (h.presented_issued other t (hpresented other t hp))
  · intro other t third hp
    exact h.presented_dead other t third (hpresented other t hp)
  · intro before other after hcut t hi
    rcases append_singleton_cases hcut with ⟨rest, hlog, -⟩ | ⟨-, heq, -⟩
    · exact h.revoked_dead before other rest hlog t hi
    · rw [(revoked.injEq _ _).mp heq]
      exact hdead t
  · intro before other t after hcut third hp
    rcases append_singleton_cases hcut with ⟨rest, hlog, rfl⟩ | ⟨-, heq, -⟩
    · have hp : presented third t ∈ rest := by simpa using hp
      exact h.once before other t rest hlog third hp
    · cases heq
  · intro before other after hcut t hi hp
    rcases append_singleton_cases hcut with ⟨rest, hlog, rfl⟩ | ⟨-, -, rfl⟩
    · have hp : presented other t ∈ rest := by simpa using hp
      exact h.fenced before other rest hlog t hi hp
    · exact absurd hp List.not_mem_nil

end TokenEntry

end Crony.Lib
