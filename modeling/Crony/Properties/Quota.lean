/-
The request budget over whole sequences of operations.

Every part of every method either extends the deadline, replaces the quota observation by
one that does not restore spent budget, sets the failure counter within its bound, or, in
`success`, drops a deadline the clock has passed. `Moves` is what these have in common; it
composes, so the methods follow from their parts and the runs from the methods.
-/
import Crony.Cli.Quota

set_option autoImplicit false

open Crony.Lib

namespace Crony.Cli

/-! ## Deadlines -/

theorem outstanding_iff {deadline now : DateTime} :
    outstanding deadline now = true ↔ deadline = MAX_UTC ∨ now < deadline := by
  rw [outstanding, Bool.or_eq_true, decide_eq_true_eq, decide_eq_true_eq]

/-- A later deadline is outstanding where an earlier one is. -/
theorem outstanding_of_le {r r' now : DateTime} (h : outstanding r now = true) (hle : r ≤ r') :
    outstanding r' now = true := by
  rw [outstanding_iff] at h ⊢
  rcases h with rfl | h
  · exact Or.inl (le_antisymm r'.le_max hle)
  · exact Or.inr (lt_of_lt_of_le h hle)

/-! ## What the parts of the methods have in common -/

/-- A deadline has a reason and a reason a deadline, and the failures are bounded. -/
structure Sound (s : FactoryPollingState) : Prop where
  paired : s.next_retry_at.isSome = s.retry_reason.isSome
  bounded : s.consecutive_failures ≤ MAX_FAILURES

/-- The observation `q` restores nothing `old` had spent: its window does not begin earlier,
and in the same window no more remains. -/
structure Spends (old q : GithubGraphqlQuota) : Prop where
  reset_at : old.reset_at ≤ q.reset_at
  remaining : q.reset_at = old.reset_at → q.remaining ≤ old.remaining

theorem Spends.refl (q : GithubGraphqlQuota) : Spends q q :=
  ⟨le_refl _, fun _ => Nat.le_refl _⟩

theorem Spends.trans {a b c : GithubGraphqlQuota} (hab : Spends a b) (hbc : Spends b c) :
    Spends a c := by
  refine ⟨le_trans hab.reset_at hbc.reset_at, ?_⟩
  intro hsame
  -- The window of the one in the middle lies between two equal windows.
  have hba : b.reset_at = a.reset_at := le_antisymm (hsame ▸ hbc.reset_at) hab.reset_at
  exact Nat.le_trans (hbc.remaining (hsame.trans hba.symm)) (hab.remaining hba)

/-- A change of the state at the time `now` that keeps it sound, keeps or extends an
outstanding deadline, and restores no spent budget. -/
structure Moves (now : DateTime) (s t : FactoryPollingState) : Prop where
  sound : Sound s → Sound t
  wait : ∀ r, s.next_retry_at = some r → outstanding r now = true →
    ∃ r', t.next_retry_at = some r' ∧ r ≤ r'
  quota : ∀ old, s.graphql = some old → ∃ q, t.graphql = some q ∧ Spends old q

namespace Moves

variable {now : DateTime} {s t u : FactoryPollingState}

theorem refl (now : DateTime) (s : FactoryPollingState) : Moves now s s :=
  ⟨id, fun r hr _ => ⟨r, hr, le_refl r⟩, fun old hold => ⟨old, hold, .refl old⟩⟩

theorem trans (hst : Moves now s t) (htu : Moves now t u) : Moves now s u := by
  refine ⟨fun h => htu.sound (hst.sound h), ?_, ?_⟩
  · intro r hr hout
    obtain ⟨r₁, hr₁, hle₁⟩ := hst.wait r hr hout
    obtain ⟨r₂, hr₂, hle₂⟩ := htu.wait r₁ hr₁ (outstanding_of_le hout hle₁)
    exact ⟨r₂, hr₂, le_trans hle₁ hle₂⟩
  · intro old hold
    obtain ⟨q₁, hq₁, h₁⟩ := hst.quota old hold
    obtain ⟨q₂, hq₂, h₂⟩ := htu.quota q₁ hq₁
    exact ⟨q₂, hq₂, h₁.trans h₂⟩

/-- Setting the failure counter within its bound. -/
theorem set_failures (now : DateTime) (s : FactoryPollingState) {n : Nat}
    (hn : n ≤ MAX_FAILURES) : Moves now s { s with consecutive_failures := n } :=
  ⟨fun h => ⟨h.paired, hn⟩, fun r hr _ => ⟨r, hr, le_refl r⟩,
    fun old hold => ⟨old, hold, .refl old⟩⟩

theorem extend_wait (now : DateTime) (s : FactoryPollingState) (reason : FactoryRetryReason)
    (deadline : DateTime) : Moves now s (extend_wait s reason deadline) := by
  unfold Cli.extend_wait
  split
  · rename_i hcond
    refine ⟨fun h => ⟨rfl, h.bounded⟩, ?_, fun old hold => ⟨old, hold, .refl old⟩⟩
    intro r hr _
    refine ⟨deadline, rfl, ?_⟩
    rcases hcond with hlater | ⟨hsame, -⟩
    · exact le_of_lt (hlater r hr)
    · rw [hr, Option.some.injEq] at hsame
      exact le_of_eq hsame
  · exact .refl now s

theorem repair_wait (now : DateTime) (s : FactoryPollingState) :
    Moves now s (repair_wait s now) :=
  (Moves.set_failures now s (Nat.min_le_right _ _)).trans (.extend_wait now _ _ _)

theorem merge_quota (now : DateTime) (s : FactoryPollingState) (quota : GithubGraphqlQuota) :
    Moves now s (merge_quota s quota) := by
  unfold Cli.merge_quota
  split
  · exact .refl now s
  · rename_i hkeep
    refine ⟨fun h => ⟨h.paired, h.bounded⟩, fun r hr _ => ⟨r, hr, le_refl r⟩, ?_⟩
    intro old hold
    refine ⟨quota, rfl, ?_, ?_⟩
    · refine not_lt.mp fun hlt => hkeep ⟨old, hold, Or.inr (Or.inl hlt)⟩
    · intro hsame
      exact Nat.not_lt.mp fun hlt => hkeep ⟨old, hold, Or.inr (Or.inr ⟨hsame, hlt⟩)⟩

theorem retain_quota_wait (now : DateTime) (s : FactoryPollingState) :
    Moves now s (retain_quota_wait s now) := by
  unfold Cli.retain_quota_wait
  split
  · exact .refl now s
  · dsimp only
    split
    · exact .extend_wait now s _ _
    · exact .refl now s

/-! ## The methods -/

theorem restore_wait (s persisted : FactoryPollingState) (now : DateTime) :
    Moves now s (restore_wait s persisted now) := by
  unfold Cli.restore_wait
  split
  · exact .extend_wait now s _ _
  · split
    · exact .repair_wait now s
    · exact .refl now s

theorem restore_quota (s persisted : FactoryPollingState) (now : DateTime) :
    Moves now s (restore_quota s persisted now) := by
  unfold Cli.restore_quota
  split
  · split
    · exact .merge_quota now s _
    · exact .repair_wait now s
  · exact .refl now s

theorem restore (s persisted : FactoryPollingState) (now : DateTime) :
    Moves now s (restore s persisted now) := by
  have hcount : Moves now s { s with
      consecutive_failures :=
        min (max s.consecutive_failures persisted.consecutive_failures) MAX_FAILURES } :=
    .set_failures now s (Nat.min_le_right _ _)
  have hwait := hcount.trans (.restore_wait _ persisted now)
  have hquota := hwait.trans (.restore_quota _ persisted now)
  exact hquota.trans (.retain_quota_wait now _)

theorem failure (s : FactoryPollingState) (error : Option GitHubWait) (now : DateTime) :
    Moves now s (failure s error now).2 := by
  unfold Cli.failure
  cases error with
  | none => exact .refl now s
  | some wait =>
    have hcount : Moves now s (failure_deadline s wait now).1 := by
      unfold failure_deadline
      split
      · exact .set_failures now s (Nat.min_le_right _ _)
      · exact .refl now s
    exact hcount.trans ((Moves.extend_wait now _ _ _).trans (.retain_quota_wait now _))

theorem success (s : FactoryPollingState) (now : DateTime) : Moves now s (success s now) := by
  unfold Cli.success
  refine Moves.trans ?_ (.retain_quota_wait now _)
  split
  · rename_i hover
    -- The deadline that is dropped is over.
    refine ⟨fun _ => ⟨rfl, Nat.zero_le _⟩, ?_, fun old hold => ⟨old, hold, .refl old⟩⟩
    intro r hr hout
    exact absurd ⟨r, hr, hout⟩ hover
  · split
    · exact .set_failures now s (Nat.zero_le _)
    · exact .refl now s

theorem observe_json (parse_from_rfc3339 : String → Option DateTime) (s : FactoryPollingState)
    (response : Json) (now : DateTime) :
    Moves now s (observe_json parse_from_rfc3339 s response now).2 := by
  unfold Cli.observe_json
  split
  · exact .refl now s
  · split
    · exact .refl now s
    · exact .refl now s
    · exact (Moves.merge_quota now s _).trans (.retain_quota_wait now _)

end Moves

section Runs

variable (parse_from_rfc3339 : String → Option DateTime)

/-- **Step lemma.** -/
theorem budget_step_moves (s : FactoryPollingState) (op : BudgetOp) :
    Moves op.now s ((budget parse_from_rfc3339).step s op) := by
  cases op with
  | restore persisted now => exact .restore s persisted now
  | check now => exact .retain_quota_wait now s
  | observe_json response now => exact .observe_json parse_from_rfc3339 s response now
  | failure error now => exact .failure s error now
  | success now => exact .success s now

theorem budget_run_sound {s : FactoryPollingState} (hs : Sound s) (ops : List BudgetOp) :
    Sound ((budget parse_from_rfc3339).run s ops) := by
  induction ops generalizing s with
  | nil => exact hs
  | cons op ops ih => exact ih ((budget_step_moves parse_from_rfc3339 s op).sound hs)

/-- A deadline that no clock reading has passed stands. -/
theorem budget_run_wait {s : FactoryPollingState} {r : DateTime} (hr : s.next_retry_at = some r)
    (ops : List BudgetOp) (hout : ∀ op ∈ ops, outstanding r op.now = true) :
    ∃ r', ((budget parse_from_rfc3339).run s ops).next_retry_at = some r' ∧ r ≤ r' := by
  induction ops generalizing s r with
  | nil => exact ⟨r, hr, le_refl r⟩
  | cons op ops ih =>
    obtain ⟨r₁, hr₁, hle₁⟩ :=
      (budget_step_moves parse_from_rfc3339 s op).wait r hr (hout op List.mem_cons_self)
    obtain ⟨r₂, hr₂, hle₂⟩ := ih hr₁ fun o ho =>
      outstanding_of_le (hout o (List.mem_cons_of_mem op ho)) hle₁
    exact ⟨r₂, hr₂, le_trans hle₁ hle₂⟩

theorem budget_run_quota {s : FactoryPollingState} {old : GithubGraphqlQuota}
    (hold : s.graphql = some old) (ops : List BudgetOp) :
    ∃ q, ((budget parse_from_rfc3339).run s ops).graphql = some q ∧ Spends old q := by
  induction ops generalizing s old with
  | nil => exact ⟨old, hold, .refl old⟩
  | cons op ops ih =>
    obtain ⟨q₁, hq₁, h₁⟩ := (budget_step_moves parse_from_rfc3339 s op).quota old hold
    obtain ⟨q₂, hq₂, h₂⟩ := ih hq₁
    exact ⟨q₂, hq₂, h₁.trans h₂⟩

/-- An observation that is rejected changes nothing. -/
theorem observe_json_error {s : FactoryPollingState} {response : Json} {now : DateTime}
    {e : String} (h : (observe_json parse_from_rfc3339 s response now).1 = .error e) :
    (observe_json parse_from_rfc3339 s response now).2 = s := by
  unfold observe_json at h ⊢
  split
  · rfl
  · rename_i value hvalue
    rw [hvalue] at h
    dsimp only at h
    split
    · rfl
    · rfl
    · rename_i quota hquota
      rw [hquota] at h
      cases h

/-- **The budget over all runs.** From every state `s` a run reaches, and after every further
sequence of operations: a deadline has a reason and the failures are at most 16; a deadline of
`s` that no clock reading since has passed is still there or later, and the latest deadline of
all is never dropped; the quota window never moves back, and within one window the remaining
quota never goes up; a rejected observation changes nothing. -/
theorem budget_is_monotone (before ops : List BudgetOp) :
    let s := (budget parse_from_rfc3339).run {} before
    let t := (budget parse_from_rfc3339).run s ops
    (t.next_retry_at.isSome = true ↔ t.retry_reason.isSome = true)
      ∧ t.consecutive_failures ≤ 16
      ∧ (∀ r, s.next_retry_at = some r → (∀ op ∈ ops, op.now < r) →
          ∃ r', t.next_retry_at = some r' ∧ r ≤ r')
      ∧ (s.next_retry_at = some MAX_UTC → t.next_retry_at = some MAX_UTC)
      ∧ (∀ old, s.graphql = some old → ∃ q, t.graphql = some q ∧ old.reset_at ≤ q.reset_at
          ∧ (q.reset_at = old.reset_at → q.remaining ≤ old.remaining))
      ∧ (∀ response now e, (observe_json parse_from_rfc3339 t response now).1 = .error e →
          (observe_json parse_from_rfc3339 t response now).2 = t) := by
  intro s t
  have hs : Sound s := budget_run_sound parse_from_rfc3339 ⟨rfl, Nat.zero_le _⟩ before
  have ht : Sound t := budget_run_sound parse_from_rfc3339 hs ops
  refine ⟨by rw [ht.paired], ht.bounded, ?_, ?_, ?_, ?_⟩
  · intro r hr hnow
    exact budget_run_wait parse_from_rfc3339 hr ops fun op hop =>
      outstanding_iff.mpr (Or.inr (hnow op hop))
  · intro hr
    obtain ⟨r', hr', hle⟩ := budget_run_wait parse_from_rfc3339 hr ops fun _ _ =>
      outstanding_iff.mpr (Or.inl rfl)
    rw [hr', le_antisymm r'.le_max hle]
  · intro old hold
    obtain ⟨q, hq, hspends⟩ := budget_run_quota parse_from_rfc3339 hold ops
    exact ⟨q, hq, hspends.reset_at, hspends.remaining⟩
  · intro response now e he
    exact observe_json_error parse_from_rfc3339 he

end Runs

end Crony.Cli
