/-
The circuit breaker: its two implementations, and its ladder of stages.

`strongest_breaker_stage` picks a stage of greatest rank among ten metrics, in basis points;
`hard_breaker_reached_tx` compares usage and limit directly. On limits the basis points can
express they decide the same, metric by metric; a zero-provider allocation is exempt from the
usage metrics in the second and so is left with the two loop metrics.

A stage is only ever raised. Each raise leaves one incident, one command and one journal
entry behind, and from a hard stage on nothing that would advance the run is accepted.
-/
import Crony.Properties.Endings
import Crony.Properties.Evidence

set_option autoImplicit false

open Crony.Lib

namespace Crony.Store

variable {env : Env} {s t u : Db}

/-! ## One metric -/

/-- The stage a metric asks for. -/
def metric_stage (input : String × Int × Int) : Option BreakerStage :=
  if input.2.2 ≤ 0 then none
  else stage_of_basis_points ((saturating_mul input.2.1 10000).tdiv input.2.2)

/-- The largest limit whose stop threshold in basis points is an `i64`. -/
def max_metered_limit : Int := i64_max / 11000

/-- A counter a `BIGINT` column can hold. -/
def is_usage (used : Int) : Prop := 0 ≤ used ∧ used ≤ i64_max

/-- Comparing basis points with a threshold of at most 11000 is comparing the products. -/
theorem le_basis_points (bound : Int) {used limit : Int} (hused : is_usage used) (hpos : 0 < limit)
    (hlimit : limit ≤ max_metered_limit) (hbound : bound ≤ 11000) :
    bound ≤ (saturating_mul used 10000).tdiv limit ↔ bound * limit ≤ used * 10000 := by
  have hmul : 0 ≤ used * 10000 := by
    have := hused.1
    omega
  have hsat : saturating_mul used 10000 = min i64_max (used * 10000) := by
    unfold saturating_mul
    rw [max_eq_right]
    have hmax : (0 : Int) ≤ i64_max := by decide
    have hmin : i64_min ≤ 0 := by decide
    omega
  have hnonneg : 0 ≤ min i64_max (used * 10000) := Int.le_min.mpr ⟨by decide, hmul⟩
  rw [hsat, Int.tdiv_eq_ediv_of_nonneg hnonneg, Int.le_ediv_iff_mul_le hpos, Int.le_min]
  refine and_iff_right ?_
  -- The threshold itself does not saturate.
  have hthreshold : 11000 * max_metered_limit ≤ i64_max := by decide
  calc bound * limit ≤ 11000 * limit := Int.mul_le_mul_of_nonneg_right hbound hpos.le
    _ ≤ 11000 * max_metered_limit := Int.mul_le_mul_of_nonneg_left hlimit (by decide)
    _ ≤ i64_max := hthreshold

/-- A metric asks for a hard stage when its limit is reached. -/
theorem metric_stage_hard {input : String × Int × Int} (hused : is_usage input.2.1)
    (hlimit : input.2.2 ≤ max_metered_limit) :
    (∃ stage, metric_stage input = some stage ∧ breaker_is_hard stage = true)
      ↔ limit_reached input.2.1 input.2.2 = true := by
  unfold metric_stage limit_reached
  rw [Bool.and_eq_true, decide_eq_true_eq, decide_eq_true_eq]
  by_cases hpos : 0 < input.2.2
  · rw [if_neg (not_le.mpr hpos)]
    have hhard := le_basis_points 10000 hused hpos hlimit (by decide)
    have hstop := le_basis_points 11000 hused hpos hlimit (by decide)
    unfold stage_of_basis_points
    constructor
    · rintro ⟨stage, hstage, hh⟩
      refine ⟨hpos, ?_⟩
      have hreach : 10000 ≤ (saturating_mul input.2.1 10000).tdiv input.2.2 := by
        by_contra hlow
        have hlow' : ¬ 11000 ≤ (saturating_mul input.2.1 10000).tdiv input.2.2 := by omega
        rw [if_neg hlow', if_neg hlow] at hstage
        split at hstage
        · cases hstage
          cases hh
        · split at hstage
          · cases hstage
            cases hh
          · cases hstage
      have := hhard.mp hreach
      omega
    · rintro ⟨-, hle⟩
      have hreach := hhard.mpr (by omega)
      split
      · exact ⟨.stop, rfl, rfl⟩
      · exact ⟨.suspend, rfl, rfl⟩
  · rw [if_pos (not_lt.mp hpos)]
    simp [hpos]

/-- A metric asks for `stop` from eleven tenths of its limit on. -/
theorem metric_stage_stop {input : String × Int × Int} (hused : is_usage input.2.1)
    (hlimit : input.2.2 ≤ max_metered_limit) :
    metric_stage input = some .stop ↔ 0 < input.2.2 ∧ 11 * input.2.2 ≤ 10 * input.2.1 := by
  unfold metric_stage
  by_cases hpos : 0 < input.2.2
  · rw [if_neg (not_le.mpr hpos)]
    have hstop := le_basis_points 11000 hused hpos hlimit (by decide)
    unfold stage_of_basis_points
    by_cases hreach : 11000 ≤ (saturating_mul input.2.1 10000).tdiv input.2.2
    · rw [if_pos hreach]
      have := hstop.mp hreach
      simp only [hpos, true_and, true_iff]
      omega
    · rw [if_neg hreach]
      have hnot : ¬ 11 * input.2.2 ≤ 10 * input.2.1 := by
        intro hle
        exact hreach (hstop.mpr (by omega))
      simp only [hnot, and_false, iff_false]
      split
      · simp
      · split
        · simp
        · split <;> simp
  · rw [if_pos (not_lt.mp hpos)]
    simp [hpos]

/-! ## The strongest stage -/

/-- What the loop has selected after some metrics. -/
def Strongest (inputs : List (String × Int × Int))
    (selected : Option (BreakerStage × String × Int × Int)) : Prop :=
  (∀ x, selected = some x → x.2 ∈ inputs ∧ metric_stage x.2 = some x.1)
    ∧ ∀ input ∈ inputs, ∀ stage, metric_stage input = some stage →
      ∃ x, selected = some x ∧ breaker_rank stage ≤ breaker_rank x.1

/-- One turn of the loop. -/
theorem breaker_step_eq (selected : Option (BreakerStage × String × Int × Int))
    (input : String × Int × Int) :
    breaker_step selected input = match metric_stage input, selected with
      | none, _ => selected
      | some stage, none => some (stage, input)
      | some stage, some current =>
        if breaker_rank current.1 < breaker_rank stage then
          some (stage, input) else some current := by
  obtain ⟨name, used, limit⟩ := input
  unfold breaker_step metric_stage
  by_cases hpos : limit ≤ 0
  · simp [hpos]
  · simp only [hpos, if_false]
    cases stage_of_basis_points ((saturating_mul used 10000).tdiv limit) with
    | none => rfl
    | some stage => cases selected <;> rfl

theorem Strongest.step {inputs : List (String × Int × Int)}
    {selected : Option (BreakerStage × String × Int × Int)} (h : Strongest inputs selected)
    (input : String × Int × Int) :
    Strongest (inputs ++ [input]) (breaker_step selected input) := by
  obtain ⟨hsel, hmax⟩ := h
  rw [breaker_step_eq]
  cases hst : metric_stage input with
  | none =>
    refine ⟨fun x hx => ⟨List.mem_append_left _ (hsel x hx).1, (hsel x hx).2⟩, ?_⟩
    intro i hi stage hs
    rcases List.mem_append.mp hi with hi | hi
    · exact hmax i hi stage hs
    · rw [List.mem_singleton] at hi
      subst hi
      rw [hst] at hs
      cases hs
  | some stage =>
    cases hcur : selected with
    | none =>
      refine ⟨?_, ?_⟩
      · rintro x ⟨⟩
        exact ⟨List.mem_append_right _ (List.mem_singleton_self _), hst⟩
      · intro i hi stage' hs
        rcases List.mem_append.mp hi with hi | hi
        · obtain ⟨x, hx, -⟩ := hmax i hi stage' hs
          rw [hcur] at hx
          cases hx
        · rw [List.mem_singleton] at hi
          subst hi
          rw [hst, Option.some.injEq] at hs
          exact ⟨_, rfl, by rw [hs]⟩
    | some current =>
      dsimp only
      by_cases hlt : breaker_rank current.1 < breaker_rank stage
      · rw [if_pos hlt]
        refine ⟨?_, ?_⟩
        · rintro x ⟨⟩
          exact ⟨List.mem_append_right _ (List.mem_singleton_self _), hst⟩
        · intro i hi stage' hs
          refine ⟨_, rfl, ?_⟩
          rcases List.mem_append.mp hi with hi | hi
          · obtain ⟨x, hx, hle⟩ := hmax i hi stage' hs
            rw [hcur, Option.some.injEq] at hx
            subst hx
            exact le_trans hle hlt.le
          · rw [List.mem_singleton] at hi
            subst hi
            rw [hst, Option.some.injEq] at hs
            rw [hs]
      · rw [if_neg hlt]
        refine ⟨?_, ?_⟩
        · rintro x ⟨⟩
          exact ⟨List.mem_append_left _ (hsel _ hcur).1, (hsel _ hcur).2⟩
        · intro i hi stage' hs
          rcases List.mem_append.mp hi with hi | hi
          · obtain ⟨x, hx, hle⟩ := hmax i hi stage' hs
            exact ⟨x, hcur ▸ hx, hle⟩
          · rw [List.mem_singleton] at hi
            subst hi
            rw [hst, Option.some.injEq] at hs
            exact ⟨_, rfl, by rw [← hs]; exact not_lt.mp hlt⟩

/-- The loop selects a stage of greatest rank. -/
theorem strongest_breaker_stage_spec (inputs : List (String × Int × Int)) :
    Strongest inputs (strongest_breaker_stage inputs) := by
  -- The metrics seen so far grow from the left.
  have hfold : ∀ (rest seen : List (String × Int × Int)) selected, Strongest seen selected →
      Strongest (seen ++ rest) (rest.foldl breaker_step selected) := by
    intro rest
    induction rest with
    | nil =>
      intro seen selected h
      rw [List.append_nil]
      exact h
    | cons input rest ih =>
      intro seen selected h
      have hnext := ih (seen ++ [input]) (breaker_step selected input) (h.step input)
      rw [List.append_assoc] at hnext
      exact hnext
  exact hfold inputs [] none ⟨by simp, by simp⟩

/-- A property the selected stage has as soon as some metric's stage of no greater rank has
it. -/
theorem strongest_iff {inputs : List (String × Int × Int)} {P : BreakerStage → Prop}
    (hP : ∀ a b, P a → breaker_rank a ≤ breaker_rank b → P b) :
    (∃ x, strongest_breaker_stage inputs = some x ∧ P x.1)
      ↔ ∃ input ∈ inputs, ∃ stage, metric_stage input = some stage ∧ P stage := by
  obtain ⟨hsel, hmax⟩ := strongest_breaker_stage_spec inputs
  constructor
  · rintro ⟨x, hx, hp⟩
    exact ⟨x.2, (hsel x hx).1, x.1, (hsel x hx).2, hp⟩
  · rintro ⟨input, hi, stage, hst, hp⟩
    obtain ⟨x, hx, hle⟩ := hmax input hi stage hst
    exact ⟨x, hx, hP _ _ hp hle⟩

theorem breaker_is_hard_mono (a b : BreakerStage) (h : breaker_is_hard a = true)
    (hle : breaker_rank a ≤ breaker_rank b) : breaker_is_hard b = true := by
  revert h hle
  cases a <;> cases b <;> decide

theorem stop_mono (a b : BreakerStage) (h : a = .stop) (hle : breaker_rank a ≤ breaker_rank b) :
    b = .stop := by
  subst h
  revert hle
  cases b <;> decide

/-! ## The two implementations -/

/-- The metrics `hard_breaker_reached_tx` looks at. -/
def enforced_inputs (zero_provider : Bool) (inputs : List (String × Int × Int)) :
    List (String × Int × Int) :=
  if zero_provider then inputs.drop 8 else inputs

theorem hard_limit_reached_iff (zero_provider : Bool) (run : Run) (mission : Mission)
    (policy : CorpBudgetPolicy) (u : Usage) :
    hard_limit_reached zero_provider run mission policy u = true
      ↔ ∃ input ∈ enforced_inputs zero_provider (breaker_inputs run mission policy u),
        limit_reached input.2.1 input.2.2 = true := by
  unfold hard_limit_reached enforced_inputs breaker_inputs
  cases zero_provider with
  | true => simp
  | false => simp [or_assoc]

/-- On metered limits, the direct question over some metrics is the strongest stage of these
metrics. -/
theorem limit_reached_iff_strongest {inputs : List (String × Int × Int)}
    (h : ∀ input ∈ inputs, is_usage input.2.1 ∧ input.2.2 ≤ max_metered_limit) :
    (∃ input ∈ inputs, limit_reached input.2.1 input.2.2 = true)
      ↔ ∃ x, strongest_breaker_stage inputs = some x ∧ breaker_is_hard x.1 = true := by
  rw [strongest_iff breaker_is_hard_mono]
  constructor
  · rintro ⟨input, hi, hreach⟩
    exact ⟨input, hi, (metric_stage_hard (h input hi).1 (h input hi).2).mpr hreach⟩
  · rintro ⟨input, hi, hstage⟩
    exact ⟨input, hi, (metric_stage_hard (h input hi).1 (h input hi).2).mp hstage⟩

/-- **The two breakers agree.** For every run and all metered limits: the direct question is
answered yes exactly when the strongest stage is hard, over all ten metrics, or, for a
zero-provider allocation, over the two loop metrics; the strongest stage has the greatest
rank; and it is `stop` exactly when some positive limit is exceeded by a tenth. -/
theorem breakers_agree {now : Int} {corp_id run_id : Uuid} {run : Run} {task : Task}
    {mission : Mission} {zero_provider : Bool} {u : Usage} {inputs : List (String × Int × Int)}
    (hrow : s.run_task_mission corp_id run_id = some (run, task, mission))
    (hzero : zero_provider_allocation_tx s now corp_id run_id = .ok zero_provider)
    (husage : usage_tx s now run mission = .ok u)
    (hinputs : inputs = breaker_inputs run mission (s.budget_policy run.corp_id) u)
    (hmetered : ∀ input ∈ inputs, is_usage input.2.1 ∧ input.2.2 ≤ max_metered_limit) :
    ∃ reached, hard_breaker_reached_tx s now corp_id run_id = .ok reached
      ∧ (zero_provider = false → (reached = true ↔
          ∃ x, strongest_breaker_stage inputs = some x ∧ breaker_is_hard x.1 = true))
      ∧ (zero_provider = true → (reached = true ↔
          ∃ x, strongest_breaker_stage (inputs.drop 8) = some x ∧ breaker_is_hard x.1 = true))
      ∧ Strongest inputs (strongest_breaker_stage inputs)
      ∧ ((∃ x, strongest_breaker_stage inputs = some x ∧ x.1 = .stop) ↔
          ∃ input ∈ inputs, 0 < input.2.2 ∧ 11 * input.2.2 ≤ 10 * input.2.1) := by
  refine ⟨hard_limit_reached zero_provider run mission (s.budget_policy run.corp_id) u, ?_, ?_, ?_,
    strongest_breaker_stage_spec inputs, ?_⟩
  · unfold hard_breaker_reached_tx
    rw [hzero, ok_bind, hrow]
    simp only [context, ok_bind]
    rw [husage]
    rfl
  · intro hz
    rw [hard_limit_reached_iff, hz, ← hinputs]
    exact limit_reached_iff_strongest hmetered
  · intro hz
    rw [hard_limit_reached_iff, hz, ← hinputs]
    exact limit_reached_iff_strongest fun input hi => hmetered input (List.mem_of_mem_drop hi)
  · rw [strongest_iff stop_mono]
    constructor
    · rintro ⟨input, hi, stage, hstage, rfl⟩
      exact ⟨input, hi, (metric_stage_stop (hmetered input hi).1 (hmetered input hi).2).mp hstage⟩
    · rintro ⟨input, hi, hreach⟩
      exact ⟨input, hi, .stop,
        (metric_stage_stop (hmetered input hi).1 (hmetered input hi).2).mpr hreach, rfl⟩

/-- A run that is stopped by its budget, and the verification of its checkpoint. -/
def Office.checkpointed : Db :=
  { Office.db with
    missions := [{ id := 1, corp_id := 1, room_id := 10, requested_by := 1, status := .running
                   budget_tokens := 100, budget_cost_microusd := 100 }]
    tasks := [{ id := 1, corp_id := 1, mission_id := 1, status := .review,
                contract := Office.contract
                verification_policy := Office.file_policy, assigned_agent_id := some 100
                required_adapter := some "codex", max_attempts := 3 }]
    runs := [
      { id := 50, corp_id := 1, task_id := 1, agent_id := 100, runner_id := "runner"
        assignment_token := 7, status := .failed, created_at := 0, workspace_run_id := 50
        workspace_path := some "/workspace", workspace_disposition := some .preserved
        workspace_fingerprint := some (Office.sha 'a'), verification_status := .failed
        input_tokens := 120, budget_tokens_limit := 100, budget_cost_microusd_limit := 100
        breaker_stage := .stop },
      { id := 51, corp_id := 1, task_id := 1, agent_id := 100, runner_id := "runner"
        assignment_token := 8, status := .running, created_at := 1, workspace_run_id := 50
        resumed_from_run_id := some 50, execution_mode := .verification_only
        budget_tokens_limit := 0, budget_cost_microusd_limit := 0 }]
    factory_work_items := [{ id := 400, corp_id := 1, source_issue_number := 1
                             source := ⟨"o", 1, "i", "o", "r", "n", "u", "t"⟩
                             source_revision := "", policy := "", state := .running, version := 2
                             claim_owner_id := 1, claim_token := 9, lease_expires_at := 1000
                             mission_id := some 1 }]
    factory_verification_recoveries := [
      { id := 300, corp_id := 1, factory_work_item_id := 400, mission_id := 1, task_id := 1
        source_run_id := 50, replacement_run_id := some 51, mode := .checkpoint_verification
        status := .running, authorized_by := 1, reason := "", idempotency_key := 5
        contract_revision_id := none, previous_verification_policy := Office.file_policy
        replacement_verification_policy := Office.file_policy
        expected_workspace_fingerprint := some (Office.sha 'a')
        expected_head_commit := some (Office.sha 'b')
        checkpoint_authority := some
          { run_id := 50, head_commit := some (Office.sha 'b')
            workspace_fingerprint := some (Office.sha 'a') } }] }

/-- The metrics of a run there. -/
def Office.metrics (run_id : Uuid) : Option (List (String × Int × Int)) :=
  (Office.checkpointed.run_task_mission 1 run_id).bind fun row =>
    (usage_tx Office.checkpointed 10 row.1 row.2.2).toOption.map
      (breaker_inputs row.1 row.2.2 (Office.checkpointed.budget_policy 1))

set_option maxRecDepth 20000 in
/-- The stopped run: both breakers say so. -/
theorem breakers_agree_office : ∃ inputs, Office.metrics 50 = some inputs
    ∧ ∃ reached, hard_breaker_reached_tx Office.checkpointed 10 1 50 = .ok reached
      ∧ (reached = true ↔
          ∃ x, strongest_breaker_stage inputs = some x ∧ breaker_is_hard x.1 = true) := by
  have hrow : ∃ row ∈ Office.checkpointed.run_task_mission 1 50,
      ∃ u ∈ (usage_tx Office.checkpointed 10 row.1 row.2.2).toOption,
        ((breaker_inputs row.1 row.2.2 (Office.checkpointed.budget_policy row.1.corp_id) u).all
          fun input =>
          decide (0 ≤ input.2.1) && decide (input.2.1 ≤ i64_max)
            && decide (input.2.2 ≤ max_metered_limit)) = true
        ∧ Office.metrics 50 = some
          (breaker_inputs row.1 row.2.2 (Office.checkpointed.budget_policy row.1.corp_id) u) := by
    decide
  obtain ⟨⟨run, task, mission⟩, hrow, u, hu, hall, hmetrics⟩ := hrow
  have husage : usage_tx Office.checkpointed 10 run mission = .ok u := by
    cases he : usage_tx Office.checkpointed 10 run mission with
    | ok v =>
      rw [he] at hu
      exact congrArg _ (Option.some.inj hu)
    | error e =>
      rw [he] at hu
      cases hu
  have hzero : zero_provider_allocation_tx Office.checkpointed 10 1 50 = .ok false := by
    decide
  obtain ⟨reached, hreached, hagree, -⟩ := breakers_agree hrow hzero husage rfl (by
    intro input hi
    have hin := List.all_eq_true.mp hall input hi
    simp only [Bool.and_eq_true, decide_eq_true_eq] at hin
    exact ⟨⟨hin.1.1, hin.1.2⟩, hin.2⟩)
  exact ⟨_, hmetrics, reached, hreached, hagree rfl⟩

set_option maxRecDepth 20000 in
/-- **A zero-provider allocation tells the breakers apart.** The verification of the stopped
run's checkpoint is exempt from the spent mission budget in one and stopped by it in the
other. -/
theorem zero_provider_breakers_differ :
    hard_breaker_reached_tx Office.checkpointed 10 1 51 = .ok false
      ∧ ∃ inputs, Office.metrics 51 = some inputs
        ∧ (strongest_breaker_stage inputs).map (fun x => x.1) = some .stop := by
  decide

/-! ## The ladder -/

/-- The key of the breaker's own journal entries. -/
def EventKey.is_breaker : EventKey → Bool
  | .breaker_event .. => true
  | _ => false

theorem EventKey.is_breaker_of_routine {key : EventKey} (h : key.is_routine = true) :
    key.is_breaker = false := by
  cases key <;> first | rfl | cases h

theorem Event.OfEnd.not_breaker {run_id : Uuid} {e : Event} (h : e.OfEnd run_id) :
    e.idempotency_key.is_breaker = false := by
  rcases h.1 with hr | ⟨item, hk | hk | hk⟩
  · exact EventKey.is_breaker_of_routine hr
  · rw [hk]
    rfl
  · rw [hk]
    rfl
  · rw [hk]
    rfl

theorem Event.OfCommand.not_breaker {command_id : Uuid} {e : Event} (h : e.OfCommand command_id) :
    e.idempotency_key.is_breaker = false := by
  rcases h.1 with hk | hk
  · rw [hk]
    rfl
  · rw [hk]
    rfl

/-- A step that raises no stage. -/
structure Unraised (s t : Db) : Prop where
  incidents : t.circuit_breaker_incidents = s.circuit_breaker_incidents
  breaker_keys : t.breaker_keys = s.breaker_keys
  events : Appends (fun e => e.idempotency_key.is_breaker = false) s.events t.events
  runs : ∀ r' ∈ t.runs, (∃ r ∈ s.runs, r'.id = r.id ∧ r'.breaker_stage = r.breaker_stage)
    ∨ ((∀ x ∈ s.runs, x.id ≠ r'.id) ∧ r'.breaker_stage = .healthy)

theorem Calm.unraised {P : Event → Prop} (h : Calm P s t)
    (hP : ∀ e, P e → e.idempotency_key.is_breaker = false) : Unraised s t where
  incidents := h.circuit_breaker_incidents
  breaker_keys := h.breaker_keys
  events := h.events.mono hP
  runs := by
    intro r' hr'
    obtain ⟨r, hr, hk⟩ := h.runs.exists_old hr'
    exact Or.inl ⟨r, hr, hk.kept.id, hk.breaker_stage⟩

theorem Advance.unraised {r : Run} (h : Advance s t r) : Unraised s t where
  incidents := h.circuit_breaker_incidents
  breaker_keys := h.breaker_keys
  events := h.events.mono fun _ he => EventKey.is_breaker_of_routine he.1
  runs := by
    intro r' hr'
    obtain ⟨x, hx, hsame, -⟩ := h.runs.exists_old hr'
    exact Or.inl ⟨x, hx, hsame.kept.id, hsame.breaker_stage⟩

/-- A write of other columns of runs. -/
theorem Unraised.of_write {p : Run → Bool} {f : Run → Run}
    (hruns : t.runs = updateWhere p f s.runs)
    (hincidents : t.circuit_breaker_incidents = s.circuit_breaker_incidents)
    (hcommands : t.runner_commands = s.runner_commands)
    (hevents : Appends (fun e => e.idempotency_key.is_breaker = false) s.events t.events)
    (hf : ∀ x, (f x).id = x.id ∧ (f x).breaker_stage = x.breaker_stage) : Unraised s t where
  incidents := hincidents
  breaker_keys := by rw [Db.breaker_keys, hcommands, Db.breaker_keys]
  events := hevents
  runs := by
    intro r' hr'
    rw [hruns] at hr'
    obtain ⟨x, hx, rfl⟩ := mem_updateWhere.mp hr'
    refine Or.inl ⟨x, hx, ?_⟩
    split
    · exact hf x
    · exact ⟨rfl, rfl⟩

theorem ReportEffect.unraised {row : RunnerRow} {payload : Json} {event_type : EventType}
    (h : ReportEffect s t row payload event_type) : Unraised s t := by
  cases h with
  | calm _ h => exact h.unraised fun _ he => EventKey.is_breaker_of_routine he.1
  | ended _ h => exact h.unraised fun _ he => he.not_breaker
  | asked _ p _ _ _ h _ _ =>
    have hu := h.unraised fun _ he => EventKey.is_breaker_of_routine he.1
    exact ⟨hu.incidents, hu.breaker_keys, hu.events, hu.runs⟩
  | usage _ h =>
    unfold run_usage at h
    simp only [bind_eq_ok, pure_eq_ok] at h
    obtain ⟨_, -, rfl⟩ := h
    exact Unraised.of_write rfl rfl rfl Appends.refl fun _ => ⟨rfl, rfl⟩
  | evidence _ h =>
    obtain ⟨e, rfl, -⟩ := run_verification_evidence_ok h
    exact ⟨rfl, rfl, Appends.refl, fun r' hr' => Or.inl ⟨r', hr', rfl, rfl⟩⟩
  | passed _ h =>
    obtain ⟨_, _, _, -, -, -, rfl⟩ := run_verification_passed_ok h
    exact Unraised.of_write rfl rfl rfl Appends.refl fun _ => ⟨rfl, rfl⟩
  | waiting _ _ hadv => exact hadv.unraised
  | completed _ _ hadv => exact hadv.unraised

/-- Only `evaluate_circuit_breaker` raises a stage, by one raise of one active run. -/
theorem Effect.unraised_or_raised {op : Op} (h : Effect s op t) :
    Unraised s t ∨ ∃ corp_id run task mission stage incident command event, run ∈ s.runs
      ∧ run.active = true ∧ breaker_rank run.breaker_stage < breaker_rank stage
      ∧ Raising s t corp_id run task mission stage incident command event := by
  cases h with
  | calm h => exact Or.inl (h.unraised fun _ he => EventKey.is_breaker_of_routine he.1)
  | settled command_id _ h => exact Or.inl (h.unraised fun _ he => Event.OfCommand.not_breaker he)
  | admitted r _ h =>
    refine Or.inl ⟨h.circuit_breaker_incidents, h.breaker_keys,
      h.events.mono fun _ he => EventKey.is_breaker_of_routine he.1, ?_⟩
    intro r' hr'
    rw [h.runs] at hr'
    rcases List.mem_append.mp hr' with hr' | hr'
    · exact Or.inl ⟨r', hr', rfl, rfl⟩
    · rw [List.mem_singleton] at hr'
      subst hr'
      exact Or.inr ⟨h.fresh_run.fresh, h.fresh_run.breaker_stage⟩
  | raised now corp_id run_id run task mission stage i c e _ hj hactive hrank h =>
    exact Or.inr ⟨corp_id, run, task, mission, stage, i, c, e, hj.run_mem, hactive, hrank, h⟩
  | shelved l h ht =>
    subst ht
    exact Or.inl ⟨rfl, rfl, Appends.refl, fun r' hr' => Or.inl ⟨r', hr', rfl, rfl⟩⟩
  | readied corp_id artifact_id a run task mission u _ _ _ h ht =>
    have hroutine : Appends (fun e => e.idempotency_key.is_breaker = false) s.events u.events :=
      h.events.mono fun _ he => EventKey.is_breaker_of_routine he.1
    have hu : Unraised s u := by
      rcases h.state with ⟨-, hu⟩ | ⟨-, row, -, -, hu⟩
      · exact Unraised.of_write (congrArg Db.runs hu) (by rw [hu]) (by rw [hu]) hroutine
          fun _ => ⟨rfl, rfl⟩
      · exact Unraised.of_write (congrArg Db.runs hu) (by rw [hu]) (by rw [hu]) hroutine
          fun _ => ⟨rfl, rfl⟩
    by_cases hact : run.active = true
    · rw [if_pos hact] at ht
      subst ht
      have hreview : Unraised u (u.review_run run task.id) :=
        Unraised.of_write rfl rfl rfl Appends.refl fun _ => ⟨rfl, rfl⟩
      refine Or.inl ⟨hu.incidents, hu.breaker_keys, hu.events, ?_⟩
      intro r' hr'
      rcases hreview.runs r' hr' with ⟨y, hy, hid, hstage⟩ | ⟨hfresh, hstage⟩
      · rcases hu.runs y hy with ⟨x, hx, hid', hstage'⟩ | ⟨hfresh, hstage'⟩
        · exact Or.inl ⟨x, hx, hid.trans hid', hstage.trans hstage'⟩
        · exact Or.inr ⟨fun x hx he => hfresh x hx (he.trans hid), hstage.trans hstage'⟩
      · refine Or.inr ⟨fun x hx he => ?_, hstage⟩
        obtain ⟨y, hy, hk, -⟩ := h.quiet.runs.exists_new hx
        exact hfresh y hy (hk.id.trans he)
    · rw [if_neg hact] at ht
      subst ht
      exact Or.inl hu
  | approved now input row actor _ _ _ hadv => exact Or.inl hadv.unraised
  | reported now input row scope payload _ _ _ _ h =>
    have hu := h.unraised
    refine Or.inl ⟨hu.incidents, hu.breaker_keys, ?_, hu.runs⟩
    exact (Appends.one (P := fun e => e.idempotency_key.is_breaker = false) (l := s.events)
      (e := runner_event input row payload) rfl).trans hu.events

/-- The run has reached the stage. -/
def Db.climbed (s : Db) (run_id : Uuid) (stage : BreakerStage) : Prop :=
  ∃ r ∈ s.runs, r.id = run_id ∧ breaker_rank stage ≤ breaker_rank r.breaker_stage

/-- What was written for a stage was written once, for a run that reached it. -/
structure Ladder (s : Db) : Prop where
  incidents : ∀ i ∈ s.circuit_breaker_incidents, s.climbed i.run_id i.stage
  commands : ∀ run_id stage, CommandKey.breaker run_id stage ∈ s.breaker_keys →
    s.climbed run_id stage
  events : ∀ e ∈ s.events, ∀ run_id stage, e.idempotency_key = .breaker_event run_id stage →
    s.climbed run_id stage
  incidents_once : Keyed (fun i => (i.run_id, i.stage)) s.circuit_breaker_incidents
  commands_once : s.breaker_keys.Nodup
  events_once : UniqueWhere (fun e => e.idempotency_key.is_breaker) Event.idempotency_key s.events

theorem Initial.ladder (h : Initial s) : Ladder s := by
  constructor
  · simp [h.circuit_breaker_incidents]
  · simp [Db.breaker_keys, h.runner_commands]
  · simp [h.events]
  · simp [h.circuit_breaker_incidents, Keyed]
  · simp [Db.breaker_keys, h.runner_commands]
  · simp [h.events, UniqueWhere]

/-- A step keeps or raises the stage of every run. -/
def Climbs (s t : Db) : Prop := ∀ r ∈ s.runs, ∃ r' ∈ t.runs, r'.id = r.id
  ∧ breaker_rank r.breaker_stage ≤ breaker_rank r'.breaker_stage

theorem Climbs.climbed (h : Climbs s t) {run_id : Uuid} {stage : BreakerStage}
    (hc : s.climbed run_id stage) : t.climbed run_id stage := by
  obtain ⟨r, hr, hid, hle⟩ := hc
  obtain ⟨r', hr', hid', hle'⟩ := h r hr
  exact ⟨r', hr', hid'.trans hid, le_trans hle hle'⟩

theorem Unraised.climbs (h : Unraised s t) (hs : Life s) (hg : Grows s t) : Climbs s t := by
  intro r hr
  obtain ⟨r', hr', hk, -⟩ := hg.runs r hr
  refine ⟨r', hr', hk.id, ?_⟩
  rcases h.runs r' hr' with ⟨x, hx, hid, hstage⟩ | ⟨hfresh, -⟩
  · rw [hs.eq_of_id hr hx (hk.id.symm.trans hid), hstage]
  · exact absurd hk.id.symm (hfresh r hr)

section Raising

variable {corp_id : Uuid} {run : Run} {task : Task} {mission : Mission} {stage : BreakerStage}
  {incident : CircuitBreakerIncident} {command : RunnerCommand} {event : Event}

theorem Raising.climbs (h : Raising s t corp_id run task mission stage incident command event)
    (hs : Life s) (hrun : run ∈ s.runs)
    (hrank : breaker_rank run.breaker_stage < breaker_rank stage) : Climbs s t := by
  intro r hr
  rw [h.state]
  by_cases hid : r.id = run.id
  · refine ⟨r.raised stage, mem_updateWhere.mpr ⟨r, hr, by simp [hid]⟩, rfl, ?_⟩
    rw [hs.eq_of_id hr hrun hid]
    exact hrank.le
  · exact ⟨r, mem_updateWhere.mpr ⟨r, hr, by simp [hid]⟩, rfl, le_refl _⟩

theorem Raising.climbed (h : Raising s t corp_id run task mission stage incident command event)
    (hrun : run ∈ s.runs) : t.climbed run.id stage := by
  rw [h.state]
  exact ⟨run.raised stage, mem_updateWhere.mpr ⟨run, hrun, by simp⟩, rfl, le_refl _⟩

/-- The run has not been at the stage it is raised to. -/
theorem not_climbed (hs : Life s) (hrun : run ∈ s.runs)
    (hrank : breaker_rank run.breaker_stage < breaker_rank stage) : ¬ s.climbed run.id stage := by
  rintro ⟨r, hr, hid, hle⟩
  rw [hs.eq_of_id hr hrun hid] at hle
  omega

theorem Raising.breaker_keys
    (h : Raising s t corp_id run task mission stage incident command event) :
    t.breaker_keys = s.breaker_keys ++ [.breaker run.id stage] := by
  unfold Db.breaker_keys
  rw [h.state]
  simp [List.filter_append, h.command_kind, h.command_key]

/-- The entry of a raise is new. -/
theorem Raising.events (h : Raising s t corp_id run task mission stage incident command event)
    (hs : Life s) (hl : Ladder s) (hrun : run ∈ s.runs)
    (hrank : breaker_rank run.breaker_stage < breaker_rank stage) :
    t.events = s.events ++ [event] := by
  have hnew : s.recorded corp_id (.breaker_event run.id stage) = false := by
    by_contra hrec
    rw [Bool.not_eq_false, Db.recorded, List.any_eq_true] at hrec
    obtain ⟨e, he, hk⟩ := hrec
    simp only [Bool.and_eq_true, beq_iff_eq] at hk
    exact not_climbed hs hrun hrank (hl.events e he _ _ hk.2)
  rw [h.state]
  simp [hnew]

theorem Raising.ladder (h : Raising s t corp_id run task mission stage incident command event)
    (hs : Life s) (hl : Ladder s) (hrun : run ∈ s.runs)
    (hrank : breaker_rank run.breaker_stage < breaker_rank stage) : Ladder t := by
  have hclimbs := h.climbs hs hrun hrank
  have hthere := h.climbed hrun
  have hkeys := h.breaker_keys
  have hevents := h.events hs hl hrun hrank
  have hincidents : t.circuit_breaker_incidents = s.circuit_breaker_incidents ++ [incident] := by
    rw [h.state]
  constructor
  · intro i hi
    rw [hincidents] at hi
    rcases List.mem_append.mp hi with hi | hi
    · exact hclimbs.climbed (hl.incidents i hi)
    · rw [List.mem_singleton] at hi
      rw [hi, h.incident_run, h.incident_stage]
      exact hthere
  · intro run_id stage' hk
    rw [hkeys] at hk
    rcases List.mem_append.mp hk with hk | hk
    · exact hclimbs.climbed (hl.commands run_id stage' hk)
    · rw [List.mem_singleton, CommandKey.breaker.injEq] at hk
      rw [hk.1, hk.2]
      exact hthere
  · intro e he run_id stage' hk
    rw [hevents] at he
    rcases List.mem_append.mp he with he | he
    · exact hclimbs.climbed (hl.events e he run_id stage' hk)
    · rw [List.mem_singleton] at he
      rw [he, h.event_key, EventKey.breaker_event.injEq] at hk
      rw [← hk.1, ← hk.2]
      exact hthere
  · rw [hincidents]
    refine hl.incidents_once.append_singleton fun i hi heq => ?_
    rw [Prod.mk.injEq, h.incident_run, h.incident_stage] at heq
    exact h.incident_new i hi heq
  · rw [hkeys]
    refine List.Nodup.append hl.commands_once (List.nodup_singleton _) ?_
    intro key hold hnew
    rw [List.mem_singleton] at hnew
    subst hnew
    exact not_climbed hs hrun hrank (hl.commands _ _ hold)
  · rw [hevents]
    refine hl.events_once.append_singleton fun _ e he _ hk => ?_
    rw [h.event_key] at hk
    exact not_climbed hs hrun hrank (hl.events e he _ _ hk)

end Raising

theorem Unraised.ladder (h : Unraised s t) (hs : Life s) (hg : Grows s t) (hl : Ladder s) :
    Ladder t := by
  have hclimbs := h.climbs hs hg
  constructor
  · rw [h.incidents]
    exact fun i hi => hclimbs.climbed (hl.incidents i hi)
  · rw [h.breaker_keys]
    exact fun run_id stage hk => hclimbs.climbed (hl.commands run_id stage hk)
  · intro e he run_id stage hk
    rcases h.events.mem he with he | hno
    · exact hclimbs.climbed (hl.events e he run_id stage hk)
    · rw [hk] at hno
      cases hno
  · rw [h.incidents]
    exact hl.incidents_once
  · rw [h.breaker_keys]
    exact hl.commands_once
  · obtain ⟨new, hnew, hno⟩ := h.events
    rw [hnew]
    exact hl.events_once.append_of_none hno

/-- **A step climbs.** -/
theorem exec_climbs (hs : Inv s) {op : Op} (h : exec env s op = .ok t) : Climbs s t := by
  rcases (exec_effect hs.life hs.linked h).unraised_or_raised with
    hu | ⟨_, _, _, _, _, _, _, _, hrun, -, hrank, hraise⟩
  · exact hu.climbs hs.life (exec_grows hs h)
  · exact hraise.climbs hs.life hrun hrank

theorem exec_ladder (hs : Inv s) (hl : Ladder s) {op : Op} (h : exec env s op = .ok t) :
    Ladder t := by
  rcases (exec_effect hs.life hs.linked h).unraised_or_raised with
    hu | ⟨_, _, _, _, _, _, _, _, hrun, -, hrank, hraise⟩
  · exact hu.ladder hs.life (exec_grows hs h) hl
  · exact hraise.ladder hs.life hl hrun hrank

theorem ReachableVia.ladder {ok : Db → Op → Prop} (h : ReachableVia env ok s) : Ladder s :=
  ReachableVia.inv h (fun _ h0 => h0.ladder) fun _ _ _ hr hl _ he =>
    exec_ladder hr.invariants hl he

/-! ## A hard stage is the end of progress -/

/-- No run at a hard stage is completed. -/
def HardUncompleted (s : Db) : Prop :=
  ∀ r ∈ s.runs, breaker_is_hard r.breaker_stage = true → r.status ≠ .completed

/-- Raising a run completes none. -/
theorem Raising.uncompleted {corp_id : Uuid} {run : Run} {task : Task} {mission : Mission}
    {stage : BreakerStage} {incident : CircuitBreakerIncident} {command : RunnerCommand}
    {event : Event} (h : Raising s t corp_id run task mission stage incident command event)
    (hs : Life s) (hrun : run ∈ s.runs) (hactive : run.active = true) (hh : HardUncompleted s) :
    HardUncompleted t := by
  intro r' hr' hhard hc
  rw [h.state] at hr'
  obtain ⟨x, hx, hxr⟩ := mem_updateWhere.mp hr'
  by_cases hid : x.id = run.id
  · rw [if_pos (by simpa using hid), hs.eq_of_id hx hrun hid] at hxr
    subst hxr
    -- A run that is raised is active before and after.
    have hdone : run.status = .completed := by
      unfold Run.raised at hc
      dsimp only at hc
      split at hc
      · cases hc
      · exact hc
    rw [Run.not_active_of_completed hdone] at hactive
    cases hactive
  · rw [if_neg (by simpa using hid)] at hxr
    subst hxr
    exact hh x hx hhard hc

theorem exec_hardUncompleted (hs : Inv s) (hh : HardUncompleted s) {op : Op}
    (h : exec env s op = .ok t) : HardUncompleted t := by
  have heff := exec_effect hs.life hs.linked h
  rcases heff.unraised_or_raised with hu | ⟨_, _, _, _, _, _, _, _, hrun, hactive, -, hraise⟩
  swap
  · exact hraise.uncompleted hs.life hrun hactive hh
  intro r' hr' hhard hc
  -- The run was at this stage before the step, and whatever completes a run checks the stage.
  have hstage : ∀ r ∈ s.runs, r.id = r'.id → r'.breaker_stage = r.breaker_stage := by
    intro r hr hid
    rcases hu.runs r' hr' with ⟨x, hx, hxid, hst⟩ | ⟨hfresh, -⟩
    · rw [hst, hs.life.eq_of_id hx hr (hxid.symm.trans hid.symm)]
    · exact absurd hid (hfresh r hr)
  rcases heff.completes hs hr' hc with ⟨r, hr, hid, hdone⟩
    | ⟨now, input, row, actor, -, hdec, -, hk⟩ | ⟨now, input, row, scope, payload, -, hadm, hk, hty,
        -⟩
  · rw [hstage r hr hid] at hhard
    exact hh r hr hhard hdone
  · have hmem := (hdec.joined hs.life hs.linked).run_mem
    rw [hstage row.run hmem hk.id.symm, hdec.soft] at hhard
    cases hhard
  · have hsoft := hadm.soft (by rw [hty]; rfl)
    rw [hstage row.run hadm.reported.joined.run_mem hk.id.symm, hsoft] at hhard
    cases hhard

theorem ReachableVia.hardUncompleted {ok : Db → Op → Prop} (h : ReachableVia env ok s) :
    HardUncompleted s :=
  ReachableVia.inv h (fun s h0 r hr => by rw [h0.runs] at hr; cases hr) fun _ _ _ hr hh _ he =>
    exec_hardUncompleted hr.invariants hh he

/-- A hard stage is kept. -/
theorem hard_of_reaches (hs : Reachable env s) (h : (system env).Reaches (fun _ _ => True) s t)
    {r : Run} (hr : r ∈ s.runs) (hhard : breaker_is_hard r.breaker_stage = true) :
    Reachable env t ∧ ∃ r' ∈ t.runs, r'.id = r.id ∧ breaker_is_hard r'.breaker_stage = true := by
  refine TransitionSystem.Reaches.preserves (I := fun x => Reachable env x
    ∧ ∃ r' ∈ x.runs, r'.id = r.id ∧ breaker_is_hard r'.breaker_stage = true) h
    ⟨hs, r, hr, rfl, hhard⟩ ?_
  rintro a op ⟨ha, x, hx, hid, hxhard⟩ _
  refine ⟨TransitionSystem.ReachableVia.step ha trivial, ?_⟩
  change ∃ r' ∈ (step env a op).runs, r'.id = r.id ∧ breaker_is_hard r'.breaker_stage = true
  unfold step
  cases he : exec env a op with
  | error e => exact ⟨x, hx, hid, hxhard⟩
  | ok b =>
    obtain ⟨y, hy, hyid, hle⟩ := exec_climbs (ReachableVia.invariants ha) he x hx
    exact ⟨y, hy, hyid.trans hid, breaker_is_hard_mono _ _ hxhard hle⟩

section Gates

variable {r : Run} (hs : Inv s) (hr : r ∈ s.runs) (hhard : breaker_is_hard r.breaker_stage = true)

include hs hr hhard

theorem hard_run_refuses_report {now : Int} {input : RunnerEventInput} (hrun : input.run_id = r.id)
    (hadv : runner_event_advances_run input.event_type = true) (o : Option Event) (t : Db) :
    apply_runner_event env s now input ≠ .ok (o, t) := by
  intro h
  obtain ⟨row, scope, payload, hadm, -⟩ := apply_runner_event_ok h
  have hj := hadm.reported.joined
  have hsoft := hadm.soft hadv
  rw [hs.life.eq_of_id hj.run_mem hr (hj.run_id.trans hrun), hhard] at hsoft
  cases hsoft

theorem hard_run_refuses_upload {now : Int} {input : RunnerEventInput} {artifact : Artifact}
    {staging_key : String} {receipt_allows : Bool} (hrun : input.run_id = r.id) (t : Db) :
    prepare_artifact_upload s now input artifact staging_key receipt_allows ≠ .ok t := by
  intro h
  obtain ⟨run, task, mission, hj, -, -, hsoft, -⟩ := prepare_artifact_upload_ok h
  rw [hs.life.eq_of_id hj.run_mem hr (hj.run_id.trans hrun), hhard] at hsoft
  cases hsoft

theorem hard_run_undecided_action {now : Int} {input : ApprovalDecision}
    (happ : ∀ p ∈ s.action_approvals, p.id = input.approval_id → p.run_id = r.id) :
    step env s (.decide_action_approval now input) = s := by
  refine step_eq_of_exec fun t ht => ?_
  obtain ⟨c, hc, rfl⟩ := map_eq_ok.mp ht
  obtain ⟨p, run, hp, hpid, hrun, hrid, ⟨-, hsame⟩ | ⟨hsoft, -⟩⟩ := decide_action_approval_ok hc
  · exact hsame
  · rw [hs.life.eq_of_id hrun hr (hrid.trans (happ p hp hpid)), hhard] at hsoft
    cases hsoft

theorem hard_run_undecided_verification {now : Int} {input : VerificationDecision}
    (hrun : input.run_id = r.id) : step env s (.decide_verification now input) = s := by
  refine step_eq_of_exec fun t ht => ?_
  rcases decide_verification_ok ht with rfl | ⟨row, actor, hdec, -⟩
  · rfl
  · have hj := hdec.joined hs.life hs.linked
    have hsoft := hdec.soft
    rw [hs.life.eq_of_id hj.run_mem hr (hj.run_id.trans hrun), hhard] at hsoft
    cases hsoft

end Gates

/-! ## The breaker over whole runs -/

/-- The incidents of a run at a stage. -/
def Db.incidents_of (s : Db) (run_id : Uuid) (stage : BreakerStage) : List CircuitBreakerIncident :=
  s.circuit_breaker_incidents.filter fun i => i.run_id == run_id && i.stage == stage

/-- The breaker commands of a run at a stage. -/
def Db.commands_of (s : Db) (run_id : Uuid) (stage : BreakerStage) : List RunnerCommand :=
  s.runner_commands.filter fun c =>
    c.command_kind == .circuit_breaker && c.idempotency_key == .breaker run_id stage

/-- The breaker's journal entries of a run at a stage. -/
def Db.transitions_of (s : Db) (run_id : Uuid) (stage : BreakerStage) : List Event :=
  s.events.filter fun e => e.idempotency_key == .breaker_event run_id stage

theorem Ladder.at_most_one (h : Ladder s) (run_id : Uuid) (stage : BreakerStage) :
    (s.incidents_of run_id stage).length ≤ 1 ∧ (s.commands_of run_id stage).length ≤ 1
      ∧ (s.transitions_of run_id stage).length ≤ 1 := by
  refine ⟨?_, ?_, ?_⟩
  · have hu : UniqueWhere (fun _ => true) (fun i : CircuitBreakerIncident => (i.run_id, i.stage))
        s.circuit_breaker_incidents := by
      rw [UniqueWhere, List.filter_true]
      exact h.incidents_once
    refine le_trans (le_of_eq ?_) (hu.length_filter_le_one (run_id, stage))
    refine congrArg List.length (List.filter_congr fun i _ => ?_)
    rw [Bool.true_and, Bool.eq_iff_iff]
    simp
  · exact UniqueWhere.length_filter_le_one (k := RunnerCommand.idempotency_key) h.commands_once
      (.breaker run_id stage)
  · refine le_trans (le_of_eq ?_) (h.events_once.length_filter_le_one (.breaker_event run_id stage))
    refine congrArg List.length (List.filter_congr fun e _ => ?_)
    by_cases hk : e.idempotency_key = .breaker_event run_id stage
    · simp [hk, EventKey.is_breaker]
    · simp [hk]

/-- **The ladder of the breaker.** In every reachable state: no call lowers the stage of a
run, and a call that raises it writes one incident, one pending command and one journal entry
for the run and its new stage, and nothing else into these tables; there is at most one of
each for every run and stage; and from a hard stage on no start, status, approval request,
progress of the verification or completion is accepted from the runner, no upload is staged,
no decision takes effect, and the run never completes. -/
theorem breaker_ladder (h : Reachable env s) :
    (∀ op, ∀ r ∈ s.runs, ∀ r' ∈ (step env s op).runs, r'.id = r.id →
        breaker_rank r.breaker_stage ≤ breaker_rank r'.breaker_stage
        ∧ (breaker_rank r.breaker_stage < breaker_rank r'.breaker_stage → ∃ i c e,
          (step env s op).circuit_breaker_incidents = s.circuit_breaker_incidents ++ [i]
          ∧ i.run_id = r.id ∧ i.stage = r'.breaker_stage
          ∧ (step env s op).runner_commands = s.runner_commands ++ [c]
          ∧ c.run_id = r.id ∧ c.command_kind = .circuit_breaker ∧ c.status = .pending
          ∧ c.idempotency_key = .breaker r.id r'.breaker_stage
          ∧ (step env s op).events = s.events ++ [e]
          ∧ e.type = .run_breaker_transition ∧ e.aggregate_id = r.id
          ∧ e.idempotency_key = .breaker_event r.id r'.breaker_stage))
      ∧ (∀ run_id stage, (s.incidents_of run_id stage).length ≤ 1
          ∧ (s.commands_of run_id stage).length ≤ 1 ∧ (s.transitions_of run_id stage).length ≤ 1)
      ∧ ∀ r ∈ s.runs, breaker_is_hard r.breaker_stage = true →
          (∀ now input o t, input.run_id = r.id →
            input.event_type ∈ [EventType.run_started, .run_status, .run_approval_requested,
              .run_verification_started, .run_verification_evidence, .run_verification_passed,
              .run_verification_waiting, .run_completed] →
            apply_runner_event env s now input ≠ .ok (o, t))
          ∧ (∀ now input artifact staging_key receipt_allows t, input.run_id = r.id →
            prepare_artifact_upload s now input artifact staging_key receipt_allows ≠ .ok t)
          ∧ (∀ now input, (∀ p ∈ s.action_approvals, p.id = input.approval_id → p.run_id = r.id) →
            step env s (.decide_action_approval now input) = s)
          ∧ (∀ now input, input.run_id = r.id → step env s (.decide_verification now input) = s)
          ∧ ∀ t, (system env).Reaches (fun _ _ => True) s t →
            ∀ r' ∈ t.runs, r'.id = r.id → r'.status ≠ .completed := by
  have hs := ReachableVia.invariants h
  have hl := ReachableVia.ladder h
  refine ⟨?_, hl.at_most_one, ?_⟩
  · intro op r hr r' hr' hid
    have hclimb : ∀ t, exec env s op = .ok t → r' ∈ t.runs →
        breaker_rank r.breaker_stage ≤ breaker_rank r'.breaker_stage := by
      intro t he hr't
      obtain ⟨x, hx, hxid, hle⟩ := exec_climbs hs he r hr
      rwa [(exec_inv hs he).life.eq_of_id hr't hx (hid.trans hxid.symm)]
    unfold step at hr' ⊢
    cases he : exec env s op with
    | error e =>
      rw [he] at hr'
      rw [hs.life.eq_of_id hr' hr hid]
      exact ⟨le_refl _, fun hlt => absurd hlt (lt_irrefl _)⟩
    | ok t =>
      rw [he] at hr'
      refine ⟨hclimb t he hr', fun hlt => ?_⟩
      rcases (exec_effect hs.life hs.linked he).unraised_or_raised with
        hu | ⟨corp_id, run, task, mission, stage, i, c, e, hrun, -, hrank, hraise⟩
      · -- A step that raises nothing keeps the stage.
        rcases hu.runs r' hr' with ⟨x, hx, hxid, hstage⟩ | ⟨hfresh, -⟩
        · rw [hstage, hs.life.eq_of_id hx hr (hxid.symm.trans hid)] at hlt
          exact absurd hlt (lt_irrefl _)
        · exact absurd hid.symm (hfresh r hr)
      · have hruns : t.runs = updateWhere (fun x => x.id == run.id) (Run.raised stage) s.runs := by
          rw [hraise.state]
        rw [hruns] at hr'
        obtain ⟨x, hx, hxr⟩ := mem_updateWhere.mp hr'
        by_cases hxid : x.id = run.id
        · rw [if_pos (by simpa using hxid)] at hxr
          subst hxr
          have hrr : r = run := hs.life.eq_of_id hr hrun (hid.symm.trans hxid)
          subst hrr
          exact ⟨i, c, e, by rw [hraise.state], hraise.incident_run, hraise.incident_stage,
            by rw [hraise.state], hraise.command_run, hraise.command_kind, hraise.command_status,
            hraise.command_key, hraise.events hs.life hl hrun hrank, hraise.event_type,
            hraise.event_run, hraise.event_key⟩
        · rw [if_neg (by simpa using hxid)] at hxr
          subst hxr
          rw [hs.life.eq_of_id hx hr hid] at hlt
          exact absurd hlt (lt_irrefl _)
  · intro r hr hhard
    refine ⟨?_, ?_, ?_, ?_, ?_⟩
    · intro now input o t hrun htype
      refine hard_run_refuses_report hs hr hhard hrun ?_ o t
      revert htype
      cases input.event_type <;> simp [runner_event_advances_run]
    · intro now input artifact staging_key receipt_allows t hrun
      exact hard_run_refuses_upload hs hr hhard hrun t
    · intro now input happ
      exact hard_run_undecided_action hs hr hhard happ
    · intro now input hrun
      exact hard_run_undecided_verification hs hr hhard hrun
    · intro t hreach r' hr' hid
      obtain ⟨ht, x, hx, hxid, hxhard⟩ := hard_of_reaches h hreach hr hhard
      have htinv := ReachableVia.invariants ht
      rw [htinv.life.eq_of_id hr' hx (hid.trans hxid.symm)]
      exact ReachableVia.hardUncompleted ht x hx hxhard

/-- A run whose check failed and whose budget is spent. -/
def Office.spent_run : List Op :=
  Office.started_run ++ [Office.report 50 202 .run_verification_started (.obj []),
    Office.report 50 203 .run_verification_evidence
      (.obj [("evidence_id", .uuid 900), ("check_index", .int 0), ("kind", .str "file"),
        ("status", .str "failed"), ("summary", .str "missing")]),
    Office.report 50 204 .run_usage (.obj [("input_tokens", .int 1200)]),
    .evaluate_circuit_breaker 0 1 50]

set_option maxRecDepth 20000 in
theorem breaker_ladder_office :
    (Office.after Office.spent_run).runs.map Run.breaker_stage = [.stop]
      ∧ ((Office.after Office.spent_run).incidents_of 50 .stop).length ≤ 1 :=
  ⟨by decide, ((breaker_ladder (Office.reachable_after Office.spent_run)).2.1 50 .stop).1⟩

set_option maxRecDepth 20000 in
/-- **A stopped run still reports a failed verification.** The report is a verification event
and it is accepted at the stage `stop`. -/
theorem stopped_run_reports_failed_verification :
    Reachable Office.digest (Office.after Office.spent_run)
      ∧ (Office.after Office.spent_run).runs.map (fun r => (r.id, r.breaker_stage)) = [(50, .stop)]
      ∧ (Office.after (Office.spent_run
          ++ [Office.report 50 305 .run_verification_failed (.obj [])])).runs.map Run.status
        = [.failed]
      ∧ (Office.after (Office.spent_run
          ++ [Office.report 50 305 .run_verification_failed (.obj [])])).events.length
        = (Office.after Office.spent_run).events.length + 1 :=
  ⟨Office.reachable_after _, by decide, by decide, by decide⟩

end Crony.Store
