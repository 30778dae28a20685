/-
The request budget of the trusted factory: `quota.rs`.

`BudgetState` is one polling state behind a mutex, so each method is a function of the
state under the lock and of the clock reading it is given; a method that can fail returns
its error beside the state it leaves. The deadlines of the state come from a low quota
balance, from failures (with the deadline the service asked for and the local backoff),
and from persisted snapshots.
-/
import Crony.Lib.Guard
import Crony.Lib.Transition
import Crony.Polling
import Crony.Text

set_option autoImplicit false

open Crony.Lib

namespace Crony.Cli

def RESET_MARGIN_SECONDS : Int := 5
def BASE_BACKOFF_SECONDS : Int := 60
def MAX_BACKOFF_SECONDS : Int := 15 * 60
def MAX_FAILURES : Nat := 16
def MAX_QUOTA_POINTS : Nat := 1000000
def MAX_QUOTA_WINDOW_SECONDS : Int := 24 * 60 * 60

/-- What a request that may not be sent yet waits for. -/
structure GitHubWait where
  reason : FactoryRetryReason
  next_retry_at : DateTime
  deriving DecidableEq, Repr

/-! ## Deadlines -/

/-- `u32::saturating_add` and `u64::saturating_add`. -/
def saturating_add_u32 (a b : Nat) : Nat := min (a + b) (2 ^ 32 - 1)

def saturating_add_u64 (a b : Nat) : Nat := min (a + b) (2 ^ 64 - 1)

/-- `backoff`. -/
def backoff (failures : Nat) : Int :=
  min (BASE_BACKOFF_SECONDS * 2 ^ min (failures - 1) 4) MAX_BACKOFF_SECONDS

/-- `TimeDelta::try_seconds`: within `i64::MAX` milliseconds. -/
def try_seconds (seconds : Int) : Option Int :=
  if -(i64_max / 1000) ≤ seconds ∧ seconds ≤ i64_max / 1000 then some (TimeDelta.seconds seconds)
  else none

/-- `after`: an unrepresentable deadline is the latest one. -/
def after (now : DateTime) (seconds : Int) : DateTime :=
  ((try_seconds seconds).bind now.checked_add_signed).getD MAX_UTC

/-- `outstanding`. -/
def outstanding (deadline now : DateTime) : Bool :=
  decide (deadline = MAX_UTC) || decide (now < deadline)

/-- `extend_wait`. -/
def extend_wait (state : FactoryPollingState) (reason : FactoryRetryReason)
    (deadline : DateTime) : FactoryPollingState :=
  if (∀ current ∈ state.next_retry_at, current < deadline)
      ∨ (state.next_retry_at = some deadline ∧ state.retry_reason = some .graphql_quota
          ∧ reason ≠ .graphql_quota) then
    { state with next_retry_at := some deadline, retry_reason := some reason }
  else state

/-- `repair_wait`. -/
def repair_wait (state : FactoryPollingState) (now : DateTime) : FactoryPollingState :=
  let state := { state with
    consecutive_failures := min (max state.consecutive_failures 1) MAX_FAILURES }
  extend_wait state .github_unavailable (after now (backoff state.consecutive_failures))

/-! ## Quota observations -/

/-- `valid_counters`. -/
def valid_counters (quota : GithubGraphqlQuota) : Bool :=
  decide (0 < quota.limit) && decide (quota.limit ≤ MAX_QUOTA_POINTS)
    && decide (quota.remaining ≤ quota.limit) && decide (quota.cost ≤ quota.limit)

/-- `valid_quota`. -/
def valid_quota (quota : GithubGraphqlQuota) : Bool :=
  let window := quota.reset_at.val - quota.observed_at.val
  valid_counters quota && decide (TimeDelta.seconds (-RESET_MARGIN_SECONDS) ≤ window)
    && decide (window ≤ TimeDelta.seconds MAX_QUOTA_WINDOW_SECONDS)

/-- `merge_quota`: an observation that is older, or would restore spent budget, is dropped. -/
def merge_quota (state : FactoryPollingState) (quota : GithubGraphqlQuota) :
    FactoryPollingState :=
  if ∃ current ∈ state.graphql, quota.observed_at < current.observed_at
      ∨ quota.reset_at < current.reset_at
      ∨ (quota.reset_at = current.reset_at ∧ current.remaining < quota.remaining) then
    state
  else { state with graphql := some quota }

/-- `retain_quota_wait`: a balance below the reserve waits for the reset. -/
def retain_quota_wait (state : FactoryPollingState) (now : DateTime) : FactoryPollingState :=
  match state.graphql with
  | none => state
  | some quota =>
    let reserve := min (max (quota.limit / 100) 1) 25
    let required := saturating_add_u64 (max quota.cost 1) reserve
    let deadline := after quota.reset_at RESET_MARGIN_SECONDS
    if quota.remaining < required ∧ outstanding deadline now = true then
      extend_wait state .graphql_quota deadline
    else state

/-! ## The methods -/

/-- The deadline part of `restore`. -/
def restore_wait (state persisted : FactoryPollingState) (now : DateTime) :
    FactoryPollingState :=
  match persisted.next_retry_at with
  | some deadline =>
    extend_wait state (persisted.retry_reason.getD .github_unavailable) deadline
  | none =>
    if persisted.retry_reason.isSome = true ∨ 0 < persisted.consecutive_failures then
      repair_wait state now
    else state

/-- The quota part of `restore`. -/
def restore_quota (state persisted : FactoryPollingState) (now : DateTime) :
    FactoryPollingState :=
  match persisted.graphql with
  | some quota =>
    if valid_quota quota = true ∧ quota.observed_at ≤ now then merge_quota state quota
    else repair_wait state now
  | none => state

/-- `restore`. -/
def restore (state persisted : FactoryPollingState) (now : DateTime) : FactoryPollingState :=
  let state := { state with
    consecutive_failures :=
      min (max state.consecutive_failures persisted.consecutive_failures) MAX_FAILURES }
  let state := restore_wait state persisted now
  let state := restore_quota state persisted now
  retain_quota_wait state now

/-- The answer of `check` in a state. -/
def admission (state : FactoryPollingState) (now : DateTime) : Except GitHubWait Unit :=
  match state.next_retry_at with
  | some deadline =>
    if outstanding deadline now = true then
      .error { reason := state.retry_reason.getD .github_unavailable, next_retry_at := deadline }
    else .ok ()
  | none => .ok ()

/-- `check`. -/
def check (state : FactoryPollingState) (now : DateTime) :
    Except GitHubWait Unit × FactoryPollingState :=
  let state := retain_quota_wait state now
  (admission state now, state)

/-- The text of a rejected observation. -/
def invalid_observation : String := "invalid GitHub GraphQL quota observation"

section Observe

/- `DateTime::parse_from_rfc3339` of the `chrono` package, with the offset taken off. -/
variable (parse_from_rfc3339 : String → Option DateTime)

/-- The quota a `rateLimit` object reports. -/
def observed_quota (value : Json) (now : DateTime) : Except String GithubGraphqlQuota := do
  let reset ← context ((value.text? "resetAt").filter fun text => decide (byteLen text ≤ 64))
    invalid_observation
  let limit ← context ((value.get? "limit").bind Json.as_u64) invalid_observation
  let remaining ← context ((value.get? "remaining").bind Json.as_u64) invalid_observation
  let cost ← context ((value.get? "cost").bind Json.as_u64) invalid_observation
  let reset_at ← context (parse_from_rfc3339 reset) invalid_observation
  return { limit, remaining, cost, reset_at, observed_at := now }

/-- `observe_json`: `none` for the quota is an observation to pass over. -/
def accepted_quota (value : Json) (now : DateTime) :
    Except String (Option GithubGraphqlQuota) := do
  let quota ← observed_quota parse_from_rfc3339 value now
  ensure (valid_counters quota = true) invalid_observation
  if outstanding (after quota.reset_at RESET_MARGIN_SECONDS) now = false then return none else do
  ensure (valid_quota quota = true) invalid_observation
  return some quota

/-- `observe_json`. -/
def observe_json (state : FactoryPollingState) (response : Json) (now : DateTime) :
    Except String Unit × FactoryPollingState :=
  match (response.get? "data").bind fun data => data.get? "rateLimit" with
  | none => (.ok (), state)
  | some value =>
    match accepted_quota parse_from_rfc3339 value now with
    | .error e => (.error e, state)
    | .ok none => (.ok (), state)
    | .ok (some quota) => (.ok (), retain_quota_wait (merge_quota state quota) now)

end Observe

/-- The failures a typed wait counts, and the backoff they ask for. -/
def failure_deadline (state : FactoryPollingState) (wait : GitHubWait) (now : DateTime) :
    FactoryPollingState × DateTime :=
  if wait.reason ≠ .graphql_quota then
    let state := { state with
      consecutive_failures := min (saturating_add_u32 state.consecutive_failures 1) MAX_FAILURES }
    (state, max wait.next_retry_at (after now (backoff state.consecutive_failures)))
  else (state, wait.next_retry_at)

/-- `failure`; the error is `none` when it is not a `GitHubWait`. -/
def failure (state : FactoryPollingState) (error : Option GitHubWait) (now : DateTime) :
    Bool × FactoryPollingState :=
  match error with
  | none => (false, state)
  | some wait =>
    let (state, deadline) := failure_deadline state wait now
    -- A reported primary exhaustion supersedes a previously high balance.
    let deadline := match wait.reason, state.graphql with
      | .primary_rate_limit, some quota =>
        max deadline (after quota.reset_at RESET_MARGIN_SECONDS)
      | _, _ => deadline
    (true, retain_quota_wait (extend_wait state wait.reason deadline) now)

/-- `success`. -/
def success (state : FactoryPollingState) (now : DateTime) : FactoryPollingState :=
  let state :=
    if ¬ ∃ deadline ∈ state.next_retry_at, outstanding deadline now = true then
      { state with next_retry_at := none, retry_reason := none, consecutive_failures := 0 }
    else if state.retry_reason = some .graphql_quota then
      { state with consecutive_failures := 0 }
    else state
  retain_quota_wait state now

/-! ## The state machine -/

inductive BudgetOp where
  | restore (persisted : FactoryPollingState) (now : DateTime)
  | check (now : DateTime)
  | observe_json (response : Json) (now : DateTime)
  | failure (error : Option GitHubWait) (now : DateTime)
  | success (now : DateTime)

/-- The clock reading the operation is given. -/
def BudgetOp.now : BudgetOp → DateTime
  | .restore _ now | .check now | .observe_json _ now | .failure _ now | .success now => now

/-- `BudgetState`: it starts as the default polling state. -/
def budget (parse_from_rfc3339 : String → Option DateTime) :
    TransitionSystem FactoryPollingState BudgetOp where
  init := fun state => state = {}
  step := fun state op => match op with
    | .restore persisted now => restore state persisted now
    | .check now => (check state now).2
    | .observe_json response now => (observe_json parse_from_rfc3339 state response now).2
    | .failure error now => (failure state error now).2
    | .success now => success state now

end Crony.Cli
