/-
Times and polling states: the part of `crony-domain` that the Factory controllers of the
store and the request budget of the command line share.

A `DateTime` is a time `chrono` can represent, in nanoseconds; the last one, `MAX_UTC`, also
serves as "never", so the bound is part of the type. The clock readings the controllers are
given are counted in nanoseconds too.
-/
import Mathlib.Order.Lattice
import Crony.Domain

set_option autoImplicit false

namespace Crony

/-! ## Times -/

/-- `TimeDelta::seconds`. -/
def TimeDelta.seconds (n : Int) : Int := n * 1000000000

/-- `DateTime::<Utc>::MIN_UTC` and `MAX_UTC`. -/
def MIN_UTC_NANOSECONDS : Int := TimeDelta.seconds (-8334601228800)

def MAX_UTC_NANOSECONDS : Int := TimeDelta.seconds 8210266876799 + 999999999

/-- `DateTime<Utc>`. -/
abbrev DateTime := { t : Int // MIN_UTC_NANOSECONDS ≤ t ∧ t ≤ MAX_UTC_NANOSECONDS }

/-- Times are compared as the integers they are. -/
instance : LinearOrder DateTime := @Subtype.instLinearOrder Int Int.instLinearOrder _

instance : LE DateTime := ⟨fun t u => t.val ≤ u.val⟩

instance : LT DateTime := ⟨fun t u => t.val < u.val⟩

instance (t u : DateTime) : Decidable (t ≤ u) := Int.decLe t.val u.val

instance (t u : DateTime) : Decidable (t < u) := Int.decLt t.val u.val

def MAX_UTC : DateTime := ⟨MAX_UTC_NANOSECONDS, by decide⟩

theorem DateTime.le_max (t : DateTime) : t ≤ MAX_UTC := t.2.2

/-- `checked_add_signed`, and `checked_sub_signed` of the negated duration. -/
def DateTime.checked_add_signed (t : DateTime) (duration : Int) : Option DateTime :=
  if h : MIN_UTC_NANOSECONDS ≤ t.val + duration ∧ t.val + duration ≤ MAX_UTC_NANOSECONDS then
    some ⟨t.val + duration, h⟩
  else none

/-! ## Polling states -/

inductive FactoryRetryReason where
  | graphql_quota | primary_rate_limit | secondary_rate_limit | github_unavailable
  deriving DecidableEq, Repr

def FactoryRetryReason.as_str : FactoryRetryReason → String
  | .graphql_quota => "graphql_quota"
  | .primary_rate_limit => "primary_rate_limit"
  | .secondary_rate_limit => "secondary_rate_limit"
  | .github_unavailable => "github_unavailable"

structure GithubGraphqlQuota where
  limit : Nat
  remaining : Nat
  cost : Nat
  reset_at : DateTime
  observed_at : DateTime
  deriving DecidableEq, Repr

structure FactoryPollingState where
  next_retry_at : Option DateTime := none
  retry_reason : Option FactoryRetryReason := none
  consecutive_failures : Nat := 0
  graphql : Option GithubGraphqlQuota := none
  deriving DecidableEq, Repr

end Crony
