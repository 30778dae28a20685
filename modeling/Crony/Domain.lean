/-
The vocabulary of `crony-domain`: identifiers, statuses, task contracts and
verification policies, and the JSON values that runner events carry.

Statuses are enumerations here although the columns hold text: every statement of
the store writes one of the listed texts, and the database checks them. A UUID is a
natural number; `uuid_text` and `parse_str` are its hyphenated text form and the
`uuid` crate's parser, which events need because payloads carry identifiers as text.
-/
import Mathlib.Algebra.Order.Ring.Int
import Mathlib.Data.List.Basic

set_option autoImplicit false

namespace Crony

/-! ## Identifiers -/

abbrev Uuid := Nat

/-- Lower-case hexadecimal digits of `n`, the last `width` of them. -/
def hexDigits : Nat → Nat → List Char
  | 0, _ => []
  | width + 1, n => hexDigits width (n / 16) ++ [Nat.digitChar (n % 16)]

/-- `Uuid::to_string`: 8-4-4-4-12 lower-case hexadecimal digits. -/
def uuid_text (id : Uuid) : String :=
  let digits := hexDigits 32 id
  String.ofList (digits.take 8 ++ '-' :: (digits.drop 8).take 4 ++ '-' :: (digits.drop 12).take 4
    ++ '-' :: (digits.drop 16).take 4 ++ '-' :: digits.drop 20)

/-- The value of a hexadecimal digit of either case. -/
def hexValue? (c : Char) : Option Nat :=
  if '0' ≤ c ∧ c ≤ '9' then some (c.toNat - '0'.toNat)
  else if 'a' ≤ c ∧ c ≤ 'f' then some (c.toNat - 'a'.toNat + 10)
  else if 'A' ≤ c ∧ c ≤ 'F' then some (c.toNat - 'A'.toNat + 10)
  else none

def hexNumber? (cs : List Char) : Option Nat :=
  cs.foldl (fun acc c => do return (← acc) * 16 + (← hexValue? c)) (some 0)

/-- `Uuid::parse_str`: the simple form, the hyphenated form, and the hyphenated form
in braces or behind `urn:uuid:`. -/
def parse_str (text : String) : Option Uuid :=
  let hyphenated (cs : List Char) : Option Uuid :=
    if cs.length = 36 ∧ cs[8]? = some '-' ∧ cs[13]? = some '-' ∧ cs[18]? = some '-'
        ∧ cs[23]? = some '-' then
      hexNumber? (cs.take 8 ++ (cs.drop 9).take 4 ++ (cs.drop 14).take 4
        ++ (cs.drop 19).take 4 ++ cs.drop 24)
    else none
  let cs := text.toList
  if cs.length = 32 then hexNumber? cs
  else if cs.length = 38 ∧ cs.head? = some '\x7b' ∧ cs.getLast? = some '\x7d' then
    hyphenated ((cs.drop 1).take 36)
  else if cs.length = 45 ∧ cs.take 9 = "urn:uuid:".toList then hyphenated (cs.drop 9)
  else hyphenated cs

/-! ## Fixed-width integers

Columns and payload numbers are integers; the bounds are explicit where the code
meets them. -/

/-- `i64::MAX`. -/
def i64_max : Int := 2 ^ 63 - 1

/-- `i64::MIN`. -/
def i64_min : Int := -2 ^ 63

/-- The value fits a Postgres `BIGINT`. -/
def fitsBigint (n : Int) : Bool := decide (i64_min ≤ n) && decide (n ≤ i64_max)

/-- The value fits a Postgres `INTEGER`. -/
def fitsInteger (n : Int) : Bool := decide (-2 ^ 31 ≤ n) && decide (n ≤ 2 ^ 31 - 1)

/-- `i64::saturating_mul`. -/
def saturating_mul (a b : Int) : Int := max i64_min (min i64_max (a * b))

/-- `i64::saturating_sub`. -/
def saturating_sub (a b : Int) : Int := max i64_min (min i64_max (a - b))

/-! ## JSON -/

/-- `serde_json::Value`. A number is kept exactly when it is an integer; other
numbers only matter as "not an integer". -/
inductive Json where
  | null
  | bool (b : Bool)
  | int (n : Int)
  | float (text : String)
  | str (text : String)
  | arr (items : List Json)
  | obj (fields : List (String × Json))

namespace Json

/-- `Value::get` with a text key. -/
def get? (v : Json) (key : String) : Option Json :=
  match v with
  | .obj fields => (fields.find? fun field => field.1 == key).map Prod.snd
  | _ => none

/-- `Value::as_str`. -/
def as_str : Json → Option String
  | .str text => some text
  | _ => none

/-- `Value::as_bool`. -/
def as_bool : Json → Option Bool
  | .bool b => some b
  | _ => none

/-- `Value::as_i64`. -/
def as_i64 : Json → Option Int
  | .int n => if i64_min ≤ n ∧ n ≤ i64_max then some n else none
  | _ => none

/-- `Value::as_u64`. -/
def as_u64 : Json → Option Nat
  | .int n => if 0 ≤ n ∧ n < 2 ^ 64 then some n.toNat else none
  | _ => none

/-- `Value::as_array`. -/
def as_array : Json → Option (List Json)
  | .arr items => some items
  | _ => none

/-- `Value::as_object`. -/
def as_object : Json → Option (List (String × Json))
  | .obj fields => some fields
  | _ => none

def isNull : Json → Bool
  | .null => true
  | _ => false

mutual

/-- `Value == Value`; the order of an object's keys does not count. -/
def beq : Json → Json → Bool
  | .null, .null => true
  | .bool a, .bool b => a == b
  | .int a, .int b => a == b
  | .float a, .float b => a == b
  | .str a, .str b => a == b
  | .arr a, .arr b => beqItems a b
  | .obj a, .obj b => a.length == b.length && beqFields a b
  | _, _ => false

def beqItems : List Json → List Json → Bool
  | [], [] => true
  | a :: as, b :: bs => beq a b && beqItems as bs
  | _, _ => false

/-- Every field of the first object is a field of the second. -/
def beqFields : List (String × Json) → List (String × Json) → Bool
  | [], _ => true
  | (key, a) :: rest, fields =>
    (match fields.find? fun field => field.1 == key with
      | some field => beq a field.2
      | none => false) && beqFields rest fields

end

/-- `Map::insert`: the old value of the key is replaced. -/
def insertField (fields : List (String × Json)) (key : String) (v : Json) :
    List (String × Json) :=
  fields.filter (fun field => !(field.1 == key)) ++ [(key, v)]

/-- The text under a key, `payload.get(key).and_then(Value::as_str)`. -/
def text? (v : Json) (key : String) : Option String := (v.get? key).bind as_str

/-- The integer under a key, `payload.get(key).and_then(Value::as_i64)`. -/
def i64? (v : Json) (key : String) : Option Int := (v.get? key).bind as_i64

/-- The flag under a key, `payload.get(key).and_then(Value::as_bool)`. -/
def bool? (v : Json) (key : String) : Option Bool := (v.get? key).bind as_bool

/-- A UUID as the text JSON carries. -/
def uuid (id : Uuid) : Json := .str (uuid_text id)

end Json

/-! ## Statuses -/

inductive RunStatus where
  | provisioning | starting | running | waiting_for_input | waiting_for_approval | verifying
  | completed | failed | cancelled | lost
  deriving DecidableEq, Repr

namespace RunStatus

/-- The six statuses every "active run" clause of the store lists. -/
def is_active : RunStatus → Bool
  | provisioning | starting | running | waiting_for_input | waiting_for_approval | verifying => true
  | completed | failed | cancelled | lost => false

/-- The four statuses the retained-workspace clause lists. -/
def is_terminal (s : RunStatus) : Bool := !s.is_active

end RunStatus

inductive TaskStatus where
  | pending | ready | claimed | running | blocked | awaiting_approval | verification_failed
  | review | completed | failed | cancelled
  deriving DecidableEq, Repr

inductive MissionStatus where
  | draft | ready | running | completed | failed | cancelled
  deriving DecidableEq, Repr

/-- `status IN ('ready', 'running')`. -/
def MissionStatus.is_open : MissionStatus → Bool
  | .ready | .running => true
  | _ => false

inductive AgentStatus where
  | idle | starting | working | blocked | reviewing | offline
  deriving DecidableEq, Repr

/-- An agent shown as occupied by a run. -/
def AgentStatus.is_busy : AgentStatus → Bool
  | .starting | .working | .blocked | .reviewing => true
  | .idle | .offline => false

inductive VerificationStatus where
  | pending | running | passed | failed | waiting_for_approval
  deriving DecidableEq, Repr

inductive ExecutionMode where
  | provider | verification_only
  deriving DecidableEq, Repr

inductive WorkspaceDisposition where
  | active | preserved | removed | quarantined
  deriving DecidableEq, Repr

inductive BreakerStage where
  | healthy | steer | constrain | suspend | stop
  deriving DecidableEq, Repr

def BreakerStage.as_str : BreakerStage → String
  | .healthy => "healthy"
  | .steer => "steer"
  | .constrain => "constrain"
  | .suspend => "suspend"
  | .stop => "stop"

inductive FactoryWorkItemState where
  | claimed | mission_created | running | blocked | awaiting_approval | verification_failed
  | verified | publishing | published | failed | cancelled
  deriving DecidableEq, Repr

inductive ActorKind where
  | human | agent | service
  deriving DecidableEq, Repr

/-! ## Contracts and verification policies -/

inductive VerifierCheck where
  | artifact (min_bytes : Nat)
  | file (path : String) (min_bytes : Nat)
  | command (program : String) (args : List String) (timeout_ms : Nat)
  | test (program : String) (args : List String) (timeout_ms : Nat)
  | json_schema (path : String) (required_keys : List String)
  | screenshot (path : String) (min_bytes : Nat)
  deriving DecidableEq, Repr

/-- `VerifierCheck::kind`. -/
def VerifierCheck.kind : VerifierCheck → String
  | .artifact .. => "artifact"
  | .file .. => "file"
  | .command .. => "command"
  | .test .. => "test"
  | .json_schema .. => "json_schema"
  | .screenshot .. => "screenshot"

/-- `matches!(check, VerifierCheck::Artifact { .. })`. -/
def VerifierCheck.is_artifact : VerifierCheck → Bool
  | .artifact .. => true
  | _ => false

inductive ManualVerificationGate where
  | human_approval (roles : List String)
  | independent_review (roles : List String) (exclude_requester : Bool)
  deriving DecidableEq, Repr

namespace ManualVerificationGate

/-- `ManualVerificationGate::kind`. -/
def kind : ManualVerificationGate → String
  | human_approval _ => "human_approval"
  | independent_review _ _ => "independent_review"

/-- The roles either form of gate lists. -/
def roles : ManualVerificationGate → List String
  | human_approval roles => roles
  | independent_review roles _ => roles

/-- `serde_json::from_value::<ManualVerificationGate>`: an object tagged by `type`. -/
def from_value (v : Json) : Option ManualVerificationGate := do
  let roles ← ((← v.get? "roles").as_array).bind fun items => items.mapM Json.as_str
  match v.text? "type" with
  | some "human_approval" => return human_approval roles
  | some "independent_review" => return independent_review roles (← v.bool? "exclude_requester")
  | _ => none

end ManualVerificationGate

structure VerificationPolicy where
  checks : List VerifierCheck
  manual_gate : Option ManualVerificationGate
  deriving DecidableEq, Repr

inductive DeliverableForm where
  | commit_branch | patch | archive | typed_artifact_set | review_only_report
  deriving DecidableEq, Repr

structure DeliverableSpec where
  form : DeliverableForm := .review_only_report
  commit_after_verification : Bool := false
  paths : List String := []
  deriving DecidableEq, Repr

/-- The fields of `TaskContract` the store reads outside the prompt text. -/
structure TaskContract where
  budget_tokens : Int
  budget_cost_microusd : Int
  model : Option String
  reasoning_effort : Option String
  source_repository : Option String
  source_base_ref : Option String
  source_base_commit : Option String
  deliverable : Option DeliverableSpec
  deriving DecidableEq, Repr

end Crony
