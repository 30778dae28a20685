/-
Failed GitHub commands: `classify_failure` of `quota.rs`.

A failed command leaves its standard output, with the HTTP headers in front of a body, and its
diagnostics. From both the classification gathers the signals that say what kind of failure it
was and the headers that say when to come back; the wait is the latest deadline any of these
headers asks for.
-/
import Crony.Cli.Quota
import Crony.Cli.Response
import Crony.Lib.Lossy

set_option autoImplicit false

open Crony.Lib

namespace Crony.Cli

def MAX_DIAGNOSTIC_BYTES : Nat := 64 * 1024
def MAX_ERROR_BODY_BYTES : Nat := 1024 * 1024

/-! ## Text -/

/-- `String::from_utf8_lossy`. -/
def from_utf8_lossy (bytes : Bytes) : String := String.ofList (lossy bytes)

/-- `str::lines`. -/
def str_lines (text : String) : List String :=
  let pieces := text.toList.splitOn '\n'
  let last := pieces.getLastD []
  let ended := pieces.dropLast.map fun line => if line.getLast? = some '\r' then
    line.dropLast else line
  (ended ++ if last = [] then [] else [last]).map String.ofList

/-- `parse::<i64>()`, of a text of decimal digits. -/
def parse_i64 (digits : String) : Option Int :=
  if (decimal digits : Int) ≤ i64_max then some (decimal digits) else none

/-- `parse::<u64>()`. -/
def parse_u64 (text : String) : Option Nat :=
  let digits := (strip_prefix_str text "+").getD text
  if digits ≠ "" ∧ digits.toList.all Char.isDigit = true ∧ decimal digits < 2 ^ 64 then
    some (decimal digits)
  else none

/-- A text of decimal digits. -/
def is_decimal (value : String) : Bool := value != "" && value.toList.all Char.isDigit

/-! ## Signals -/

structure Signals where
  primary : Bool := false
  secondary : Bool := false
  unavailable : Bool := false
  too_many : Bool := false
  forbidden : Bool := false
  deriving DecidableEq, Repr

/-- The `|=` of every signal. -/
def Signals.union (a b : Signals) : Signals where
  primary := a.primary || b.primary
  secondary := a.secondary || b.secondary
  unavailable := a.unavailable || b.unavailable
  too_many := a.too_many || b.too_many
  forbidden := a.forbidden || b.forbidden

/-- `has_http_status`. No match of a prefix overlaps another one, as each has one `h` only. -/
def has_http_status (text code : String) : Bool :=
  ["http ", "http", "http/1.0 ", "http/1.1 ", "http/2 ", "http/2.0 "].any fun start =>
    text.toList.tails.any fun tail =>
      (start.toList ++ code.toList).isPrefixOf tail
        && !(tail.drop (start.toList.length + code.toList.length)).head?.any Char.isDigit

/-- One of the texts occurs. -/
def mentions (text : String) (patterns : List String) : Bool :=
  patterns.any fun pattern => contains text pattern

/-- What a text signals; it is in lower case. -/
def text_signals (text : String) : Signals where
  secondary := mentions text
    ["secondary rate limit", "secondary rate-limit", "abuse detection", "abuse rate limit"]
  primary := mentions text
    ["primary rate limit", "rate limit exceeded", "rate limit was exceeded",
      "rate limit has been exceeded"]
  unavailable := mentions text
      ["service unavailable", "temporarily unavailable", "bad gateway", "gateway timeout"]
    || has_http_status text "503"
  too_many := has_http_status text "429"
  forbidden := has_http_status text "403"

/-- `Signals::text`. -/
def Signals.text (signals : Signals) (bytes : Bytes) : Signals :=
  signals.union
    (text_signals (to_ascii_lowercase (from_utf8_lossy (bytes.take MAX_DIAGNOSTIC_BYTES))))

/-- `error.pointer(key)`, of the three places of the error code. -/
def error_codes (error : Json) : List (Option Json) :=
  [error.get? "type", (error.get? "extensions").bind fun e => e.get? "code",
    (error.get? "extensions").bind fun e => e.get? "type"]

/-- What one entry of `errors` signals. -/
def error_signals (signals : Signals) (error : Json) : Signals :=
  let limited := (error_codes error).any fun code => code.bind Json.as_str == some "RATE_LIMITED"
  let signals := signals.union { primary := limited }
  match error.text? "message" with
  | some message => signals.text (as_bytes message)
  | none => signals

/-- What the JSON body signals. -/
def envelope_signals (signals : Signals) (value : Json) : Signals :=
  let errors := ((value.get? "errors").bind Json.as_array).getD []
  let signals := (errors.take 32).foldl error_signals signals
  match value.get? "data", value.text? "message" with
  | none, some message => signals.text (as_bytes message)
  | _, _ => signals

/-! ## Hints -/

/-- `DateTime::from_timestamp`, with no nanoseconds. -/
def from_timestamp (seconds : Int) : Option DateTime :=
  if h : MIN_UTC_NANOSECONDS ≤ TimeDelta.seconds seconds
      ∧ TimeDelta.seconds seconds ≤ MAX_UTC_NANOSECONDS then
    some ⟨TimeDelta.seconds seconds, h⟩
  else none

/-- The header of a line of the diagnostics. -/
def stderr_header (line : String) : Option (String × String) :=
  (split_once line ':').map fun header => (trim header.1, trim header.2)

/-- The headers among the diagnostics. -/
def stderr_headers (stderr : Bytes) : List (String × String) :=
  ((str_lines (from_utf8_lossy stderr)).take MAX_HEADER_LINES).filterMap stderr_header

/-- A remaining count of zero. -/
def reports_exhausted (headers : List (String × String)) : Bool :=
  headers.any fun header =>
    eq_ignore_ascii_case header.1 "x-ratelimit-remaining" && parse_u64 header.2 == some 0

/-- The reason of a failure, if it is one to wait for. -/
def failure_reason (signals : Signals) (exhausted : Bool) (status : Option Nat) :
    Option FactoryRetryReason :=
  if signals.secondary = true then some .secondary_rate_limit
  else if signals.primary = true ∨ (exhausted = true
      ∧ (status = some 403 ∨ status = some 429 ∨ signals.forbidden = true
        ∨ signals.too_many = true)) then
    some .primary_rate_limit
  else if signals.too_many = true ∨ status = some 429 then some .secondary_rate_limit
  else if signals.unavailable = true ∨ status = some 503 then some .github_unavailable
  else none

/-- `diagnostics` out of bounds: a possibly longer requirement must not be truncated away. -/
def diagnostics_exceed (stderr : Bytes) : Bool :=
  decide (MAX_DIAGNOSTIC_BYTES < stderr.length)
    || decide (MAX_HEADER_LINES < (stderr.splitOn 0x0A).length)

/-- The wait when a deadline may be hidden. -/
def hidden_wait : GitHubWait := { reason := .github_unavailable, next_retry_at := MAX_UTC }

section

/- `DateTime::parse_from_rfc2822` of the `chrono` package, with the offset taken off, and
`serde_json::from_slice::<Value>`. -/
variable (parse_from_rfc2822 : String → Option DateTime) (from_slice : Bytes → Option Json)

/-- `retry_hint`. -/
def retry_hint (name value : String) (now : DateTime) : Option DateTime :=
  let reset := eq_ignore_ascii_case name "x-ratelimit-reset"
  if reset = false ∧ eq_ignore_ascii_case name "retry-after" = false then none
  else if is_decimal value = true then
    match parse_i64 value with
    | none => some MAX_UTC
    | some seconds =>
      if reset = true then
        some (((from_timestamp seconds).map fun date => after date RESET_MARGIN_SECONDS).getD
          MAX_UTC)
      else some (after now seconds)
  else if reset = false ∧ byteLen value ≤ 64 then parse_from_rfc2822 value
  else none

/-- The outstanding deadlines the headers ask for. -/
def deadlines (headers : List (String × String)) (use_primary_reset : Bool) (now : DateTime) :
    List DateTime :=
  ((headers.filter fun header => use_primary_reset
    || !eq_ignore_ascii_case header.1 "x-ratelimit-reset").filterMap
    fun header => retry_hint parse_from_rfc2822 header.1 header.2 now).filter fun deadline =>
      outstanding deadline now

/-- What the output signals. -/
def output_signals (body stderr : Bytes) : Signals :=
  let signals := Signals.text {} stderr
  if body.length ≤ MAX_ERROR_BODY_BYTES then
    match from_slice body with
    | some value => envelope_signals signals value
    | none => signals.text body
  else signals

/-- The primary window binds when it is the reason, or spent. -/
def uses_primary_reset (reason : FactoryRetryReason) (exhausted : Bool) : Bool :=
  exhausted || decide (reason = .primary_rate_limit ∨ reason = .graphql_quota)

/-- `classify_failure`, of a response that could be split. -/
def classify_response (response : Response) (stderr : Bytes) (now : DateTime) : Option GitHubWait :=
  let signals := output_signals from_slice response.body stderr
  let headers := response.headers ++ stderr_headers stderr
  let exhausted := reports_exhausted headers
  (failure_reason signals exhausted response.status).map fun reason => {
    reason
    next_retry_at :=
      (deadlines parse_from_rfc2822 headers (uses_primary_reset reason exhausted) now).max?.getD
      (after now BASE_BACKOFF_SECONDS) }

/-- `classify_failure`. -/
def classify_failure (stdout stderr : Bytes) (now : DateTime) : Option GitHubWait :=
  if diagnostics_exceed stderr = true then some hidden_wait
  else
    match split_headers stdout with
    | .error _ => some hidden_wait
    | .ok response => classify_response parse_from_rfc2822 from_slice response stderr now

end

end Crony.Cli
