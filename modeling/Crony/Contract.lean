/-
Task contracts in full, and the grammar of the paths they name.

The run lifecycle reads eight fields of a contract; planning and the revisions read all of
them. `ContractDocument` is the whole of `TaskContract` as `crony-domain` declares it. A
write scope is `**`, a repository-relative path, or such a path followed by `/**`.
-/
import Mathlib.Data.List.Infix
import Crony.Domain
import Crony.Text

set_option autoImplicit false

namespace Crony

/-! ## Text -/

/-- `str::starts_with` with a text. -/
def starts_with (text pattern : String) : Bool := pattern.toList.isPrefixOf text.toList

/-- `str::ends_with` with a text. -/
def ends_with (text pattern : String) : Bool := pattern.toList.isSuffixOf text.toList

/-- `str::contains` with a text. -/
def contains (text pattern : String) : Bool := decide (pattern.toList <:+: text.toList)

/-- `str::strip_prefix`. -/
def strip_prefix_str (text pattern : String) : Option String :=
  if starts_with text pattern then some (String.ofList (text.toList.drop pattern.toList.length))
  else none

/-- `str::strip_suffix`. -/
def strip_suffix (text pattern : String) : Option String :=
  if ends_with text pattern then
    some (String.ofList (text.toList.take (text.toList.length - pattern.toList.length)))
  else none

/-- `str::split` at a character. -/
def split (text : String) (c : Char) : List String :=
  (text.toList.splitOn c).map String.ofList

/-- `u8::is_ascii_hexdigit` and `char::is_ascii_hexdigit`. -/
def is_ascii_hexdigit (c : Char) : Bool := (hexValue? c).isSome

/-! ## Contracts -/

structure TaskSecretReference where
  secret_id : Uuid
  env_name : String
  tool : String
  resource : String
  deriving DecidableEq, Repr

/-- `TaskContract`, with the fields that only planning and the revisions read. -/
structure ContractDocument extends TaskContract where
  objective : String
  expected_output : String
  workspace_connection_id : Option Uuid := none
  acceptance_tests : List String
  allowed_tools : List String
  prohibited_actions : List String
  references : List String
  write_scope : List String
  deadline_at : Option Int := none
  escalation : String
  secret_refs : List TaskSecretReference := []
  deriving DecidableEq, Repr

/-! ## Paths and write scopes -/

/-- `repository_relative_path_is_valid`. -/
def repository_relative_path_is_valid (value : String) : Bool :=
  value != "" && decide (byteLen value ≤ 500) && value == trim value
    && !starts_with value "/" && !starts_with value "\\" && !contains value "\\"
    && !contains value ":" && !contains value "//" && !value.toList.any is_control
    && (split value '/').all fun component =>
      component != "" && component != "." && component != ".."

/-- A wildcard character of a glob. -/
def is_glob_character (c : Char) : Bool := c == '*' || c == '?' || c == '[' || c == ']'

/-- `write_scope_is_valid`. -/
def write_scope_is_valid (value : String) : Bool :=
  if value = "**" then true
  else
    let path := (strip_suffix value "/**").getD value
    repository_relative_path_is_valid path && !path.toList.any is_glob_character

/-- `write_scope_allows_path`. -/
def write_scope_allows_path (scope path : String) : Bool :=
  if scope = "**" ∨ scope = path then true
  else
    match strip_suffix scope "/**" with
    | none => false
    | some stem =>
      path == stem || (strip_prefix_str path stem).any fun rest => starts_with rest "/"

/-- `write_scope_is_subset`. -/
def write_scope_is_subset (requested allowed : String) : Bool :=
  if !write_scope_is_valid requested || !write_scope_is_valid allowed then false
  else if requested = "**" then allowed == "**"
  else
    match strip_suffix requested "/**" with
    | some stem => (allowed == "**" || ends_with allowed "/**")
        && write_scope_allows_path allowed stem
    | none => write_scope_allows_path allowed requested

end Crony
