/-
What the event stream does not show: runner-local paths, object keys and file contents are taken
out of the payloads before anybody reads them.
-/
import Crony.Contract

set_option autoImplicit false

namespace Crony.Store

/-- The keys `redact_path_fields` removes. -/
def redacted_names : List String := ["path", "artifact_path", "content_base64", "object_key"]

mutual

/-- `redact_path_fields`. -/
def redact_path_fields : Json → Json
  | .obj fields => .obj (redact_values fields)
  | .arr items => .arr (redact_items items)
  | .null => .null
  | .bool b => .bool b
  | .int n => .int n
  | .float text => .float text
  | .str text => .str text

/-- The items of an array, one by one. -/
def redact_items : List Json → List Json
  | [] => []
  | item :: rest => redact_path_fields item :: redact_items rest

/-- `object.remove` of the four names, and the values that are left. -/
def redact_values : List (String × Json) → List (String × Json)
  | [] => []
  | (key, value) :: rest =>
    if key ∈ redacted_names then redact_values rest
    else (key, redact_path_fields value) :: redact_values rest

end

/-- `looks_like_local_path`. -/
def looks_like_local_path (value : String) : Bool :=
  contains value ":\\" || contains value ":/" || contains value "/output/runner/"
    || contains value "\\output\\runner\\"

/-- `payload.get_mut(key)`, rewritten. -/
def map_field (key : String) (f : Json → Json) : Json → Json
  | .obj fields => .obj (fields.map fun field => if field.1 = key then (key, f field.2) else field)
  | value => value

/-- `object.insert`, on an object. -/
def insert_field (key : String) (v : Json) : Json → Json
  | .obj fields => .obj (Json.insertField fields key v)
  | value => value

/-- `redact_artifact_event_payload`. -/
def redact_artifact_event_payload (event_type : String) (payload : Json) : Json :=
  if event_type ∈ ["run.artifact", "run.artifact_upload", "run.deliverable",
      "run.deliverable_upload"] then
    redact_path_fields payload
  else if event_type = "run.verification_evidence" ∧ payload.text? "kind" = some "artifact" then
    let payload := map_field "payload" redact_path_fields payload
    if (payload.text? "summary").any looks_like_local_path then
      insert_field "summary" (.str "artifact verification evidence (local path redacted)") payload
    else payload
  else payload

end Crony.Store
