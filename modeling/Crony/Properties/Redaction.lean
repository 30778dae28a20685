/-
Redaction.

A value is looked at through its paths: a path goes from an object to the value under a key and
from an array to an item. What lies on a path without a redacted name is where it was, and what
it shows there is the same; no object anywhere has one of the names left.
-/
import Crony.Store.Redaction

set_option autoImplicit false

namespace Crony.Json

/-! ## Paths -/

/-- One step into a value. -/
inductive Step where
  | key (name : String)
  | index (i : Nat)
  deriving DecidableEq, Repr

/-- The value one step further in. -/
def child : Json → Step → Option Json
  | .obj fields, .key name => get? (.obj fields) name
  | .arr items, .index i => items[i]?
  | _, _ => none

/-- The value at a path. -/
def at_path : Json → List Step → Option Json
  | v, [] => some v
  | v, step :: rest =>
    match child v step with
    | some below => at_path below rest
    | none => none

/-- A step that does not go through one of the names. -/
def Step.avoids (names : List String) : Step → Prop
  | .key name => name ∉ names
  | .index _ => True

/-- A value that lies in another one, at any depth. -/
inductive Inside : Json → Json → Prop where
  | here (v : Json) : Inside v v
  | item {v item : Json} {items : List Json} : item ∈ items → Inside v item → Inside v (.arr items)
  | field {v : Json} {fields : List (String × Json)} {field : String × Json} :
      field ∈ fields → Inside v field.2 → Inside v (.obj fields)

/-- What a value shows without going into it: the value itself, the number of its items or its
keys in order. -/
inductive Surface where
  | scalar (v : Json)
  | items (count : Nat)
  | keys (names : List String)

def surface : Json → Surface
  | .obj fields => .keys (fields.map Prod.fst)
  | .arr items => .items items.length
  | .null => .scalar .null
  | .bool b => .scalar (.bool b)
  | .int n => .scalar (.int n)
  | .float text => .scalar (.float text)
  | .str text => .scalar (.str text)

/-- The surface without some keys. -/
def Surface.without (names : List String) : Surface → Surface
  | .keys shown => .keys (shown.filter fun key => decide (key ∉ names))
  | .items count => .items count
  | .scalar v => .scalar v

end Crony.Json

namespace Crony.Store

open Crony.Json

/-! ## One level -/

theorem redact_items_eq_map (items : List Json) :
    redact_items items = items.map redact_path_fields := by
  induction items with
  | nil => rfl
  | cons item rest ih => rw [redact_items, ih, List.map_cons]

theorem redact_values_eq (fields : List (String × Json)) :
    redact_values fields = (fields.filter fun field => decide (field.1 ∉ redacted_names)).map
      fun field => (field.1, redact_path_fields field.2) := by
  induction fields with
  | nil => rfl
  | cons field rest ih =>
    obtain ⟨key, value⟩ := field
    by_cases hkey : key ∈ redacted_names
    · rw [redact_values, if_pos hkey, ih, List.filter_cons_of_neg (by simpa using hkey)]
    · rw [redact_values, if_neg hkey, ih, List.filter_cons_of_pos (by simpa using hkey),
        List.map_cons]

theorem keys_redact_values (fields : List (String × Json)) :
    (redact_values fields).map Prod.fst
      = (fields.map Prod.fst).filter fun key => decide (key ∉ redacted_names) := by
  rw [redact_values_eq, List.map_map, List.filter_map]
  rfl

/-- No field with one of the names is left. -/
theorem not_mem_redacted {fields : List (String × Json)} {field : String × Json}
    (h : field ∈ redact_values fields) : field.1 ∉ redacted_names := by
  have hkey : field.1 ∈ (redact_values fields).map Prod.fst := List.mem_map_of_mem h
  rw [keys_redact_values] at hkey
  simpa using (List.mem_filter.mp hkey).2

/-- A field that may stay is found where it was. -/
theorem find?_redact_values (fields : List (String × Json)) {name : String}
    (hname : name ∉ redacted_names) :
    ((redact_values fields).find? fun field => field.1 == name)
      = (fields.find? fun field => field.1 == name).map
          fun field => (field.1, redact_path_fields field.2) := by
  induction fields with
  | nil => rfl
  | cons field rest ih =>
    obtain ⟨key, value⟩ := field
    by_cases hsame : key = name
    · subst hsame
      rw [redact_values, if_neg hname, List.find?_cons_of_pos (by simp),
        List.find?_cons_of_pos (by simp), Option.map_some]
    · rw [List.find?_cons_of_neg (by simpa using hsame), ← ih]
      by_cases hkey : key ∈ redacted_names
      · rw [redact_values, if_pos hkey]
      · rw [redact_values, if_neg hkey, List.find?_cons_of_neg (by simpa using hsame)]

theorem surface_redact (v : Json) :
    (redact_path_fields v).surface = v.surface.without redacted_names := by
  cases v with
  | obj fields =>
    rw [redact_path_fields, Json.surface, Json.surface, Surface.without, keys_redact_values]
  | arr items =>
    rw [redact_path_fields, Json.surface, Json.surface, Surface.without, redact_items_eq_map,
      List.length_map]
  | null | bool | int | float | str => rfl

/-- One step that avoids the names leads to the same value, redacted. -/
theorem child_redact (v : Json) {step : Step} (h : step.avoids redacted_names) :
    (redact_path_fields v).child step = (v.child step).map redact_path_fields := by
  cases v with
  | obj fields =>
    cases step with
    | key name =>
      rw [redact_path_fields, Json.child, Json.child, Json.get?, Json.get?,
        find?_redact_values fields h, Option.map_map, Option.map_map]
      rfl
    | index i => rfl
  | arr items =>
    cases step with
    | key name => rfl
    | index i =>
      rw [redact_path_fields, Json.child, Json.child, redact_items_eq_map, List.getElem?_map]
  | null | bool | int | float | str => cases step <;> rfl

/-! ## Any depth -/

/-- By induction on the path. -/
theorem at_path_redact (v : Json) {path : List Step}
    (h : ∀ step ∈ path, step.avoids redacted_names) :
    (redact_path_fields v).at_path path = (v.at_path path).map redact_path_fields := by
  induction path generalizing v with
  | nil => rfl
  | cons step rest ih =>
    have hstep := child_redact v (h step List.mem_cons_self)
    rw [Json.at_path, Json.at_path, hstep]
    cases v.child step with
    | none => rfl
    | some below => exact ih below fun s hs => h s (List.mem_cons_of_mem step hs)

/-- What is inside a redacted value is a redacted value. -/
theorem inside_redact {v w : Json} (h : Inside w (redact_path_fields v)) :
    ∃ u, w = redact_path_fields u := by
  generalize hr : redact_path_fields v = r at h
  induction h generalizing v with
  | here => exact ⟨v, hr.symm⟩
  | item hitem _ ih =>
    cases v with
    | arr items =>
      rw [redact_path_fields, redact_items_eq_map] at hr
      injection hr with hr
      rw [← hr, List.mem_map] at hitem
      obtain ⟨item, -, hsame⟩ := hitem
      exact ih hsame
    | obj => cases hr
    | null | bool | int | float | str => cases hr
  | field hfield _ ih =>
    cases v with
    | obj fields =>
      rw [redact_path_fields, redact_values_eq] at hr
      injection hr with hr
      rw [← hr, List.mem_map] at hfield
      obtain ⟨field, -, rfl⟩ := hfield
      exact ih rfl
    | arr => cases hr
    | null | bool | int | float | str => cases hr

mutual

/-- The recursion goes down the value: what is left is left again. -/
theorem redact_redact (v : Json) :
    redact_path_fields (redact_path_fields v) = redact_path_fields v :=
  match v with
  | .obj fields => by
    rw [redact_path_fields, redact_path_fields, redact_values_redact fields]
  | .arr items => by
    rw [redact_path_fields, redact_path_fields, redact_items_redact items]
  | .null => rfl
  | .bool _ => rfl
  | .int _ => rfl
  | .float _ => rfl
  | .str _ => rfl

theorem redact_items_redact (items : List Json) :
    redact_items (redact_items items) = redact_items items :=
  match items with
  | [] => rfl
  | item :: rest => by
    rw [redact_items, redact_items, redact_redact item, redact_items_redact rest]

theorem redact_values_redact (fields : List (String × Json)) :
    redact_values (redact_values fields) = redact_values fields :=
  match fields with
  | [] => rfl
  | (key, value) :: rest => by
    have hrest := redact_values_redact rest
    by_cases hkey : key ∈ redacted_names
    · rw [redact_values, if_pos hkey, hrest]
    · rw [redact_values, if_neg hkey, redact_values, if_neg hkey, redact_redact value, hrest]

end

/-- **Redaction is complete, touches nothing else, and is idempotent.** No object inside the
result has one of the names; at every path without them there is what was there, redacted, with
the same scalars, as many items and the other keys in order; and redacting again changes
nothing. -/
theorem redaction_complete (v : Json) :
    (∀ fields, Inside (.obj fields) (redact_path_fields v) →
        ∀ field ∈ fields, field.1 ∉ redacted_names)
      ∧ (∀ path : List Step, (∀ step ∈ path, step.avoids redacted_names) →
        ((redact_path_fields v).at_path path).map Json.surface
          = (v.at_path path).map fun below => below.surface.without redacted_names)
      ∧ redact_path_fields (redact_path_fields v) = redact_path_fields v := by
  refine ⟨?_, ?_, redact_redact v⟩
  · intro fields hinside field hfield
    obtain ⟨u, hu⟩ := inside_redact hinside
    cases u with
    | obj fields' =>
      rw [redact_path_fields] at hu
      injection hu with hu
      subst hu
      exact not_mem_redacted hfield
    | arr => cases hu
    | null | bool | int | float | str => cases hu
  · intro path hpath
    rw [at_path_redact v hpath, Option.map_map]
    congr 1
    funext below
    exact surface_redact below

/-- A path in an array in an object goes; its neighbours stay. -/
example : redact_path_fields
    (.obj [("files", .arr [.obj [("path", .str "/tmp/a"), ("bytes", .int 3)],
      .null]), ("object_key", .str "k")])
    = .obj [("files", .arr [.obj [("bytes", .int 3)], .null])] := by
  rfl

end Crony.Store
