/-
Project discovery: `factory/project.rs`.

`discover` resolves a GitHub Project and reads its items page by page through a callback that
performs the request. The callback is everything the code does not control: it answers each
request as it likes, and it may remember the ones before, so it is a function of all requests
so far. The bytes `serde_json` writes for a response are likewise given, as the lengths of the
slices it hands to the budget's `write`.

The state of the loop is `PageState`; what one page does to it is `take_page`, in the order of
the source, and the loop around it counts pages.
-/
import Crony.Lib.Guard
import Crony.Domain
import Crony.Text

set_option autoImplicit false

open Crony.Lib

namespace Crony.Cli

def MAX_ITEMS : Nat := 10000
def MAX_PAGES : Nat := 100
def PAGE_SIZE : Nat := 100
def MAX_JSON_BYTES : Nat := 16 * 1024 * 1024

/-- `ProjectContent`. -/
structure ProjectContent where
  kind : String := ""
  number : Int := 0
  title : String := ""
  body : String := ""
  url : String := ""
  repository : String := ""
  deriving DecidableEq, Repr

/-- `ProjectItem`. -/
structure ProjectItem where
  id : String
  status : String
  content : ProjectContent
  deriving DecidableEq, Repr

/-- `ProjectItemsEnvelope`. -/
structure ProjectItemsEnvelope where
  items : List ProjectItem
  total_count : Nat
  deriving DecidableEq, Repr

/-- How `discover` fails: with a message, or in the subtraction of the byte budget. -/
inductive DiscoverError where
  | failed (message : String)
  | subtract_overflow
  deriving DecidableEq, Repr

/-- The `ensure!` and `context` of this module. -/
def require (p : Prop) [Decidable p] (message : String) : Except DiscoverError Unit :=
  ensure p (.failed message)

def required {α : Type} (o : Option α) (message : String) : Except DiscoverError α :=
  context o (.failed message)

/-! ## Reading responses -/

/-- `str::eq_ignore_ascii_case`. -/
def eq_ignore_ascii_case (a b : String) : Bool :=
  a.toList.map Char.toLower == b.toList.map Char.toLower

/-- `value[key]`: null where there is no such field. -/
def field (v : Json) (key : String) : Json := (v.get? key).getD .null

/-- `is_object`. -/
def is_object (v : Json) : Bool := v.as_object.isSome

/-- `string_field`. -/
def string_field (v : Json) (key : String) : Except DiscoverError String :=
  required ((v.get? key).bind Json.as_str) ("GitHub Project response omitted string field " ++ key)

/-- `project_identity`. -/
def project_identity (project : Json) (owner : String) (number : Nat) :
    Except DiscoverError String := do
  let id ← string_field project "id"
  require (id ≠ "") "GitHub Project ID is empty"
  require ((field project "number").as_u64 = some number
      ∧ (((project.get? "owner").bind fun o => o.get? "login").bind Json.as_str).any
        (fun login => eq_ignore_ascii_case login owner) = true)
    "GitHub Project owner/number mismatch or missing identity"
  return id

/-- The status of a node, from its Status field value. -/
def item_status (node : Json) : Except DiscoverError String :=
  match node.get? "fieldValueByName" with
  | some .null => .ok ""
  | some (.obj fields) =>
    match Json.get? (.obj fields) "name" with
    | some (.str name) => .ok name
    | none => .ok ""
    | _ => .error (.failed "GitHub Project item has an invalid Status name")
  | _ => .error (.failed "GitHub Project item omitted a valid Status field value")

/-- The content of a node; only issues are read. -/
def item_content (content : Json) : Except DiscoverError ProjectContent :=
  if content.isNull then .ok {} else do
  let kind ← string_field content "__typename"
  require (kind ≠ "") "GitHub Project content type is empty"
  if kind = "Issue" then do
    let number ← required ((field content "number").as_i64.filter fun n => decide (0 < n))
      "GitHub Project Issue number is missing or invalid"
    let title ← string_field content "title"
    let body ← string_field content "body"
    let url ← string_field content "url"
    let repository ← string_field (field content "repository") "nameWithOwner"
    return { kind, number, title, body, url, repository }
  else return { kind }

/-- `parse_item`. -/
def parse_item (node : Json) : Except DiscoverError ProjectItem := do
  let id ← string_field node "id"
  require (id ≠ "") "GitHub Project item ID is empty"
  require ((field node "isArchived").as_bool = some false)
    "GitHub Project returned an archived item or omitted isArchived"
  let status ← item_status node
  let content ← required (node.get? "content") "GitHub Project item omitted content"
  let content ← item_content content
  return { id, status, content }

/-! ## The byte budget -/

/-- `JsonBudget::write` of a slice; the subtraction is a `usize` one. -/
def JsonBudget.write (budget length : Nat) : Except DiscoverError Nat :=
  if MAX_JSON_BYTES < budget then .error .subtract_overflow
  else if MAX_JSON_BYTES - budget < length then
    .error (.failed "GitHub Project discovery exceeded the 16 MiB total JSON limit")
  else .ok (budget + length)

/-- `serde_json::to_writer` into the budget, slice by slice. -/
def JsonBudget.write_all (budget : Nat) (slices : List Nat) : Except DiscoverError Nat :=
  slices.foldlM JsonBudget.write budget

/-- A response with GraphQL errors is refused, also where it has data. -/
def no_errors (response : Json) : Except DiscoverError Unit :=
  match response.get? "errors" with
  | none => .ok ()
  | some (.arr []) => .ok ()
  | _ => .error (.failed "GitHub Project discovery returned GraphQL errors or malformed errors")

/-- The part of `response_data` behind the budget. -/
def checked_data (response : Json) : Except DiscoverError Json := do
  no_errors response
  required ((response.get? "data").filter is_object)
    "GitHub Project response data is null or missing"

/-! ## One page -/

/-- The requests `discover` makes: the query and its variables. -/
inductive Request where
  | resolve_project (owner : String) (number : Nat)
  | project_items (id : String) (cursor : Option String)
  deriving DecidableEq, Repr

/-- The variables of the loop. -/
structure PageState where
  budget : Nat
  items : List ProjectItem := []
  cursors : List String := []
  cursor : Option String := none
  total_count : Option Nat := none

/-- The `items` connection of a page of the project. -/
def page_connection (owner : String) (number : Nat) (project_id : String) (data : Json) :
    Except DiscoverError Json := do
  let project ← required ((data.get? "node").filter is_object)
    "GitHub Project page node is null or missing"
  let id ← project_identity project owner number
  require (id = project_id) "GitHub Project page changed its opaque Project ID"
  required ((project.get? "items").filter is_object) "GitHub Project items page is null or missing"

/-- `end_cursor`: none for an empty page, a nonempty text for one with nodes. -/
def page_end_cursor (page_info : Json) (nodes : List Json) : Except DiscoverError (Option String) :=
  match page_info.get? "endCursor" with
  | some .null =>
    if nodes.isEmpty then .ok none
    else .error (.failed "GitHub Project page has a missing or invalid endCursor")
  | some (.str value) =>
    if value ≠ "" ∧ nodes.isEmpty = false then .ok (some value)
    else .error (.failed "GitHub Project page has a missing or invalid endCursor")
  | _ => .error (.failed "GitHub Project page has a missing or invalid endCursor")

/-- `parse_item` with the context of its page. -/
def decode_item (page : Nat) (node : Json) : Except DiscoverError ProjectItem :=
  match parse_item node with
  | .ok item => .ok item
  | .error _ => .error (.failed ("decode GitHub Project item on page " ++ toString page))

/-- The loop over the nodes: each is decoded and must have a new identifier. -/
def take_nodes (page : Nat) (items : List ProjectItem) (nodes : List Json) :
    Except DiscoverError (List ProjectItem) :=
  nodes.foldlM (fun items node => do
    let item ← decode_item page node
    require (item.id ∉ items.map ProjectItem.id)
      "GitHub Project discovery returned duplicate item IDs"
    return items ++ [item]) items

/-- What a page leads to. -/
inductive PageOutcome where
  | done (envelope : ProjectItemsEnvelope)
  | next (state : PageState)

/-- The body of the loop, once the page has been fetched. -/
def take_page (owner : String) (number : Nat) (project_id : String) (slices : List Nat) (page : Nat)
    (s : PageState) (response : Json) : Except DiscoverError PageOutcome := do
  let budget ← JsonBudget.write_all s.budget slices
  let data ← checked_data response
  let connection ← page_connection owner number project_id data
  let count ← required (field connection "totalCount").as_u64
    "GitHub Project page omitted a valid totalCount"
  require (count ≤ MAX_ITEMS) "GitHub Project discovery exceeds the 10000-item limit"
  require (∀ previous ∈ s.total_count, previous = count)
    "GitHub Project totalCount changed across pages"
  let nodes ← required (field connection "nodes").as_array
    "GitHub Project page nodes are null or missing"
  require (nodes.length ≤ PAGE_SIZE) "GitHub Project page exceeds the 100-item page size"
  require (s.items.length + nodes.length ≤ count)
    "GitHub Project returned more items than totalCount"
  let page_info ← required (connection.get? "pageInfo") "GitHub Project pageInfo is missing"
  let has_next ← required (field page_info "hasNextPage").as_bool
    "GitHub Project pageInfo omitted hasNextPage"
  require (nodes.isEmpty = false ∨ has_next = false)
    "GitHub Project pagination made no progress: empty page with hasNextPage"
  let end_cursor ← page_end_cursor page_info nodes
  require (∀ next ∈ end_cursor, next ∉ s.cursors)
    "GitHub Project pagination repeated an endCursor (cursor loop or non-progress)"
  let items ← take_nodes page s.items nodes
  if has_next then do
    require (items.length < count) "GitHub Project hasNextPage is true after reaching totalCount"
    return .next { budget, items, cursors := s.cursors ++ end_cursor.toList, cursor := end_cursor
                   total_count := some count }
  else do
    require (items.length = count) ("GitHub Project pagination truncated: received "
      ++ toString items.length ++ " of " ++ toString count ++ " items")
    return .done { items, total_count := count }

/-! ## The loop -/

/-- The callback: what is answered to the last of the requests made so far. -/
abbrev Fetch := List Request → Except String Json

/-- The requests made, each with its answer, and the result. -/
structure Discovery where
  fetched : List (Request × Except String Json)
  result : Except DiscoverError ProjectItemsEnvelope

/-- The lengths of the slices `serde_json::to_writer` writes for a value. -/
abbrev Slices := Json → List Nat

variable (fetch : Fetch) (slices : Slices) (owner : String) (number : Nat)

/-- `for page in 1..=MAX_PAGES`, with the number of pages left. -/
def discover_pages (project_id : String) :
    Nat → Nat → PageState → List (Request × Except String Json) → Discovery
  | 0, _, _, fetched =>
    { fetched
      result := .error (.failed
        "GitHub Project discovery exceeded the 100-page limit before completion") }
  | left + 1, page, s, fetched =>
    let request := Request.project_items project_id s.cursor
    let answer := fetch (fetched.map Prod.fst ++ [request])
    let fetched := fetched ++ [(request, answer)]
    match answer with
    | .error _ =>
      { fetched
        result := .error (.failed ("fetch GitHub Project items page " ++ toString page)) }
    | .ok response =>
      match take_page owner number project_id (slices response) page s response with
      | .error error => { fetched, result := .error error }
      | .ok (.done envelope) => { fetched, result := .ok envelope }
      | .ok (.next s) => discover_pages project_id left (page + 1) s fetched

/-- The project of the resolution response, and the budget it leaves. -/
def take_resolution (slices : List Nat) (response : Json) :
    Except DiscoverError (Nat × String) := do
  let budget ← JsonBudget.write_all 0 slices
  let data ← checked_data response
  let project ← required
    (((data.get? "repositoryOwner").bind fun o => o.get? "projectV2").filter is_object)
    "GitHub Project or repository owner is unavailable"
  let project_id ← project_identity project owner number
  return (budget, project_id)

/-- The arguments `discover` accepts. -/
def valid_arguments : Except DiscoverError Unit := do
  require (owner ≠ "" ∧ owner.toList.any is_whitespace = false)
    "GitHub Project owner must be nonempty and contain no whitespace"
  require (0 < number ∧ number ≤ 2 ^ 31 - 1)
    "GitHub Project number must be a positive GraphQL Int"

/-- `discover`. -/
def discover : Discovery :=
  match valid_arguments owner number with
  | .error error => { fetched := [], result := .error error }
  | .ok () =>
    let request := Request.resolve_project owner number
    let answer := fetch [request]
    let fetched := [(request, answer)]
    match answer with
    | .error _ => { fetched, result := .error (.failed "resolve GitHub Project") }
    | .ok response =>
      match take_resolution owner number (slices response) response with
      | .error error => { fetched, result := .error error }
      | .ok (budget, project_id) =>
        discover_pages fetch slices owner number project_id MAX_PAGES 1 { budget } fetched

end Crony.Cli
