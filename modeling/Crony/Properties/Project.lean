/-
Project discovery against any callback.

What one page contributes is read off `take_page` once (`take_page_eq_ok`). From it the loop is
followed twice: forwards, from a run that returned to what it fetched (`discover_pages_ok`), and
backwards, from the pages of a faithful listing to the run that returns it
(`discover_pages_of_listing`). That the subtraction of the byte budget never underflows is an
invariant of the same loop.
-/
import Crony.Cli.Project

set_option autoImplicit false

open Crony.Lib

namespace Crony.Cli

/-! ## What a response says -/

/-- The items connection of a page response. -/
def response_connection (response : Json) : Json :=
  field (field (field response "data") "node") "items"

/-- The nodes of a page response. -/
def response_nodes (response : Json) : List Json :=
  ((field (response_connection response) "nodes").as_array).getD []

/-- The total a page response reports. -/
def response_total (response : Json) : Option Nat :=
  (field (response_connection response) "totalCount").as_u64

/-- Whether a page response announces another page. -/
def response_has_next (response : Json) : Option Bool :=
  (field (field (response_connection response) "pageInfo") "hasNextPage").as_bool

/-- The cursor a page response ends with. -/
def response_cursor (response : Json) : Option String :=
  (field (field (response_connection response) "pageInfo") "endCursor").as_str

/-- The page requests that lead from one response to the next: each carries the end cursor of
the response before it. -/
def page_requests (project_id : String) : Option String → List Json → List Request
  | _, [] => []
  | cursor, response :: responses =>
    Request.project_items project_id cursor :: page_requests project_id (response_cursor response)
      responses

/-- A value has the identity of the project `project_id`. -/
structure Identified (project : Json) (owner : String) (number : Nat) (project_id : String) :
    Prop where
  id : project.text? "id" = some project_id
  id_ne : project_id ≠ ""
  number : (field project "number").as_u64 = some number
  owner : (((project.get? "owner").bind fun o => o.get? "login").bind Json.as_str).any
    (fun login => eq_ignore_ascii_case login owner) = true

/-- **What a page response is.** A response without errors, of this project, with a total, its
nodes, whether another page follows, and the cursor it ends with: none for an empty page, a
nonempty text for a page with nodes. -/
structure PageOf (owner : String) (number : Nat) (project_id : String) (response : Json)
    (total : Nat) (nodes : List Json) (has_next : Bool) (cursor : Option String) : Prop where
  errors : response.get? "errors" = none ∨ response.get? "errors" = some (.arr [])
  project : Identified (field (field response "data") "node") owner number project_id
  total_eq : response_total response = some total
  nodes_eq : (field (response_connection response) "nodes").as_array = some nodes
  has_next_eq : response_has_next response = some has_next
  cursor_eq : (nodes = [] ∧ cursor = none
      ∧ (field (response_connection response) "pageInfo").get? "endCursor" = some .null)
    ∨ ∃ value, nodes ≠ [] ∧ value ≠ "" ∧ cursor = some value
      ∧ (field (response_connection response) "pageInfo").get? "endCursor" = some (.str value)

theorem field_of_get? {v w : Json} {key : String} (h : v.get? key = some w) : field v key = w := by
  rw [field, h]
  rfl

theorem get?_of_field {v : Json} {key : String} (h : field v key ≠ .null) :
    v.get? key = some (field v key) := by
  rw [field] at h ⊢
  cases hget : v.get? key with
  | none => exact absurd (by rw [hget]; rfl) h
  | some w => rfl

/-- Only objects have fields. -/
theorem is_object_of_get? {v w : Json} {key : String} (h : v.get? key = some w) :
    is_object v = true := by
  cases v with
  | obj fields => rfl
  | null | bool | int | float | str | arr => cases h

/-- A value of which a field is read is not null. -/
theorem ne_null_of_get? {v w : Json} {key : String} (h : v.get? key = some w) : v ≠ .null := by
  rintro rfl
  cases h

theorem ne_null_of_field {v : Json} {key : String} (h : field v key ≠ .null) : v ≠ .null :=
  ne_null_of_get? (get?_of_field h)

/-! ## Inversion of the parts -/

theorem require_eq_ok {p : Prop} [Decidable p] {message : String} {u : Unit} :
    require p message = .ok u ↔ p := ensure_eq_ok

theorem required_eq_ok {α : Type} {o : Option α} {message : String} {a : α} :
    required o message = .ok a ↔ o = some a := context_eq_ok

theorem no_errors_eq_ok {response : Json} {u : Unit} :
    no_errors response = .ok u ↔
      response.get? "errors" = none ∨ response.get? "errors" = some (.arr []) := by
  rw [no_errors]
  constructor
  · intro h
    split at h
    · exact Or.inl ‹_›
    · exact Or.inr ‹_›
    · cases h
  · rintro (h | h) <;> rw [h]

/-- The part of a response behind the budget is its `data`, an object, and there are no
errors. -/
theorem checked_data_eq_ok {response data : Json} :
    checked_data response = .ok data ↔
      (response.get? "errors" = none ∨ response.get? "errors" = some (.arr []))
        ∧ response.get? "data" = some data ∧ is_object data = true := by
  rw [checked_data, bind_eq_ok]
  constructor
  · rintro ⟨_, herrors, hdata⟩
    rw [required_eq_ok, Option.filter_eq_some_iff] at hdata
    exact ⟨no_errors_eq_ok.mp herrors, hdata⟩
  · rintro ⟨herrors, hdata⟩
    exact ⟨(), no_errors_eq_ok.mpr herrors,
      required_eq_ok.mpr (Option.filter_eq_some_iff.mpr hdata)⟩

/-- The end cursor of a page: null without nodes, a nonempty text with them. -/
theorem page_end_cursor_eq_ok {page_info : Json} {nodes : List Json} {cursor : Option String} :
    page_end_cursor page_info nodes = .ok cursor ↔
      (nodes = [] ∧ page_info.get? "endCursor" = some .null ∧ cursor = none)
      ∨ ∃ value, nodes ≠ [] ∧ page_info.get? "endCursor" = some (.str value) ∧ value ≠ ""
          ∧ cursor = some value := by
  rw [page_end_cursor]
  cases h : page_info.get? "endCursor" with
  | none => simp
  | some v =>
    cases v <;> simp only [Option.some.injEq, reduceCtorEq, false_and, and_false, exists_false,
      or_false, false_or, Json.str.injEq]
    · -- an empty page
      cases nodes <;> simp [eq_comm]
    · rename_i value
      by_cases hval : value = "" <;> cases nodes <;> simp [hval, eq_comm]

theorem project_identity_eq_ok {project : Json} {owner : String} {number : Nat} {id : String} :
    project_identity project owner number = .ok id ↔ Identified project owner number id := by
  rw [project_identity]
  simp only [bind_eq_ok, string_field, required_eq_ok, require_eq_ok, pure_eq_ok]
  constructor
  · rintro ⟨id', hid, _, hne, _, ⟨hnumber, howner⟩, rfl⟩
    exact ⟨hid, hne, hnumber, howner⟩
  · rintro ⟨hid, hne, hnumber, howner⟩
    exact ⟨id, hid, (), hne, (), ⟨hnumber, howner⟩, rfl⟩

/-- The items connection of a page: the page is of this project. -/
theorem page_connection_eq_ok {owner : String} {number : Nat} {project_id : String}
    {data connection : Json} :
    page_connection owner number project_id data = .ok connection ↔
      Identified (field data "node") owner number project_id
        ∧ (field data "node").get? "items" = some connection ∧ is_object connection = true := by
  rw [page_connection]
  simp only [bind_eq_ok, required_eq_ok, require_eq_ok, project_identity_eq_ok,
    Option.filter_eq_some_iff]
  constructor
  · rintro ⟨project, ⟨hnode, -⟩, id, hid, _, rfl, hitems⟩
    rw [field_of_get? hnode]
    exact ⟨hid, hitems⟩
  · rintro ⟨hid, hitems⟩
    have hnode := get?_of_field (ne_null_of_get? hitems.1)
    exact ⟨field data "node", ⟨hnode, is_object_of_get? hitems.1⟩, project_id, hid, (), rfl, hitems⟩

theorem decode_item_eq_ok {page : Nat} {node : Json} {item : ProjectItem} :
    decode_item page node = .ok item ↔ parse_item node = .ok item := by
  rw [decode_item]
  split <;> simp_all

/-- **The nodes of a page.** They are decoded in order and appended; their identifiers are new
and distinct. -/
theorem take_nodes_eq_ok {page : Nat} {items result : List ProjectItem} {nodes : List Json} :
    take_nodes page items nodes = .ok result ↔
      ∃ new, nodes.mapM parse_item = .ok new ∧ result = items ++ new
        ∧ (new.map ProjectItem.id).Nodup ∧ ∀ item ∈ new, item.id ∉ items.map ProjectItem.id := by
  induction nodes generalizing items with
  | nil =>
    simp only [take_nodes, List.foldlM_nil, List.mapM_nil, pure_eq_ok]
    constructor
    · rintro rfl
      exact ⟨[], rfl, (List.append_nil items).symm, List.nodup_nil, by simp⟩
    · rintro ⟨_, rfl, rfl, -⟩
      exact (List.append_nil items).symm
  | cons node nodes ih =>
    have hstep : take_nodes page items (node :: nodes) = .ok result ↔
        ∃ item, parse_item node = .ok item ∧ item.id ∉ items.map ProjectItem.id
          ∧ take_nodes page (items ++ [item]) nodes = .ok result := by
      rw [take_nodes, List.foldlM_cons, bind_eq_ok]
      simp only [bind_eq_ok, require_eq_ok, pure_eq_ok, decode_item_eq_ok]
      constructor
      · rintro ⟨_, ⟨item, hparse, _, hnew, rfl⟩, hrest⟩
        exact ⟨item, hparse, hnew, hrest⟩
      · rintro ⟨item, hparse, hnew, hrest⟩
        exact ⟨items ++ [item], ⟨item, hparse, (), hnew, rfl⟩, hrest⟩
    rw [hstep]
    constructor
    · rintro ⟨item, hparse, hnew, hrest⟩
      obtain ⟨new, hnodes, rfl, hnodup, hfresh⟩ := ih.mp hrest
      have hhead : item.id ∉ new.map ProjectItem.id := by
        intro hmem
        obtain ⟨other, hother, hid⟩ := List.mem_map.mp hmem
        exact hfresh other hother (by simp [hid])
      refine ⟨item :: new, ?_, by simp, ?_, ?_⟩
      · simp only [List.mapM_cons, bind_eq_ok, pure_eq_ok]
        exact ⟨item, hparse, new, hnodes, rfl⟩
      · exact List.nodup_cons.mpr ⟨hhead, hnodup⟩
      · intro other hother
        rcases List.mem_cons.mp hother with rfl | hother
        · exact hnew
        · intro hmem
          exact hfresh other hother (by rw [List.map_append]; exact List.mem_append_left _ hmem)
    · rintro ⟨new, hnodes, rfl, hnodup, hfresh⟩
      simp only [List.mapM_cons, bind_eq_ok, pure_eq_ok] at hnodes
      obtain ⟨item, hparse, rest, hrest, rfl⟩ := hnodes
      rw [List.map_cons, List.nodup_cons] at hnodup
      refine ⟨item, hparse, hfresh item List.mem_cons_self,
        ih.mpr ⟨rest, hrest, by simp, hnodup.2, ?_⟩⟩
      intro other hother hmem
      rw [List.map_append, List.mem_append] at hmem
      rcases hmem with hmem | hmem
      · exact hfresh other (List.mem_cons_of_mem item hother) hmem
      · have hid : other.id = item.id := by simpa using hmem
        exact hnodup.1 (hid ▸ List.mem_map_of_mem hother)

/-! ## The byte budget -/

/-- **The budget.** Within its limit it counts what is written, and refuses what goes beyond. -/
theorem write_all_eq_ok {budget result : Nat} {slices : List Nat} (h : budget ≤ MAX_JSON_BYTES) :
    JsonBudget.write_all budget slices = .ok result ↔
      budget + slices.sum ≤ MAX_JSON_BYTES ∧ result = budget + slices.sum := by
  induction slices generalizing budget with
  | nil =>
    simp only [JsonBudget.write_all, List.foldlM_nil, pure_eq_ok, List.sum_nil, Nat.add_zero]
    exact ⟨fun hb => ⟨h, hb.symm⟩, fun hb => hb.2.symm⟩
  | cons length slices ih =>
    have hstep : JsonBudget.write_all budget (length :: slices)
        = JsonBudget.write budget length >>= fun b => JsonBudget.write_all b slices :=
      List.foldlM_cons ..
    rw [hstep, bind_eq_ok, List.sum_cons]
    by_cases hfit : budget + length ≤ MAX_JSON_BYTES
    · have hwrite : JsonBudget.write budget length = .ok (budget + length) := by
        rw [JsonBudget.write, if_neg (by omega), if_neg (by omega)]
      rw [hwrite]
      constructor
      · rintro ⟨_, ⟨⟩, hrest⟩
        have hrest := (ih hfit).mp hrest
        omega
      · rintro ⟨hle, rfl⟩
        exact ⟨budget + length, rfl, (ih hfit).mpr (by omega)⟩
    · have hwrite : JsonBudget.write budget length
          = .error (.failed "GitHub Project discovery exceeded the 16 MiB total JSON limit") := by
        rw [JsonBudget.write, if_neg (by omega), if_pos (by omega)]
      rw [hwrite]
      constructor
      · rintro ⟨_, hnone, -⟩
        cases hnone
      · rintro ⟨hle, -⟩
        omega

/-- A computation that does not fail in the subtraction of the budget. -/
def Subtracts {α : Type} (x : Except DiscoverError α) : Prop := x ≠ .error .subtract_overflow

theorem Subtracts.require (p : Prop) [Decidable p] (message : String) :
    Subtracts (require p message) := by
  by_cases h : p
  · rw [Cli.require, ensure_of h]
    rintro ⟨⟩
  · rw [Cli.require, ensure_of_not h]
    rintro ⟨⟩

theorem Subtracts.required {α : Type} (o : Option α) (message : String) :
    Subtracts (required o message) := by
  cases o <;> rintro ⟨⟩

/-- A sequence subtracts where both parts do. -/
theorem Subtracts.bind {α β : Type} {x : Except DiscoverError α} {f : α → Except DiscoverError β}
    (hx : Subtracts x) (hf : ∀ a, x = .ok a → Subtracts (f a)) : Subtracts (x >>= f) := by
  cases x with
  | error e => exact fun h => hx (by injection h with h; rw [h])
  | ok a => exact hf a rfl

theorem Subtracts.ok {α : Type} (a : α) : Subtracts (.ok a) := by
  rintro ⟨⟩

/-- **The subtraction.** Where the budget is within its limit, it does not underflow. -/
theorem Subtracts.write_all {budget : Nat} (slices : List Nat) (h : budget ≤ MAX_JSON_BYTES) :
    Subtracts (JsonBudget.write_all budget slices) := by
  induction slices generalizing budget with
  | nil => exact .ok budget
  | cons length slices ih =>
    have hstep : JsonBudget.write_all budget (length :: slices)
        = JsonBudget.write budget length >>= fun b => JsonBudget.write_all b slices :=
      List.foldlM_cons ..
    rw [hstep]
    refine .bind ?_ ?_
    · rw [JsonBudget.write, if_neg (by omega)]
      split <;> rintro ⟨⟩
    · intro b hb
      rw [JsonBudget.write, if_neg (by omega)] at hb
      split at hb
      · cases hb
      · injection hb with hb
        exact ih (by omega)

/-! ## One page -/

theorem PageOf.response_nodes_eq {owner : String} {number : Nat} {project_id : String}
    {response : Json} {total : Nat} {nodes : List Json} {has_next : Bool} {cursor : Option String}
    (h : PageOf owner number project_id response total nodes has_next cursor) :
    response_nodes response = nodes := by
  rw [response_nodes, h.nodes_eq, Option.getD_some]

theorem PageOf.response_cursor_eq {owner : String} {number : Nat} {project_id : String}
    {response : Json} {total : Nat} {nodes : List Json} {has_next : Bool} {cursor : Option String}
    (h : PageOf owner number project_id response total nodes has_next cursor) :
    response_cursor response = cursor := by
  rw [response_cursor]
  rcases h.cursor_eq with ⟨-, rfl, hend⟩ | ⟨value, -, -, rfl, hend⟩
  · rw [field_of_get? hend]
    rfl
  · rw [field_of_get? hend]
    rfl

/-- The state after a page of `new` items. -/
def PageState.extend (s : PageState) (bytes total : Nat) (new : List ProjectItem)
    (cursor : Option String) : PageState where
  budget := s.budget + bytes
  items := s.items ++ new
  cursors := s.cursors ++ cursor.toList
  cursor := cursor
  total_count := some total

/-- **What is accepted.** The limits and the checks against what earlier pages said. -/
structure Accepts (s : PageState) (bytes total : Nat) (nodes : List Json) (has_next : Bool)
    (cursor : Option String) (new : List ProjectItem) : Prop where
  bytes : s.budget + bytes ≤ MAX_JSON_BYTES
  limit : total ≤ MAX_ITEMS
  same : ∀ previous ∈ s.total_count, previous = total
  size : nodes.length ≤ PAGE_SIZE
  progress : nodes ≠ [] ∨ has_next = false
  fresh : ∀ next ∈ cursor, next ∉ s.cursors
  decoded : nodes.mapM parse_item = .ok new
  distinct : (new.map ProjectItem.id).Nodup
  unseen : ∀ item ∈ new, item.id ∉ s.items.map ProjectItem.id
  next : has_next = true → s.items.length + new.length < total
  last : has_next = false → s.items.length + new.length = total

/-- Where a page leads to. -/
def PageState.outcome (s : PageState) (bytes total : Nat) (has_next : Bool) (new : List ProjectItem)
    (cursor : Option String) : PageOutcome :=
  if has_next then .next (s.extend bytes total new cursor)
  else .done { items := s.items ++ new, total_count := total }

theorem length_of_mapM_eq_ok {α β ε : Type} {f : α → Except ε β} {l : List α} {m : List β}
    (h : l.mapM f = .ok m) : m.length = l.length := by
  induction l generalizing m with
  | nil =>
    simp only [List.mapM_nil, pure_eq_ok] at h
    subst h
    rfl
  | cons a l ih =>
    simp only [List.mapM_cons, bind_eq_ok, pure_eq_ok] at h
    obtain ⟨b, -, rest, hrest, rfl⟩ := h
    rw [List.length_cons, List.length_cons, ih hrest]

/-- **One page.** A page is taken exactly when the response is a page of the project and the
state accepts it. -/
theorem take_page_eq_ok {owner : String} {number : Nat} {project_id : String} {slices : List Nat}
    {page : Nat} {s : PageState} {response : Json} {outcome : PageOutcome}
    (hbudget : s.budget ≤ MAX_JSON_BYTES) :
    take_page owner number project_id slices page s response = .ok outcome ↔
      ∃ total nodes has_next cursor new,
        PageOf owner number project_id response total nodes has_next cursor
        ∧ Accepts s slices.sum total nodes has_next cursor new
        ∧ outcome = s.outcome slices.sum total has_next new cursor := by
  rw [take_page]
  simp only [bind_eq_ok, required_eq_ok, require_eq_ok, write_all_eq_ok hbudget,
    checked_data_eq_ok, page_connection_eq_ok, page_end_cursor_eq_ok, take_nodes_eq_ok]
  constructor
  · rintro ⟨budget, ⟨hbytes, rfl⟩, data, ⟨herrors, hdata, -⟩, connection, ⟨hproject, hitems, -⟩,
      total, htotal, _, hlimit, _, hsame, nodes, hnodes, _, hsize, _, hroom, page_info, hinfo,
      has_next, hnext, _, hprogress, cursor, hcursor, _, hfresh, items,
      ⟨new, hdecoded, rfl, hdistinct, hunseen⟩, hlast⟩
    have hconnection : response_connection response = connection := by
      rw [response_connection, field_of_get? hdata, field_of_get? hitems]
    have hpage : PageOf owner number project_id response total nodes has_next cursor := by
      refine ⟨herrors, by rwa [field_of_get? hdata], ?_, ?_, ?_, ?_⟩
      · rwa [response_total, hconnection]
      · rwa [hconnection]
      · rwa [response_has_next, hconnection, field_of_get? hinfo]
      · rw [hconnection, field_of_get? hinfo]
        rcases hcursor with ⟨hempty, hend, hnone⟩ | ⟨value, hne, hend, hval, hsome⟩
        · exact Or.inl ⟨hempty, hnone, hend⟩
        · exact Or.inr ⟨value, hne, hval, hsome, hend⟩
    have hprogress : nodes ≠ [] ∨ has_next = false :=
      hprogress.imp_left fun h => by simpa using h
    refine ⟨total, nodes, has_next, cursor, new, hpage, ?_, ?_⟩
    · refine ⟨hbytes, hlimit, hsame, hsize, hprogress, hfresh, hdecoded, hdistinct, hunseen, ?_, ?_⟩
      · rintro rfl
        simp only [if_true, bind_eq_ok, require_eq_ok, List.length_append] at hlast
        exact hlast.choose_spec.1
      · rintro rfl
        simp only [Bool.false_eq_true, if_false, bind_eq_ok, require_eq_ok, List.length_append]
          at hlast
        exact hlast.choose_spec.1
    · rw [PageState.outcome]
      cases has_next with
      | true =>
        simp only [if_true, bind_eq_ok, require_eq_ok, pure_eq_ok] at hlast ⊢
        obtain ⟨_, -, rfl⟩ := hlast
        rfl
      | false =>
        simp only [Bool.false_eq_true, if_false, bind_eq_ok, require_eq_ok, pure_eq_ok] at hlast ⊢
        obtain ⟨_, -, rfl⟩ := hlast
        rfl
  · rintro ⟨total, nodes, has_next, cursor, new, hpage, hacc, rfl⟩
    -- The parts that are read are there, so what holds them is an object.
    have hflag : field (field (response_connection response) "pageInfo") "hasNextPage" ≠ .null := by
      intro hnull
      have hnext := hpage.has_next_eq
      rw [response_has_next, hnull] at hnext
      cases hnext
    have hinfo := get?_of_field (ne_null_of_field hflag)
    have hconnection := get?_of_field (ne_null_of_get? hinfo)
    have hnode := get?_of_field (ne_null_of_get? hconnection)
    have hdata := get?_of_field (ne_null_of_get? hnode)
    have hlength := length_of_mapM_eq_ok hacc.decoded
    have hroom : s.items.length + nodes.length ≤ total := by
      cases hnext : has_next with
      | true =>
        have := hacc.next hnext
        omega
      | false =>
        have := hacc.last hnext
        omega
    refine ⟨_, ⟨hacc.bytes, rfl⟩, _, ⟨hpage.errors, hdata, is_object_of_get? hnode⟩, _,
      ⟨hpage.project, hconnection, is_object_of_get? hinfo⟩, total, hpage.total_eq, (),
      hacc.limit, (), hacc.same, nodes, hpage.nodes_eq, (), hacc.size, (), hroom, _, hinfo,
      has_next, hpage.has_next_eq, (), ?_, cursor, ?_, (), hacc.fresh, _,
      ⟨new, hacc.decoded, rfl, hacc.distinct, hacc.unseen⟩, ?_⟩
    · exact hacc.progress.imp_left fun h => by simpa using h
    · rcases hpage.cursor_eq with ⟨hempty, hnone, hend⟩ | ⟨value, hne, hval, hsome, hend⟩
      · exact Or.inl ⟨hempty, hend, hnone⟩
      · exact Or.inr ⟨value, hne, hend, hval, hsome⟩
    · rw [PageState.outcome]
      cases hnext : has_next with
      | true =>
        simp only [if_true, bind_eq_ok, require_eq_ok, pure_eq_ok, List.length_append]
        exact ⟨(), hacc.next hnext, rfl⟩
      | false =>
        simp only [Bool.false_eq_true, if_false, bind_eq_ok, require_eq_ok, pure_eq_ok,
          List.length_append]
        exact ⟨(), hacc.last hnext, trivial⟩

/-! ## The subtraction -/

namespace Subtracts

theorem checked_data (response : Json) : Subtracts (checked_data response) := by
  refine .bind ?_ fun _ _ => .required _ _
  rw [no_errors]
  split <;> rintro ⟨⟩

theorem project_identity (project : Json) (owner : String) (number : Nat) :
    Subtracts (project_identity project owner number) :=
  .bind (.required _ _) fun _ _ => .bind (.require _ _) fun _ _ => .bind (.require _ _) fun _ _ =>
    .ok _

theorem page_end_cursor (page_info : Json) (nodes : List Json) :
    Subtracts (page_end_cursor page_info nodes) := by
  rw [Cli.page_end_cursor]
  split
  · split <;> rintro ⟨⟩
  · split <;> rintro ⟨⟩
  · rintro ⟨⟩

theorem take_nodes (page : Nat) (items : List ProjectItem) (nodes : List Json) :
    Subtracts (take_nodes page items nodes) := by
  induction nodes generalizing items with
  | nil => exact .ok items
  | cons node nodes ih =>
    rw [Cli.take_nodes, List.foldlM_cons]
    refine .bind (.bind ?_ fun _ _ => .bind (.require _ _) fun _ _ => .ok _) fun items' _ =>
      ih items'
    rw [decode_item]
    split <;> rintro ⟨⟩

theorem take_page (owner : String) (number : Nat) (project_id : String) (slices : List Nat)
    (page : Nat) (s : PageState) (response : Json) (h : s.budget ≤ MAX_JSON_BYTES) :
    Subtracts (take_page owner number project_id slices page s response) := by
  rw [Cli.take_page]
  refine .bind (.write_all slices h) fun _ _ => .bind (.checked_data response) fun _ _ => ?_
  refine .bind (.bind (.required _ _) fun _ _ => .bind (.project_identity _ _ _) fun _ _ =>
    .bind (.require _ _) fun _ _ => .required _ _) fun _ _ => ?_
  refine .bind (.required _ _) fun _ _ => .bind (.require _ _) fun _ _ =>
    .bind (.require _ _) fun _ _ => .bind (.required _ _) fun _ _ => .bind (.require _ _) fun _ _ =>
    .bind (.require _ _) fun _ _ => .bind (.required _ _) fun _ _ => .bind (.required _ _)
      fun _ _ =>
    .bind (.require _ _) fun _ _ => .bind (.page_end_cursor _ _) fun _ _ =>
    .bind (.require _ _) fun _ _ => .bind (.take_nodes _ _ _) fun _ _ => ?_
  split
  · exact .bind (.require _ _) fun _ _ => .ok _
  · exact .bind (.require _ _) fun _ _ => .ok _

end Subtracts

/-! ## The loop -/

/-- Every answer in the log is the callback's to the requests up to it. -/
def Recorded (fetch : Fetch) (log : List (Request × Except String Json)) : Prop :=
  ∀ before entry after, log = before ++ entry :: after →
    entry.2 = fetch (before.map Prod.fst ++ [entry.1])

theorem Recorded.nil (fetch : Fetch) : Recorded fetch [] := by
  intro before entry after h
  simp at h

theorem Recorded.append {fetch : Fetch} {log : List (Request × Except String Json)}
    (h : Recorded fetch log) (request : Request) :
    Recorded fetch (log ++ [(request, fetch (log.map Prod.fst ++ [request]))]) := by
  intro before entry after heq
  rcases List.eq_nil_or_concat after with rfl | ⟨rest, last, rfl⟩
  · -- the answer that was added
    obtain ⟨rfl, hlast⟩ := List.append_inj' heq rfl
    rw [List.cons.injEq] at hlast
    rw [← hlast.1]
  · have heq : log ++ [(request, fetch (log.map Prod.fst ++ [request]))]
        = (before ++ entry :: rest) ++ [last] := by simpa using heq
    exact h before entry rest (List.append_inj' heq rfl).1

section

variable (fetch : Fetch) (slices : Slices) (owner : String) (number : Nat)

/-- **One round of the loop.** Its four ends, with the log of the round appended: the request
failed, the page was refused, the page was the last one, or the loop goes on. -/
theorem discover_pages_succ (project_id : String) (left page : Nat) (s : PageState)
    (fetched : List (Request × Except String Json)) :
    ∃ answer, answer = fetch (fetched.map Prod.fst ++ [.project_items project_id s.cursor])
      ∧ ((∃ e, answer = .error e
          ∧ discover_pages fetch slices owner number project_id (left + 1) page s fetched
            = { fetched := fetched ++ [(.project_items project_id s.cursor, answer)]
                result := .error (.failed ("fetch GitHub Project items page " ++ toString page)) })
        ∨ (∃ response error, answer = .ok response
          ∧ take_page owner number project_id (slices response) page s response = .error error
          ∧ discover_pages fetch slices owner number project_id (left + 1) page s fetched
            = { fetched := fetched ++ [(.project_items project_id s.cursor, answer)]
                result := .error error })
        ∨ (∃ response envelope, answer = .ok response
          ∧ take_page owner number project_id (slices response) page s response
            = .ok (.done envelope)
          ∧ discover_pages fetch slices owner number project_id (left + 1) page s fetched
            = { fetched := fetched ++ [(.project_items project_id s.cursor, answer)]
                result := .ok envelope })
        ∨ (∃ response s', answer = .ok response
          ∧ take_page owner number project_id (slices response) page s response = .ok (.next s')
          ∧ discover_pages fetch slices owner number project_id (left + 1) page s fetched
            = discover_pages fetch slices owner number project_id left (page + 1) s'
                (fetched ++ [(.project_items project_id s.cursor, answer)]))) := by
  refine ⟨_, rfl, ?_⟩
  cases hanswer : fetch (fetched.map Prod.fst ++ [.project_items project_id s.cursor]) with
  | error e => exact Or.inl ⟨e, rfl, by simp only [discover_pages, hanswer]⟩
  | ok response =>
    right
    cases htake : take_page owner number project_id (slices response) page s response with
    | error error =>
        exact Or.inl ⟨response, error, rfl, htake, by simp only [discover_pages, hanswer, htake]⟩
    | ok outcome =>
      right
      cases outcome with
      | done envelope =>
        exact Or.inl ⟨response, envelope, rfl, htake, by simp only [discover_pages, hanswer, htake]⟩
      | next s' =>
        exact Or.inr ⟨response, s', rfl, htake, by simp only [discover_pages, hanswer, htake]⟩

/-- The state a page leaves behind, when another one follows. -/
theorem PageState.outcome_eq_next {s s' : PageState} {bytes total : Nat} {has_next : Bool}
    {new : List ProjectItem} {cursor : Option String}
    (h : PageOutcome.next s' = s.outcome bytes total has_next new cursor) :
    has_next = true ∧ s' = s.extend bytes total new cursor := by
  rw [PageState.outcome] at h
  split at h
  · injection h with h
    exact ⟨‹_›, h⟩
  · cases h

/-- The envelope a page completes, when it is the last one. -/
theorem PageState.outcome_eq_done {s : PageState} {envelope : ProjectItemsEnvelope}
    {bytes total : Nat} {has_next : Bool} {new : List ProjectItem} {cursor : Option String}
    (h : PageOutcome.done envelope = s.outcome bytes total has_next new cursor) :
    has_next = false ∧ envelope = { items := s.items ++ new, total_count := total } := by
  rw [PageState.outcome] at h
  split at h
  · cases h
  · injection h with h
    exact ⟨by simpa using ‹¬ has_next = true›, h⟩

/-- **The run of the loop.** It makes at most the requests that are left, logs the callback's
answers, and does not fail in the subtraction. -/
theorem discover_pages_run (project_id : String) (left page : Nat) (s : PageState)
    (fetched : List (Request × Except String Json)) (hbudget : s.budget ≤ MAX_JSON_BYTES)
    (hlog : Recorded fetch fetched) :
    (discover_pages fetch slices owner number project_id left page s fetched).fetched.length
        ≤ fetched.length + left
      ∧ Recorded fetch
        (discover_pages fetch slices owner number project_id left page s fetched).fetched
      ∧ Subtracts (discover_pages fetch slices owner number project_id left page s
        fetched).result := by
  induction left generalizing page s fetched with
  | zero => exact ⟨Nat.le_refl _, hlog, by rintro ⟨⟩⟩
  | succ left ih =>
    have hlog' := hlog.append (.project_items project_id s.cursor)
    have hlength : ∀ answer : Except String Json,
        (fetched ++ [(Request.project_items project_id s.cursor, answer)]).length
          = fetched.length + 1 := by simp
    obtain ⟨answer, hanswer, hround⟩ :=
      discover_pages_succ fetch slices owner number project_id left
      page s fetched
    rw [← hanswer] at hlog'
    rcases hround with ⟨e, -, heq⟩ | ⟨response, error, -, htake, heq⟩
      | ⟨response, envelope, -, -, heq⟩ | ⟨response, s', -, htake, heq⟩
    · rw [heq]
      refine ⟨?_, hlog', by rintro ⟨⟩⟩
      rw [hlength]
      omega
    · rw [heq]
      refine ⟨?_, hlog', ?_⟩
      · rw [hlength]
        omega
      · -- the page was refused, and not by the subtraction
        have hsub := Subtracts.take_page owner number project_id (slices response) page s response
          hbudget
        rw [htake] at hsub
        exact fun h => hsub (by injection h with h; rw [h])
    · rw [heq]
      refine ⟨?_, hlog', .ok envelope⟩
      rw [hlength]
      omega
    · obtain ⟨total, nodes, has_next, cursor, new, -, hacc, houtcome⟩ :=
        (take_page_eq_ok hbudget).mp htake
      obtain ⟨-, rfl⟩ := PageState.outcome_eq_next houtcome
      obtain ⟨hlen, hrec, hres⟩ := ih (page + 1) (s.extend _ total new cursor) _ hacc.bytes hlog'
      rw [heq]
      refine ⟨?_, hrec, hres⟩
      rw [hlength] at hlen
      omega

/-- Splitting a traversal of two lists of nodes. -/
theorem mapM_append_eq_ok {α β ε : Type} {f : α → Except ε β} {l₁ l₂ : List α} {m : List β} :
    (l₁ ++ l₂).mapM f = .ok m ↔
      ∃ m₁ m₂, l₁.mapM f = .ok m₁ ∧ l₂.mapM f = .ok m₂ ∧ m = m₁ ++ m₂ := by
  rw [List.mapM_append]
  simp only [bind_eq_ok, pure_eq_ok]
  constructor
  · rintro ⟨m₁, h₁, m₂, h₂, rfl⟩
    exact ⟨m₁, m₂, h₁, h₂, rfl⟩
  · rintro ⟨m₁, m₂, h₁, h₂, rfl⟩
    exact ⟨m₁, h₁, m₂, h₂, rfl⟩

/-- **What a run that returns has fetched.** The induction is on the pages left; the cursor of
the state is the end cursor of the page before. -/
theorem discover_pages_ok (project_id : String) (left page : Nat) (s : PageState)
    (fetched : List (Request × Except String Json)) (hbudget : s.budget ≤ MAX_JSON_BYTES)
    {envelope : ProjectItemsEnvelope}
    (h : (discover_pages fetch slices owner number project_id left page s fetched).result
      = .ok envelope) :
    ∃ responses new,
      (discover_pages fetch slices owner number project_id left page s fetched).fetched
          = fetched ++ (page_requests project_id s.cursor responses).zip (responses.map .ok)
        ∧ (responses.flatMap response_nodes).mapM parse_item = .ok new
        ∧ envelope.items = s.items ++ new
        ∧ ((s.items.map ProjectItem.id).Nodup → (envelope.items.map ProjectItem.id).Nodup)
        ∧ envelope.items.length = envelope.total_count
        ∧ (∀ response ∈ responses, response_total response = some envelope.total_count)
        ∧ ∀ previous ∈ s.total_count, previous = envelope.total_count := by
  induction left generalizing page s fetched with
  | zero => cases h
  | succ left ih =>
    obtain ⟨answer, -, hround⟩ := discover_pages_succ fetch slices owner number project_id left
      page s fetched
    -- what the page contributes, whichever way the loop leaves it
    have hadds : ∀ new : List ProjectItem, (new.map ProjectItem.id).Nodup →
        (∀ item ∈ new, item.id ∉ s.items.map ProjectItem.id) →
        (s.items.map ProjectItem.id).Nodup → ((s.items ++ new).map ProjectItem.id).Nodup := by
      intro new hdistinct hunseen hitems
      rw [List.map_append, List.nodup_append]
      refine ⟨hitems, hdistinct, ?_⟩
      rintro id hid _ hmem rfl
      obtain ⟨item, hitem, rfl⟩ := List.mem_map.mp hmem
      exact hunseen item hitem hid
    rcases hround with ⟨e, -, heq⟩ | ⟨response, error, -, htake, heq⟩
      | ⟨response, envelope', rfl, htake, heq⟩ | ⟨response, s', rfl, htake, heq⟩
    · rw [heq] at h
      cases h
    · rw [heq] at h
      cases h
    · obtain ⟨total, nodes, has_next, cursor, new, hpage, hacc, houtcome⟩ :=
        (take_page_eq_ok hbudget).mp htake
      obtain ⟨hlast, rfl⟩ := PageState.outcome_eq_done houtcome
      rw [heq] at h ⊢
      injection h with h
      subst h
      refine ⟨[response], new, rfl, ?_, rfl, hadds new hacc.distinct hacc.unseen, ?_, ?_, hacc.same⟩
      · rw [List.flatMap_singleton, hpage.response_nodes_eq]
        exact hacc.decoded
      · rw [List.length_append]
        exact hacc.last hlast
      · intro other hother
        rw [List.mem_singleton.mp hother]
        exact hpage.total_eq
    · obtain ⟨total, nodes, has_next, cursor, new, hpage, hacc, houtcome⟩ :=
        (take_page_eq_ok hbudget).mp htake
      obtain ⟨-, rfl⟩ := PageState.outcome_eq_next houtcome
      rw [heq] at h ⊢
      obtain ⟨responses, rest, hfetched, hdecoded, hitems, hnodup, hlength, htotal, hsame⟩ :=
        ih (page + 1) (s.extend _ total new cursor) _ hacc.bytes h
      have htotal' : total = envelope.total_count := hsame total rfl
      refine ⟨response :: responses, new ++ rest, ?_, ?_, ?_, ?_, hlength, ?_, ?_⟩
      · rw [hfetched, List.append_assoc, page_requests, hpage.response_cursor_eq]
        rfl
      · rw [List.flatMap_cons, hpage.response_nodes_eq]
        exact mapM_append_eq_ok.mpr ⟨new, rest, hacc.decoded, hdecoded, rfl⟩
      · rw [hitems, ← List.append_assoc]
        rfl
      · exact fun hs => hnodup (hadds new hacc.distinct hacc.unseen hs)
      · intro other hother
        rcases List.mem_cons.mp hother with rfl | hother
        · rw [hpage.total_eq, htotal']
        · exact htotal other hother
      · intro previous hprevious
        rw [hacc.same previous hprevious, htotal']

end

/-! ## Listings -/

section

variable (fetch : Fetch) (slices : Slices) (owner : String) (number : Nat) (project_id : String)

/-- **The rest of a listing.** The responses to come after the requests `asked`, from the state
`s` on: the callback answers with them, they are the pages of `new` with distinct cursors and
identifiers, and everything stays within the limits. -/
structure Remains (asked : List Request) (s : PageState) (responses : List Json)
    (new : List ProjectItem) (total : Nat) : Prop where
  some_page : responses ≠ []
  answers : ∀ before response after, responses = before ++ response :: after →
    fetch (asked ++ page_requests project_id s.cursor (before ++ [response])) = .ok response
  pages : ∀ before response after, responses = before ++ response :: after →
    ∃ cursor, PageOf owner number project_id response total (response_nodes response)
      (decide (after ≠ [])) cursor
  sizes : ∀ response ∈ responses, (response_nodes response).length ≤ PAGE_SIZE
  filled : (∀ response ∈ responses, response_nodes response ≠ []) ∨ responses.length = 1
  cursors : (s.cursors ++ responses.filterMap response_cursor).Nodup
  decoded : (responses.flatMap response_nodes).mapM parse_item = .ok new
  distinct : ((s.items ++ new).map ProjectItem.id).Nodup
  number_of : s.items.length + new.length = total
  limit : total ≤ MAX_ITEMS
  same : ∀ previous ∈ s.total_count, previous = total
  bytes : s.budget + (responses.flatMap slices).sum ≤ MAX_JSON_BYTES

end

variable {fetch : Fetch} {slices : Slices} {owner : String} {number : Nat} {project_id : String}

/-- The first page of the rest is accepted. -/
theorem Remains.accepts {asked : List Request} {s : PageState} {response : Json}
    {responses : List Json} {first rest : List ProjectItem} {total : Nat} {cursor : Option String}
    (h : Remains fetch slices owner number project_id asked s (response :: responses)
      (first ++ rest) total)
    (hpage : PageOf owner number project_id response total (response_nodes response)
      (decide (responses ≠ [])) cursor)
    (hfirst : (response_nodes response).mapM parse_item = .ok first)
    (hrest : (responses.flatMap response_nodes).mapM parse_item = .ok rest) :
    Accepts s (slices response).sum total (response_nodes response) (decide (responses ≠ []))
      cursor first := by
  have hbytes := h.bytes
  rw [List.flatMap_cons, List.sum_append] at hbytes
  have hlength := h.number_of
  rw [List.length_append] at hlength
  have hdistinct := h.distinct
  rw [List.map_append, List.map_append, List.nodup_append, List.nodup_append] at hdistinct
  -- a page with another one after it is not the only one
  have hfilled : responses ≠ [] → ∀ r ∈ response :: responses, response_nodes r ≠ [] := by
    intro hne
    rcases h.filled with hall | hone
    · exact hall
    · exact absurd (List.length_eq_zero_iff.mp (by simpa using hone)) hne
  refine ⟨by omega, h.limit, h.same, h.sizes response List.mem_cons_self, ?_, ?_, hfirst,
    hdistinct.2.1.1, ?_, ?_, ?_⟩
  · by_cases hne : responses = []
    · exact Or.inr (by simpa using hne)
    · exact Or.inl (hfilled hne response List.mem_cons_self)
  · intro next hnext hmem
    have hcursors := h.cursors
    rw [List.nodup_append] at hcursors
    have hin : next ∈ (response :: responses).filterMap response_cursor :=
      List.mem_filterMap.mpr
        ⟨response, List.mem_cons_self, by rw [hpage.response_cursor_eq]; exact hnext⟩
    exact hcursors.2.2 next hmem next hin rfl
  · intro item hitem hmem
    exact hdistinct.2.2 item.id hmem item.id
      (List.mem_append_left _ (List.mem_map_of_mem hitem)) rfl
  · intro hnext
    have hne : responses ≠ [] := by simpa using hnext
    obtain ⟨other, tail, rfl⟩ := List.exists_cons_of_ne_nil hne
    have hnodes := hfilled hne other (List.mem_cons_of_mem _ List.mem_cons_self)
    have hcount := length_of_mapM_eq_ok hrest
    rw [List.flatMap_cons, List.length_append] at hcount
    have hpos := List.length_pos_iff.mpr hnodes
    omega
  · intro hlast
    have hnil : responses = [] := by simpa using hlast
    rw [hnil, List.flatMap_nil] at hrest
    have hcount := length_of_mapM_eq_ok hrest
    rw [List.length_nil] at hcount
    omega

/-- The rest behind an accepted page, from the state the page leaves behind. -/
theorem Remains.tail {asked : List Request} {s : PageState} {response : Json}
    {responses : List Json} {first rest : List ProjectItem} {total : Nat} {cursor : Option String}
    (h : Remains fetch slices owner number project_id asked s (response :: responses)
      (first ++ rest) total)
    (hne : responses ≠ [])
    (hpage : PageOf owner number project_id response total (response_nodes response)
      (decide (responses ≠ [])) cursor)
    (hrest : (responses.flatMap response_nodes).mapM parse_item = .ok rest) :
    Remains fetch slices owner number project_id (asked ++ [.project_items project_id s.cursor])
      (s.extend (slices response).sum total first cursor) responses rest total where
  some_page := hne
  answers := by
    intro before other after heq
    have hanswer := h.answers (response :: before) other after (by rw [heq]; rfl)
    rw [List.cons_append, page_requests, hpage.response_cursor_eq] at hanswer
    rw [List.append_assoc]
    exact hanswer
  pages := fun before other after heq => h.pages (response :: before) other after (by rw [heq]; rfl)
  sizes := fun other hother => h.sizes other (List.mem_cons_of_mem _ hother)
  filled := by
    rcases h.filled with hall | hone
    · exact Or.inl fun other hother => hall other (List.mem_cons_of_mem _ hother)
    · exact absurd (List.length_eq_zero_iff.mp (by simpa using hone)) hne
  cursors := by
    have hcursors := h.cursors
    rw [List.filterMap_cons] at hcursors
    cases hcursor : cursor with
    | none =>
      rw [hpage.response_cursor_eq, hcursor] at hcursors
      simpa [PageState.extend] using hcursors
    | some next =>
      rw [hpage.response_cursor_eq, hcursor] at hcursors
      simpa [PageState.extend] using hcursors
  decoded := hrest
  distinct := by
    rw [PageState.extend, List.append_assoc]
    exact h.distinct
  number_of := by
    have hlength := h.number_of
    rw [List.length_append] at hlength
    rw [PageState.extend, List.length_append]
    omega
  limit := h.limit
  same := by
    rintro previous ⟨⟩
    rfl
  bytes := by
    have hbytes := h.bytes
    rw [List.flatMap_cons, List.sum_append] at hbytes
    simp only [PageState.extend]
    omega

/-- **A listing is read to its end.** The induction is on the responses to come. -/
theorem discover_pages_of_listing {asked : List Request} {s : PageState} {responses : List Json}
    {new : List ProjectItem} {total : Nat}
    (h : Remains fetch slices owner number project_id asked s responses new total)
    (left page : Nat) (fetched : List (Request × Except String Json))
    (hleft : responses.length ≤ left) (hasked : fetched.map Prod.fst = asked) :
    (discover_pages fetch slices owner number project_id left page s fetched).result
      = .ok { items := s.items ++ new, total_count := total } := by
  induction responses generalizing asked s new left page fetched with
  | nil => exact absurd rfl h.some_page
  | cons response responses ih =>
    obtain ⟨left, rfl⟩ : ∃ n, left = n + 1 := ⟨left - 1, by rw [List.length_cons] at hleft; omega⟩
    have hdecoded := h.decoded
    rw [List.flatMap_cons] at hdecoded
    obtain ⟨first, rest, hfirst, hrest, rfl⟩ := mapM_append_eq_ok.mp hdecoded
    obtain ⟨cursor, hpage⟩ := h.pages [] response responses rfl
    have hanswer : fetch (fetched.map Prod.fst ++ [.project_items project_id s.cursor])
        = .ok response := by
      rw [hasked]
      exact h.answers [] response responses rfl
    have hbytes := h.bytes
    have htake := (@take_page_eq_ok owner number project_id (slices response) page s response _
      (by omega)).mpr ⟨total, _, _, cursor, first, hpage, h.accepts hpage hfirst hrest, rfl⟩
    by_cases hne : responses = []
    · -- the last page
      subst hne
      rw [List.flatMap_nil] at hrest
      obtain rfl := List.length_eq_zero_iff.mp (length_of_mapM_eq_ok hrest)
      have hdone : s.outcome (slices response).sum total (decide (([] : List Json) ≠ [])) first
          cursor
          = .done { items := s.items ++ first, total_count := total } := rfl
      rw [hdone] at htake
      simp only [discover_pages, hanswer, htake, List.append_nil]
    · have hnext : s.outcome (slices response).sum total (decide (responses ≠ [])) first cursor
          = .next (s.extend (slices response).sum total first cursor) := by
        rw [PageState.outcome, decide_eq_true hne, if_pos rfl]
      rw [hnext] at htake
      simp only [discover_pages, hanswer, htake]
      rw [ih (h.tail hne hpage hrest) left (page + 1) _ (by rw [List.length_cons] at hleft; omega)
        (by rw [List.map_append, hasked]; rfl)]
      rw [PageState.extend, List.append_assoc]

/-! ## Discovery -/

/-- The project a resolution response is about. -/
def resolved_project (resolution : Json) : Json :=
  field (field (field resolution "data") "repositoryOwner") "projectV2"

theorem take_resolution_eq_ok {owner : String} {number : Nat} {slices : List Nat} {response : Json}
    {budget : Nat} {project_id : String} :
    take_resolution owner number slices response = .ok (budget, project_id) ↔
      (response.get? "errors" = none ∨ response.get? "errors" = some (.arr []))
        ∧ Identified (resolved_project response) owner number project_id
        ∧ slices.sum ≤ MAX_JSON_BYTES ∧ budget = slices.sum := by
  rw [take_resolution]
  simp only [bind_eq_ok, required_eq_ok, pure_eq_ok, write_all_eq_ok (Nat.zero_le MAX_JSON_BYTES),
    checked_data_eq_ok, project_identity_eq_ok, Option.filter_eq_some_iff, Option.bind_eq_some_iff,
    Nat.zero_add, Prod.mk.injEq]
  constructor
  · rintro ⟨_, ⟨hbytes, rfl⟩, data, ⟨herrors, hdata, -⟩, project, ⟨⟨holder, hholder, hproject⟩, -⟩,
      id, hid, rfl, rfl⟩
    refine ⟨herrors, ?_, hbytes, rfl⟩
    rwa [resolved_project, field_of_get? hdata, field_of_get? hholder, field_of_get? hproject]
  · rintro ⟨herrors, hid, hbytes, rfl⟩
    have hget : (resolved_project response).get? "id" ≠ none := by
      intro hnone
      have hid := hid.id
      rw [Json.text?, hnone] at hid
      cases hid
    obtain ⟨v, hv⟩ := Option.ne_none_iff_exists'.mp hget
    have hproject := get?_of_field (ne_null_of_get? hv)
    have hholder := get?_of_field (ne_null_of_get? hproject)
    have hdata := get?_of_field (ne_null_of_get? hholder)
    exact ⟨_, ⟨hbytes, rfl⟩, _, ⟨herrors, hdata, is_object_of_get? hholder⟩, _,
      ⟨⟨_, hholder, hproject⟩, is_object_of_get? hv⟩, project_id, hid, rfl, rfl⟩

theorem valid_arguments_eq_ok {owner : String} {number : Nat} {u : Unit} :
    valid_arguments owner number = .ok u ↔
      (owner ≠ "" ∧ owner.toList.any is_whitespace = false) ∧ 0 < number ∧ number ≤ 2 ^ 31 - 1 := by
  rw [valid_arguments]
  simp only [bind_eq_ok, require_eq_ok, exists_const]

theorem Subtracts.take_resolution (owner : String) (number : Nat) (slices : List Nat)
    (response : Json) : Subtracts (take_resolution owner number slices response) :=
  .bind (.write_all slices (Nat.zero_le MAX_JSON_BYTES)) fun _ _ =>
    .bind (.checked_data response) fun _ _ => .bind (.required _ _) fun _ _ =>
    .bind (.project_identity _ _ _) fun _ _ => .ok _

/-- **A complete discovery.** What it made and got is the resolution of the project and then the
pages `responses`, each requested with the end cursor of the one before; the items are theirs in
order, with distinct identifiers, as many as every one of the pages said. -/
structure Complete (owner : String) (number : Nat) (d : Discovery)
    (envelope : ProjectItemsEnvelope) (project_id : String) (resolution : Json)
    (responses : List Json) : Prop where
  requested : d.fetched = (.resolve_project owner number, .ok resolution)
    :: (page_requests project_id none responses).zip (responses.map .ok)
  identified : Identified (resolved_project resolution) owner number project_id
  items : (responses.flatMap response_nodes).mapM parse_item = .ok envelope.items
  distinct : (envelope.items.map ProjectItem.id).Nodup
  counted : envelope.items.length = envelope.total_count
  unchanged : ∀ response ∈ responses, response_total response = some envelope.total_count

/-- **A faithful listing within the limits.** The callback resolves the project and answers the
requests for its pages with `responses`, which list `items`. -/
structure Listing (fetch : Fetch) (slices : Slices) (owner : String) (number : Nat)
    (project_id : String) (resolution : Json) (responses : List Json) (items : List ProjectItem) :
    Prop where
  owner_valid : owner ≠ "" ∧ owner.toList.any is_whitespace = false
  number_valid : 0 < number ∧ number ≤ 2 ^ 31 - 1
  no_errors : resolution.get? "errors" = none ∨ resolution.get? "errors" = some (.arr [])
  identified : Identified (resolved_project resolution) owner number project_id
  resolves : fetch [.resolve_project owner number] = .ok resolution
  answers : ∀ before response after, responses = before ++ response :: after →
    fetch (.resolve_project owner number :: page_requests project_id none (before ++ [response]))
      = .ok response
  pages : ∀ before response after, responses = before ++ response :: after →
    ∃ cursor, PageOf owner number project_id response items.length (response_nodes response)
      (decide (after ≠ [])) cursor
  some_page : responses ≠ []
  page_limit : responses.length ≤ MAX_PAGES
  sizes : ∀ response ∈ responses, (response_nodes response).length ≤ PAGE_SIZE
  filled : (∀ response ∈ responses, response_nodes response ≠ []) ∨ responses.length = 1
  cursors : (responses.filterMap response_cursor).Nodup
  decoded : (responses.flatMap response_nodes).mapM parse_item = .ok items
  distinct : (items.map ProjectItem.id).Nodup
  item_limit : items.length ≤ MAX_ITEMS
  byte_limit : ((resolution :: responses).flatMap slices).sum ≤ MAX_JSON_BYTES

/-- A listing is what remains after the resolution. -/
theorem Listing.remains {resolution : Json} {responses : List Json} {items : List ProjectItem}
    (h : Listing fetch slices owner number project_id resolution responses items) :
    Remains fetch slices owner number project_id [.resolve_project owner number]
      { budget := (slices resolution).sum } responses items items.length where
  some_page := h.some_page
  answers := h.answers
  pages := h.pages
  sizes := h.sizes
  filled := h.filled
  cursors := h.cursors
  decoded := h.decoded
  distinct := h.distinct
  number_of := Nat.zero_add _
  limit := h.item_limit
  same := by rintro previous ⟨⟩
  bytes := by
    have hbytes := h.byte_limit
    rwa [List.flatMap_cons, List.sum_append] at hbytes

/-- **Discovery.** Whatever the callback answers, at most 101 requests are made, each answer is
the callback's to the requests so far, and the subtraction of the byte budget does not underflow.
A discovery that returns is complete; and a faithful listing within the limits is returned
whole. -/
theorem discover_complete :
    (∀ (fetch : Fetch) (slices : Slices) (owner : String) (number : Nat),
      (discover fetch slices owner number).fetched.length ≤ 101
        ∧ Recorded fetch (discover fetch slices owner number).fetched
        ∧ (discover fetch slices owner number).result ≠ .error .subtract_overflow
        ∧ ∀ envelope, (discover fetch slices owner number).result = .ok envelope →
            ∃ project_id resolution responses,
              Complete owner number (discover fetch slices owner number) envelope project_id
                resolution responses)
      ∧ ∀ (fetch : Fetch) (slices : Slices) (owner : String) (number : Nat) (project_id : String)
          (resolution : Json) (responses : List Json) (items : List ProjectItem),
          Listing fetch slices owner number project_id resolution responses items →
            (discover fetch slices owner number).result
              = .ok { items, total_count := items.length } := by
  constructor
  · intro fetch slices owner number
    rw [discover]
    cases hvalid : valid_arguments owner number with
    | error e =>
      refine ⟨Nat.zero_le 101, .nil fetch, ?_, by rintro envelope ⟨⟩⟩
      have hsub : Subtracts (valid_arguments owner number) :=
        .bind (.require _ _) fun _ _ => .require _ _
      rw [hvalid] at hsub
      exact fun h => hsub (by injection h with h; rw [h])
    | ok u =>
      have hone : 1 ≤ 101 := by decide
      have hlog := (Recorded.nil fetch).append (.resolve_project owner number)
      simp only [List.map_nil, List.nil_append] at hlog
      simp only
      cases hanswer : fetch [.resolve_project owner number] with
      | error e =>
        rw [hanswer] at hlog
        exact ⟨hone, hlog, by rintro ⟨⟩, by rintro envelope ⟨⟩⟩
      | ok resolution =>
        rw [hanswer] at hlog
        have hsub := Subtracts.take_resolution owner number (slices resolution) resolution
        simp only
        cases htake : take_resolution owner number (slices resolution) resolution with
        | error e =>
          rw [htake] at hsub
          exact ⟨hone, hlog, fun h => hsub (by injection h with h; rw [h]),
            by rintro envelope ⟨⟩⟩
        | ok resolved =>
          obtain ⟨budget, project_id⟩ := resolved
          obtain ⟨-, hid, hbytes, rfl⟩ := take_resolution_eq_ok.mp htake
          obtain ⟨hlen, hrec, hres⟩ := discover_pages_run fetch slices owner number project_id
            MAX_PAGES 1 { budget := (slices resolution).sum } _ hbytes hlog
          refine ⟨hlen, hrec, hres, ?_⟩
          intro envelope henvelope
          obtain ⟨responses, new, hfetched, hdecoded, hitems, hnodup, hlength, htotal, -⟩ :=
            discover_pages_ok fetch slices owner number project_id MAX_PAGES 1 _ _ hbytes henvelope
          have hitems : envelope.items = new := hitems
          refine ⟨project_id, resolution, responses, hfetched, hid, ?_, ?_, hlength, htotal⟩
          · rw [hitems]
            exact hdecoded
          · exact hnodup List.nodup_nil
  · intro fetch slices owner number project_id resolution responses items h
    have hbytes := h.byte_limit
    rw [List.flatMap_cons, List.sum_append] at hbytes
    have htake : take_resolution owner number (slices resolution) resolution
        = .ok ((slices resolution).sum, project_id) :=
      take_resolution_eq_ok.mpr ⟨h.no_errors, h.identified, by omega, rfl⟩
    have hvalid : valid_arguments owner number = .ok () :=
      valid_arguments_eq_ok.mpr ⟨h.owner_valid, h.number_valid⟩
    simp only [discover, hvalid, h.resolves, htake]
    exact discover_pages_of_listing h.remains MAX_PAGES 1 _ h.page_limit rfl

/-! ## A listing of two pages -/

/-- The identity of a project, with the fields of `rest`. -/
def listed_project (rest : List (String × Json)) : Json :=
  .obj ([("id", .str "project:/A+b=="), ("number", .int 7),
    ("owner", .obj [("login", .str "Example")])]
    ++ rest)

/-- A draft item: its content is not an issue. -/
def listed_node (id : String) : Json :=
  .obj [("id", .str id), ("isArchived", .bool false), ("fieldValueByName", .null),
    ("content", .obj [("__typename", .str "DraftIssue")])]

/-- A page of one item out of two. -/
def listed_page (id cursor : String) (has_next : Bool) : Json :=
  .obj [("data", .obj [("node", listed_project [("items", .obj [("totalCount", .int 2),
    ("nodes", .arr [listed_node id]),
    ("pageInfo", .obj [("endCursor", .str cursor), ("hasNextPage", .bool has_next)])])])])]

def listed_resolution : Json :=
  .obj [("data", .obj [("repositoryOwner", .obj [("projectV2", listed_project [])])])]

mutual

/-- The lengths of the slices of a value whose strings need no escapes. -/
def listed_slices : Json → List Nat
  | .null => [4]
  | .bool b => [if b = true then 4 else 5]
  | .int n => [(toString n).length]
  | .float text => [byteLen text]
  | .str text => [1, byteLen text, 1]
  | .arr items => 1 :: item_slices [] items ++ [1]
  | .obj fields => 1 :: field_slices [] fields ++ [1]

/-- The items after a comma, which the first one does not have. -/
def item_slices (comma : List Nat) : List Json → List Nat
  | [] => []
  | item :: rest => comma ++ listed_slices item ++ item_slices [1] rest

def field_slices (comma : List Nat) : List (String × Json) → List Nat
  | [] => []
  | (key, value) :: rest =>
    comma ++ [1, byteLen key, 1, 1] ++ listed_slices value ++ field_slices [1] rest

end

/-- A callback that serves the two pages. -/
def listed_fetch : Fetch := fun requests =>
  match requests.getLast? with
  | some (.resolve_project _ _) => .ok listed_resolution
  | some (.project_items _ none) => .ok (listed_page "item 1" "after 1" true)
  | some (.project_items _ (some "after 1")) => .ok (listed_page "item 2" "after 2" false)
  | _ => .error "no such page"

def listed_items : List ProjectItem :=
  [{ id := "item 1", status := "", content := { kind := "DraftIssue" } },
   { id := "item 2", status := "", content := { kind := "DraftIssue" } }]

theorem listed_project_identified (rest : List (String × Json)) :
    Identified (listed_project rest) "Example" 7 "project:/A+b==" := by
  have howner : eq_ignore_ascii_case "Example" "Example" = true := by decide
  exact ⟨rfl, by decide, rfl, howner⟩

theorem listed_page_of (id cursor : String) (has_next : Bool) (h : cursor ≠ "") :
    PageOf "Example" 7 "project:/A+b==" (listed_page id cursor has_next) 2
      (response_nodes (listed_page id cursor has_next)) has_next (some cursor) :=
  ⟨Or.inl rfl, listed_project_identified _, rfl, rfl, rfl,
    Or.inr ⟨cursor, List.cons_ne_nil _ _, h, rfl, rfl⟩⟩

/-- Splitting a list of two. -/
theorem eq_of_pair_eq_append {α : Type} {a b x : α} {before after : List α}
    (h : [a, b] = before ++ x :: after) :
    (before = [] ∧ x = a ∧ after = [b]) ∨ (before = [a] ∧ x = b ∧ after = []) := by
  match before, h with
  | [], h =>
    injection h with ha hb
    exact Or.inl ⟨rfl, ha.symm, hb.symm⟩
  | [_], h =>
    injection h with ha h
    injection h with hb h
    exact Or.inr ⟨by rw [ha], hb.symm, h.symm⟩
  | _ :: _ :: before, h => simp at h

theorem listed_listing :
    Listing listed_fetch listed_slices "Example" 7 "project:/A+b==" listed_resolution
      [listed_page "item 1" "after 1" true, listed_page "item 2" "after 2" false] listed_items where
  owner_valid := by decide
  number_valid := by decide
  no_errors := Or.inl rfl
  identified := listed_project_identified []
  resolves := rfl
  answers := by
    intro before response after heq
    rcases eq_of_pair_eq_append heq with ⟨rfl, rfl, -⟩ | ⟨rfl, rfl, -⟩ <;> rfl
  pages := by
    intro before response after heq
    rcases eq_of_pair_eq_append heq with ⟨-, rfl, rfl⟩ | ⟨-, rfl, rfl⟩
    · exact ⟨_, listed_page_of "item 1" "after 1" true (by decide)⟩
    · exact ⟨_, listed_page_of "item 2" "after 2" false (by decide)⟩
  some_page := List.cons_ne_nil _ _
  page_limit := by decide
  sizes := by
    intro response hmem
    simp only [List.mem_cons, List.not_mem_nil, or_false] at hmem
    rcases hmem with rfl | rfl <;> decide
  filled := by
    left
    intro response hmem
    simp only [List.mem_cons, List.not_mem_nil, or_false] at hmem
    rcases hmem with rfl | rfl <;> exact List.cons_ne_nil _ _
  cursors := by decide
  decoded := rfl
  distinct := by decide
  item_limit := by decide
  byte_limit := by decide +kernel

/-- The two pages are read, in three requests. -/
theorem discover_complete_two_pages :
    (discover listed_fetch listed_slices "Example" 7).result
        = .ok { items := listed_items, total_count := 2 }
      ∧ (discover listed_fetch listed_slices "Example" 7).fetched.length = 3 :=
  ⟨discover_complete.2 _ _ _ _ _ _ _ _ listed_listing, by decide +kernel⟩

end Crony.Cli
