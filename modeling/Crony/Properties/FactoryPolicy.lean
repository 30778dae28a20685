/-
Factory plans obey their policy.

What a policy allows is read off it as a record of limits; the validator of
`Store.FactoryPolicy` passes exactly the plans that lie within them. Lying within the limits
is kept by narrowing, and it does not depend on when it is asked: a plan that passed before the
claim carries the source of the claim already, so it passes again as it is when the mission is
made. The budget of a single task is not among the limits; the planner, who made the plan, holds
the budgets of the tasks against the budget of the plan.
-/
import Mathlib.Algebra.Order.BigOperators.Group.List
import Crony.Properties.Binding
import Crony.Properties.Contracts
import Crony.Properties.Outcomes
import Crony.Properties.Planning
import Crony.Store.FactoryPolicy

set_option autoImplicit false

open Crony.Lib

namespace Crony.Store

/-! ## Rejecting the first offender -/

/-- No element is an offender. -/
theorem reject_find_iff {α : Type} {l : List α} {offends : α → Bool} {error : α → String}
    {u : Unit} :
    reject ((l.find? offends).map error) = .ok u ↔ ∀ x ∈ l, offends x = false := by
  rw [reject_eq_ok, Option.map_eq_none_iff, List.find?_eq_none]
  simp only [Bool.not_eq_true]

/-- No part of an element is an offender. -/
theorem reject_find_part_iff {α β : Type} {l : List α} {parts : α → List β} {offends : α → β → Bool}
    {error : α → β → String} {u : Unit} :
    reject (l.findSome? fun x => ((parts x).find? (offends x)).map (error x)) = .ok u
      ↔ ∀ x ∈ l, ∀ y ∈ parts x, offends x y = false := by
  rw [reject_eq_ok, List.findSome?_eq_none_iff]
  simp only [Option.map_eq_none_iff, List.find?_eq_none, Bool.not_eq_true]

/-! ## What a policy says -/

/-- The policy lists the texts under the key. -/
structure Listed (policy : Json) (key : String) (values : List String) : Prop where
  field : policy.get? key = some (.arr (values.map .str))
  length : values.length ≤ 64
  entries : ∀ value ∈ values, trim value ≠ "" ∧ byteLen value ≤ 500

/-- Reading a list of texts gives back the texts. -/
theorem mapM_texts_iff {items : List Json} {values : List String} {error : String}
    {p : String → Bool} :
    (items.mapM fun value => context (value.as_str.filter p) error) = .ok values
      ↔ items = values.map .str ∧ ∀ value ∈ values, p value = true := by
  induction items generalizing values with
  | nil =>
    rw [List.mapM_nil, pure_eq_ok]
    constructor
    · rintro rfl
      exact ⟨rfl, fun value hvalue => absurd hvalue List.not_mem_nil⟩
    · rintro ⟨hvalues, -⟩
      exact (List.map_eq_nil_iff.mp hvalues.symm).symm
  | cons item items ih =>
    have hitem : ∀ text, item.as_str = some text ↔ item = .str text := by
      intro text
      cases item <;> simp [Json.as_str]
    simp only [List.mapM_cons, bind_eq_ok, context_eq_ok, pure_eq_ok, Option.filter_eq_some_iff, ih,
      hitem]
    constructor
    · rintro ⟨text, ⟨rfl, htext⟩, texts, ⟨rfl, htexts⟩, rfl⟩
      exact ⟨rfl, List.forall_mem_cons.mpr ⟨htext, htexts⟩⟩
    · rintro ⟨hvalues, hall⟩
      rcases values with _ | ⟨text, texts⟩
      · cases hvalues
      · obtain ⟨rfl, rfl⟩ := List.cons.inj hvalues
        obtain ⟨htext, htexts⟩ := List.forall_mem_cons.mp hall
        exact ⟨text, ⟨rfl, htext⟩, texts, ⟨rfl, htexts⟩, rfl⟩

theorem factory_policy_string_list_iff {policy : Json} {key : String} {allow_empty : Bool}
    {values : List String} :
    factory_policy_string_list policy key allow_empty = .ok values
      ↔ Listed policy key values ∧ (allow_empty = false → values ≠ []) := by
  have harray : ∀ items, (policy.get? key).bind Json.as_array = some items
      ↔ policy.get? key = some (.arr items) := by
    intro items
    rw [Option.bind_eq_some_iff]
    constructor
    · rintro ⟨value, hvalue, hitems⟩
      cases value <;> simp_all [Json.as_array]
    · exact fun h => ⟨_, h, rfl⟩
  simp only [factory_policy_string_list, bind_eq_ok, context_eq_ok, ensure_eq_ok, harray,
    mapM_texts_iff]
  constructor
  · rintro ⟨items, hfield, _, hlength, rfl, hentries⟩
    rw [List.length_map] at hlength
    refine ⟨⟨hfield, by omega, fun value hvalue => by simpa using hentries value hvalue⟩, ?_⟩
    rintro hempty rfl
    exact hlength (Or.inl ⟨hempty, rfl⟩)
  · rintro ⟨⟨hfield, hlength, hentries⟩, hempty⟩
    refine ⟨_, hfield, (), ?_, rfl, fun value hvalue => by simpa using hentries value hvalue⟩
    rw [List.length_map]
    rintro (⟨hnot, hnil⟩ | hlong)
    · exact hempty hnot (List.eq_nil_of_length_eq_zero hnil)
    · omega

theorem factory_policy_string_array_iff {policy : Json} {key : String} {values : List String} :
    factory_policy_string_array policy key = .ok values ↔ Listed policy key values
      ∧ values ≠ [] := by
  rw [factory_policy_string_array, factory_policy_string_list_iff]
  simp only [true_imp_iff]

/-- What a factory policy allows. -/
@[ext] structure PolicyLimits where
  max_task_attempts : Option Int
  workspace_connection_id : Option Uuid
  repository_allowlist : List String
  source_base_ref : String
  source_base_commit : String
  adapter_allowlist : List String
  strategy_allowlist : List String
  model : Option String
  reasoning_effort : Option String
  write_scope : List String
  allowed_tools : List String
  prohibited_actions : List String
  secret_ids : List String
  verification_policy : Option VerificationPolicy
  budget_tokens : Int
  budget_cost_microusd : Int
  deriving DecidableEq

section

variable (from_value : Json → Option VerificationPolicy)

/-- The verification policy of the delivery, where the policy has one; it has to decode. -/
def delivery_policy (policy : Json) : Option (Option VerificationPolicy) :=
  match (policy.get? "verification_policy").filter fun value => !value.isNull with
  | some value => (from_value value).map some
  | none => some none

/-- The policy says these limits. -/
structure PolicyLimits.Read (policy : Json) (limits : PolicyLimits) : Prop where
  schema_version : policy.i64? "schema_version" = some 1
  source_of_truth : policy.text? "source_of_truth" = some "github_project"
  auto_merge : policy.bool? "auto_merge" = some false
  verification_required : policy.bool? "verification_required" = some true
  max_task_attempts : factory_max_task_attempts policy = .ok limits.max_task_attempts
  workspace_connection_id :
    factory_workspace_connection_id policy = .ok limits.workspace_connection_id
  repository_allowlist : Listed policy "repository_allowlist" limits.repository_allowlist
    ∧ limits.repository_allowlist ≠ []
  source_base_ref : factory_policy_required_string policy "source_base_ref" 240
    = .ok limits.source_base_ref
  source_base_commit : ∃ text, factory_policy_required_string policy "source_base_commit" 64
    = .ok text
    ∧ to_ascii_lowercase text = limits.source_base_commit
  valid_commit : valid_base_commit limits.source_base_commit = true
  adapter_allowlist : Listed policy "adapter_allowlist" limits.adapter_allowlist
    ∧ limits.adapter_allowlist ≠ []
  strategy_allowlist : Listed policy "strategy_allowlist" limits.strategy_allowlist
    ∧ limits.strategy_allowlist ≠ []
  model : factory_policy_optional_string policy "model" = .ok limits.model
  reasoning_effort : factory_policy_optional_string policy "reasoning_effort"
    = .ok limits.reasoning_effort
  write_scope : Listed policy "write_scope" limits.write_scope ∧ limits.write_scope ≠ []
  allowed_tools : Listed policy "allowed_tools" limits.allowed_tools ∧ limits.allowed_tools ≠ []
  prohibited_actions : Listed policy "prohibited_actions" limits.prohibited_actions
    ∧ limits.prohibited_actions ≠ []
  secret_ids : Listed policy "secret_ids" limits.secret_ids
  verification_policy : delivery_policy from_value policy = some limits.verification_policy
  budget_tokens : policy.i64? "budget_tokens" = some limits.budget_tokens ∧ 0 < limits.budget_tokens
  budget_cost_microusd : policy.i64? "budget_cost_microusd" = some limits.budget_cost_microusd
    ∧ 0 < limits.budget_cost_microusd

end

/-- The attempts of a task are within the allowance; without one the ceiling is two. -/
structure AttemptsWithin (allowed : Option Int) (max_attempts : Int) : Prop where
  positive : 1 ≤ max_attempts
  limit : max_attempts ≤ Server.MAX_TASK_ATTEMPTS
  ceiling : max_attempts ≤ allowed.getD 2
  exact : ∀ expected ∈ allowed, max_attempts = expected

/-- The outcome of the key rests on the work of a provider. -/
def ProviderBacked (plan : Server.TaskGraphPlan) (key : String) : Prop :=
  ∃ reached task, Relation.ReflTransGen plan.DependsOn key reached
    ∧ plan.first_task reached = some task ∧ task.required_adapter ≠ "fake-process"

/-- No task of the plan depends on the key. -/
def TerminalIn (plan : Server.TaskGraphPlan) (key : String) : Prop :=
  ∀ task ∈ plan.tasks, key ∉ task.depends_on

/-- **A task lies within the limits.** Its verification is bounded where it is an outcome. -/
structure TaskWithin (limits : PolicyLimits) (source_repository : String)
    (plan : Server.TaskGraphPlan)
    (task : Server.PlannedTask) : Prop where
  attempts : AttemptsWithin limits.max_task_attempts task.max_attempts
  connection : task.contract.workspace_connection_id = limits.workspace_connection_id
  repository : task.contract.source_repository = some source_repository
  base_ref : task.contract.source_base_ref = some limits.source_base_ref
  base_commit : task.contract.source_base_commit = some limits.source_base_commit
  adapter : task.required_adapter ∈ limits.adapter_allowlist
  model : task.contract.model = limits.model
  reasoning_effort : task.contract.reasoning_effort = limits.reasoning_effort
  write_scope : ∀ scope ∈ task.contract.write_scope, write_scope_is_valid scope = true
    ∧ ∃ allowed ∈ limits.write_scope, write_scope_is_valid allowed = true
      ∧ Grants scope ⊆ Grants allowed
  tools : ∀ tool ∈ task.contract.allowed_tools, tool ∈ limits.allowed_tools
  prohibitions : ∀ action ∈ limits.prohibited_actions, action ∈ task.contract.prohibited_actions
  secrets : ∀ secret ∈ task.contract.secret_refs, uuid_text secret.secret_id ∈ limits.secret_ids
  checks : task.verification_policy.checks ≠ []
  delivery : TerminalIn plan task.key → ∀ expected ∈ limits.verification_policy,
    task.verification_policy = expected
  review : TerminalIn plan task.key → ProviderBacked plan task.key →
    task.verification_policy.manual_gate.isSome = true

/-- **A plan lies within the limits**, for the repository of the claim. -/
structure PlanWithin (limits : PolicyLimits) (source_repository : String)
    (plan : Server.TaskGraphPlan) :
    Prop where
  repository : source_repository ∈ limits.repository_allowlist
  strategy : plan.strategy ∈ limits.strategy_allowlist
  tasks : ∀ task ∈ plan.tasks, TaskWithin limits source_repository plan task
  budget_tokens : plan.budget_tokens ≤ limits.budget_tokens
  budget_cost_microusd : plan.budget_cost_microusd ≤ limits.budget_cost_microusd

/-! ## The parts of the validator -/

variable {from_value : Json → Option VerificationPolicy} {policy : Json}
  {plan : Server.TaskGraphPlan}

theorem validate_attempts_iff {u : Unit} :
    validate_attempts policy plan = .ok u ↔ ∃ allowed,
      factory_max_task_attempts policy = .ok allowed
      ∧ ∀ task ∈ plan.tasks, AttemptsWithin allowed task.max_attempts := by
  simp only [validate_attempts, bind_eq_ok, reject_find_iff, Bool.or_eq_false_iff,
    Bool.not_eq_false', decide_eq_true_eq, decide_eq_false_iff_not]
  have htask : ∀ (allowed : Option Int) (n : Int),
      ((1 ≤ n ∧ n ≤ Server.MAX_TASK_ATTEMPTS) ∧ ¬ allowed.getD 2 < n)
        ∧ (allowed.any fun expected => n != expected) = false ↔ AttemptsWithin allowed n := by
    intro allowed n
    have hexact : (allowed.any fun expected => n != expected) = false ↔ ∀ expected ∈ allowed,
        n = expected := by
      rw [Option.any_eq_false]
      simp only [Option.mem_def, bne_eq_false_iff_eq]
    rw [hexact]
    constructor
    · rintro ⟨⟨⟨hpositive, hlimit⟩, hceiling⟩, hsame⟩
      exact ⟨hpositive, hlimit, not_lt.mp hceiling, hsame⟩
    · rintro ⟨hpositive, hlimit, hceiling, hsame⟩
      exact ⟨⟨⟨hpositive, hlimit⟩, not_lt.mpr hceiling⟩, hsame⟩
  simp only [htask]

theorem preserve_setting_iff {setting : Server.PlannedTask → Option String}
    {allowed : Option String}
    {noun override : String} {u : Unit} :
    preserve_setting plan setting allowed noun override = .ok u ↔ ∀ task ∈ plan.tasks,
      setting task = allowed := by
  unfold preserve_setting
  rcases allowed with _ | allowed
  · simp only [reject_find_iff, Option.isSome_eq_false_iff, Option.isNone_iff_eq_none]
  · simp only [reject_find_iff, bne_eq_false_iff_eq]

theorem mem_terminal_iff {task : Server.PlannedTask} (htask : task ∈ plan.tasks) :
    task.key ∈ plan.terminal_task_keys ↔ TerminalIn plan task.key := by
  rw [Server.mem_terminal_task_keys]
  exact and_iff_right (List.mem_map_of_mem htask)

theorem mem_reviewed_iff {task : Server.PlannedTask} (htask : task ∈ plan.tasks) :
    task.key ∈ plan.provider_backed_outcome_keys ↔ TerminalIn plan task.key
      ∧ ProviderBacked plan task.key := by
  rw [Server.mem_provider_backed_iff, mem_terminal_iff htask, ProviderBacked]

theorem preserve_verification_iff {u : Unit} :
    preserve_verification from_value policy plan = .ok u
      ↔ ∃ delivery, delivery_policy from_value policy = some delivery
        ∧ ∀ task ∈ plan.tasks, TerminalIn plan task.key → ∀ expected ∈ delivery,
          task.verification_policy = expected := by
  unfold preserve_verification delivery_policy
  cases (policy.get? "verification_policy").filter fun value => !value.isNull with
  | none => simp
  | some value =>
    simp only [bind_eq_ok, context_eq_ok, reject_find_iff, Option.map_eq_some_iff]
    constructor
    · rintro ⟨expected, hexpected, htasks⟩
      refine ⟨some expected, ⟨expected, hexpected, rfl⟩, fun task htask hterminal other hother =>
        ?_⟩
      obtain rfl := Option.some.inj hother
      by_contra hne
      have hoffends := htasks task htask
      rw [decide_eq_true ((mem_terminal_iff htask).mpr hterminal), decide_eq_true hne] at hoffends
      cases hoffends
    · rintro ⟨delivery, ⟨expected, hexpected, rfl⟩, htasks⟩
      refine ⟨expected, hexpected, fun task htask => ?_⟩
      rw [Bool.and_eq_false_imp, decide_eq_true_eq, decide_eq_false_iff_not, not_not]
      exact fun hterminal => htasks task htask ((mem_terminal_iff htask).mp hterminal) expected rfl

/-! ## Every limit is checked -/

theorem as_object_of_get? {key : String} {value : Json} (h : policy.get? key = some value) :
    policy.as_object.isSome = true := by
  cases policy with
  | obj fields => rfl
  | null | bool _ | int _ | float _ | str _ | arr _ => cases h

theorem factory_policy_positive_i64_iff {key : String} {n : Int} :
    factory_policy_positive_i64 policy key = .ok n ↔ policy.i64? key = some n ∧ 0 < n := by
  rw [factory_policy_positive_i64, context_eq_ok, Option.filter_eq_some_iff, decide_eq_true_eq]

theorem write_scope_within_iff {scopes allowed : List String} :
    (∀ scope ∈ scopes, (!allowed.any (write_scope_is_subset scope)) = false)
      ↔ ∀ scope ∈ scopes, write_scope_is_valid scope = true
        ∧ ∃ outer ∈ allowed, write_scope_is_valid outer = true ∧ Grants scope ⊆ Grants outer := by
  refine forall₂_congr fun scope _ => ?_
  rw [Bool.not_eq_false', List.any_eq_true]
  simp only [write_scope_is_subset_iff]
  constructor
  · rintro ⟨outer, hmem, hvalid, houter, hsub⟩
    exact ⟨hvalid, outer, hmem, houter, hsub⟩
  · rintro ⟨hvalid, outer, hmem, houter, hsub⟩
    exact ⟨outer, hmem, hvalid, houter, hsub⟩

theorem review_iff {task : Server.PlannedTask} (htask : task ∈ plan.tasks) :
    (decide (task.key ∈ plan.provider_backed_outcome_keys)
      && task.verification_policy.manual_gate.isNone) = false
      ↔ (TerminalIn plan task.key → ProviderBacked plan task.key →
        task.verification_policy.manual_gate.isSome = true) := by
  rw [Bool.and_eq_false_imp, decide_eq_true_eq, mem_reviewed_iff htask, and_imp,
    ← Option.not_isSome, Bool.not_eq_false']

/-- **The validator passes exactly the plans within the limits of the policy.** -/
theorem validate_parts_iff {owner name : String} :
    validate_factory_plan_against_policy_parts from_value owner name policy plan = .ok ()
      ↔ ∃ limits : PolicyLimits, limits.Read from_value policy
        ∧ PlanWithin limits (owner ++ "/" ++ name) plan := by
  simp only [validate_factory_plan_against_policy_parts, bind_eq_ok, ensure_eq_ok, reject_find_iff,
    reject_find_part_iff, validate_attempts_iff, preserve_setting_iff, preserve_verification_iff,
    factory_policy_string_array_iff, factory_policy_string_list_iff,
      factory_policy_positive_i64_iff,
    validate_factory_base_commit, write_scope_within_iff, decide_eq_false_iff_not, not_not,
    bne_eq_false_iff_eq, Bool.or_eq_false_iff, List.forall_mem_map]
  constructor
  · rintro ⟨_, ⟨attempts, hattempts, htask_attempts⟩, connection, hconnection, _, htask_connection,
      _, hobject, _, hschema, _, hsource, _, hmerge, repositories, hrepositories, _, hrepository,
        base_ref, hbase_ref,
      base_commit, hbase_commit, _, hvalid, _, htask_source, adapters, hadapters, _, htask_adapter,
      strategies, hstrategies, _, hstrategy, model, hmodel, _, htask_model, effort, heffort, _,
        htask_effort,
      write_scope, hwrite_scope, _, htask_scope, tools, htools, _, htask_tools, prohibited,
        hprohibited, _,
      htask_prohibited, secrets, hsecrets, _, htask_secrets, _,
        ⟨delivery, hdelivery, htask_delivery⟩, _,
      ⟨hrequired, htask_checks⟩, _, htask_review, tokens, htokens, _, hplan_tokens, cost, hcost,
        hplan_cost⟩
    refine ⟨⟨attempts, connection, repositories, base_ref, to_ascii_lowercase base_commit, adapters,
      strategies, model, effort, write_scope, tools, prohibited, secrets, delivery, tokens, cost⟩,
        ?_, ?_⟩
    · exact ⟨hschema, hsource, hmerge, hrequired, hattempts, hconnection, hrepositories, hbase_ref,
        ⟨base_commit, hbase_commit, rfl⟩, hvalid, hadapters, hstrategies, hmodel, heffort,
          hwrite_scope, htools,
        hprohibited, hsecrets.1, hdelivery, htokens, hcost⟩
    · refine ⟨hrepository, hstrategy, fun task htask => ?_, hplan_tokens, hplan_cost⟩
      obtain ⟨⟨htask_repository, htask_ref⟩, htask_commit⟩ := htask_source task htask
      exact ⟨htask_attempts task htask, htask_connection task htask, htask_repository, htask_ref,
        htask_commit, htask_adapter task htask, htask_model task htask, htask_effort task htask,
          htask_scope task htask,
        htask_tools task htask, htask_prohibited task htask, htask_secrets task htask,
          htask_checks task htask,
        htask_delivery task htask, (review_iff htask).mp (htask_review task htask)⟩
  · rintro ⟨limits, hread, hwithin⟩
    obtain ⟨base_commit, hbase_commit, hlower⟩ := hread.source_base_commit
    have hin := hwithin.tasks
    refine ⟨(), ⟨_, hread.max_task_attempts, fun task htask => (hin task htask).attempts⟩, _,
      hread.workspace_connection_id, (), fun task htask => (hin task htask).connection, (),
      as_object_of_get? hread.write_scope.1.field, (), hread.schema_version, (),
        hread.source_of_truth, (),
      hread.auto_merge, _, hread.repository_allowlist, (), hwithin.repository, _,
        hread.source_base_ref, _,
      hbase_commit, (), ?_, (), ?_, _, hread.adapter_allowlist, (), fun task htask =>
        (hin task htask).adapter, _,
      hread.strategy_allowlist, (), hwithin.strategy, _, hread.model, (),
      fun task htask => (hin task htask).model, _, hread.reasoning_effort, (),
      fun task htask => (hin task htask).reasoning_effort, _, hread.write_scope, (),
      fun task htask => (hin task htask).write_scope, _, hread.allowed_tools, (),
      fun task htask => (hin task htask).tools, _, hread.prohibited_actions, (),
      fun task htask => (hin task htask).prohibitions, _, ⟨hread.secret_ids, fun h => ?_⟩, (),
      fun task htask => (hin task htask).secrets, (),
      ⟨_, hread.verification_policy, fun task htask => (hin task htask).delivery⟩, (),
      ⟨hread.verification_required, fun task htask => (hin task htask).checks⟩, (),
      fun task htask => (review_iff htask).mpr (hin task htask).review, _, hread.budget_tokens, (),
      hwithin.budget_tokens, _, hread.budget_cost_microusd, hwithin.budget_cost_microusd⟩
    · rw [hlower]
      exact hread.valid_commit
    · rw [hlower]
      exact fun task htask =>
        ⟨⟨(hin task htask).repository, (hin task htask).base_ref⟩, (hin task htask).base_commit⟩
    · cases h

/-! ## The limits are one -/

theorem Listed.unique {key : String} {values values' : List String} (h : Listed policy key values)
    (h' : Listed policy key values') : values = values' := by
  have hfield := h.field.symm.trans h'.field
  rw [Option.some.injEq, Json.arr.injEq] at hfield
  exact List.map_injective_iff.mpr (fun a b hab => Json.str.inj hab) hfield

/-- A policy says one set of limits. -/
theorem PolicyLimits.Read.unique {limits limits' : PolicyLimits} (h : limits.Read from_value policy)
    (h' : limits'.Read from_value policy) : limits = limits' := by
  have hok : ∀ {α : Type} {x : Except String α} {a b : α}, x = .ok a → x = .ok b → a = b := by
    intro α x a b ha hb
    exact Except.ok.inj (ha.symm.trans hb)
  obtain ⟨commit, hcommit, hlower⟩ := h.source_base_commit
  obtain ⟨commit', hcommit', hlower'⟩ := h'.source_base_commit
  have hbase_commit : limits.source_base_commit = limits'.source_base_commit := by
    rw [← hlower, ← hlower', hok hcommit hcommit']
  rw [PolicyLimits.ext_iff]
  exact ⟨hok h.max_task_attempts h'.max_task_attempts,
    hok h.workspace_connection_id h'.workspace_connection_id,
    h.repository_allowlist.1.unique h'.repository_allowlist.1,
      hok h.source_base_ref h'.source_base_ref,
    hbase_commit, h.adapter_allowlist.1.unique h'.adapter_allowlist.1,
    h.strategy_allowlist.1.unique h'.strategy_allowlist.1, hok h.model h'.model,
    hok h.reasoning_effort h'.reasoning_effort, h.write_scope.1.unique h'.write_scope.1,
    h.allowed_tools.1.unique h'.allowed_tools.1,
      h.prohibited_actions.1.unique h'.prohibited_actions.1,
    h.secret_ids.unique h'.secret_ids,
    Option.some.inj (h.verification_policy.symm.trans h'.verification_policy),
    Option.some.inj (h.budget_tokens.1.symm.trans h'.budget_tokens.1),
    Option.some.inj (h.budget_cost_microusd.1.symm.trans h'.budget_cost_microusd.1)⟩

/-! ## Narrowing a plan -/

/-- The task with fewer paths to write, or less to spend. A new scope is an old one or a valid one,
and the scopes together grant no path the old ones did not. -/
structure NarrowedTask (task narrowed : Server.PlannedTask) : Prop where
  same : narrowed = { task with contract := { task.contract with
    write_scope := narrowed.contract.write_scope
    budget_tokens := narrowed.contract.budget_tokens
    budget_cost_microusd := narrowed.contract.budget_cost_microusd } }
  scopes : ∀ scope ∈ narrowed.contract.write_scope,
    scope ∈ task.contract.write_scope ∨ write_scope_is_valid scope = true
  paths : ∀ path, narrowed.contract.Allows path → task.contract.Allows path
  budget_tokens : narrowed.contract.budget_tokens ≤ task.contract.budget_tokens
  budget_cost_microusd : narrowed.contract.budget_cost_microusd ≤ task.contract.budget_cost_microusd

/-- The plan with some of its tasks narrowed, and no more to spend. -/
structure NarrowedPlan (plan narrowed : Server.TaskGraphPlan) : Prop where
  same : narrowed = { plan with
    tasks := narrowed.tasks
    budget_tokens := narrowed.budget_tokens
    budget_cost_microusd := narrowed.budget_cost_microusd }
  tasks : List.Forall₂ NarrowedTask plan.tasks narrowed.tasks
  budget_tokens : narrowed.budget_tokens ≤ plan.budget_tokens
  budget_cost_microusd : narrowed.budget_cost_microusd ≤ plan.budget_cost_microusd

/-- What the graph of a plan consists of. -/
def shape (task : Server.PlannedTask) : String × List String × String :=
  (task.key, task.depends_on, task.required_adapter)

section

variable {narrowed : Server.TaskGraphPlan}

theorem NarrowedPlan.shape (h : NarrowedPlan plan narrowed) :
    narrowed.tasks.map Store.shape = plan.tasks.map Store.shape := by
  have hshape : ∀ {tasks narrowed : List Server.PlannedTask},
      List.Forall₂ NarrowedTask tasks narrowed →
      narrowed.map Store.shape = tasks.map Store.shape := by
    intro tasks narrowed htasks
    induction htasks with
    | nil => rfl
    | cons hhead _ ih =>
      rw [List.map_cons, List.map_cons, ih, hhead.same]
      rfl
  exact hshape h.tasks

theorem first_task_shape (key : String) :
    (plan.first_task key).map shape = (plan.tasks.map shape).find? fun x => x.1 == key := by
  rw [List.find?_map]
  rfl

/-- Plans of one shape have the same outcomes. -/
theorem terminalIn_of_shape (h : narrowed.tasks.map shape = plan.tasks.map shape) {key : String} :
    TerminalIn narrowed key → TerminalIn plan key := by
  intro hterminal
  have hall : ∀ x ∈ narrowed.tasks.map shape, key ∉ x.2.1 := by
    rw [List.forall_mem_map]
    exact hterminal
  rw [h, List.forall_mem_map] at hall
  exact hall

theorem first_task_of_shape (h : narrowed.tasks.map shape = plan.tasks.map shape) {key : String}
    {task' : Server.PlannedTask} (htask' : narrowed.first_task key = some task') :
    ∃ task, plan.first_task key = some task ∧ shape task = shape task' := by
  have hmap : (plan.first_task key).map shape = some (shape task') := by
    rw [first_task_shape, ← h, ← first_task_shape, htask', Option.map_some]
  exact Option.map_eq_some_iff.mp hmap

theorem providerBacked_of_shape (h : narrowed.tasks.map shape = plan.tasks.map shape)
    {key : String} :
    ProviderBacked narrowed key → ProviderBacked plan key := by
  rintro ⟨reached, task', hpath, htask', hprovider⟩
  obtain ⟨task, htask, hshape⟩ := first_task_of_shape h htask'
  have hedges : ∀ a b, narrowed.DependsOn a b → plan.DependsOn a b := by
    rintro a b ⟨parent', hparent', hdepends⟩
    obtain ⟨parent, hparent, hsame⟩ := first_task_of_shape h hparent'
    refine ⟨parent, hparent, ?_⟩
    rw [show parent.depends_on = parent'.depends_on from congrArg (fun x => x.2.1) hsame]
    exact hdepends
  refine ⟨reached, task, Relation.ReflTransGen.mono hedges _ _ hpath, htask, ?_⟩
  rw [show task.required_adapter = task'.required_adapter from congrArg (fun x => x.2.2) hshape]
  exact hprovider

/-- What grants no more than scopes within the policy is within the policy. -/
theorem NarrowedTask.write_scope {task narrowed : Server.PlannedTask}
    (h : NarrowedTask task narrowed)
    {allowed : List String}
    (hwithin : ∀ scope ∈ task.contract.write_scope, write_scope_is_valid scope = true
      ∧ ∃ outer ∈ allowed, write_scope_is_valid outer = true ∧ Grants scope ⊆ Grants outer) :
    ∀ scope ∈ narrowed.contract.write_scope, write_scope_is_valid scope = true
      ∧ ∃ outer ∈ allowed, write_scope_is_valid outer = true ∧ Grants scope ⊆ Grants outer := by
  intro scope hscope
  have hvalid : write_scope_is_valid scope = true :=
    (h.scopes scope hscope).elim (fun hold => (hwithin scope hold).1) id
  have hcovered : ∀ path ∈ Grants scope, ∃ old ∈ task.contract.write_scope, path ∈ Grants old :=
    fun path hpath => h.paths path ⟨scope, hscope, hpath⟩
  obtain ⟨old, hold, hsub⟩ :=
    grants_subset_of_union hvalid (fun old hold => (hwithin old hold).1) hcovered
  obtain ⟨-, outer, houter, houter_valid, hold_sub⟩ := hwithin old hold
  exact ⟨hvalid, outer, houter, houter_valid, hsub.trans hold_sub⟩

/-- **A narrowed plan stays within the limits.** -/
theorem PlanWithin.narrow {limits : PolicyLimits} {source_repository : String}
    (h : PlanWithin limits source_repository plan) (hn : NarrowedPlan plan narrowed) :
    PlanWithin limits source_repository narrowed := by
  have hshape := hn.shape
  have hstrategy : narrowed.strategy = plan.strategy := by rw [hn.same]
  refine ⟨h.repository, hstrategy ▸ h.strategy, ?_, hn.budget_tokens.trans h.budget_tokens,
    hn.budget_cost_microusd.trans h.budget_cost_microusd⟩
  intro task' htask'
  obtain ⟨task, htask, hnarrowed⟩ : ∃ task ∈ plan.tasks, NarrowedTask task task' := by
    obtain ⟨i, hi, rfl⟩ := List.getElem_of_mem htask'
    have hlen := hn.tasks.length_eq
    exact ⟨plan.tasks[i], List.getElem_mem _, hn.tasks.get (hlen ▸ hi) hi⟩
  have hin := h.tasks task htask
  have hscope := hnarrowed.write_scope hin.write_scope
  have hsame := hnarrowed.same
  have hkey : task'.key = task.key := by rw [hsame]
  have hverification : task'.verification_policy = task.verification_policy := by rw [hsame]
  have hdelivery : TerminalIn narrowed task'.key → ∀ expected ∈ limits.verification_policy,
      task'.verification_policy = expected := by
    intro hterminal
    rw [hkey] at hterminal
    rw [hverification]
    exact hin.delivery (terminalIn_of_shape hshape hterminal)
  have hreview : TerminalIn narrowed task'.key → ProviderBacked narrowed task'.key →
      task'.verification_policy.manual_gate.isSome = true := by
    intro hterminal hprovider
    rw [hkey] at hterminal hprovider
    rw [hverification]
    exact hin.review (terminalIn_of_shape hshape hterminal)
      (providerBacked_of_shape hshape hprovider)
  refine ⟨?_, ?_, ?_, ?_, ?_, ?_, ?_, ?_, hscope, ?_, ?_, ?_, ?_, hdelivery, hreview⟩
  · rw [hsame]; exact hin.attempts
  · rw [hsame]; exact hin.connection
  · rw [hsame]; exact hin.repository
  · rw [hsame]; exact hin.base_ref
  · rw [hsame]; exact hin.base_commit
  · rw [hsame]; exact hin.adapter
  · rw [hsame]; exact hin.model
  · rw [hsame]; exact hin.reasoning_effort
  · rw [hsame]; exact hin.tools
  · rw [hsame]; exact hin.prohibitions
  · rw [hsame]; exact hin.secrets
  · rw [hverification]; exact hin.checks

end

/-! ## Before the claim, and after it -/

section

variable {owner name : String} {constrained : Server.TaskGraphPlan} {to_vec_len : Json → Nat}

/-- The source constraints, once they apply, give every plan the same source. -/
theorem apply_source_ok
    (h : apply_factory_source_constraints_parts owner name policy plan = .ok constrained) :
    ∃ base_ref base_commit,
      (∀ other : Server.TaskGraphPlan, apply_factory_source_constraints_parts owner name policy
        other
        = .ok { other with tasks := other.tasks.map (with_source (owner ++ "/" ++ name) base_ref
                             base_commit) })
      ∧ constrained = { plan with
        tasks := plan.tasks.map (with_source (owner ++ "/" ++ name) base_ref base_commit) } := by
  simp only [apply_factory_source_constraints_parts, bind_eq_ok, ensure_eq_ok, pure_eq_ok] at h
  obtain ⟨_, hobject, base_ref, hbase_ref, _, href_valid, base_commit, hbase_commit, _,
    hcommit_valid, hplan⟩ := h
  refine ⟨base_ref, to_ascii_lowercase base_commit, fun other => ?_, hplan.symm⟩
  simp only [apply_factory_source_constraints_parts, bind_eq_ok, ensure_eq_ok, pure_eq_ok]
  exact ⟨(), hobject, base_ref, hbase_ref, (), href_valid, base_commit, hbase_commit, (),
    hcommit_valid, rfl⟩

/-- A plan that carries the source of the claim keeps it. -/
theorem apply_source_again
    (h : apply_factory_source_constraints_parts owner name policy plan = .ok constrained) :
    apply_factory_source_constraints_parts owner name policy constrained = .ok constrained := by
  obtain ⟨base_ref, base_commit, hother, rfl⟩ := apply_source_ok h
  rw [hother, List.map_map]
  rfl

/-- **What passed the policy passes it again, unchanged.** -/
theorem constrain_plan_again
    (h : constrain_plan from_value owner name policy plan = .ok constrained) :
    constrain_plan from_value owner name policy constrained = .ok constrained := by
  simp only [constrain_plan, bind_eq_ok, pure_eq_ok] at h ⊢
  obtain ⟨_, happly, _, hvalid, rfl⟩ := h
  exact ⟨_, apply_source_again happly, (), hvalid, rfl⟩

theorem factory_max_task_attempts_congr {policy' : Json}
    (hobject : policy'.as_object.isSome = policy.as_object.isSome)
    (hfield : policy'.get? "max_task_attempts" = policy.get? "max_task_attempts") :
    factory_max_task_attempts policy' = factory_max_task_attempts policy := by
  rw [factory_max_task_attempts, factory_max_task_attempts, hfield, hobject]

theorem get?_insert_workspace_connection (fields : List (String × Json)) (id : Option Uuid)
    {key : String}
    (hkey : key ≠ "workspace_connection_id") :
    (Json.obj (insert_workspace_connection fields id)).get? key = (Json.obj fields).get? key := by
  cases id with
  | none => rfl
  | some id => exact get?_insertField_of_ne fields _ hkey

/-- Pinning the commit touches two fields. -/
theorem get?_pin_source_base_commit {fields fields' : List (String × Json)}
    {upgrade_required : Bool}
    (h : pin_source_base_commit fields upgrade_required = .ok fields') {key : String}
    (hcommit : key ≠ "source_base_commit") (hupgrade : key ≠ "source_commit_upgrade_required") :
    (Json.obj fields').get? key = (Json.obj fields).get? key := by
  unfold pin_source_base_commit at h
  split at h
  · split at h
    · cases h
    · simp only [bind_eq_ok, pure_eq_ok] at h
      obtain ⟨_, -, _, -, rfl⟩ := h
      rw [get?_insertField_of_ne _ _ hupgrade, get?_insertField_of_ne _ _ hcommit]
  · split at h
    · rw [pure_eq_ok] at h
      rw [h]
    · cases h
  · cases h

/-- Normalising a policy keeps its attempts. -/
theorem normalize_factory_policy_attempts {raw : Json} (hraw : raw.isNull = false)
    (h : normalize_factory_policy from_value to_vec_len raw = .ok policy) :
    factory_max_task_attempts policy = factory_max_task_attempts raw := by
  simp only [normalize_factory_policy, hraw, Bool.false_eq_true, if_false, bind_eq_ok,
    context_eq_ok, pure_eq_ok] at h
  obtain ⟨fields, hfields, id, -, _, -, _, -, _, -, _, -, _, -, _, -, _, -, pinned, hpinned, _, -,
    rfl⟩ := h
  obtain rfl : raw = .obj fields := by
    cases raw with
    | obj other => exact congrArg Json.obj (Option.some.inj hfields)
    | null | bool _ | int _ | float _ | str _ | arr _ => cases hfields
  refine factory_max_task_attempts_congr rfl ?_
  rw [get?_pin_source_base_commit hpinned (by decide) (by decide),
    get?_insert_workspace_connection _ _ (by decide)]

theorem validate_request_object {request : Json} {u : Unit}
    (h : validate_request policy request = .ok u) :
    policy.isNull = false := by
  simp only [validate_request, bind_eq_ok, factory_max_task_attempts, ensure_eq_ok] at h
  obtain ⟨_, ⟨_, hobject, -⟩, -⟩ := h
  cases policy with
  | null => cases hobject
  | obj _ | bool _ | int _ | float _ | str _ | arr _ => rfl

/-- **The preflight decides.** What it returns goes through with the source and the policy in the
row of the claim, and so does the plan it was given, which becomes the same. -/
theorem preflight_materializes {raw request : Json}
    (h : preflight_plan from_value to_vec_len owner name raw request plan = .ok constrained) :
    ∃ owner' name' policy, normalize_github_component owner "source repository owner" 100
      = .ok owner'
      ∧ normalize_github_component name "source repository name" 100 = .ok name'
      ∧ normalize_factory_policy from_value to_vec_len raw = .ok policy
      ∧ validate_factory_plan_against_policy_parts from_value owner' name' policy constrained = .ok
        ()
      ∧ materialize_plan from_value owner' name' policy request constrained = .ok constrained
      ∧ materialize_plan from_value owner' name' policy request plan = .ok constrained := by
  simp only [preflight_plan, preflight_factory_plan, bind_eq_ok] at h
  obtain ⟨_, hrequest, owner', howner, name', hname, policy, hpolicy, hconstrain⟩ := h
  have hattempts := normalize_factory_policy_attempts (validate_request_object hrequest) hpolicy
  have hclaimed : validate_request policy request = .ok () := by
    rw [validate_request, hattempts]
    exact hrequest
  have hvalid : validate_factory_plan_against_policy_parts from_value owner' name' policy
      constrained = .ok () := by
    simp only [constrain_plan, bind_eq_ok, pure_eq_ok] at hconstrain
    obtain ⟨_, -, _, hvalid, rfl⟩ := hconstrain
    exact hvalid
  refine ⟨owner', name', policy, howner, hname, hpolicy, hvalid, ?_, ?_⟩
  · rw [materialize_plan, hclaimed, ok_bind]
    exact constrain_plan_again hconstrain
  · rw [materialize_plan, hclaimed, ok_bind]
    exact hconstrain

end

/-! ## The budgets of single tasks -/

/-- The planner's sums bound the budget of every task by the budget of the plan. -/
theorem task_budget_le {agents : List Agent} {calls : Nat}
    (h : Server.validate_plan calls plan agents = some (.ok ())) :
    ∀ task ∈ plan.tasks, task.contract.budget_tokens ≤ plan.budget_tokens
      ∧ task.contract.budget_cost_microusd ≤ plan.budget_cost_microusd := by
  have haccepted := Server.validate_plan_accepted h
  have hpositive : ∀ task ∈ plan.tasks, 1 ≤ task.contract.budget_tokens
      ∧ 1 ≤ task.contract.budget_cost_microusd := by
    intro task htask
    obtain ⟨seen, hvalid⟩ := Server.validate_plan_each h task htask
    simp only [Server.validate_task, Server.validate_contract, bind_eq_ok, ensure_eq_ok,
      context_eq_ok] at hvalid
    obtain ⟨_, -, _, -, _, -, _, -, _, -, _, -, _, ⟨_, -, _, -, _, htokens, _, hcost, -⟩, -⟩ :=
      hvalid
    exact ⟨htokens.1, hcost.1⟩
  -- one of several positive numbers is at most their sum
  have hsum : ∀ spent : Server.PlannedTask → Int, (∀ task ∈ plan.tasks, 1 ≤ spent task) →
      ∀ task ∈ plan.tasks, spent task ≤ (plan.tasks.map spent).sum := by
    intro spent hspent task htask
    refine List.single_le_sum ?_ _ (List.mem_map_of_mem htask)
    rw [List.forall_mem_map]
    intro other hother
    have := hspent other hother
    omega
  intro task htask
  have htokens := hsum (fun t => t.contract.budget_tokens) (fun t ht => (hpositive t ht).1) task
      htask
  have hcost := hsum (fun t => t.contract.budget_cost_microusd) (fun t ht => (hpositive t ht).2)
      task htask
  exact ⟨htokens.trans haccepted.tokens, hcost.trans haccepted.cost⟩

/-- **Factory plans obey their policy, twice.** The validator accepts exactly the plans within the
limits of the policy. Narrowing an accepted plan keeps it accepted. A plan the preflight returned
is accepted again as it is when the mission is made of it, with the source and the policy of the
claim. The budgets of the tasks are held against the budget of the plan by the planner, so in a
plan that has passed both every task is within the policy's budgets. -/
theorem factory_plans_obey_policy (from_value : Json → Option VerificationPolicy)
    (to_vec_len : Json → Nat) :
    (∀ owner name policy plan,
      validate_factory_plan_against_policy_parts from_value owner name policy plan = .ok ()
        ↔ ∃ limits : PolicyLimits, limits.Read from_value policy
          ∧ PlanWithin limits (owner ++ "/" ++ name) plan)
    ∧ (∀ owner name policy plan narrowed,
      validate_factory_plan_against_policy_parts from_value owner name policy plan = .ok () →
        NarrowedPlan plan narrowed →
        validate_factory_plan_against_policy_parts from_value owner name policy narrowed = .ok ())
    ∧ (∀ owner name raw request plan constrained,
      preflight_plan from_value to_vec_len owner name raw request plan = .ok constrained →
        ∃ owner' name' policy, normalize_github_component owner "source repository owner" 100
          = .ok owner'
          ∧ normalize_github_component name "source repository name" 100 = .ok name'
          ∧ normalize_factory_policy from_value to_vec_len raw = .ok policy
          ∧ validate_factory_plan_against_policy_parts from_value owner' name' policy constrained
            = .ok ()
          ∧ materialize_plan from_value owner' name' policy request constrained = .ok constrained
          ∧ materialize_plan from_value owner' name' policy request plan = .ok constrained)
    ∧ ∀ owner name policy plan calls agents (limits : PolicyLimits),
      Server.validate_plan calls plan agents = some (.ok ()) →
        validate_factory_plan_against_policy_parts from_value owner name policy plan = .ok () →
        limits.Read from_value policy → ∀ task ∈ plan.tasks,
          task.contract.budget_tokens ≤ limits.budget_tokens
            ∧ task.contract.budget_cost_microusd ≤ limits.budget_cost_microusd := by
  refine ⟨fun _ _ _ _ => validate_parts_iff, ?_, fun _ _ _ _ _ _ => preflight_materializes, ?_⟩
  · intro owner name policy plan narrowed hvalid hnarrowed
    obtain ⟨limits, hread, hwithin⟩ := validate_parts_iff.mp hvalid
    exact validate_parts_iff.mpr ⟨limits, hread, hwithin.narrow hnarrowed⟩
  · intro owner name policy plan calls agents limits hplanned hvalid hread task htask
    obtain ⟨limits', hread', hwithin⟩ := validate_parts_iff.mp hvalid
    obtain rfl := hread.unique hread'
    obtain ⟨htokens, hcost⟩ := task_budget_le hplanned task htask
    exact ⟨htokens.trans hwithin.budget_tokens, hcost.trans hwithin.budget_cost_microusd⟩

/-! ## A task above the budget of the policy -/

/-- A policy for one task and a thousand tokens. -/
def single_policy : Json :=
  .obj [("schema_version", .int 1), ("source_of_truth", .str "github_project"),
  ("auto_merge", .bool false), ("repository_allowlist", .arr [.str "owner/repo"]),
  ("source_base_ref", .str "HEAD"),
  ("source_base_commit", .str "1111111111111111111111111111111111111111"),
  ("adapter_allowlist", .arr [.str "codex"]), ("strategy_allowlist", .arr [.str "single"]),
  ("model", .null), ("reasoning_effort", .null), ("write_scope", .arr [.str "src/**"]),
  ("allowed_tools", .arr [.str "filesystem"]),
  ("prohibited_actions", .arr [.str "merge requires separate authorization"]),
  ("secret_ids", .arr []),
  ("verification_required", .bool true), ("budget_tokens", .int 1000),
  ("budget_cost_microusd", .int 1000000)]

/-- A plan of one task for the policy. -/
def single_plan (task_tokens : Int) : Server.TaskGraphPlan where
  strategy := "single"
  max_nodes := 1
  max_depth := 0
  budget_tokens := 1000
  budget_cost_microusd := 1000000
  tasks := [
    { key := "deliver", title := "Deliver", assigned_agent_id := 1, required_adapter := "codex"
      depends_on := [], depth := 0, max_attempts := 1
      contract := {
        objective := "Deliver the issue", expected_output := "A verified change"
        source_repository := some "owner/repo", source_base_ref := some "HEAD"
        source_base_commit := some "1111111111111111111111111111111111111111"
        acceptance_tests := ["tests pass"], allowed_tools := ["filesystem"]
        prohibited_actions := ["merge requires separate authorization"], references := []
        write_scope := ["src/**"], budget_tokens := task_tokens, budget_cost_microusd := 1000000
        escalation := "ask the operator", model := none, reasoning_effort := none, deliverable :=
          none }
      verification_policy := {
        checks := [.artifact 1], manual_gate := some (.independent_review ["member"] true) } }]

/-- What the policy says. -/
def single_limits : PolicyLimits where
  max_task_attempts := none
  workspace_connection_id := none
  repository_allowlist := ["owner/repo"]
  source_base_ref := "HEAD"
  source_base_commit := "1111111111111111111111111111111111111111"
  adapter_allowlist := ["codex"]
  strategy_allowlist := ["single"]
  model := none
  reasoning_effort := none
  write_scope := ["src/**"]
  allowed_tools := ["filesystem"]
  prohibited_actions := ["merge requires separate authorization"]
  secret_ids := []
  verification_policy := none
  budget_tokens := 1000
  budget_cost_microusd := 1000000

theorem single_policy_read : single_limits.Read (fun _ => none) single_policy where
  schema_version := by decide +kernel
  source_of_truth := by decide +kernel
  auto_merge := by decide +kernel
  verification_required := by decide +kernel
  max_task_attempts := by decide +kernel
  workspace_connection_id := by decide +kernel
  repository_allowlist := factory_policy_string_array_iff.mp (by decide +kernel)
  source_base_ref := by decide +kernel
  source_base_commit :=
    ⟨"1111111111111111111111111111111111111111", by decide +kernel, by decide +kernel⟩
  valid_commit := by decide +kernel
  adapter_allowlist := factory_policy_string_array_iff.mp (by decide +kernel)
  strategy_allowlist := factory_policy_string_array_iff.mp (by decide +kernel)
  model := by decide +kernel
  reasoning_effort := by decide +kernel
  write_scope := factory_policy_string_array_iff.mp (by decide +kernel)
  allowed_tools := factory_policy_string_array_iff.mp (by decide +kernel)
  prohibited_actions := factory_policy_string_array_iff.mp (by decide +kernel)
  secret_ids := (@factory_policy_string_list_iff single_policy _ true _).mp (by decide +kernel) |>.1
  verification_policy := by decide +kernel
  budget_tokens := by decide +kernel
  budget_cost_microusd := by decide +kernel

/-- The plan is within the limits whatever its task may spend. -/
theorem single_plan_within (task_tokens : Int) :
    PlanWithin single_limits "owner/repo" (single_plan task_tokens) := by
  refine ⟨List.mem_singleton_self _, List.mem_singleton_self _, fun task htask => ?_, le_refl _,
    le_refl _⟩
  obtain rfl := List.mem_singleton.mp htask
  have hattempts : AttemptsWithin none 1 :=
    ⟨by decide, by decide, by decide, fun n hn => by cases hn⟩
  have hvalid : write_scope_is_valid "src/**" = true := by decide +kernel
  refine ⟨hattempts, rfl, rfl, rfl, rfl,
    List.mem_singleton_self _, rfl, rfl, fun scope hscope => ?_, fun tool htool => htool,
    fun action haction => haction, fun secret hsecret => absurd hsecret List.not_mem_nil,
    List.cons_ne_nil _ _, fun _ expected hexpected =>
      absurd hexpected (Option.not_mem_none expected),
    fun _ _ => rfl⟩
  obtain rfl := List.mem_singleton.mp hscope
  exact ⟨hvalid, "src/**", List.mem_singleton_self _, hvalid, subset_rfl⟩

/-- The validator passes a task that may spend five times what the policy allows. -/
theorem task_budget_above_policy :
    ∃ limits : PolicyLimits, limits.Read (fun _ => none) single_policy
      ∧ validate_factory_plan_against_policy_parts (fun _ => none) "owner" "repo" single_policy
        (single_plan 5000) = .ok ()
      ∧ ∃ task ∈ (single_plan 5000).tasks, limits.budget_tokens < task.contract.budget_tokens := by
  have hwithin : PlanWithin single_limits ("owner" ++ "/" ++ "repo") (single_plan 5000) :=
    single_plan_within 5000
  refine ⟨single_limits, single_policy_read, ?_, _, List.mem_singleton_self _, by decide⟩
  exact validate_parts_iff.mpr ⟨single_limits, single_policy_read, hwithin⟩

end Crony.Store
