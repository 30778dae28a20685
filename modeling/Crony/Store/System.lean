/-
The store as a transition system.

Every public method is one transaction. Row and advisory locks serialise the
transactions that touch the same rows, so a concurrent execution is a sequence of calls,
in any order and with any arguments, and each call either commits its effect or leaves
the database as it was. `Op` lists the calls of the run lifecycle with everything a
caller or the environment decides: the arguments, the time of the transaction, the
identifiers `Uuid::new_v4` returns for a new run, and the verdicts of checks that only
read.
-/
import Crony.Lib.Transition
import Crony.Store.Admission
import Crony.Store.Artifacts
import Crony.Store.Decisions
import Crony.Store.Dispatch

set_option autoImplicit false

open Crony.Lib

namespace Crony.Store

variable (env : Env)

/-- The calls of the run lifecycle. -/
inductive Op where
  | apply_runner_event (now : Int) (input : RunnerEventInput)
  | evaluate_circuit_breaker (now : Int) (corp_id run_id : Uuid)
  | set_budget_policy (input : BudgetPolicyInput)
  | create_mission (input : CreateMissionInput)
  | materialize_factory_mission (now : Int) (input : MaterializeInput)
  | transition_factory_work_item (now : Int) (input : TransitionInput)
  | create_task_run (now : Int) (input : TaskRunInput)
  | create_resume_run (now : Int) (input : ResumeInput)
  | create_factory_verification_recovery (now : Int) (input : RecoveryInput)
  | prepare_artifact_upload (now : Int) (input : RunnerEventInput) (artifact : Artifact)
      (staging_key : String) (receipt_allows : Bool)
  | finalize_artifact_upload (corp_id artifact_id : Uuid) (fence authority : ReceiptVerdict)
  | reject_staged_artifact (corp_id artifact_id : Uuid) (reason : String)
  | abandon_staged_artifact (corp_id artifact_id : Uuid)
  | clear_artifact_staging_key (corp_id artifact_id : Uuid) (staging_key : String)
  | decide_action_approval (now : Int) (input : ApprovalDecision)
  | expire_action_approval (now : Int) (approval_id : Uuid)
  | decide_verification (now : Int) (input : VerificationDecision)
  | acknowledge_runner_command (command_id : Uuid) (runner_id : String)
  | fail_runner_command (command_id : Uuid) (runner_id detail : String)
  | fail_run_before_dispatch (corp_id run_id : Uuid) (reason : String)
  | fail_factory_recovery_before_dispatch (corp_id run_id : Uuid) (reason : String)
  | mark_runner_runs_lost (now : Int) (input : LostRunner)

/-- The committed state of a call, or the error that rolled it back. -/
def exec (s : Db) : Op → Except String Db
  | .apply_runner_event now input => Prod.snd <$> apply_runner_event env s now input
  | .evaluate_circuit_breaker now corp_id run_id => evaluate_circuit_breaker s now corp_id run_id
  | .set_budget_policy input => set_budget_policy s input
  | .create_mission input => create_mission s input
  | .materialize_factory_mission now input => materialize_factory_mission s now input
  | .transition_factory_work_item now input => transition_factory_work_item s now input
  | .create_task_run now input => create_task_run s now input
  | .create_resume_run now input => create_resume_run env s now input
  | .create_factory_verification_recovery now input =>
    create_factory_verification_recovery env s now input
  | .prepare_artifact_upload now input artifact staging_key receipt_allows =>
    prepare_artifact_upload s now input artifact staging_key receipt_allows
  | .finalize_artifact_upload corp_id artifact_id fence authority =>
    Committed.state <$> finalize_artifact_upload s corp_id artifact_id fence authority
  | .reject_staged_artifact corp_id artifact_id reason =>
    .ok (reject_staged_artifact s corp_id artifact_id reason)
  | .abandon_staged_artifact corp_id artifact_id =>
      .ok (abandon_staged_artifact s corp_id artifact_id)
  | .clear_artifact_staging_key corp_id artifact_id staging_key =>
    .ok (clear_artifact_staging_key s corp_id artifact_id staging_key)
  | .decide_action_approval now input => Committed.state <$> decide_action_approval s now input
  | .expire_action_approval now approval_id => expire_action_approval s now approval_id
  | .decide_verification now input => decide_verification s now input
  | .acknowledge_runner_command command_id runner_id =>
    acknowledge_runner_command s command_id runner_id
  | .fail_runner_command command_id runner_id detail =>
    fail_runner_command s command_id runner_id detail
  | .fail_run_before_dispatch corp_id run_id reason =>
    fail_run_before_dispatch s corp_id run_id reason
  | .fail_factory_recovery_before_dispatch corp_id run_id reason =>
    fail_factory_recovery_before_dispatch s corp_id run_id reason
  | .mark_runner_runs_lost now input => mark_runner_runs_lost_tx s now input

/-- The state after a call: a call that fails changes nothing. -/
def step (s : Db) (op : Op) : Db :=
  match exec env s op with
  | .ok t => t
  | .error _ => s

/-- A database in which no mission has been planned yet. People, rooms, unoccupied agents,
queued messages, budget policies and claimed Factory items may be there. -/
structure Initial (s : Db) : Prop where
  agents_keyed : Keyed Agent.id s.agents
  agents_free : ∀ a ∈ s.agents, a.current_run_id = none ∧ a.status.is_busy = false
  items_keyed : Keyed FactoryWorkItem.id s.factory_work_items
  items_unlinked : ∀ i ∈ s.factory_work_items, i.mission_id = none
  missions : s.missions = []
  tasks : s.tasks = []
  task_dependencies : s.task_dependencies = []
  runs : s.runs = []
  artifacts : s.artifacts = []
  source_deliverables : s.source_deliverables = []
  verification_evidence : s.verification_evidence = []
  verification_requests : s.verification_requests = []
  action_approvals : s.action_approvals = []
  runner_commands : s.runner_commands = []
  circuit_breaker_incidents : s.circuit_breaker_incidents = []
  factory_verification_recoveries : s.factory_verification_recoveries = []
  events : s.events = []

/-- The transition system of the store. -/
def system : TransitionSystem Db Op where
  init := Initial
  step := step env

/-- A state some sequence of calls leads to. -/
abbrev Reachable (s : Db) : Prop := (system env).Reachable s

/-- A state some sequence of calls leads to, each of which meets `ok` where it is made. -/
abbrev ReachableVia (ok : Db → Op → Prop) (s : Db) : Prop := (system env).ReachableVia ok s

/-- **Invariant rule of the store.** Only calls that commit have to be looked at. -/
theorem ReachableVia.inv {env : Env} {ok : Db → Op → Prop} {I : Db → Prop} {t : Db}
    (h : ReachableVia env ok t) (h0 : ∀ s, Initial s → I s)
    (hexec : ∀ s op t, ReachableVia env ok s → I s → ok s op → exec env s op = .ok t → I t) :
    I t := by
  refine TransitionSystem.ReachableVia.invariant_of_reachable h h0 ?_
  intro s op hs hI hok
  change I (step env s op)
  unfold step
  cases he : exec env s op with
  | ok t => exact hexec s op t hs hI hok he
  | error e => exact hI

/-- The invariant rule for all runs. -/
theorem Reachable.inv {env : Env} {I : Db → Prop} {t : Db} (h : Reachable env t)
    (h0 : ∀ s, Initial s → I s)
    (hexec : ∀ s op t, Reachable env s → I s → exec env s op = .ok t → I t) : I t :=
  ReachableVia.inv h h0 fun s op t hs hI _ he => hexec s op t hs hI he

/-- The state a committed call leads to is reachable. -/
theorem Reachable.exec {env : Env} {s t : Db} {op : Op} (h : Reachable env s)
    (he : exec env s op = .ok t) : Reachable env t := by
  have hstep := TransitionSystem.ReachableVia.step h (i := op) trivial
  have ht : (system env).step s op = t := by
    change step env s op = t
    rw [step, he]
  rwa [ht] at hstep

end Crony.Store
