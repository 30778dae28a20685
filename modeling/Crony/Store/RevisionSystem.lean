/-
The store with revisions as a transition system.

The calls of the run lifecycle, and beside them the three calls of the revisions. A mission
is created by the server, which hands the store only plans `validate_plan` accepted; so the
two calls that plan a mission appear here with the plan and the roster it was validated
against, and not among the calls of the lifecycle.
-/
import Crony.Lifecycle.Effects
import Crony.Store.Budgets

set_option autoImplicit false

open Crony.Lib

namespace Crony.Store

variable (env : Env)

/-- The calls of the lifecycle and of the revisions. -/
inductive RevisionOp where
  | create_mission (agents : List Agent) (plan : Server.TaskGraphPlan) (input : CreateMissionInput)
  | materialize_factory_mission (now : Int) (agents : List Agent) (plan : Server.TaskGraphPlan)
      (input : MaterializeInput)
  | lifecycle (op : Op)
  | create_mission_contract_revision (now : Int) (input : CreateMissionContractRevisionInput)
  | propose_mission_budget_revision (input : ProposeMissionBudgetRevisionInput)
  | decide_mission_budget_revision (input : DecideMissionBudgetRevisionInput)

/-- The end of `plan_mission`: the plan the server hands to the store. One more nested call
than there are tasks lets `validate_plan` decide every plan. -/
def plan_mission (agents : List Agent) (plan : Server.TaskGraphPlan) :
    Except String TaskGraphPlan :=
  match Server.validate_plan (plan.tasks.length + 1) plan agents with
  | some (.ok ()) => .ok plan.stored
  | some (.error e) => .error e.message
  | none => .error "task graph validation did not return"

/-- The committed state of a call, or the error that rolled it back. -/
def Archive.exec (s : Archive) : RevisionOp → Except String Archive
  | .create_mission agents plan input => do
    let plan ← plan_mission agents plan
    s.onDb <$> Store.create_mission s.toDb { input with plan }
  | .materialize_factory_mission now agents plan input => do
    let plan ← plan_mission agents plan
    s.onDb <$> Store.materialize_factory_mission s.toDb now
      { input with mission := { input.mission with plan } }
  | .lifecycle op => do
    ensure (op.plans = false) "missions are planned by the server"
    s.onDb <$> Store.exec env s.toDb op
  | .create_mission_contract_revision now input =>
    RevisionOutcome.state <$> Store.create_mission_contract_revision s now input
  | .propose_mission_budget_revision input =>
    RevisionOutcome.state <$> Store.propose_mission_budget_revision s input
  | .decide_mission_budget_revision input =>
    RevisionOutcome.state <$> Store.decide_mission_budget_revision s input

/-- Nothing has been planned and nothing revised. -/
structure Archive.Initial (s : Archive) : Prop where
  db : Store.Initial s.toDb
  mission_contract_revisions : s.mission_contract_revisions = []
  mission_budget_revisions : s.mission_budget_revisions = []

/-- The transition system of the revisions. -/
def revisions : TransitionSystem Archive RevisionOp := .ofExec Archive.Initial (Archive.exec env)

end Crony.Store
