/-
The outbox of runner commands.

A command waits until its runner has taken or refused it; that decision is final and leaves
one event in the journal. The one exception is the end of a recovery run: it writes off the
command of the recovery with an unguarded `UPDATE`, and a command the runner has refused then
counts as dispatched. `CockpitOp.spares_refused` is what a call must respect.
-/
import Crony.Lifecycle.Cockpit

set_option autoImplicit false

open Crony.Lib

namespace Crony.Store

variable {env : Env}

/-! ## Terminal events -/

/-- The command an event of the journal reports the decision of. -/
def EventKey.decides : EventKey → Option Uuid
  | .runner_command_ack command_id | .runner_command_failed command_id => some command_id
  | _ => none

theorem EventKey.decides_of_routine {key : EventKey} (h : key.is_routine = true) :
    key.decides = none := by
  cases key <;> first | rfl | cases h

theorem Event.OfEnd.undecided {run_id : Uuid} {e : Event} (h : e.OfEnd run_id) :
    e.idempotency_key.decides = none := by
  rcases h.1 with hroutine | ⟨item, hkey | hkey | hkey⟩
  · exact EventKey.decides_of_routine hroutine
  · rw [hkey]
    rfl
  · rw [hkey]
    rfl
  · rw [hkey]
    rfl

/-- The event decides no command. -/
def Event.Undecided (e : Event) : Prop := e.idempotency_key.decides = none

theorem Event.Routine.undecided {e : Event} (h : e.Routine) : e.Undecided :=
  EventKey.decides_of_routine h.1

theorem ReportEffect.undecided {s t : Db} {row : RunnerRow} {payload : Json}
    {event_type : EventType}
    (h : ReportEffect s t row payload event_type) : Appends Event.Undecided s.events t.events := by
  cases h with
  | calm htype h => exact h.events.mono fun _ he => he.undecided
  | ended htype h => exact h.events.mono fun _ he => he.undecided
  | asked htype p hrun htask hagent h happ hworks hnew =>
    exact h.events.mono fun _ he => he.undecided
  | usage htype h =>
    unfold run_usage at h
    simp only [bind_eq_ok, pure_eq_ok] at h
    obtain ⟨_, -, rfl⟩ := h
    exact Appends.refl
  | evidence htype h =>
    obtain ⟨e, rfl, -⟩ := run_verification_evidence_ok h
    exact Appends.refl
  | passed htype h =>
    obtain ⟨_, _, _, -, -, -, rfl⟩ := run_verification_passed_ok h
    exact Appends.refl
  | waiting htype h hadv => exact hadv.events.mono fun _ he => he.undecided
  | completed htype hgate hadv => exact hadv.events.mono fun _ he => he.undecided

/-- **Only the two settling calls decide a command.** -/
theorem Effect.undecided {s t : Db} {op : Op} (hop : op.settles = none) (h : Effect s op t) :
    Appends Event.Undecided s.events t.events := by
  cases h with
  | calm h => exact h.events.mono fun _ he => he.undecided
  | settled command_id hsettles h =>
    rw [hop] at hsettles
    cases hsettles
  | admitted r _ h => exact h.events.mono fun _ he => he.undecided
  | raised now corp_id run_id run task mission stage incident command event _ _ _ _ h =>
    rw [h.state]
    dsimp only
    split
    · exact Appends.refl
    · refine Appends.one ?_
      unfold Event.Undecided
      rw [h.event_key]
      rfl
  | shelved l h ht =>
    rw [ht]
    exact Appends.refl
  | readied corp_id artifact_id a run task mission u _ _ _ h ht =>
    have hu : Appends Event.Undecided s.events u.events := h.events.mono fun _ he => he.undecided
    rw [ht]
    split
    · exact hu
    · exact hu
  | approved now input row actor _ _ _ hadv => exact hadv.events.mono fun _ he => he.undecided
  | reported now input row scope payload _ _ _ _ h =>
    have hreport : Appends Event.Undecided s.events
        (s.onEvents (· ++ [runner_event input row payload])).events := Appends.one rfl
    exact hreport.trans h.undecided

/-! ## The ledger of decided commands -/

/-- Commands are told apart by their id; a decision is journalled once, for a command that
is there and no longer pending. -/
structure CommandLedger (s : Db) : Prop where
  keyed : Keyed RunnerCommand.id s.runner_commands
  once : UniqueWhere (fun e : Event => e.idempotency_key.decides.isSome)
    (fun e => e.idempotency_key.decides) s.events
  decided : ∀ e ∈ s.events, ∀ id, e.idempotency_key.decides = some id →
    ∃ c ∈ s.runner_commands, c.id = id ∧ c.status ≠ .pending

theorem Commands.keyed {closes : Uuid → Uuid → Prop} {s t : Db} (h : Commands closes s t)
    (hs : Keyed RunnerCommand.id s.runner_commands) : Keyed RunnerCommand.id t.runner_commands := by
  obtain ⟨l, new, hold, hnew, hlen, hfresh⟩ := h
  rw [hnew]
  have hl : Keyed RunnerCommand.id l := hold.keyed hs fun _ _ hstep => hstep.id_eq
  refine hl.append ?_ ?_
  · rcases new with _ | ⟨c, _ | ⟨d, rest⟩⟩
    · simp [Keyed]
    · simp [Keyed]
    · simp at hlen
  · intro a ha b hb
    obtain ⟨c, hc, hstep⟩ := hold.exists_old ha
    rw [hstep.id_eq]
    exact (hfresh b hb).2 c hc

/-- A command that is decided stays decided, if only its outcome may be written over. -/
theorem Commands.persist {closes : Uuid → Uuid → Prop} {s t : Db} (h : Commands closes s t)
    {c : RunnerCommand} (hc : c ∈ s.runner_commands) :
    ∃ c' ∈ t.runner_commands, c.Step closes c' := by
  obtain ⟨l, new, hold, hnew, -, -⟩ := h
  obtain ⟨c', hc', hstep⟩ := hold.exists_new hc
  exact ⟨c', by rw [hnew]; exact List.mem_append_left _ hc', hstep⟩

theorem RunnerCommand.Step.decided_of {closes : Uuid → Uuid → Prop} {c c' : RunnerCommand}
    (h : c.Step closes c') (hst : c.status ≠ .pending) : c'.status ≠ .pending := by
  rcases h with _ | ⟨status, detail, hpending⟩ | ⟨-, -⟩
  · exact hst
  · exact absurd hpending hst
  · simp

/-- A step that decides nothing keeps the ledger. -/
theorem CommandLedger.of_undecided {closes : Uuid → Uuid → Prop} {s t : Db} (hs : CommandLedger s)
    (hcommands : Commands closes s t) (hevents : Appends Event.Undecided s.events t.events) :
    CommandLedger t where
  keyed := hcommands.keyed hs.keyed
  once := by
    obtain ⟨new, hnew, hundecided⟩ := hevents
    rw [hnew]
    refine hs.once.append_of_none fun e he => ?_
    rw [show e.idempotency_key.decides = none from hundecided e he]
    rfl
  decided := by
    intro e he id hid
    rcases hevents.mem he with he | he
    · obtain ⟨c, hc, hcid, hst⟩ := hs.decided e he id hid
      obtain ⟨c', hc', hstep⟩ := hcommands.persist hc
      exact ⟨c', hc', hstep.id_eq.trans hcid, hstep.decided_of hst⟩
    · rw [show e.idempotency_key.decides = none from he] at hid
      cases hid

/-- A settling call finds nothing pending, or decides the command it names. -/
theorem settle_runner_command_ledger {command_id : Uuid} {runner_id : String}
    {status : CommandStatus}
    {message : QueuedMessage → QueuedMessage} {settle : RunnerCommand → RunnerCommand}
    {event_type : String} {key : EventKey} {existed : String} {s t : Db} (hs : CommandLedger s)
    (hkey : key.decides = some command_id) (hfinal : status ≠ .pending)
    (hsettle : ∀ c,
    settle c = { c with status := status, failure_detail := (settle c).failure_detail })
    (h : settle_runner_command s command_id runner_id settle message event_type key existed
      = .ok t) : CommandLedger t := by
  unfold settle_runner_command at h
  split at h
  · rw [pure_eq_ok] at h
    rwa [← h]
  rename_i command hfind
  have hcommand := List.mem_of_find?_eq_some hfind
  have hselected := List.find?_some hfind
  simp only [Bool.and_eq_true, beq_iff_eq] at hselected
  obtain ⟨⟨hid, hrunner⟩, hpending⟩ := hselected
  simp only [bind_eq_ok, context_eq_ok, append_new_event_tx_ok] at h
  obtain ⟨message_id, -, ⟨run, task, mission⟩, -, -, ht⟩ := h
  have hcommands : t.runner_commands = updateWhere
      (fun c => c.id == command_id && c.runner_id == runner_id && c.status == .pending) settle
      s.runner_commands := by
    rw [ht]
    cases message_id <;> rfl
  obtain ⟨event, hevent, hevents⟩ : ∃ event : Event, event.idempotency_key = key
      ∧ t.events = s.events ++ [event] := by
    rw [ht]
    cases message_id
    · exact ⟨_, rfl, rfl⟩
    · exact ⟨_, rfl, rfl⟩
  have hupdated : Updated (fun c c' : RunnerCommand => c'.id = c.id
      ∧ (c.status ≠ .pending ∨ (c.id = command_id ∧ c.runner_id = runner_id) →
        c'.status ≠ .pending))
      s.runner_commands t.runner_commands := by
    rw [hcommands]
    apply Updated.of_updateWhere
    · intro c _ _
      rw [hsettle c]
      exact ⟨rfl, fun _ => hfinal⟩
    · intro c _ hnot
      refine ⟨rfl, fun hst => ?_⟩
      rcases hst with hst | ⟨hcid, hcrunner⟩
      · exact hst
      · intro hpend
        simp [hcid, hcrunner, hpend] at hnot
  refine ⟨hupdated.keyed hs.keyed fun _ _ hk => hk.1, ?_, ?_⟩
  · -- The command was pending, so no event decides it yet.
    rw [hevents]
    refine hs.once.append_singleton fun _ e he _ hsame => ?_
    rw [hevent, hkey] at hsame
    obtain ⟨c, hc, hcid, hst⟩ := hs.decided e he command_id hsame
    have hcc : c = command := hs.keyed.eq_of_mem hc hcommand (hcid.trans hid.symm)
    exact hst (hcc ▸ hpending)
  · intro e he id hdecides
    rw [hevents] at he
    rcases List.mem_append.mp he with he | he
    · obtain ⟨c, hc, hcid, hst⟩ := hs.decided e he id hdecides
      obtain ⟨c', hc', hk, hdecided⟩ := hupdated.exists_new hc
      exact ⟨c', hc', hk.trans hcid, hdecided (Or.inl hst)⟩
    · obtain rfl := List.mem_singleton.mp he
      rw [hevent, hkey, Option.some.injEq] at hdecides
      obtain ⟨c', hc', hk, hdecided⟩ := hupdated.exists_new hcommand
      exact ⟨c', hc', (hk.trans hid).trans hdecides, hdecided (Or.inr ⟨hid, hrunner⟩)⟩

theorem exec_command_ledger {s t : Db} (hinv : Inv s) (hs : CommandLedger s) {op : Op}
    (h : exec env s op = .ok t) : CommandLedger t := by
  cases hop : op.settles with
  | none =>
    have hevents := (exec_effect hinv.life hinv.linked h).undecided hop
    exact hs.of_undecided (exec_outbox h).commands hevents
  | some command_id =>
    cases op <;> try cases hop
    · exact settle_runner_command_ledger hs rfl (by simp) (fun _ => rfl) h
    · exact settle_runner_command_ledger hs rfl (by simp) (fun _ => rfl) h

theorem Cockpit.reachable_ledger {ok : Cockpit → CockpitOp → Prop} {s : Cockpit}
    (h : (cockpit env).ReachableVia ok s) : CommandLedger s.toDb := by
  have hboth : Inv s.toDb ∧ CommandLedger s.toDb := by
    refine h.invariant_of_exec (I := fun s : Cockpit => Inv s.toDb ∧ CommandLedger s.toDb) ?_ ?_
    · intro s h0
      refine ⟨h0.db.inv, ?_, ?_, ?_⟩
      · rw [h0.db.runner_commands]
        exact List.nodup_nil
      · rw [h0.db.events]
        exact List.nodup_nil
      · rw [h0.db.events]
        simp
    · rintro s op t ⟨hinv, hs⟩ - he
      refine ⟨Cockpit.exec_inv hinv he, ?_⟩
      rcases Cockpit.exec_cases he with ⟨o, -, ho, -⟩ | hside
      · exact Store.exec_command_ledger hinv hs ho
      · exact hs.of_undecided hside.outbox.commands (hside.events.mono fun _ he => he.undecided)
  exact hboth.2

/-! ## What the outbox promises -/

/-- The call writes off no command the runner has refused. -/
def CockpitOp.spares_refused (s : Cockpit) : CockpitOp → Prop
  | .lifecycle op => ∀ c ∈ s.runner_commands, c.status = .failed →
    c.command_kind = .factory_verification_recovery → op.writes_off s.toDb c.corp_id c.run_id
      = false
  | _ => True

instance (s : Cockpit) (op : CockpitOp) : Decidable (op.spares_refused s) := by
  delta CockpitOp.spares_refused
  cases op <;> exact inferInstance

/-- What became of the commands of `s` by `t`: none is gone, and a decided one is as it
was. -/
def Decided (s t : Cockpit) : Prop :=
  ∀ c ∈ s.runner_commands, ∃ c' ∈ t.runner_commands, c'.id = c.id ∧ c'.run_id = c.run_id
    ∧ c'.command_kind = c.command_kind ∧ c'.idempotency_key = c.idempotency_key
    ∧ (c.status ≠ .pending → c' = c)

/-- The commands `t` has and `s` has not are pending. -/
def Queued (s t : Cockpit) : Prop :=
  ∀ c' ∈ t.runner_commands, (∃ c ∈ s.runner_commands, c.id = c'.id) ∨ c'.status = .pending

/-- **The outbox in a state**: a command has at most one terminal event, and a report about
a decided command changes nothing. -/
structure OutboxSettled (env : Env) (s : Cockpit) : Prop where
  one_event : ∀ command_id, (s.events.filter fun e =>
    decide (e.idempotency_key.decides = some command_id)).length ≤ 1
  acknowledged : ∀ c ∈ s.runner_commands, c.status ≠ .pending → ∀ runner_id,
    (cockpit env).step s (.lifecycle (.acknowledge_runner_command c.id runner_id)) = s
  failed : ∀ c ∈ s.runner_commands, c.status ≠ .pending → ∀ runner_id detail,
    (cockpit env).step s (.lifecycle (.fail_runner_command c.id runner_id detail)) = s

theorem OutboxSettled.of_ledger {s : Cockpit} (h : CommandLedger s.toDb) : OutboxSettled env s := by
  have hnone : ∀ c ∈ s.runner_commands, c.status ≠ .pending → ∀ runner_id,
      s.runner_commands.find? (fun x => x.id == c.id && x.runner_id == runner_id
        && x.status == .pending) = none := by
    intro c hc hst runner_id
    refine List.find?_eq_none.mpr fun x hx hsel => ?_
    simp only [Bool.and_eq_true, beq_iff_eq] at hsel
    have hxc : x = c := h.keyed.eq_of_mem hx hc hsel.1.1
    exact hst (hxc ▸ hsel.2)
  refine ⟨fun command_id => ?_, fun c hc hst runner_id => ?_, fun c hc hst runner_id detail => ?_⟩
  · have hone := h.once.length_filter_le_one (some command_id)
    refine Nat.le_trans (Nat.le_of_eq (congrArg List.length ?_)) hone
    refine List.filter_congr fun e _ => ?_
    by_cases he : e.idempotency_key.decides = some command_id
    · simp [he]
    · simp [he]
  · have hcall : acknowledge_runner_command s.toDb c.id runner_id = .ok s.toDb := by
      unfold acknowledge_runner_command settle_runner_command
      rw [hnone c hc hst runner_id]
      rfl
    refine TransitionSystem.ofExec_step_ok ?_
    change s.onDb <$> acknowledge_runner_command s.toDb c.id runner_id = .ok s
    rw [hcall]
    rfl
  · have hcall : fail_runner_command s.toDb c.id runner_id detail = .ok s.toDb := by
      unfold fail_runner_command settle_runner_command
      rw [hnone c hc hst runner_id]
      rfl
    refine TransitionSystem.ofExec_step_ok ?_
    change s.onDb <$> fail_runner_command s.toDb c.id runner_id detail = .ok s
    rw [hcall]
    rfl

theorem Decided.refl (s : Cockpit) : Decided s s :=
  fun c hc => ⟨c, hc, rfl, rfl, rfl, rfl, fun _ => rfl⟩

theorem Decided.trans {s t u : Cockpit} (h : Decided s t) (h' : Decided t u) : Decided s u := by
  intro c hc
  obtain ⟨c', hc', hid, hrun, hkind, hkey, hsame⟩ := h c hc
  obtain ⟨c'', hc'', hid', hrun', hkind', hkey', hsame'⟩ := h' c' hc'
  refine ⟨c'', hc'', hid'.trans hid, hrun'.trans hrun, hkind'.trans hkind, hkey'.trans hkey, ?_⟩
  intro hst
  have hcc := hsame hst
  rw [hcc] at hsame'
  exact hsame' hst

/-- **Step lemma.** A call that spares the refused commands keeps every decision. -/
theorem Cockpit.exec_decided {s t : Cockpit} {op : CockpitOp} (hop : op.spares_refused s)
    (h : Cockpit.exec env s op = .ok t) : Decided s t := by
  have hkeep : ∀ {closes : Uuid → Uuid → Prop}, Commands closes s.toDb t.toDb →
      (∀ c ∈ s.runner_commands, c.status = .failed →
        c.command_kind = .factory_verification_recovery → ¬ closes c.corp_id c.run_id) →
      Decided s t := by
    intro closes hcommands hspares c hc
    obtain ⟨c', hc', hstep⟩ := hcommands.persist hc
    refine ⟨c', hc', ?_⟩
    rcases hstep with _ | ⟨status, detail, hpending⟩ | ⟨hkind, hclose⟩
    · exact ⟨rfl, rfl, rfl, rfl, fun _ => rfl⟩
    · exact ⟨rfl, rfl, rfl, rfl, fun hst => absurd hpending hst⟩
    · refine ⟨rfl, rfl, rfl, rfl, fun hst => ?_⟩
      cases hstatus : c.status with
      | pending => exact absurd hstatus hst
      | dispatched => rw [← hstatus]
      | failed => exact absurd hclose (hspares c hc hstatus hkind)
  rcases Cockpit.exec_cases h with ⟨o, rfl, ho, -⟩ | hside
  · refine hkeep (Store.exec_outbox ho).commands fun c hc hst hkind => ?_
    rw [hop c hc hst hkind]
    exact Bool.false_ne_true
  · exact hkeep hside.outbox.commands fun _ _ _ _ => id

theorem Cockpit.exec_queued {s t : Cockpit} {op : CockpitOp} (h : Cockpit.exec env s op = .ok t) :
    Queued s t := by
  have hnew : ∀ {closes : Uuid → Uuid → Prop}, Commands closes s.toDb t.toDb → Queued s t := by
    intro closes hcommands c' hc'
    obtain ⟨l, new, hold, hl, -, hpending⟩ := hcommands
    rw [hl] at hc'
    rcases List.mem_append.mp hc' with hc' | hc'
    · obtain ⟨c, hc, hstep⟩ := hold.exists_old hc'
      exact Or.inl ⟨c, hc, hstep.id_eq.symm⟩
    · exact Or.inr (hpending c' hc').1
  rcases Cockpit.exec_cases h with ⟨o, -, ho, -⟩ | hside
  · exact hnew (Store.exec_outbox ho).commands
  · exact hnew hside.outbox.commands

/-- **Runner command outbox.** In every run whose calls spare the refused commands, a command
starts pending, is decided at most once, keeps its decision and is reported decided at most
once; a repeated report changes nothing. -/
theorem runner_commands_settle_once (env : Env) (s t : Cockpit)
    (hs : (cockpit env).ReachableVia CockpitOp.spares_refused s)
    (ht : (cockpit env).Reaches CockpitOp.spares_refused s t) :
    Decided s t ∧ OutboxSettled env t ∧ ∀ op, Queued t ((cockpit env).step t op) := by
  have hreach : (cockpit env).ReachableVia CockpitOp.spares_refused t := by
    obtain ⟨a, h0, hrun⟩ := hs
    exact ⟨a, h0, hrun.trans ht⟩
  refine ⟨?_, OutboxSettled.of_ledger (Cockpit.reachable_ledger hreach), fun op => ?_⟩
  · refine ht.preserves_of_exec (I := Decided s) (Decided.refl s) ?_
    intro a op b ha hop he
    exact ha.trans (Cockpit.exec_decided hop he)
  · refine TransitionSystem.ofExec_step_cases (P := Queued t) ?_ fun u hu => Cockpit.exec_queued hu
    exact fun c hc => Or.inl ⟨c, hc, rfl⟩

namespace Office

/-- The runner refuses the recovery of a failed run. -/
def refused_recovery : List CockpitOp :=
  (failed_run ++ [recover 50 51 3, .fail_runner_command 1 "runner" "no checkout"]).map .lifecycle

/-- The runner comes back without the recovery run. -/
def lose_runner : CockpitOp :=
  .lifecycle (.mark_runner_runs_lost 0
    { runner_id := "runner", excluded_run_ids := [], created_before := none
      reason := "runner did not claim the run" })

end Office

set_option maxRecDepth 20000 in
/-- The rule is met by the run up to the refusal, and there is something to keep. -/
theorem runner_commands_settle_once_refused :
    (Office.desk_after Office.refused_recovery).runner_commands.map
        (fun c => (c.id, c.status)) = [(1, .failed)]
      ∧ Decided (Office.desk_after Office.refused_recovery)
        (Office.desk_after Office.refused_recovery)
      ∧ OutboxSettled Office.digest (Office.desk_after Office.refused_recovery)
      ∧ ∀ op, Queued (Office.desk_after Office.refused_recovery)
        ((cockpit Office.digest).step (Office.desk_after Office.refused_recovery) op) := by
  refine ⟨by decide +kernel, ?_⟩
  refine runner_commands_settle_once Office.digest _ _ ?_ Relation.ReflTransGen.refl
  exact TransitionSystem.ReachableVia.run Office.factory_desk_initial (by decide +kernel)

set_option maxRecDepth 20000 in
/-- **A refused command is written off as dispatched** when the runner comes back without the
recovery run. -/
theorem refused_command_is_dispatched :
    ∃ s op, (cockpit Office.digest).Reachable s ∧ ∃ c ∈ s.runner_commands, c.status = .failed
      ∧ ∃ c' ∈ ((cockpit Office.digest).step s op).runner_commands,
        c'.id = c.id ∧ c'.status = .dispatched :=
  ⟨Office.desk_after Office.refused_recovery, Office.lose_runner,
    Office.reachable_desk Office.refused_recovery, by decide +kernel⟩

end Crony.Store
