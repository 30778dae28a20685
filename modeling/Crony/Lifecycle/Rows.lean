/-
Reading rows, and what the Factory projections leave alone.

Two kinds of facts every later proof starts from. A join that found something found
rows of the tables, with the columns it compares equal. And the functions that project a
run's outcome onto Factory items write only items, recoveries and the journal: each has
one lemma that says so in the form "the new state is the old one with these tables
replaced", from which every "that table is unchanged" follows by computation.
-/
import Crony.Store.System

set_option autoImplicit false

open Crony.Lib

namespace Crony.Store

/-! ## Lookups -/

section Lookups

variable {s : Db}

theorem Db.run?_eq_some {id : Uuid} {r : Run} (h : s.run? id = some r) :
    r ∈ s.runs ∧ r.id = id :=
  ⟨List.mem_of_find?_eq_some h, by simpa using List.find?_some h⟩

theorem Db.task?_eq_some {id : Uuid} {t : Task} (h : s.task? id = some t) :
    t ∈ s.tasks ∧ t.id = id :=
  ⟨List.mem_of_find?_eq_some h, by simpa using List.find?_some h⟩

theorem Db.mission?_eq_some {id : Uuid} {m : Mission} (h : s.mission? id = some m) :
    m ∈ s.missions ∧ m.id = id :=
  ⟨List.mem_of_find?_eq_some h, by simpa using List.find?_some h⟩

theorem Db.agent?_eq_some {id : Uuid} {a : Agent} (h : s.agent? id = some a) :
    a ∈ s.agents ∧ a.id = id :=
  ⟨List.mem_of_find?_eq_some h, by simpa using List.find?_some h⟩

/-- The rows `run_task_mission` joins. -/
structure Joined (s : Db) (corp_id run_id : Uuid) (run : Run) (task : Task) (mission : Mission) :
    Prop where
  run_mem : run ∈ s.runs
  run_id : run.id = run_id
  corp_id : run.corp_id = corp_id
  task_mem : task ∈ s.tasks
  task_id : task.id = run.task_id
  mission_mem : mission ∈ s.missions
  mission_id : mission.id = task.mission_id

theorem Db.run_task_mission_eq_some {corp_id run_id : Uuid} {run : Run} {task : Task}
    {mission : Mission} (h : s.run_task_mission corp_id run_id = some (run, task, mission)) :
    Joined s corp_id run_id run task mission := by
  unfold Db.run_task_mission at h
  simp only [Option.bind_eq_bind, Option.bind_eq_some_iff, Option.pure_def, Option.some.injEq,
    Prod.mk.injEq] at h
  obtain ⟨r, hr, t, ht, m, hm, rfl, rfl, rfl⟩ := h
  obtain ⟨hr, hcorp⟩ := Option.filter_eq_some_iff.mp hr
  obtain ⟨hrm, hrid⟩ := Db.run?_eq_some hr
  obtain ⟨htm, htid⟩ := Db.task?_eq_some ht
  obtain ⟨hmm, hmid⟩ := Db.mission?_eq_some hm
  exact ⟨hrm, hrid, by simpa using hcorp, htm, htid, hmm, hmid⟩

theorem Db.run_task_mission_scoped_eq_some {corp_id run_id : Uuid} {run : Run} {task : Task}
    {mission : Mission}
    (h : s.run_task_mission_scoped corp_id run_id = some (run, task, mission)) :
    Joined s corp_id run_id run task mission ∧ task.corp_id = run.corp_id
      ∧ mission.corp_id = task.corp_id := by
  obtain ⟨hj, hc⟩ := Option.filter_eq_some_iff.mp h
  simp only [Bool.and_eq_true, beq_iff_eq] at hc
  exact ⟨Db.run_task_mission_eq_some hj, hc.1, hc.2⟩

end Lookups

/-! ## Journal entries of the server

The journal is read back in a few places only: redeliveries are recognised by the keys of
runner events, usage is the sum of `run.usage` reports, a passed verification names its
digests. A routine entry plays none of these roles. -/

/-- The keys some later argument looks for. -/
def EventKey.is_routine : EventKey → Bool
  | .runner_event .. | .factory_run_failed .. | .breaker_event ..
  | .factory_verification_failed _ _ .recovery_run_failure
  | .factory_verification_failed _ _ .recovery_run_cancelled
  | .runner_command_ack _ | .runner_command_failed _ => false
  | _ => true

/-- The types some later argument looks for. -/
def EventType.is_routine : EventType → Bool
  | .run_usage | .run_verification_passed => false
  | _ => true

/-- The journal grew by entries that satisfy `P`. -/
def Appends (P : Event → Prop) (l m : List Event) : Prop := ∃ new, m = l ++ new ∧ ∀ e ∈ new, P e

/-- An entry of the server's own that nothing looks for. -/
def Event.Routine (e : Event) : Prop :=
  e.idempotency_key.is_routine = true ∧ e.type.is_routine = true

namespace Appends

variable {P Q : Event → Prop} {l m n : List Event}

theorem refl : Appends P l l := ⟨[], by simp, by simp⟩

theorem one {e : Event} (h : P e) : Appends P l (l ++ [e]) := ⟨[e], rfl, by simpa using h⟩

theorem trans (h : Appends P l m) (h' : Appends P m n) : Appends P l n := by
  obtain ⟨new, rfl, hnew⟩ := h
  obtain ⟨new', rfl, hnew'⟩ := h'
  refine ⟨new ++ new', by rw [List.append_assoc], ?_⟩
  intro e he
  rcases List.mem_append.mp he with he | he
  · exact hnew e he
  · exact hnew' e he

theorem mono (h : Appends P l m) (hPQ : ∀ e, P e → Q e) : Appends Q l m := by
  obtain ⟨new, hm, hnew⟩ := h
  exact ⟨new, hm, fun e he => hPQ e (hnew e he)⟩

/-- A later entry is an earlier one or satisfies `P`. -/
theorem mem (h : Appends P l m) {e : Event} (he : e ∈ m) : e ∈ l ∨ P e := by
  obtain ⟨new, rfl, hnew⟩ := h
  rcases List.mem_append.mp he with he | he
  · exact Or.inl he
  · exact Or.inr (hnew e he)

theorem mem_of_mem (h : Appends P l m) {e : Event} (he : e ∈ l) : e ∈ m := by
  obtain ⟨new, rfl, -⟩ := h
  exact List.mem_append_left _ he

end Appends

/-- A recorded event that may exist. -/
theorem record_event_tx_appends {s t : Db} {event : Event} (h : record_event_tx s event = .ok t)
    {P : Event → Prop} (hP : P { event with id := s.next_event_id }) :
    ∃ evs, t = { s with events := evs } ∧ Appends P s.events evs := by
  rw [record_event_tx_ok] at h
  subst h
  by_cases hk : s.recorded event.corp_id event.idempotency_key = true
  · exact ⟨s.events, by rw [if_pos hk], Appends.refl⟩
  · exact ⟨_, by rw [if_neg hk]; rfl, Appends.one hP⟩

/-! ## Factory projections -/

variable {env : Env}

/-- An item keeps its identity and the mission it is linked to. -/
structure FactoryWorkItem.Kept (i i' : FactoryWorkItem) : Prop where
  id : i'.id = i.id
  corp_id : i'.corp_id = i.corp_id
  mission_id : i'.mission_id = i.mission_id

/-- Only the status of a recovery changes. -/
def FactoryVerificationRecovery.Kept (r r' : FactoryVerificationRecovery) : Prop :=
  r' = { r with status := r'.status }

theorem FactoryWorkItem.Kept.refl (i : FactoryWorkItem) : i.Kept i := ⟨rfl, rfl, rfl⟩

theorem FactoryWorkItem.Kept.trans {a b c : FactoryWorkItem} (h : a.Kept b) (h' : b.Kept c) :
    a.Kept c :=
  ⟨h'.id.trans h.id, h'.corp_id.trans h.corp_id, h'.mission_id.trans h.mission_id⟩

theorem FactoryVerificationRecovery.Kept.refl (r : FactoryVerificationRecovery) : r.Kept r := rfl

theorem FactoryVerificationRecovery.Kept.trans {a b c : FactoryVerificationRecovery}
    (h : a.Kept b) (h' : b.Kept c) : a.Kept c := by
  unfold FactoryVerificationRecovery.Kept at *
  rw [h', h]

/-- No item is linked and no recovery admitted. -/
structure Bindings (s t : Db) : Prop where
  items : Updated FactoryWorkItem.Kept s.factory_work_items t.factory_work_items
  recoveries : Updated FactoryVerificationRecovery.Kept s.factory_verification_recoveries
    t.factory_verification_recoveries

namespace Bindings

variable {s t u : Db}

theorem refl : Bindings s s :=
  ⟨Updated.refl fun i _ => FactoryWorkItem.Kept.refl i,
    Updated.refl fun r _ => FactoryVerificationRecovery.Kept.refl r⟩

theorem trans (h : Bindings s t) (h' : Bindings t u) : Bindings s u :=
  ⟨h.items.trans h'.items fun _ _ _ _ hi hi' => hi.trans hi',
    h.recoveries.trans h'.recoveries fun _ _ _ _ hr hr' => hr.trans hr'⟩

theorem of_eq (hitems : t.factory_work_items = s.factory_work_items)
    (hrecoveries : t.factory_verification_recoveries = s.factory_verification_recoveries) :
    Bindings s t := by
  constructor
  · rw [hitems]
    exact Bindings.refl.items
  · rw [hrecoveries]
    exact Bindings.refl.recoveries

/-- A statement that sets columns of items no binding is in. -/
theorem of_items {p : FactoryWorkItem → Bool} {f : FactoryWorkItem → FactoryWorkItem}
    (hitems : t.factory_work_items = updateWhere p f s.factory_work_items)
    (hrecoveries : t.factory_verification_recoveries = s.factory_verification_recoveries)
    (hf : ∀ i : FactoryWorkItem, i.Kept (f i)) : Bindings s t := by
  constructor
  · rw [hitems]
    exact Updated.of_updateWhere (fun i _ _ => hf i) fun i _ _ => FactoryWorkItem.Kept.refl i
  · rw [hrecoveries]
    exact Bindings.refl.recoveries

/-- A statement that ends recoveries. -/
theorem of_recoveries {p : FactoryVerificationRecovery → Bool} {status : RecoveryStatus}
    (hitems : t.factory_work_items = s.factory_work_items)
    (hrecoveries : t.factory_verification_recoveries
      = updateWhere p (fun r => { r with status := status }) s.factory_verification_recoveries) :
    Bindings s t := by
  constructor
  · rw [hitems]
    exact Bindings.refl.items
  · rw [hrecoveries]
    exact Updated.of_updateWhere (fun r _ _ => rfl)
      fun r _ _ => FactoryVerificationRecovery.Kept.refl r

end Bindings

/-- A recovery for the run is inserted; no item is linked and the other recoveries keep what
they are bound to. -/
structure Authorizes (s t : Db) (run : Run) (recovery : FactoryVerificationRecovery) : Prop where
  items : Updated FactoryWorkItem.Kept s.factory_work_items t.factory_work_items
  recoveries : ∃ olds, t.factory_verification_recoveries = olds ++ [recovery]
    ∧ Updated FactoryVerificationRecovery.Kept s.factory_verification_recoveries olds
    ∧ ∀ x ∈ olds, x.id ≠ recovery.id ∧ x.replacement_run_id ≠ recovery.replacement_run_id
  replacement : recovery.replacement_run_id = some run.id
  task_id : recovery.task_id = run.task_id
  corp_id : recovery.corp_id = run.corp_id

/-- The tables a Factory projection may write. -/
def FactoryOnly (P : Event → Prop) (s t : Db) : Prop :=
  ∃ items recs evs, t = { s with
      factory_work_items := items
      factory_verification_recoveries := recs
      events := evs } ∧ Appends P s.events evs ∧ Bindings s t

theorem FactoryOnly.refl {P : Event → Prop} {s : Db} : FactoryOnly P s s :=
  ⟨_, _, _, rfl, Appends.refl, Bindings.refl⟩

/-- A projection that returns at once. -/
theorem FactoryOnly.of_pure {P : Event → Prop} {s t : Db}
    (h : (pure s : Except String Db) = .ok t) : FactoryOnly P s t := by
  rw [pure_eq_ok] at h
  subst h
  exact FactoryOnly.refl

theorem FactoryOnly.mono {P Q : Event → Prop} {s t : Db} (h : FactoryOnly P s t)
    (hPQ : ∀ e, P e → Q e) : FactoryOnly Q s t := by
  obtain ⟨items, recs, evs, ht, hevs, hkept⟩ := h
  exact ⟨items, recs, evs, ht, hevs.mono hPQ, hkept⟩

theorem FactoryOnly.bindings {P : Event → Prop} {s t : Db} (h : FactoryOnly P s t) :
    Bindings s t := by
  obtain ⟨items, recs, evs, -, -, hkept⟩ := h
  exact hkept

theorem reconcile_tx_frame {s t : Db} {scope : RunScope} {corp_id room_id task_id run_id : Uuid}
    {reason : String}
    (h : reconcile_tx env s scope corp_id room_id task_id run_id reason = .ok t) :
    FactoryOnly (fun e => (∃ item, e.idempotency_key = .factory_run_failed item run_id)
      ∧ e.type.is_routine = true) s t := by
  unfold reconcile_tx at h
  split at h
  · exact FactoryOnly.of_pure h
  · rename_i item_id hitem
    obtain ⟨mission, -, h⟩ := bind_eq_ok.mp h
    split at h
    · exact FactoryOnly.of_pure h
    · obtain ⟨item, -, h⟩ := bind_eq_ok.mp h
      split at h
      · exact FactoryOnly.of_pure h
      · rw [append_new_event_tx_ok] at h
        obtain ⟨-, rfl⟩ := h
        exact ⟨_, _, _, rfl, Appends.one ⟨⟨item_id, rfl⟩, rfl⟩,
          Bindings.of_items rfl rfl fun _ => ⟨rfl, rfl, rfl⟩⟩

theorem reconcile_factory_verification_failure_tx_frame {s t : Db}
    {corp_id mission_id room_id run_id : Uuid} {actor_id : Option Uuid} {detail : String}
    {cause : FailureCause}
    (h : reconcile_factory_verification_failure_tx s corp_id mission_id room_id run_id actor_id
      detail cause = .ok t) :
    FactoryOnly (fun e =>
      (∃ item, e.idempotency_key = .factory_verification_failed item run_id cause)
      ∧ e.type.is_routine = true) s t := by
  unfold reconcile_factory_verification_failure_tx at h
  obtain ⟨text, -, h⟩ := bind_eq_ok.mp h
  split at h
  · exact FactoryOnly.of_pure h
  · rename_i current hcurrent
    split at h
    · exact FactoryOnly.of_pure h
    split at h
    · exact FactoryOnly.of_pure h
    · obtain ⟨_, -, h⟩ := bind_eq_ok.mp h
      rw [append_new_event_tx_ok] at h
      obtain ⟨-, rfl⟩ := h
      refine ⟨_, _, _, rfl, Appends.one ⟨⟨current.id, rfl⟩, rfl⟩, ?_⟩
      constructor
      · exact Updated.of_updateWhere (fun i _ _ => ⟨rfl, rfl, rfl⟩)
          fun i _ _ => FactoryWorkItem.Kept.refl i
      · exact Updated.of_updateWhere (fun r _ _ => rfl)
          fun r _ _ => FactoryVerificationRecovery.Kept.refl r

theorem reconcile_factory_verified_tx_frame {s t : Db} {corp_id mission_id room_id run_id : Uuid}
    {actor_id : Option Uuid}
    (h : reconcile_factory_verified_tx s corp_id mission_id room_id run_id actor_id = .ok t) :
    FactoryOnly Event.Routine s t := by
  unfold reconcile_factory_verified_tx at h
  split at h
  · exact FactoryOnly.of_pure h
  · split at h
    · exact FactoryOnly.of_pure h
    · obtain ⟨_, -, h⟩ := bind_eq_ok.mp h
      obtain ⟨_, -, h⟩ := bind_eq_ok.mp h
      rw [append_new_event_tx_ok] at h
      obtain ⟨-, rfl⟩ := h
      exact ⟨_, _, _, rfl, Appends.one ⟨rfl, rfl⟩, Bindings.of_items rfl rfl fun _ =>
        ⟨rfl, rfl, rfl⟩⟩

theorem reconcile_factory_awaiting_approval_tx_frame {s t : Db}
    {corp_id mission_id room_id run_id : Uuid}
    (h : reconcile_factory_awaiting_approval_tx s corp_id mission_id room_id run_id = .ok t) :
    FactoryOnly Event.Routine s t := by
  unfold reconcile_factory_awaiting_approval_tx at h
  split at h
  · exact FactoryOnly.of_pure h
  · split at h
    · exact FactoryOnly.of_pure h
    · obtain ⟨mission, -, h⟩ := bind_eq_ok.mp h
      split at h
      · exact FactoryOnly.of_pure h
      · obtain ⟨_, -, h⟩ := bind_eq_ok.mp h
        rw [append_new_event_tx_ok] at h
        obtain ⟨-, rfl⟩ := h
        exact ⟨_, _, _, rfl, Appends.one ⟨rfl, rfl⟩, Bindings.of_items rfl rfl fun _ =>
          ⟨rfl, rfl, rfl⟩⟩

theorem resume_tx_frame {s t : Db} {scope : RunScope} {corp_id room_id source_run_id : Uuid}
    {source_status : RunStatus} {run_id actor_id : Uuid}
    (h : resume_tx env s scope corp_id room_id source_run_id source_status run_id actor_id
      = .ok t) :
    FactoryOnly Event.Routine s t := by
  unfold resume_tx at h
  split at h
  · exact FactoryOnly.of_pure h
  · obtain ⟨item, -, h⟩ := bind_eq_ok.mp h
    obtain ⟨_, -, h⟩ := bind_eq_ok.mp h
    split at h
    · exact FactoryOnly.of_pure h
    · split at h
      · exact FactoryOnly.of_pure h
      · split at h
        · exact FactoryOnly.of_pure h
        · rw [append_new_event_tx_ok] at h
          obtain ⟨-, rfl⟩ := h
          exact ⟨_, _, _, rfl, Appends.one ⟨rfl, rfl⟩, Bindings.of_items rfl rfl fun _ =>
            ⟨rfl, rfl, rfl⟩⟩

end Crony.Store
