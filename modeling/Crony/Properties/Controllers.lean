/-
What holds of a Factory controller over whole runs of its three operations.

A committed operation replays, inserts a controller, or rewrites one row in one of three
ways (`ControllerEffect`); everything here is read off that list.

* The generations of a controller are ordered and never decrease, and a wait that is not
  over is never shortened. The observation of the upstream quota is different: a heartbeat
  whose polling state carries no observation erases the recorded one, and the next
  heartbeat may then bring an older observation. Along runs without such a heartbeat the
  recorded observation never moves backwards.
* The work item of a controller belongs to its source exactly as long as no accepted
  `configure_factory_controller` takes a controller with an active work item to a source
  the item does not belong to: `configure` rewrites the source and keeps the item.
-/
import Crony.Store.Controllers

set_option autoImplicit false

open Crony.Lib

namespace Crony.Store

/-! ## What the checks establish -/

/-- An accepted polling update keeps a wait that is not over, or extends it. -/
theorem validate_polling_update_wait {prior next : FactoryPollingState} {now : Int}
    (h : validate_polling_update prior next now = .ok ()) {r : DateTime}
    (hr : prior.next_retry_at = some r) (hnow : now < r.val) :
    ∃ r', next.next_retry_at = some r' ∧ r ≤ r' := by
  simp only [validate_polling_update, bind_eq_ok, ensure_eq_ok] at h
  obtain ⟨_, -, _, hwait, -⟩ := h
  obtain ⟨r', hr', hle⟩ := hwait r hr hnow
  exact ⟨r', hr', hle⟩

/-- An accepted quota observation is not older than the recorded one. -/
theorem validate_polling_update_observation {prior next : FactoryPollingState} {now : Int}
    (h : validate_polling_update prior next now = .ok ()) {old quota : GithubGraphqlQuota}
    (hold : prior.graphql = some old) (hquota : next.graphql = some quota) :
    old.observed_at ≤ quota.observed_at := by
  simp only [validate_polling_update, bind_eq_ok, ensure_eq_ok, hquota,
    validate_quota_observation] at h
  obtain ⟨_, -, _, -, _, -, _, -, _, -, hle⟩ := h
  exact hle old hold

theorem Watch.append_event_tx_ok {s s' : Watch} {event : Event} {r : Option Event}
    (h : s.append_event_tx event = .ok (r, s')) :
    s'.factory_controllers = s.factory_controllers
      ∧ s'.factory_controller_operations = s.factory_controller_operations
      ∧ s'.factory_work_items = s.factory_work_items := by
  simp only [Watch.append_event_tx, bind_eq_ok, pure_eq_ok, Prod.mk.injEq] at h
  obtain ⟨⟨r', db⟩, happ, -, rfl⟩ := h
  rcases Store.append_event_tx_ok.mp happ with ⟨-, -, rfl⟩ | ⟨-, -, -, rfl⟩
  · exact ⟨rfl, rfl, rfl⟩
  · exact ⟨rfl, rfl, rfl⟩

/-- An event with an identifier of its own can always be appended. -/
theorem Watch.append_event_tx_succeeds (s : Watch) (event : Event) :
    ∃ r s', s.append_event_tx event = .ok (r, s') := by
  unfold Watch.append_event_tx
  by_cases hk : s.toDb.recorded event.corp_id event.idempotency_key = true
  · have happ : Store.append_event_tx s.toDb { event with id := s.toDb.next_event_id }
        = .ok (none, s.toDb) := Store.append_event_tx_ok.mpr (Or.inl ⟨hk, rfl, rfl⟩)
    rw [happ]
    exact ⟨none, _, rfl⟩
  · have hk' : s.toDb.recorded event.corp_id event.idempotency_key = false := by simpa using hk
    have happ : Store.append_event_tx s.toDb { event with id := s.toDb.next_event_id }
        = .ok (some { event with id := s.toDb.next_event_id },
            s.toDb.onEvents (· ++ [{ event with id := s.toDb.next_event_id }])) :=
      Store.append_event_tx_ok.mpr (Or.inr ⟨hk', next_event_id_fresh s.toDb, rfl, rfl⟩)
    rw [happ]
    exact ⟨_, _, rfl⟩

theorem Watch.report_status_ok {s s' : Watch} {input : HeartbeatFactoryControllerInput}
    {current controller : FactoryController} {r : Option Event}
    (h : s.report_status input current controller = .ok (r, s')) :
    s'.factory_controllers = s.factory_controllers
      ∧ s'.factory_work_items = s.factory_work_items := by
  unfold Watch.report_status at h
  split at h
  · simp only [pure_eq_ok, Prod.mk.injEq] at h
    obtain ⟨-, rfl⟩ := h
    exact ⟨rfl, rfl⟩
  · obtain ⟨hrows, -, hitems⟩ := Watch.append_event_tx_ok h
    exact ⟨hrows, hitems⟩

/-- The checks of `configure_factory_controller` that a request which is no replay passes:
the bounds of its fields, a new key, an existing actor, a free scope, and an identifier of
no other Corp. -/
structure Watch.Configures (s : Watch) (input : ConfigureFactoryControllerInput) : Prop where
  lease_seconds : validate_lease_seconds input.lease_seconds = .ok ()
  project_owner : validate_component input.source_project_owner "source project owner" = .ok ()
  repository_owner :
    validate_component input.source_repository_owner "source repository owner" = .ok ()
  repository_name :
    validate_component input.source_repository_name "source repository name" = .ok ()
  idempotency_key : validate_idempotency_key input.idempotency_key = .ok ()
  project_number : 0 < input.source_project_number
  key_new : s.factory_controller_operations.find? (fun o =>
    o.corp_id == input.corp_id && o.idempotency_key == input.idempotency_key) = none
  actor : ∃ a ∈ s.actors, a.id = input.actor_id
  scope_free : ∀ c ∈ s.factory_controllers, c.id ≠ input.controller_id → c.scope ≠ input.scope
  same_corp : ∀ c, s.factory_controllers.find? (fun c => c.id == input.controller_id) = some c →
    c.corp_id = input.corp_id

/-- What a heartbeat that is accepted has checked of the controller it reports on. -/
structure Watch.Heartbeats (s : Watch) (now : Int) (input : HeartbeatFactoryControllerInput)
    (current : FactoryController) (b : HeartbeatColumns) : Prop where
  found : s.controller_for_update_tx input.corp_id input.controller_id = some current
  service_actor_id : current.service_actor_id = input.actor_id
  connection_epoch : current.connection_epoch = input.connection_epoch
  completed_le : current.completed_reconcile_generation ≤ b.next_completed
  le_reconcile : b.next_completed ≤ current.reconcile_generation
  belongs : ∀ work_item_id ∈ input.active_work_item_id,
    s.toDb.item_belongs (input.corp_id, current.scope.2) work_item_id
  polling_eq : b.polling = input.polling.getD current.polling
  polling : validate_polling_update current.polling b.polling now = .ok ()

/-! ## What an operation does -/

/-- The committed effects of the three operations on the table of the controllers. -/
inductive ControllerEffect (s t : Watch) : ControllerOp → Prop
  | replayed (op : ControllerOp) (h : t.factory_controllers = s.factory_controllers) :
      ControllerEffect s t op
  | inserted (now : Int) (input : ConfigureFactoryControllerInput) (hchecks : s.Configures input)
      (hnew : ∀ c ∈ s.factory_controllers, c.id ≠ input.controller_id)
      (h : t.factory_controllers = s.factory_controllers ++ [input.inserted now]) :
      ControllerEffect s t (.configure now input)
  | reconfigured (now : Int) (input : ConfigureFactoryControllerInput)
      (hchecks : s.Configures input)
      (h : t.factory_controllers = updateWhere (fun c => c.id == input.controller_id
        && c.corp_id == input.corp_id) (input.updated now) s.factory_controllers) :
      ControllerEffect s t (.configure now input)
  | heartbeat (now : Int) (input : HeartbeatFactoryControllerInput) (current : FactoryController)
      (b : HeartbeatColumns) (hchecks : s.Heartbeats now input current b)
      (h : t.factory_controllers = updateWhere (fun c => c.id == input.controller_id
        && c.corp_id == input.corp_id && c.connection_epoch == input.connection_epoch)
        (input.updated b) s.factory_controllers) :
      ControllerEffect s t (.heartbeat now input)
  | controlled (now : Int) (input : ControlFactoryControllerInput) (action : ControllerAction)
      (h : t.factory_controllers = updateWhere (fun c => c.id == input.controller_id
        && c.corp_id == input.corp_id && c.version == input.expected_version)
        action.updated s.factory_controllers) :
      ControllerEffect s t (.control now input)

theorem configure_factory_controller_ok {s : Watch} {now : Int}
    {input : ConfigureFactoryControllerInput} {r : FactoryControllerOutcome}
    (h : configure_factory_controller s now input = .ok r) :
    ControllerEffect s r.state (.configure now input)
      ∧ r.state.factory_work_items = s.factory_work_items := by
  simp only [configure_factory_controller, bind_eq_ok, ensure_eq_ok] at h
  obtain ⟨⟨⟩, hlease, ⟨⟩, howner, ⟨⟩, hrepo, ⟨⟩, hname, ⟨⟩, hkey, _, hnumber, replay, hreplay, h⟩ :=
    h
  cases replay with
  | some controller =>
    rw [pure_eq_ok] at h
    subst h
    exact ⟨.replayed _ rfl, rfl⟩
  | none =>
    simp only [bind_eq_ok, pure_eq_ok] at h
    obtain ⟨⟨controller, s₁⟩, hupsert, ⟨event, s₂⟩, hevent, rfl⟩ := h
    have hfree : s.factory_controller_operations.find? (fun o =>
        o.corp_id == input.corp_id && o.idempotency_key == input.idempotency_key) = none := by
      simp only [Watch.replay_operation_tx] at hreplay
      split at hreplay
      · assumption
      · simp only [bind_eq_ok, map_eq_ok, reduceCtorEq, and_false, exists_false] at hreplay
    obtain ⟨hrows, -, hitems⟩ := Watch.append_event_tx_ok hevent
    simp only [Watch.upsert_controller, bind_eq_ok, ensure_eq_ok] at hupsert
    obtain ⟨_, hactor, _, hscope, hupsert⟩ := hupsert
    split at hupsert
    · rename_i hfind
      simp only [pure_eq_ok, Prod.mk.injEq] at hupsert
      obtain ⟨-, rfl⟩ := hupsert
      have hnew : ∀ c ∈ s.factory_controllers, c.id ≠ input.controller_id := by
        intro c hc hid
        exact List.find?_eq_none.mp hfind c hc (beq_iff_eq.mpr hid)
      refine ⟨.inserted now input ⟨hlease, howner, hrepo, hname, hkey, hnumber, hfree, hactor,
        hscope, ?_⟩ hnew hrows, hitems⟩
      intro c hc
      rw [hfind] at hc
      cases hc
    · rename_i c hfind
      simp only [bind_eq_ok, ensure_eq_ok, pure_eq_ok, Prod.mk.injEq] at hupsert
      obtain ⟨_, hcorp, -, rfl⟩ := hupsert
      refine ⟨.reconfigured now input ⟨hlease, howner, hrepo, hname, hkey, hnumber, hfree, hactor,
        hscope, ?_⟩ hrows, hitems⟩
      intro d hd
      rw [hfind, Option.some.injEq] at hd
      exact hd ▸ hcorp

theorem heartbeat_factory_controller_ok {s : Watch} {now : Int}
    {input : HeartbeatFactoryControllerInput} {r : FactoryControllerOutcome}
    (h : heartbeat_factory_controller s now input = .ok r) :
    ControllerEffect s r.state (.heartbeat now input)
      ∧ r.state.factory_work_items = s.factory_work_items := by
  simp only [heartbeat_factory_controller, bind_eq_ok, ensure_eq_ok, context_eq_ok,
    pure_eq_ok] at h
  obtain ⟨_, -, error, -, result, -, current, hfound, _, hactor, _, hepoch, _, ⟨hle, hge⟩, _, -,
    _, hitem, ⟨⟩, hpolling, ⟨event, s'⟩, hevent, rfl⟩ := h
  obtain ⟨hrows, hitems⟩ := Watch.report_status_ok hevent
  exact ⟨.heartbeat now input current _ ⟨hfound, hactor, hepoch, hle, hge, hitem, rfl, hpolling⟩
    hrows, hitems⟩

theorem control_factory_controller_ok {s : Watch} {now : Int}
    {input : ControlFactoryControllerInput} {r : FactoryControllerOutcome}
    (h : control_factory_controller s now input = .ok r) :
    ControllerEffect s r.state (.control now input)
      ∧ r.state.factory_work_items = s.factory_work_items := by
  simp only [control_factory_controller, bind_eq_ok] at h
  obtain ⟨_, -, action, -, replay, -, h⟩ := h
  cases replay with
  | some controller =>
    rw [pure_eq_ok] at h
    subst h
    exact ⟨.replayed _ rfl, rfl⟩
  | none =>
    simp only [bind_eq_ok, context_eq_ok, ensure_eq_ok, pure_eq_ok] at h
    obtain ⟨current, -, _, -, _, -, ⟨event, s'⟩, hevent, rfl⟩ := h
    obtain ⟨hrows, -, hitems⟩ := Watch.append_event_tx_ok hevent
    exact ⟨.controlled now input action hrows, hitems⟩

/-- **What an operation does.** -/
theorem Watch.exec_effect {s t : Watch} {op : ControllerOp} (h : s.exec op = .ok t) :
    ControllerEffect s t op ∧ t.factory_work_items = s.factory_work_items := by
  cases op with
  | configure now input =>
    obtain ⟨r, hr, rfl⟩ := map_eq_ok.mp h
    exact configure_factory_controller_ok hr
  | heartbeat now input =>
    obtain ⟨r, hr, rfl⟩ := map_eq_ok.mp h
    exact heartbeat_factory_controller_ok hr
  | control now input =>
    obtain ⟨r, hr, rfl⟩ := map_eq_ok.mp h
    exact control_factory_controller_ok hr

/-! ## Rows

An identifier names one row, and the completed generation of a row is at most the requested
one. -/

structure Watch.Sound (s : Watch) : Prop where
  keyed : Keyed FactoryController.id s.factory_controllers
  ordered : ∀ c ∈ s.factory_controllers,
    c.completed_reconcile_generation ≤ c.reconcile_generation

/-- The row a request names is the only row with its identifier. -/
theorem Watch.Sound.eq_of_found {s : Watch} (hs : s.Sound) {corp_id controller_id : Uuid}
    {current c : FactoryController}
    (hfound : s.controller_for_update_tx corp_id controller_id = some current)
    (hc : c ∈ s.factory_controllers) (hid : c.id = controller_id) : c = current := by
  have hmem := List.mem_of_find?_eq_some hfound
  have hsome := List.find?_some hfound
  rw [Bool.and_eq_true, beq_iff_eq, beq_iff_eq] at hsome
  exact hs.keyed.eq_of_mem hc hmem (hid.trans hsome.1.symm)

/-- A request never lowers the requested generation. -/
theorem ControllerAction.updated_reconcile_generation (action : ControllerAction)
    (c : FactoryController) :
    c.reconcile_generation ≤ (action.updated c).reconcile_generation := by
  cases action with
  | pause => simp [ControllerAction.updated]
  | resume => simp [ControllerAction.updated]
  | reconcile => simp [ControllerAction.updated]

/-- An accepted operation keeps the rows keyed and ordered. -/
theorem ControllerEffect.sound {s t : Watch} {op : ControllerOp} (h : ControllerEffect s t op)
    (hs : s.Sound) : t.Sound := by
  cases h with
  | replayed _ h => exact ⟨h ▸ hs.keyed, h ▸ hs.ordered⟩
  | inserted now input _ hnew h =>
    refine ⟨?_, ?_⟩
    · rw [h]
      exact hs.keyed.append_singleton fun c hc => hnew c hc
    · intro c hc
      rw [h] at hc
      rcases List.mem_append.mp hc with hc | hc
      · exact hs.ordered c hc
      · rw [List.mem_singleton.mp hc]
        exact Int.le_refl 0
  | reconfigured now input _ h =>
    refine ⟨?_, ?_⟩
    · rw [h]
      exact hs.keyed.updateWhere fun _ _ => rfl
    · intro c hc
      rw [h] at hc
      obtain ⟨d, hd, rfl⟩ := mem_updateWhere.mp hc
      split
      · exact hs.ordered d hd
      · exact hs.ordered d hd
  | heartbeat now input current b hchecks h =>
    refine ⟨?_, ?_⟩
    · rw [h]
      exact hs.keyed.updateWhere fun _ _ => rfl
    · intro c hc
      rw [h] at hc
      obtain ⟨d, hd, rfl⟩ := mem_updateWhere.mp hc
      split
      · rename_i hp
        simp only [Bool.and_eq_true, beq_iff_eq] at hp
        rw [hs.eq_of_found hchecks.found hd hp.1.1]
        exact hchecks.le_reconcile
      · exact hs.ordered d hd
  | controlled now input action h =>
    refine ⟨?_, ?_⟩
    · rw [h]
      exact hs.keyed.updateWhere fun _ _ => rfl
    · intro c hc
      rw [h] at hc
      obtain ⟨d, hd, rfl⟩ := mem_updateWhere.mp hc
      split
      · have := action.updated_reconcile_generation d
        have hle := hs.ordered d hd
        have hsame : (action.updated d).completed_reconcile_generation
            = d.completed_reconcile_generation := rfl
        omega
      · exact hs.ordered d hd

theorem Watch.sound_step {s : Watch} (op : ControllerOp) (hs : s.Sound) :
    (controllers.step s op).Sound :=
  TransitionSystem.ofExec_step_cases hs fun _ ht => (Watch.exec_effect ht).1.sound hs

theorem Watch.sound_of_initial {s : Watch} (hs : s.Initial) : s.Sound := by
  refine ⟨?_, ?_⟩
  · rw [Keyed, hs.factory_controllers]
    exact List.nodup_nil
  · intro c hc
    rw [hs.factory_controllers] at hc
    cases hc

theorem Watch.sound_of_reachable {s : Watch} (hs : controllers.Reachable s) : s.Sound :=
  hs.invariant (fun _ h => Watch.sound_of_initial h) fun _ op h _ => Watch.sound_step op h

/-! ## Polling -/

/-- A heartbeat of the service a controller belongs to brings a quota observation whenever it
brings a polling state that passes its check and the controller has an observation recorded. -/
def ControllerOp.KeepsObservation (s : Watch) : ControllerOp → Prop
  | .heartbeat now input => ∀ c ∈ s.factory_controllers, ∀ polling ∈ input.polling,
      c.id = input.controller_id ∧ c.corp_id = input.corp_id
        ∧ c.service_actor_id = input.actor_id ∧ c.connection_epoch = input.connection_epoch
        ∧ c.polling.graphql.isSome = true
        ∧ validate_polling_update c.polling polling now = .ok () →
      polling.graphql.isSome = true
  | _ => True

instance (s : Watch) (op : ControllerOp) : Decidable (op.KeepsObservation s) := by
  delta ControllerOp.KeepsObservation
  rcases op <;> exact inferInstance

/-- How a step at the time `now` may move a controller: the generations do not decrease, a
wait that is not over stands, and, if the step keeps observations, so does the observation
time. -/
structure FactoryController.Advances (keeps : Prop) (now : Int) (c c' : FactoryController) :
    Prop where
  id : c'.id = c.id
  reconcile_generation : c.reconcile_generation ≤ c'.reconcile_generation
  completed_reconcile_generation :
    c.completed_reconcile_generation ≤ c'.completed_reconcile_generation
  wait : ∀ r, c.polling.next_retry_at = some r → now < r.val →
    ∃ r', c'.polling.next_retry_at = some r' ∧ r ≤ r'
  observation : keeps → ∀ old, c.polling.graphql = some old →
    ∃ quota, c'.polling.graphql = some quota ∧ old.observed_at ≤ quota.observed_at

/-- A step that leaves the polling state and does not lower a generation. -/
theorem FactoryController.Advances.of_polling_eq {keeps : Prop} {now : Int}
    {c c' : FactoryController} (hid : c'.id = c.id)
    (hreconcile : c.reconcile_generation ≤ c'.reconcile_generation)
    (hcompleted : c'.completed_reconcile_generation = c.completed_reconcile_generation)
    (hpolling : c'.polling_state = c.polling_state) : c.Advances keeps now c' := by
  have hsame : c'.polling = c.polling := by
    rw [FactoryController.polling, FactoryController.polling, hpolling]
  refine ⟨hid, hreconcile, Int.le_of_eq hcompleted.symm, ?_, ?_⟩
  · intro r hr _
    exact ⟨r, hsame ▸ hr, le_refl r⟩
  · intro _ old hold
    exact ⟨old, hsame ▸ hold, le_refl _⟩

/-- The row an accepted heartbeat reports on advances. -/
theorem Watch.Heartbeats.advances {s : Watch} {now : Int}
    {input : HeartbeatFactoryControllerInput} {current : FactoryController}
    {b : HeartbeatColumns} (h : s.Heartbeats now input current b) :
    current.Advances ((ControllerOp.heartbeat now input).KeepsObservation s) now
      (input.updated b current) := by
  have hnext : (input.updated b current).polling = b.polling := rfl
  have hmem := List.mem_of_find?_eq_some h.found
  have hsome := List.find?_some h.found
  rw [Bool.and_eq_true, beq_iff_eq, beq_iff_eq] at hsome
  refine ⟨rfl, Int.le_refl _, h.completed_le, ?_, ?_⟩
  · intro r hr hnow
    rw [hnext]
    exact validate_polling_update_wait h.polling hr hnow
  · intro hkeeps old hold
    -- The condition says that the accepted polling state carries an observation.
    have hcarried : b.polling.graphql.isSome = true := by
      rw [h.polling_eq]
      cases hp : input.polling with
      | none => rw [Option.getD_none, hold, Option.isSome_some]
      | some polling =>
        have hchecked := h.polling
        rw [h.polling_eq, hp, Option.getD_some] at hchecked
        rw [Option.getD_some]
        have hobserved : current.polling.graphql.isSome = true := by rw [hold, Option.isSome_some]
        exact hkeeps current hmem polling hp ⟨hsome.1, hsome.2, h.service_actor_id,
          h.connection_epoch, hobserved, hchecked⟩
    obtain ⟨quota, hquota⟩ := Option.isSome_iff_exists.mp hcarried
    exact ⟨quota, hnext ▸ hquota, validate_polling_update_observation h.polling hold hquota⟩

/-- **Step lemma.** Every controller is still there after an operation, and has advanced. -/
theorem ControllerEffect.advances {s t : Watch} {op : ControllerOp}
    (h : ControllerEffect s t op) (hs : s.Sound) {c : FactoryController}
    (hc : c ∈ s.factory_controllers) :
    ∃ c' ∈ t.factory_controllers, c.Advances (op.KeepsObservation s) op.now c' := by
  have hstays : ∀ keeps now, c.Advances keeps now c := fun keeps now =>
    .of_polling_eq rfl (Int.le_refl _) rfl rfl
  cases h with
  | replayed _ h => exact ⟨c, h ▸ hc, hstays _ _⟩
  | inserted now input _ _ h =>
    exact ⟨c, h ▸ List.mem_append_left _ hc, hstays _ _⟩
  | reconfigured now input _ h =>
    rw [h]
    refine ⟨_, mem_updateWhere.mpr ⟨c, hc, rfl⟩, ?_⟩
    split
    · exact .of_polling_eq rfl (Int.le_refl _) rfl rfl
    · exact hstays _ _
  | heartbeat now input current b hchecks h =>
    rw [h]
    refine ⟨_, mem_updateWhere.mpr ⟨c, hc, rfl⟩, ?_⟩
    split
    · rename_i hp
      simp only [Bool.and_eq_true, beq_iff_eq] at hp
      rw [hs.eq_of_found hchecks.found hc hp.1.1]
      exact hchecks.advances
    · exact hstays _ _
  | controlled now input action h =>
    rw [h]
    refine ⟨_, mem_updateWhere.mpr ⟨c, hc, rfl⟩, ?_⟩
    split
    · exact .of_polling_eq rfl (action.updated_reconcile_generation c) rfl rfl
    · exact hstays _ _

theorem Watch.step_advances {s : Watch} (hs : s.Sound) (op : ControllerOp)
    {c : FactoryController} (hc : c ∈ s.factory_controllers) :
    ∃ c' ∈ (controllers.step s op).factory_controllers,
      c.Advances (op.KeepsObservation s) op.now c' := by
  refine TransitionSystem.ofExec_step_cases
    (P := fun t : Watch => ∃ c' ∈ t.factory_controllers,
      c.Advances (op.KeepsObservation s) op.now c') ?_ ?_
  · exact ⟨c, hc, .of_polling_eq rfl (Int.le_refl _) rfl rfl⟩
  · intro t ht
    exact (Watch.exec_effect ht).1.advances hs hc

/-- **Run lemma.** -/
theorem Watch.run_advances {s : Watch} (hs : s.Sound) (ops : List ControllerOp)
    {c : FactoryController} (hc : c ∈ s.factory_controllers) :
    ∃ c' ∈ (controllers.run s ops).factory_controllers, c'.id = c.id
      ∧ c'.completed_reconcile_generation ≤ c'.reconcile_generation
      ∧ c.reconcile_generation ≤ c'.reconcile_generation
      ∧ c.completed_reconcile_generation ≤ c'.completed_reconcile_generation
      ∧ (∀ r, c.polling.next_retry_at = some r → (∀ op ∈ ops, op.now < r.val) →
          ∃ r', c'.polling.next_retry_at = some r' ∧ r ≤ r')
      ∧ (controllers.Meets (fun s op => op.KeepsObservation s) s ops →
          ∀ old, c.polling.graphql = some old →
            ∃ quota, c'.polling.graphql = some quota ∧ old.observed_at ≤ quota.observed_at) := by
  induction ops generalizing s c with
  | nil =>
    refine ⟨c, hc, rfl, hs.ordered c hc, Int.le_refl _, Int.le_refl _, ?_, ?_⟩
    · intro r hr _
      exact ⟨r, hr, le_refl r⟩
    · intro _ old hold
      exact ⟨old, hold, le_refl _⟩
  | cons op ops ih =>
    obtain ⟨d, hd, hcd⟩ := Watch.step_advances hs op hc
    obtain ⟨e, he, hid, hordered, hreconcile, hcompleted, hwait, hobservation⟩ :=
      ih (Watch.sound_step op hs) hd
    refine ⟨e, he, hid.trans hcd.id, hordered, Int.le_trans hcd.reconcile_generation hreconcile,
      Int.le_trans hcd.completed_reconcile_generation hcompleted, ?_, ?_⟩
    · intro r hr hnow
      obtain ⟨r₁, hr₁, hle₁⟩ := hcd.wait r hr (hnow op List.mem_cons_self)
      obtain ⟨r₂, hr₂, hle₂⟩ := hwait r₁ hr₁ fun o ho =>
        lt_of_lt_of_le (hnow o (List.mem_cons_of_mem op ho)) hle₁
      exact ⟨r₂, hr₂, le_trans hle₁ hle₂⟩
    · rintro ⟨hkeeps, hrest⟩ old hold
      obtain ⟨q₁, hq₁, hle₁⟩ := hcd.observation hkeeps old hold
      obtain ⟨q₂, hq₂, hle₂⟩ := hobservation hrest q₁ hq₁
      exact ⟨q₂, hq₂, le_trans hle₁ hle₂⟩

/-! ## A small watch

One service actor and two work items of two repositories. -/

namespace Tower

def source (repository : String) : FactorySource where
  source_project_owner := "owner"
  source_project_number := 1
  source_project_item_id := repository
  source_repository_owner := "owner"
  source_repository_name := repository
  source_issue_node_id := "node"
  source_issue_url := "url"
  source_title := "title"

def item (id : Uuid) (repository : String) : FactoryWorkItem where
  id := id
  corp_id := 1
  source := source repository
  source_issue_number := 1
  source_revision := "1"
  policy := "{}"
  state := .running
  version := 1
  claim_owner_id := 9
  claim_token := id
  lease_expires_at := 1000

def watch : Watch where
  actors := [{ id := 9, corp_id := 1, kind := .human, role := "owner" }]
  factory_work_items := [item 40 "first", item 41 "second"]

theorem watch_initial : watch.Initial := ⟨rfl, rfl⟩

def configure (now : Int) (repository key : String) : ControllerOp :=
  .configure now { corp_id := 1, actor_id := 9, controller_id := 7
                   source_project_owner := "owner", source_project_number := 1
                   source_repository_owner := "owner", source_repository_name := repository
                   connection_epoch := 3, lease_seconds := 60, idempotency_key := key }

def heartbeat (now : Int) (work_item_id : Option Uuid) (polling : FactoryPollingState) :
    ControllerOp :=
  .heartbeat now { corp_id := 1, actor_id := 9, controller_id := 7, connection_epoch := 3
                   lease_seconds := 60, active_work_item_id := work_item_id
                   polling := some polling, nonce := now.toNat }

def observed (time : DateTime) : FactoryPollingState where
  graphql := some { limit := 5000, remaining := 48, cost := 1, reset_at := time
                    observed_at := time }

def waiting (time : DateTime) : FactoryPollingState :=
  { observed ⟨200, by decide⟩ with
    next_retry_at := some time, retry_reason := some .primary_rate_limit
    consecutive_failures := 1 }

end Tower

/-! ## The results -/

/-- **Polling is monotone.** From every reachable state and along every sequence of
operations, each controller's completed generation is at most its requested one and neither
decreases; a wait that the clocks of the operations have not passed is neither shortened nor
cleared; and if every heartbeat keeps the recorded observation, the observation time does not
move backwards. -/
theorem controller_polling_is_monotone {s : Watch} (hs : controllers.Reachable s)
    (ops : List ControllerOp) {c : FactoryController} (hc : c ∈ s.factory_controllers) :
    ∃ c' ∈ (controllers.run s ops).factory_controllers, c'.id = c.id
      ∧ c'.completed_reconcile_generation ≤ c'.reconcile_generation
      ∧ c.reconcile_generation ≤ c'.reconcile_generation
      ∧ c.completed_reconcile_generation ≤ c'.completed_reconcile_generation
      ∧ (∀ r, c.polling.next_retry_at = some r → (∀ op ∈ ops, op.now < r.val) →
          ∃ r', c'.polling.next_retry_at = some r' ∧ r ≤ r')
      ∧ (controllers.Meets (fun s op => op.KeepsObservation s) s ops →
          ∀ old, c.polling.graphql = some old →
            ∃ quota, c'.polling.graphql = some quota ∧ old.observed_at ≤ quota.observed_at) :=
  Watch.run_advances (Watch.sound_of_reachable hs) ops hc

/-- A controller that waits until 500 and has observed the quota at 200, and two more
operations before 500. -/
def Tower.waited : Watch :=
  controllers.run Tower.watch [Tower.configure 0 "first" "key-1",
    Tower.heartbeat 200 none (Tower.waiting ⟨500, by decide⟩)]

def Tower.more : List ControllerOp :=
  [Tower.configure 300 "first" "key-2", Tower.heartbeat 400 (some 40)
    (Tower.waiting ⟨600, by decide⟩)]

set_option maxRecDepth 20000 in
theorem controller_polling_is_monotone_waiting :
    ∃ c ∈ Tower.waited.factory_controllers, c.polling.next_retry_at = some ⟨500, by decide⟩
      ∧ ∃ c' ∈ (controllers.run Tower.waited Tower.more).factory_controllers, c'.id = c.id
        ∧ (∃ r', c'.polling.next_retry_at = some r' ∧ 500 ≤ r'.val)
        ∧ ∃ quota, c'.polling.graphql = some quota ∧ 200 ≤ quota.observed_at.val := by
  have hc : ∃ c ∈ Tower.waited.factory_controllers, c.polling = Tower.waiting ⟨500, by decide⟩ := by
    decide +kernel
  obtain ⟨c, hmem, hpolling⟩ := hc
  obtain ⟨c', hc', hid, -, -, -, hwait, hobservation⟩ := controller_polling_is_monotone
    (TransitionSystem.Reachable.run Tower.watch_initial _) Tower.more hmem
  refine ⟨c, hmem, by rw [hpolling]; rfl, c', hc', hid, ?_, ?_⟩
  · exact hwait ⟨500, by decide⟩ (by rw [hpolling]; rfl) (by decide)
  · exact hobservation (by decide +kernel) _ (by rw [hpolling]; rfl)

/-- The controller has observed the quota at 200. -/
def Tower.polled : Watch :=
  controllers.run Tower.watch [Tower.configure 0 "first" "key-1",
    Tower.heartbeat 200 none (Tower.observed ⟨200, by decide⟩)]

/-- A heartbeat without an observation, and one with an observation at 100. -/
def Tower.forgetful : List ControllerOp :=
  [Tower.heartbeat 300 none {}, Tower.heartbeat 400 none (Tower.observed ⟨100, by decide⟩)]

set_option maxRecDepth 20000 in
/-- The recorded observation moves from 200 back to 100. -/
theorem observation_moves_backwards :
    controllers.Reachable Tower.polled
      ∧ ∃ c ∈ Tower.polled.factory_controllers,
        ∃ c' ∈ (controllers.run Tower.polled Tower.forgetful).factory_controllers, c'.id = c.id
          ∧ ∃ old ∈ c.polling.graphql, ∃ quota ∈ c'.polling.graphql,
            quota.observed_at < old.observed_at := by
  refine ⟨TransitionSystem.Reachable.run Tower.watch_initial _, ?_⟩
  decide +kernel

/-! ## The work item -/

/-- Every active work item is one of its controller's Corp, project and repository. -/
def Watch.ItemsBelong (s : Watch) : Prop :=
  ∀ c ∈ s.factory_controllers, ∀ work_item_id ∈ c.active_work_item_id,
    s.toDb.item_belongs c.scope work_item_id

instance (s : Watch) : Decidable s.ItemsBelong :=
  inferInstanceAs (Decidable (∀ c ∈ s.factory_controllers, ∀ work_item_id ∈ c.active_work_item_id,
    s.toDb.item_belongs c.scope work_item_id))

/-- A `configure` that is carried out takes a controller with an active work item only to a
source the item belongs to. -/
def ControllerOp.KeepsItem (s : Watch) : ControllerOp → Prop
  | .configure _ input => s.Configures input →
      ∀ c ∈ s.factory_controllers, c.id = input.controller_id →
        ∀ work_item_id ∈ c.active_work_item_id, s.toDb.item_belongs input.scope work_item_id
  | _ => True

/-- A `configure` whose checks pass rewrites the controller it names. -/
theorem Watch.Configures.rewrites {s : Watch} (hs : s.Sound)
    {input : ConfigureFactoryControllerInput} (h : s.Configures input) (now : Int)
    {c : FactoryController} (hc : c ∈ s.factory_controllers) (hid : c.id = input.controller_id) :
    ∃ t, s.exec (.configure now input) = .ok t
      ∧ input.updated now c ∈ t.factory_controllers
      ∧ t.factory_work_items = s.factory_work_items := by
  have hfind : s.factory_controllers.find? (fun d => d.id == input.controller_id) = some c := by
    rw [← hid]
    exact hs.keyed.find?_eq_some hc
  have hcorp := h.same_corp c hfind
  have hreplay : s.replay_operation_tx input.corp_id input.idempotency_key "configure"
      input.request = .ok none := by
    rw [Watch.replay_operation_tx, h.key_new]
    rfl
  have hupsert : s.upsert_controller now input = .ok (input.updated now c, s.onControllers
      (updateWhere (fun d => d.id == input.controller_id && d.corp_id == input.corp_id)
        (input.updated now))) := by
    rw [Watch.upsert_controller, ensure_of h.actor, ok_bind, ensure_of h.scope_free, ok_bind, hfind]
    dsimp only
    rw [ensure_of hcorp]
    rfl
  obtain ⟨r, t, hevent⟩ := Watch.append_event_tx_succeeds ((s.onControllers (updateWhere (fun d =>
      d.id == input.controller_id && d.corp_id == input.corp_id)
      (input.updated now))).record_operation_tx (input.operation (input.updated now c)))
    (input.event (input.updated now c))
  obtain ⟨hrows, -, hitems⟩ := Watch.append_event_tx_ok hevent
  refine ⟨t, ?_, ?_, hitems⟩
  · rw [Watch.exec, configure_factory_controller, h.lease_seconds, ok_bind, h.project_owner,
      ok_bind, h.repository_owner, ok_bind, h.repository_name, ok_bind, h.idempotency_key, ok_bind,
      ensure_of h.project_number, ok_bind, hreplay, ok_bind]
    dsimp only
    rw [hupsert, ok_bind]
    dsimp only
    rw [hevent]
    rfl
  · rw [hrows]
    refine mem_updateWhere.mpr ⟨c, hc, ?_⟩
    rw [if_pos (by simp [hid, hcorp])]

/-- A scope is the configured source, and an operation does not move the items. -/
theorem Db.item_belongs_congr {s t : Db} (h : t.factory_work_items = s.factory_work_items)
    (scope : Uuid × String × Int × String × String) (work_item_id : Uuid) :
    t.item_belongs scope work_item_id ↔ s.item_belongs scope work_item_id := by
  rw [Db.item_belongs, Db.item_belongs, h]

/-- An accepted operation that keeps items keeps the relation of items and sources. -/
theorem ControllerEffect.items_belong {s t : Watch} {op : ControllerOp}
    (h : ControllerEffect s t op) (hsame : t.factory_work_items = s.factory_work_items)
    (hs : s.Sound) (hbelong : s.ItemsBelong) (hkeeps : op.KeepsItem s) : t.ItemsBelong := by
  intro c hc work_item_id hitem
  rw [Db.item_belongs_congr hsame]
  cases h with
  | replayed _ h => exact hbelong c (h ▸ hc) work_item_id hitem
  | inserted now input _ _ h =>
    rw [h] at hc
    rcases List.mem_append.mp hc with hc | hc
    · exact hbelong c hc work_item_id hitem
    · rw [List.mem_singleton.mp hc] at hitem
      cases hitem
  | reconfigured now input hchecks h =>
    rw [h] at hc
    obtain ⟨d, hd, rfl⟩ := mem_updateWhere.mp hc
    split at hitem
    · rename_i hp
      rw [if_pos hp]
      simp only [Bool.and_eq_true, beq_iff_eq] at hp
      have hscope : (input.updated now d).scope = input.scope := by
        rw [FactoryController.scope, ConfigureFactoryControllerInput.scope, ← hp.2]
        rfl
      rw [hscope]
      exact hkeeps hchecks d hd hp.1 work_item_id hitem
    · rename_i hp
      rw [if_neg hp]
      exact hbelong d hd work_item_id hitem
  | heartbeat now input current b hchecks h =>
    rw [h] at hc
    obtain ⟨d, hd, rfl⟩ := mem_updateWhere.mp hc
    split at hitem
    · rename_i hp
      rw [if_pos hp]
      simp only [Bool.and_eq_true, beq_iff_eq] at hp
      have hcurrent := hs.eq_of_found hchecks.found hd hp.1.1
      have hscope : (input.updated b d).scope = (input.corp_id, current.scope.2) := by
        rw [← hcurrent, ← hp.1.2]
        rfl
      rw [hscope]
      exact hchecks.belongs work_item_id hitem
    · rename_i hp
      rw [if_neg hp]
      exact hbelong d hd work_item_id hitem
  | controlled now input action h =>
    rw [h] at hc
    obtain ⟨d, hd, rfl⟩ := mem_updateWhere.mp hc
    split at hitem
    · rename_i hp
      rw [if_pos hp]
      exact hbelong d hd work_item_id hitem
    · rename_i hp
      rw [if_neg hp]
      exact hbelong d hd work_item_id hitem

/-- **Step lemma.** Where items belong to their sources, they still do after an operation
exactly when it keeps them. -/
theorem Watch.items_belong_step {s : Watch} (op : ControllerOp) (hs : s.Sound)
    (hbelong : s.ItemsBelong) : (controllers.step s op).ItemsBelong ↔ op.KeepsItem s := by
  constructor
  · intro hafter
    cases op with
    | heartbeat now input => trivial
    | control now input => trivial
    | configure now input =>
      intro hchecks c hc hid work_item_id hitem
      obtain ⟨t, hexec, hrow, hitems⟩ := hchecks.rewrites hs now hc hid
      have hstep : controllers.step s (.configure now input) = t :=
        TransitionSystem.ofExec_step_ok hexec
      rw [hstep] at hafter
      have hcorp : c.corp_id = input.corp_id := by
        refine hchecks.same_corp c ?_
        rw [← hid]
        exact hs.keyed.find?_eq_some hc
      have hscope : (input.updated now c).scope = input.scope := by
        rw [FactoryController.scope, ConfigureFactoryControllerInput.scope, ← hcorp]
        rfl
      have hafter := hafter _ hrow work_item_id hitem
      rwa [hscope, Db.item_belongs_congr hitems] at hafter
  · intro hkeeps
    refine TransitionSystem.ofExec_step_cases (P := fun t : Watch => t.ItemsBelong) hbelong ?_
    intro t ht
    obtain ⟨heffect, hitems⟩ := Watch.exec_effect ht
    exact heffect.items_belong hitems hs hbelong hkeeps

/-- **The active work item.** Along a sequence of operations every state has each active work
item in its controller's configured source, exactly when no `configure` that is carried out
takes a controller away from the source of its active item. -/
theorem active_items_belong_iff {s : Watch} (hs : s.Initial) (ops : List ControllerOp) :
    (∀ before, before <+: ops → (controllers.run s before).ItemsBelong)
      ↔ controllers.Meets (fun s op => op.KeepsItem s) s ops := by
  refine TransitionSystem.prefixes_iff_meets (J := Watch.Sound)
    (fun _ op h => Watch.sound_step op h)
      (fun _ op h hbelong => Watch.items_belong_step op h hbelong)
    (Watch.sound_of_initial hs) ?_ ops
  intro c hc
  rw [hs.factory_controllers] at hc
  cases hc

/-- The controller of the first repository is configured once more, with an item active. -/
def Tower.renewed : List ControllerOp :=
  [Tower.configure 0 "first" "key-1", Tower.heartbeat 200 (some 40) {},
    Tower.configure 300 "first" "key-2"]

set_option maxRecDepth 20000 in
theorem active_items_belong_iff_renewed :
    controllers.Meets (fun s op => op.KeepsItem s) Tower.watch Tower.renewed
      ∧ (controllers.run Tower.watch Tower.renewed).ItemsBelong := by
  have hkeeps : controllers.Meets (fun s op => op.KeepsItem s) Tower.watch Tower.renewed := by
    refine ⟨?_, trivial, ?_, trivial⟩
    · intro _
      decide +kernel
    · intro _
      decide +kernel
  have hbelong := (active_items_belong_iff Tower.watch_initial Tower.renewed).mpr hkeeps
  exact ⟨hkeeps, hbelong Tower.renewed (List.prefix_refl _)⟩

/-- The item of the first repository is active when the controller is configured for the
second. -/
def Tower.moved : List ControllerOp :=
  [Tower.configure 0 "first" "key-1", Tower.heartbeat 200 (some 40) {},
    Tower.configure 300 "second" "key-2"]

set_option maxRecDepth 20000 in
/-- An active work item of another repository, in a reachable state. -/
theorem active_item_of_another_source :
    controllers.Reachable (controllers.run Tower.watch Tower.moved)
      ∧ ¬ (controllers.run Tower.watch Tower.moved).ItemsBelong :=
  ⟨TransitionSystem.Reachable.run Tower.watch_initial _, by decide +kernel⟩

end Crony.Store
