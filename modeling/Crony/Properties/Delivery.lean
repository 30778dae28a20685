/-
Reports are taken once, and only from the assigned runner.

A runner delivers a report any number of times and in any order. The journal is what tells
a redelivery from a report: a report is entered under its runner and its identifier, nothing
else is entered under such a key, and nothing is ever taken out. The usage counters of a run
are the second ledger of the same reports, so they are compared with the journal: each step
enters at most one report and adds to the counters what that report says.
-/
import Crony.Lifecycle.Accrual

set_option autoImplicit false

open Crony.Lib

namespace Crony.Store

variable {env : Env} {s t u : Db}

/-! ## The usage ledger -/

/-- The usage counters of a run. -/
inductive Counter where
  | input_tokens | output_tokens | cost_microusd
  deriving DecidableEq, Repr

/-- The field of a `run.usage` payload a counter is reported in. -/
def Counter.key : Counter → String
  | input_tokens => "input_tokens"
  | output_tokens => "output_tokens"
  | cost_microusd => "cost_microusd"

def Run.counter (r : Run) : Counter → Int
  | .input_tokens => r.input_tokens
  | .output_tokens => r.output_tokens
  | .cost_microusd => r.cost_microusd

/-- What the `run.usage` entries about a run add up to. -/
def usage_in (events : List Event) (run_id : Uuid) (c : Counter) : Int :=
  ((events.filter fun e => e.type == .run_usage && e.aggregate_id == run_id).map fun e =>
    reported_usage e.payload c.key).sum

theorem usage_in_append (l m : List Event) (run_id : Uuid) (c : Counter) :
    usage_in (l ++ m) run_id c = usage_in l run_id c + usage_in m run_id c := by
  rw [usage_in, List.filter_append, List.map_append, List.sum_append]
  rfl

/-- Entries that are no usage reports of the run add nothing. -/
theorem usage_in_eq_zero {l : List Event} {run_id : Uuid} {c : Counter}
    (h : ∀ e ∈ l, e.type = .run_usage → e.aggregate_id ≠ run_id) : usage_in l run_id c = 0 := by
  have hnone : (l.filter fun e => e.type == .run_usage && e.aggregate_id == run_id) = [] := by
    rw [List.filter_eq_nil_iff]
    intro e he hp
    simp only [Bool.and_eq_true, beq_iff_eq] at hp
    exact h e he hp.1 hp.2
  rw [usage_in, hnone]
  rfl

theorem Run.Same.counter {r r' : Run} (h : r.Same r') (c : Counter) :
    r'.counter c = r.counter c := by
  cases c with
  | input_tokens => exact h.input_tokens
  | output_tokens => exact h.output_tokens
  | cost_microusd => exact h.cost_microusd

theorem FreshRun.counter {r : Run} (h : FreshRun s r) (c : Counter) : r.counter c = 0 := by
  cases c with
  | input_tokens => exact h.input_tokens
  | output_tokens => exact h.output_tokens
  | cost_microusd => exact h.cost_microusd

/-! ## What a step enters -/

/-- The key under which a report is entered. -/
def EventKey.is_report : EventKey → Bool
  | .runner_event .. => true
  | _ => false

/-- An entry of the server's own. -/
def Event.Internal (e : Event) : Prop := e.idempotency_key.is_report = false ∧ e.type ≠ .run_usage

theorem EventKey.is_report_of_routine {key : EventKey} (h : key.is_routine = true) :
    key.is_report = false := by
  cases key <;> first | rfl | cases h

theorem EventType.ne_usage_of_routine {type : EventType} (h : type.is_routine = true) :
    type ≠ .run_usage := by
  rintro rfl
  cases h

theorem Event.Routine.internal {e : Event} (h : e.Routine) : e.Internal :=
  ⟨EventKey.is_report_of_routine h.1, EventType.ne_usage_of_routine h.2⟩

theorem Event.OfEnd.internal {run_id : Uuid} {e : Event} (h : e.OfEnd run_id) : e.Internal := by
  refine ⟨?_, EventType.ne_usage_of_routine h.2⟩
  rcases h.1 with hr | ⟨item, hk | hk | hk⟩
  · exact EventKey.is_report_of_routine hr
  · rw [hk]
    rfl
  · rw [hk]
    rfl
  · rw [hk]
    rfl

theorem Event.OfCommand.internal {command_id : Uuid} {e : Event} (h : e.OfCommand command_id) :
    e.Internal := by
  refine ⟨?_, EventType.ne_usage_of_routine h.2⟩
  rcases h.1 with hk | hk
  · rw [hk]
    rfl
  · rw [hk]
    rfl

/-- A step enters `reports` and adds to the counters of the runs what they say; a new run
starts at zero. -/
structure Posts (s t : Db) (reports : List Event) : Prop where
  events : Appends Event.Internal (s.events ++ reports) t.events
  runs : ∀ r' ∈ t.runs,
    (∃ r ∈ s.runs, r'.id = r.id ∧ ∀ c, r'.counter c = r.counter c + usage_in reports r.id c)
      ∨ (reports = [] ∧ (∀ x ∈ s.runs, x.id ≠ r'.id) ∧ ∀ c, r'.counter c = 0)

/-- A step without a report that keeps the counters. -/
theorem Posts.of_same {P : Event → Prop} (hP : ∀ e, P e → e.Internal)
    (hevents : Appends P s.events t.events)
    (hruns : ∀ r' ∈ t.runs, ∃ r ∈ s.runs, r'.id = r.id ∧ ∀ c, r'.counter c = r.counter c) :
    Posts s t [] where
  events := by
    rw [List.append_nil]
    exact hevents.mono hP
  runs := by
    intro r' hr'
    obtain ⟨r, hr, hid, hc⟩ := hruns r' hr'
    refine Or.inl ⟨r, hr, hid, fun c => ?_⟩
    rw [hc c, usage_in_eq_zero (l := []) (by simp), Int.add_zero]

theorem Calm.same_counters {P : Event → Prop} (h : Calm P s t) :
    ∀ r' ∈ t.runs, ∃ r ∈ s.runs, r'.id = r.id ∧ ∀ c, r'.counter c = r.counter c := by
  intro r' hr'
  obtain ⟨r, hr, hk⟩ := h.runs.exists_old hr'
  exact ⟨r, hr, hk.kept.id, fun c => hk.toSame.counter c⟩

theorem Advance.same_counters {r : Run} (h : Advance s t r) :
    ∀ r' ∈ t.runs, ∃ r ∈ s.runs, r'.id = r.id ∧ ∀ c, r'.counter c = r.counter c := by
  intro r' hr'
  obtain ⟨x, hx, hsame, -⟩ := h.runs.exists_old hr'
  exact ⟨x, hx, hsame.kept.id, fun c => hsame.counter c⟩

/-- An `UPDATE` of columns that are no counters. -/
theorem same_counters_of_write {p : Run → Bool} {f : Run → Run}
    (hruns : t.runs = updateWhere p f s.runs)
    (hf : ∀ x, (f x).id = x.id ∧ ∀ c, (f x).counter c = x.counter c) :
    ∀ r' ∈ t.runs, ∃ r ∈ s.runs, r'.id = r.id ∧ ∀ c, r'.counter c = r.counter c := by
  intro r' hr'
  rw [hruns] at hr'
  obtain ⟨x, hx, rfl⟩ := mem_updateWhere.mp hr'
  refine ⟨x, hx, ?_⟩
  split
  · exact hf x
  · exact ⟨rfl, fun _ => rfl⟩

/-- The effect of a report on the counters, `s` having the report in its journal already. -/
theorem ReportEffect.posts {row : RunnerRow} {payload : Json} {event_type : EventType}
    (h : ReportEffect s t row payload event_type) :
    Appends Event.Internal s.events t.events
      ∧ ∀ r' ∈ t.runs, ∃ r ∈ s.runs, r'.id = r.id ∧ ∀ c, r'.counter c = r.counter c
        + if event_type = .run_usage ∧ row.run.id = r.id then reported_usage payload c.key
          else 0 := by
  have hkeep : (∀ r' ∈ t.runs, ∃ r ∈ s.runs, r'.id = r.id ∧ ∀ c, r'.counter c = r.counter c) →
      event_type ≠ .run_usage →
      ∀ r' ∈ t.runs, ∃ r ∈ s.runs, r'.id = r.id ∧ ∀ c, r'.counter c = r.counter c
        + if event_type = .run_usage ∧ row.run.id = r.id then reported_usage payload c.key
          else 0 := by
    intro hsame hne r' hr'
    obtain ⟨r, hr, hid, hc⟩ := hsame r' hr'
    refine ⟨r, hr, hid, fun c => ?_⟩
    rw [if_neg fun hu => hne hu.1, Int.add_zero]
    exact hc c
  cases h with
  | calm htype h =>
    exact ⟨h.events.mono fun _ he => he.internal,
      hkeep h.same_counters (EventType.ne_usage_of_routine htype)⟩
  | ended htype h =>
    refine ⟨h.events.mono fun _ he => he.internal, hkeep h.same_counters ?_⟩
    rcases htype with rfl | rfl <;> simp
  | asked htype p _ _ _ h _ _ =>
    exact ⟨h.events.mono fun _ he => he.internal, hkeep h.same_counters (by rw [htype]; simp)⟩
  | usage htype h =>
    unfold run_usage at h
    simp only [bind_eq_ok, pure_eq_ok] at h
    obtain ⟨_, -, rfl⟩ := h
    refine ⟨Appends.refl, fun r' hr' => ?_⟩
    obtain ⟨x, hx, rfl⟩ := mem_updateWhere.mp hr'
    by_cases hid : x.id = row.run.id
    · rw [if_pos (by simpa using hid)]
      refine ⟨x, hx, rfl, fun c => ?_⟩
      rw [if_pos ⟨htype, hid.symm⟩]
      cases c <;> rfl
    · rw [if_neg (by simpa using hid)]
      refine ⟨x, hx, rfl, fun c => ?_⟩
      rw [if_neg fun hu => hid hu.2.symm, Int.add_zero]
  | evidence htype h =>
    obtain ⟨e, rfl, -⟩ := run_verification_evidence_ok h
    exact ⟨Appends.refl, hkeep (fun r' hr' => ⟨r', hr', rfl, fun _ => rfl⟩) (by rw [htype]; simp)⟩
  | passed htype h =>
    obtain ⟨_, _, _, -, -, -, rfl⟩ := run_verification_passed_ok h
    refine ⟨Appends.refl, hkeep (same_counters_of_write rfl ?_) (by rw [htype]; simp)⟩
    exact fun x => ⟨rfl, fun c => by cases c <;> rfl⟩
  | waiting htype _ hadv =>
    exact ⟨hadv.events.mono fun _ he => he.internal,
      hkeep hadv.same_counters (by rw [htype]; simp)⟩
  | completed htype _ hadv =>
    exact ⟨hadv.events.mono fun _ he => he.internal,
      hkeep hadv.same_counters (by rw [htype]; simp)⟩

/-- The reports a step enters: none, or a new one of the run it names. -/
def Enters (s : Db) (reports : List Event) : Prop :=
  reports = [] ∨ ∃ input row payload, reports = [runner_event input row payload]
    ∧ row.run ∈ s.runs ∧ row.run.id = input.run_id ∧ ∀ e ∈ s.events, e.id ≠ input.event_id

/-- **What a step enters.** -/
theorem Effect.posts {op : Op} (h : Effect s op t) :
    ∃ reports, Enters s reports ∧ Posts s t reports := by
  cases h with
  | calm h =>
    exact ⟨[], Or.inl rfl, Posts.of_same (fun _ he => he.internal) h.events h.same_counters⟩
  | settled command_id _ h =>
    exact ⟨[], Or.inl rfl, Posts.of_same (fun _ he => Event.OfCommand.internal he) h.events
      h.same_counters⟩
  | admitted r _ h =>
    refine ⟨[], Or.inl rfl, ?_, ?_⟩
    · rw [List.append_nil]
      exact h.events.mono fun _ he => he.internal
    · intro r' hr'
      rw [h.runs] at hr'
      rcases List.mem_append.mp hr' with hr' | hr'
      · refine Or.inl ⟨r', hr', rfl, fun c => ?_⟩
        rw [usage_in_eq_zero (l := []) (by simp), Int.add_zero]
      · rw [List.mem_singleton] at hr'
        subst hr'
        exact Or.inr ⟨rfl, h.fresh_run.fresh, h.fresh_run.counter⟩
  | raised now corp_id run_id run task mission stage i c e _ _ _ _ h =>
    have ht := h.state
    refine ⟨[], Or.inl rfl, Posts.of_same (P := Event.Internal) (fun _ he => he) ?_
      (same_counters_of_write (congrArg Db.runs ht) ?_)⟩
    · rw [ht]
      dsimp only
      split
      · exact Appends.refl
      · refine Appends.one ⟨?_, ?_⟩
        · rw [h.event_key]
          rfl
        · rw [h.event_type]
          simp
    · intro x
      refine ⟨rfl, fun c => ?_⟩
      cases c <;> rfl
  | shelved l h ht =>
    subst ht
    refine ⟨[], Or.inl rfl, Posts.of_same (P := Event.Internal) (fun _ he => he) Appends.refl ?_⟩
    exact fun r' hr' => ⟨r', hr', rfl, fun _ => rfl⟩
  | readied corp_id artifact_id a run task mission u _ _ _ h ht =>
    -- First the artifact columns, then, for an active run, the move to verification.
    have hu : ∀ r' ∈ u.runs, ∃ r ∈ s.runs, r'.id = r.id ∧ ∀ c, r'.counter c = r.counter c := by
      rcases h.state with ⟨-, hu⟩ | ⟨-, row, -, -, hu⟩
      · exact same_counters_of_write (congrArg Db.runs hu) fun x =>
          ⟨rfl, fun c => by cases c <;> rfl⟩
      · exact same_counters_of_write (congrArg Db.runs hu) fun x =>
          ⟨rfl, fun c => by cases c <;> rfl⟩
    refine ⟨[], Or.inl rfl, Posts.of_same (fun _ he => he.internal) (P := Event.Routine) ?_ ?_⟩
    · rw [ht]
      split
      · exact h.events
      · exact h.events
    · intro r' hr'
      by_cases hact : run.active = true
      · rw [if_pos hact] at ht
        subst ht
        obtain ⟨y, hy, hid, hc⟩ := same_counters_of_write (s := u) (t := u.review_run run task.id)
          rfl
          (fun x => ⟨rfl, fun c => by cases c <;> rfl⟩) r' hr'
        obtain ⟨x, hx, hid', hc'⟩ := hu y hy
        exact ⟨x, hx, hid.trans hid', fun c => (hc c).trans (hc' c)⟩
      · rw [if_neg hact] at ht
        subst ht
        exact hu r' hr'
  | approved now input row actor _ _ _ hadv =>
    exact ⟨[], Or.inl rfl, Posts.of_same (fun _ he => he.internal) hadv.events hadv.same_counters⟩
  | reported now input row scope payload _ hadm _ hid h =>
    have hj := hadm.reported.joined
    obtain ⟨hevents, hruns⟩ := h.posts
    refine ⟨[runner_event input row payload],
      Or.inr ⟨input, row, payload, rfl, hj.run_mem, hj.run_id, hid⟩, hevents, ?_⟩
    intro r' hr'
    obtain ⟨r, hr, hrid, hc⟩ := hruns r' hr'
    refine Or.inl ⟨r, hr, hrid, fun c => ?_⟩
    rw [hc c, usage_in, List.filter_singleton]
    by_cases hu : input.event_type = .run_usage ∧ row.run.id = r.id
    · have hsel : ((runner_event input row payload).type == .run_usage
          && (runner_event input row payload).aggregate_id == r.id) = true := by
        simp [runner_event, hu.1, ← hj.run_id, hu.2]
      rw [if_pos hu, hsel]
      simp [runner_event]
    · have hsel : ((runner_event input row payload).type == .run_usage
          && (runner_event input row payload).aggregate_id == r.id) = false := by
        simp only [runner_event, Bool.and_eq_false_iff, beq_eq_false_iff_ne]
        by_cases ht : input.event_type = .run_usage
        · exact Or.inr fun hr => hu ⟨ht, hj.run_id.trans hr⟩
        · exact Or.inl ht
      rw [if_neg hu, hsel]
      rfl

/-! ## The two ledgers agree -/

/-- The journal names each report by its identifier, no two reports share one, usage is
reported of runs that exist, and the counters are the sums of what was reported. -/
structure Ledger (s : Db) : Prop where
  named : ∀ e ∈ s.events, ∀ runner_id event_id,
    e.idempotency_key = .runner_event runner_id event_id → e.id = event_id
  distinct : UniqueWhere (fun e => e.idempotency_key.is_report) Event.id s.events
  usage_report : ∀ e ∈ s.events, e.type = .run_usage → e.idempotency_key.is_report = true
    ∧ ∃ r ∈ s.runs, r.id = e.aggregate_id
  counted : ∀ r ∈ s.runs, ∀ c, r.counter c = usage_in s.events r.id c

theorem Initial.ledger (h : Initial s) : Ledger s := by
  constructor
  · simp [h.events]
  · simp [h.events, UniqueWhere]
  · simp [h.events]
  · simp [h.runs]

theorem Posts.ledger {reports : List Event} (h : Posts s t reports) (hent : Enters s reports)
    (hold : ∀ r ∈ s.runs, ∃ r' ∈ t.runs, r'.id = r.id) (hs : Ledger s) : Ledger t := by
  obtain ⟨new, hnew, hint⟩ := h.events
  constructor
  · intro e he runner_id event_id hkey
    rw [hnew] at he
    rcases List.mem_append.mp he with he | he
    · rcases List.mem_append.mp he with he | he
      · exact hs.named e he runner_id event_id hkey
      · rcases hent with rfl | ⟨input, row, payload, rfl, -, -, -⟩
        · cases he
        · rw [List.mem_singleton] at he
          subst he
          simp only [runner_event, EventKey.runner_event.injEq] at hkey
          exact hkey.2
    · have hno := (hint e he).1
      rw [hkey] at hno
      cases hno
  · rw [hnew]
    refine UniqueWhere.append_of_none ?_ fun e he => (hint e he).1
    rcases hent with rfl | ⟨input, row, payload, rfl, -, -, hid⟩
    · rw [List.append_nil]
      exact hs.distinct
    · exact hs.distinct.append_singleton fun _ e he _ => hid e he
  · intro e he htype
    rw [hnew] at he
    rcases List.mem_append.mp he with he | he
    · rcases List.mem_append.mp he with he | he
      · obtain ⟨hrep, r, hr, hid⟩ := hs.usage_report e he htype
        obtain ⟨r', hr', hid'⟩ := hold r hr
        exact ⟨hrep, r', hr', hid'.trans hid⟩
      · rcases hent with rfl | ⟨input, row, payload, rfl, hmem, hrid, -⟩
        · cases he
        · rw [List.mem_singleton] at he
          subst he
          obtain ⟨r', hr', hid'⟩ := hold row.run hmem
          exact ⟨rfl, r', hr', hid'.trans hrid⟩
    · exact absurd htype (hint e he).2
  · intro r' hr' c
    have hzero : usage_in new r'.id c = 0 :=
      usage_in_eq_zero fun e he htype => absurd htype (hint e he).2
    rw [hnew, usage_in_append, usage_in_append, hzero, Int.add_zero]
    rcases h.runs r' hr' with ⟨r, hr, hid, hc⟩ | ⟨rfl, hfresh, hc⟩
    · rw [hc c, hs.counted r hr c, hid]
    · -- Nothing was reported of a run before it was created.
      rw [hc c, usage_in_eq_zero (l := []) (by simp), Int.add_zero, eq_comm]
      refine usage_in_eq_zero fun e he htype hagg => ?_
      obtain ⟨-, x, hx, hxid⟩ := hs.usage_report e he htype
      exact hfresh x hx (hxid.trans hagg)

theorem exec_ledger (hs : Inv s) (hl : Ledger s) {op : Op} (h : exec env s op = .ok t) :
    Ledger t := by
  obtain ⟨reports, hent, hposts⟩ := (exec_effect hs.life hs.linked h).posts
  refine hposts.ledger hent ?_ hl
  intro r hr
  obtain ⟨r', hr', hk, -⟩ := (exec_grows hs h).runs r hr
  exact ⟨r', hr', hk.id⟩

theorem ReachableVia.ledger {ok : Db → Op → Prop} (h : ReachableVia env ok s) : Ledger s :=
  ReachableVia.inv h (fun _ h0 => h0.ledger) fun _ _ _ hr hl _ he =>
    exec_ledger hr.invariants hl he

/-! ## Redeliveries, foreign reports and reports of terminal runs -/

/-- A call that cannot commit a change changes nothing. -/
theorem step_eq_of_exec {op : Op} (h : ∀ t, exec env s op = .ok t → t = s) :
    step env s op = s := by
  unfold step
  cases he : exec env s op with
  | ok t => exact h t he
  | error e => rfl

/-- A report the journal has is not taken again, whatever else the delivery says. -/
theorem redelivery_noop (hl : Ledger s) {now : Int} {input : RunnerEventInput} {e : Event}
    (he : e ∈ s.events) (hkey : e.idempotency_key = .runner_event input.runner_id input.event_id) :
    step env s (.apply_runner_event now input) = s := by
  refine step_eq_of_exec fun t ht => ?_
  obtain ⟨⟨o, v⟩, hv, rfl⟩ := map_eq_ok.mp ht
  obtain ⟨row, scope, payload, -, ⟨-, -, rfl⟩ | ⟨-, hid, -, -⟩⟩ := apply_runner_event_ok hv
  · rfl
  · exact absurd (hl.named e he _ _ hkey) (hid e he)

/-- Journal entries survive every call. -/
theorem step_events_of_mem (hs : Inv s) {op : Op} {e : Event} (he : e ∈ s.events) :
    e ∈ (step env s op).events := by
  unfold step
  cases hx : exec env s op with
  | ok t => exact (exec_effect hs.life hs.linked hx).accrues.events e he
  | error _ => exact he

theorem events_of_reaches (hs : Reachable env s) (h : (system env).Reaches (fun _ _ => True) s t)
    {e : Event} (he : e ∈ s.events) : Reachable env t ∧ e ∈ t.events := by
  refine TransitionSystem.Reaches.preserves (I := fun x => Reachable env x ∧ e ∈ x.events) h
    ⟨hs, he⟩ ?_
  rintro a op ⟨ha, hea⟩ _
  exact ⟨TransitionSystem.ReachableVia.step ha trivial,
    step_events_of_mem (ReachableVia.invariants ha) hea⟩

/-- An accepted report is in the journal, under its runner and its identifier. -/
theorem accepted_recorded (hs : Inv s) {now : Int} {input : RunnerEventInput} {e : Event}
    (h : apply_runner_event env s now input = .ok (some e, t)) :
    e ∈ t.events ∧ e.idempotency_key = .runner_event input.runner_id input.event_id := by
  obtain ⟨row, scope, payload, hadm, ⟨-, hn, -⟩ | ⟨hnew, hid, hsome, heff⟩⟩ :=
    apply_runner_event_ok h
  · cases hn
  · have hs' : Life (s.onEvents (· ++ [runner_event input row payload])) := { hs.life with }
    have hcases := runner_event_effect_cases hs' (hadm.reported.joined.onEvents _) hadm.soft heff
    obtain rfl := Option.some.inj hsome
    exact ⟨hcases.accrues.events _ (List.mem_append_right _ (List.mem_singleton_self _)), rfl⟩

/-- A delivery no run is assigned to is refused. -/
theorem foreign_report_noop {now : Int} {input : RunnerEventInput}
    (h : ∀ r ∈ s.runs, ¬ (r.id = input.run_id ∧ r.corp_id = input.corp_id
      ∧ r.agent_id = input.agent_id ∧ r.runner_id = input.runner_id
      ∧ r.assignment_token = input.assignment_token)) :
    step env s (.apply_runner_event now input) = s := by
  refine step_eq_of_exec fun t ht => ?_
  obtain ⟨⟨o, v⟩, hv, rfl⟩ := map_eq_ok.mp ht
  obtain ⟨row, scope, payload, hadm, -⟩ := apply_runner_event_ok hv
  have hass := hadm.reported.assigned
  simp only [Run.assigned, Bool.and_eq_true, beq_iff_eq] at hass
  obtain ⟨⟨⟨⟨hid, hcorp⟩, hagent⟩, hrunner⟩, htoken⟩ := hass
  exact absurd ⟨hid, hcorp, hagent, hrunner, htoken⟩ (h row.run hadm.reported.joined.run_mem)

/-- The statuses a report may move. -/
def Db.statuses (s : Db) : List (Uuid × RunStatus × VerificationStatus)
    × List (Uuid × TaskStatus × VerificationStatus) × List (Uuid × MissionStatus)
    × List (Uuid × FactoryWorkItemState) :=
  (s.runs.map fun r => (r.id, r.status, r.verification_status),
    s.tasks.map fun x => (x.id, x.status, x.verification_status),
    s.missions.map fun m => (m.id, m.status),
    s.factory_work_items.map fun i => (i.id, i.state))

/-- The three reports of terminal runs move no status. -/
theorem terminal_report_statuses {now : Int} {row : RunnerRow} {scope : Option RunScope}
    {event_type : EventType} {payload : Json} (hterm : is_terminal_report event_type = true)
    (h : runner_event_effect env s now row scope event_type payload = .ok t) :
    t.statuses = s.statuses := by
  have hret : run_workspace_retained s now row event_type payload = .ok t →
      t.statuses = s.statuses := by
    intro hret
    obtain ⟨f, rfl, hf⟩ := run_workspace_retained_ok hret
    simp only [Db.statuses, Db.onRuns_runs, Db.onRuns_tasks, Db.onRuns_missions,
      Db.onRuns_factory_work_items, Prod.mk.injEq, and_true]
    refine map_updateWhere_of_frame _ _ fun x _ => ?_
    obtain ⟨_, _, _, _, _, _, _, hx⟩ := hf x
    rw [hx]
  cases event_type with
  | run_workspace_preserved => exact hret h
  | run_workspace_removed => exact hret h
  | run_session_terminated =>
    simp only [runner_event_effect, pure_eq_ok] at h
    rw [h]
  | _ => cases hterm

/-- A run that is over accepts three kinds of reports, none of which moves a status. -/
theorem terminal_run_report (hs : Inv s) {r : Run} (hr : r ∈ s.runs)
    (hterm : r.status.is_terminal = true) {now : Int} {input : RunnerEventInput}
    (hrun : input.run_id = r.id) {o : Option Event}
    (h : apply_runner_event env s now input = .ok (o, t)) :
    is_terminal_report input.event_type = true ∧ t.statuses = s.statuses := by
  obtain ⟨row, scope, payload, hadm, hcases⟩ := apply_runner_event_ok h
  have hj := hadm.reported.joined
  have hrow : row.run = r := hs.life.eq_of_id hj.run_mem hr (hj.run_id.trans hrun)
  have hact : row.run.active = false := by
    rw [hrow, Run.active]
    simpa [RunStatus.is_terminal] using hterm
  have hrep : is_terminal_report input.event_type = true := by
    rcases hadm.reported.live with ha | ⟨hrep, -⟩
    · rw [hact] at ha
      cases ha
    · exact hrep
  refine ⟨hrep, ?_⟩
  rcases hcases with ⟨-, -, rfl⟩ | ⟨-, -, -, heff⟩
  · rfl
  · exact (terminal_report_statuses hrep heff).trans rfl

/-- **Reports take effect exactly once and only from the assigned runner.** In every
reachable state: a report that was accepted once is passed over however the run went on;
the counters of a run are the sums of the non-negative parts of its distinct usage reports; a
report that does not carry a run's full assignment changes nothing; a run that is over
accepts only reports about its workspace and its session, and these move no status. -/
theorem reports_applied_once (h : Reachable env s) :
    (∀ now input e t u, apply_runner_event env s now input = .ok (some e, t) →
        (system env).Reaches (fun _ _ => True) t u →
        ∀ now' input', input'.runner_id = input.runner_id → input'.event_id = input.event_id →
          step env u (.apply_runner_event now' input') = u)
      ∧ (∀ r ∈ s.runs, r.input_tokens = usage_in s.events r.id .input_tokens
          ∧ r.output_tokens = usage_in s.events r.id .output_tokens
          ∧ r.cost_microusd = usage_in s.events r.id .cost_microusd)
      ∧ (∀ e ∈ s.events, e.type = .run_usage → e.idempotency_key.is_report = true)
      ∧ UniqueWhere (fun e => e.idempotency_key.is_report) Event.id s.events
      ∧ (∀ now input, (∀ r ∈ s.runs, ¬ (r.id = input.run_id ∧ r.corp_id = input.corp_id
            ∧ r.agent_id = input.agent_id ∧ r.runner_id = input.runner_id
            ∧ r.assignment_token = input.assignment_token)) →
          step env s (.apply_runner_event now input) = s)
      ∧ ∀ r ∈ s.runs, r.status ∈ [RunStatus.completed, .failed, .cancelled, .lost] →
          ∀ now input o t, input.run_id = r.id → apply_runner_event env s now input = .ok (o, t) →
            input.event_type ∈ [EventType.run_workspace_preserved, .run_workspace_removed,
              .run_session_terminated]
            ∧ t.statuses = s.statuses := by
  have hs := ReachableVia.invariants h
  have hl := ReachableVia.ledger h
  refine ⟨?_, ?_, fun e he ht => (hl.usage_report e he ht).1, hl.distinct,
    fun now input hno => foreign_report_noop hno, ?_⟩
  · intro now input e t u happ hreach now' input' hrunner hevent
    obtain ⟨he, hkey⟩ := accepted_recorded hs happ
    have hexec : exec env s (.apply_runner_event now input) = .ok t :=
      map_eq_ok.mpr ⟨(some e, t), happ, rfl⟩
    have ht : Reachable env t := h.exec hexec
    obtain ⟨hu, heu⟩ := events_of_reaches ht hreach he
    refine redelivery_noop (ReachableVia.ledger hu) heu ?_
    rw [hkey, hrunner, hevent]
  · intro r hr
    exact ⟨hl.counted r hr .input_tokens, hl.counted r hr .output_tokens,
      hl.counted r hr .cost_microusd⟩
  · intro r hr hover now input o t hrun happ
    have hterm : r.status.is_terminal = true := by
      simp only [List.mem_cons, List.not_mem_nil, or_false] at hover
      rcases hover with ho | ho | ho | ho <;> rw [ho] <;> rfl
    obtain ⟨hrep, hst⟩ := terminal_run_report hs hr hterm hrun happ
    refine ⟨?_, hst⟩
    revert hrep
    cases input.event_type <;> simp [is_terminal_report]

/-- A run whose usage was reported twice under one identifier. -/
def Office.usage_twice : List Op :=
  [Office.create_mission (Office.plan [Office.task "a" [] Office.file_policy]),
    Office.dispatch 1 50, Office.report 50 201 .run_started (.obj []),
    Office.report 50 202 .run_usage (.obj [("input_tokens", .int 40)]),
    Office.report 50 202 .run_usage (.obj [("input_tokens", .int 40)])]

set_option maxRecDepth 20000 in
theorem reports_applied_once_office :
    (Office.after Office.usage_twice).runs.map Run.input_tokens = [40]
      ∧ ∀ r ∈ (Office.after Office.usage_twice).runs,
        r.input_tokens = usage_in (Office.after Office.usage_twice).events r.id .input_tokens :=
  ⟨by decide, fun r hr =>
    ((reports_applied_once (Office.reachable_after Office.usage_twice)).2.1 r hr).1⟩

end Crony.Store
