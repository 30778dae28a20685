/-
The two ends of a heartbeat: the snapshots of the request budget and the check the store
makes of them.

`validate_polling_update` compares a snapshot with the polling state it accepted last, and
`BudgetState` starts from that state. A session is a client beside the record of the store:
the client connects, works and sends heartbeats, and an accepted heartbeat becomes the record.
`Acceptable` says what keeps the next heartbeat acceptable; it is kept by every operation that
brings no quota observation older than the recorded one to a client that holds none.
-/
import Crony.Properties.Quota
import Crony.Store.Controllers

set_option autoImplicit false

open Crony.Lib

namespace Crony.Cli

open Crony.Store (validate_polling_update validate_quota_observation)

/-! ## Sessions -/

/-- A client and the polling state the store accepted last, at the time `since`; `latest` is
the latest clock reading after that. -/
structure Session where
  client : FactoryPollingState
  accepted : FactoryPollingState
  since : DateTime
  latest : DateTime
  deriving DecidableEq

/-- A new client restores the state the store has. -/
def Session.connected (accepted : FactoryPollingState) (since now : DateTime) : Session where
  client := restore {} accepted now
  accepted := accepted
  since := since
  latest := now

inductive SessionOp where
  | connect (now : DateTime)
  | operate (op : BudgetOp)
  | heartbeat (now : DateTime)

/-- The heartbeats and the operations of the clients of one controller. -/
def session (parse_from_rfc3339 : String → Option DateTime) :
    TransitionSystem Session SessionOp where
  init := fun st => st = .connected {} ⟨0, by decide⟩ ⟨0, by decide⟩
  step := fun st op => match op with
    | .connect now =>
      { Session.connected st.accepted st.since now with latest := max st.latest now }
    | .operate op =>
      { st with
        client := (budget parse_from_rfc3339).step st.client op
        latest := max st.latest op.now }
    | .heartbeat now =>
      match validate_polling_update st.accepted st.client now.val with
      | .ok _ => { st with accepted := st.client, since := now, latest := now }
      | .error _ => st

/-- The window the store computes around an observation is a span of representable times. -/
def Representable (t : DateTime) : Prop :=
  MIN_UTC_NANOSECONDS + TimeDelta.seconds (5 * 60) ≤ t.val
    ∧ t.val + TimeDelta.seconds (7 * 86400) ≤ MAX_UTC_NANOSECONDS

instance (t : DateTime) : Decidable (Representable t) := by
  delta Representable
  exact inferInstance

section Accepts

variable (parse_from_rfc3339 : String → Option DateTime)

/-- The quota an operation brings, if the client accepts it. -/
def BudgetOp.accepts : BudgetOp → Option GithubGraphqlQuota
  | .restore persisted now =>
    persisted.graphql.filter fun quota => valid_quota quota && decide (quota.observed_at ≤ now)
  | .observe_json response now =>
    ((response.get? "data").bind fun data => data.get? "rateLimit").bind fun value =>
      (accepted_quota parse_from_rfc3339 value now).toOption.join
  | .check _ | .failure .. | .success _ => none

/-- No clock reading is earlier than the last acceptance, nor later than the heartbeat that
follows; and a client that holds no observation takes none older than the one the store has. -/
def SessionOp.Timely (st : Session) : SessionOp → Prop
  | .connect now => st.since ≤ now
  | .operate op => st.since ≤ op.now ∧ ∀ quota ∈ op.accepts parse_from_rfc3339,
      Representable quota.observed_at ∧ (st.client.graphql = none →
        ∀ old ∈ st.accepted.graphql, old.observed_at ≤ quota.observed_at)
  | .heartbeat now => st.latest ≤ now ∧ Representable now

end Accepts

instance (parse_from_rfc3339 : String → Option DateTime) (st : Session) (op : SessionOp) :
    Decidable (op.Timely parse_from_rfc3339 st) := by
  delta SessionOp.Timely
  rcases op <;> exact inferInstance

/-! ## The observation of a client -/

@[simp] theorem extend_wait_graphql (s : FactoryPollingState) (reason : FactoryRetryReason)
    (deadline : DateTime) : (extend_wait s reason deadline).graphql = s.graphql := by
  unfold extend_wait
  split <;> rfl

@[simp] theorem repair_wait_graphql (s : FactoryPollingState) (now : DateTime) :
    (repair_wait s now).graphql = s.graphql := by
  simp only [repair_wait, extend_wait_graphql]

@[simp] theorem retain_quota_wait_graphql (s : FactoryPollingState) (now : DateTime) :
    (retain_quota_wait s now).graphql = s.graphql := by
  unfold retain_quota_wait
  split
  · rfl
  · dsimp only
    split
    · exact extend_wait_graphql s _ _
    · rfl

@[simp] theorem restore_wait_graphql (s persisted : FactoryPollingState) (now : DateTime) :
    (restore_wait s persisted now).graphql = s.graphql := by
  unfold restore_wait
  split
  · exact extend_wait_graphql s _ _
  · split
    · exact repair_wait_graphql s now
    · rfl

/-- A quota that is accepted is valid and carries the time of the reading. -/
theorem accepted_quota_valid {parse_from_rfc3339 : String → Option DateTime} {value : Json}
    {now : DateTime} {quota : GithubGraphqlQuota}
    (h : accepted_quota parse_from_rfc3339 value now = .ok (some quota)) :
    valid_quota quota = true ∧ quota.observed_at = now := by
  unfold accepted_quota at h
  obtain ⟨observed, hobserved, h⟩ := bind_eq_ok.mp h
  obtain ⟨_, -, h⟩ := bind_eq_ok.mp h
  split at h
  · cases h
  · obtain ⟨_, hvalid, h⟩ := bind_eq_ok.mp h
    rw [ensure_eq_ok] at hvalid
    cases h
    refine ⟨hvalid, ?_⟩
    unfold observed_quota at hobserved
    obtain ⟨reset, -, hobserved⟩ := bind_eq_ok.mp hobserved
    obtain ⟨limit, -, hobserved⟩ := bind_eq_ok.mp hobserved
    obtain ⟨remaining, -, hobserved⟩ := bind_eq_ok.mp hobserved
    obtain ⟨cost, -, hobserved⟩ := bind_eq_ok.mp hobserved
    obtain ⟨reset_at, -, hobserved⟩ := bind_eq_ok.mp hobserved
    cases hobserved
    rfl

/-- What an operation at the time `now` makes of the observation of the client: it stays, or a
valid one takes its place that is not older, the one that was `accepted`. -/
structure Observes (now : DateTime) (accepted : Option GithubGraphqlQuota)
    (s t : FactoryPollingState) : Prop where
  kept : ∀ q ∈ t.graphql, s.graphql = some q
    ∨ (valid_quota q = true ∧ q.observed_at ≤ now ∧ q ∈ accepted
        ∧ ∀ current ∈ s.graphql, current.observed_at ≤ q.observed_at)

namespace Observes

variable {now : DateTime} {accepted : Option GithubGraphqlQuota} {s t : FactoryPollingState}

theorem of_eq (h : t.graphql = s.graphql) : Observes now accepted s t :=
  ⟨fun _ hq => Or.inl (h ▸ hq)⟩

theorem congr_left {s' : FactoryPollingState} (h : Observes now accepted s' t)
    (hs : s'.graphql = s.graphql) : Observes now accepted s t := by
  refine ⟨fun q hq => ?_⟩
  have hkept := h.kept q hq
  rwa [hs] at hkept

theorem congr_right {t' : FactoryPollingState} (h : Observes now accepted s t')
    (ht : t.graphql = t'.graphql) : Observes now accepted s t :=
  ⟨fun q hq => h.kept q (ht ▸ hq)⟩

theorem merge_quota (s : FactoryPollingState) {quota : GithubGraphqlQuota}
    (hvalid : valid_quota quota = true) (hle : quota.observed_at ≤ now)
    (haccepted : quota ∈ accepted) :
    Observes now accepted s (merge_quota s quota) := by
  unfold Cli.merge_quota
  split
  · exact of_eq rfl
  · rename_i hkeep
    refine ⟨fun q hq => ?_⟩
    obtain rfl : quota = q := Option.some.inj hq
    refine Or.inr ⟨hvalid, hle, haccepted, ?_⟩
    intro current hcurrent
    exact not_lt.mp fun hlt => hkeep ⟨current, hcurrent, Or.inl hlt⟩

theorem restore (s persisted : FactoryPollingState) (now : DateTime) :
    Observes now (persisted.graphql.filter fun quota =>
      valid_quota quota && decide (quota.observed_at ≤ now)) s (restore s persisted now) := by
  unfold Cli.restore restore_quota
  refine congr_right ?_ (retain_quota_wait_graphql _ now)
  split
  · rename_i quota hquota
    split
    · rename_i hvalid
      have haccepted : quota ∈ persisted.graphql.filter fun quota =>
          valid_quota quota && decide (quota.observed_at ≤ now) := by
        rw [Option.mem_filter_iff, Bool.and_eq_true, decide_eq_true_eq]
        exact ⟨hquota, hvalid⟩
      have hmerge := merge_quota
        (Cli.restore_wait { s with
          consecutive_failures :=
            min (max s.consecutive_failures persisted.consecutive_failures) MAX_FAILURES }
          persisted now) hvalid.1 hvalid.2 haccepted
      exact hmerge.congr_left (restore_wait_graphql _ persisted now)
    · refine of_eq ?_
      rw [repair_wait_graphql, restore_wait_graphql]
  · exact of_eq (restore_wait_graphql _ persisted now)

theorem failure (s : FactoryPollingState) (error : Option GitHubWait) (now : DateTime) :
    (failure s error now).2.graphql = s.graphql := by
  unfold Cli.failure
  cases error with
  | none => rfl
  | some wait =>
    simp only [retain_quota_wait_graphql, extend_wait_graphql]
    unfold failure_deadline
    split <;> rfl

theorem success (s : FactoryPollingState) (now : DateTime) :
    (success s now).graphql = s.graphql := by
  unfold Cli.success
  rw [retain_quota_wait_graphql]
  split
  · rfl
  · split <;> rfl

theorem observe_json (parse_from_rfc3339 : String → Option DateTime) (s : FactoryPollingState)
    (response : Json) (now : DateTime) :
    Observes now (((response.get? "data").bind fun data => data.get? "rateLimit").bind
      fun value => (accepted_quota parse_from_rfc3339 value now).toOption.join) s
      (observe_json parse_from_rfc3339 s response now).2 := by
  unfold Cli.observe_json
  split
  · exact of_eq rfl
  · rename_i value hvalue
    rw [hvalue, Option.bind_some]
    split
    · exact of_eq rfl
    · exact of_eq rfl
    · rename_i quota haccepted
      obtain ⟨hvalid, hnow⟩ := accepted_quota_valid haccepted
      rw [haccepted]
      have hmerge : Observes now (some quota) s (Cli.merge_quota s quota) :=
        merge_quota s hvalid (le_of_eq hnow) rfl
      exact hmerge.congr_right (retain_quota_wait_graphql _ now)

end Observes

/-- **Step lemma.** -/
theorem budget_step_observes (parse_from_rfc3339 : String → Option DateTime)
    (s : FactoryPollingState) (op : BudgetOp) :
    Observes op.now (op.accepts parse_from_rfc3339) s ((budget parse_from_rfc3339).step s op) := by
  cases op with
  | restore persisted now => exact .restore s persisted now
  | check now => exact .of_eq (retain_quota_wait_graphql s now)
  | observe_json response now => exact .observe_json parse_from_rfc3339 s response now
  | failure error now => exact .of_eq (Observes.failure s error now)
  | success now => exact .of_eq (Observes.success s now)

/-- A client that connects takes over a wait that is not over. -/
theorem restore_keeps_wait (persisted : FactoryPollingState) (now required : DateTime)
    (h : required ∈ persisted.next_retry_at) (hout : outstanding required now = true) :
    ∃ proposed ∈ (restore {} persisted now).next_retry_at, required ≤ proposed := by
  let failures := min (max 0 persisted.consecutive_failures) MAX_FAILURES
  let counted : FactoryPollingState := { consecutive_failures := failures }
  have hfirst : (restore_wait counted persisted now).next_retry_at = some required := by
    have hempty : ∀ current ∈ counted.next_retry_at, current < required := by
      intro current hcurrent
      cases hcurrent
    unfold restore_wait
    rw [h]
    dsimp only
    unfold extend_wait
    rw [if_pos (Or.inl hempty)]
  have hrest : Moves now (restore_wait counted persisted now) (restore {} persisted now) :=
    (Moves.restore_quota _ persisted now).trans (.retain_quota_wait now _)
  exact hrest.wait required hfirst hout

/-! ## Acceptable clients -/

/-- What keeps the next heartbeat of a client acceptable. -/
structure Acceptable (st : Session) : Prop where
  ordered : st.since ≤ st.latest
  sound : Sound st.client
  wait : ∀ required ∈ st.accepted.next_retry_at,
    required ≤ st.latest ∨ ∃ proposed ∈ st.client.next_retry_at, required ≤ proposed
  recorded : ∀ old ∈ st.accepted.graphql, MIN_UTC_NANOSECONDS + TimeDelta.seconds
    (5 * 60) ≤ old.observed_at.val
  quota : ∀ q ∈ st.client.graphql, valid_quota q = true ∧ q.observed_at ≤ st.latest
    ∧ MIN_UTC_NANOSECONDS + TimeDelta.seconds (5 * 60) ≤ q.observed_at.val
    ∧ ∀ old ∈ st.accepted.graphql, old.observed_at ≤ q.observed_at

theorem checked_add_signed_eq_some {t : DateTime} {duration : Int}
    (h : MIN_UTC_NANOSECONDS ≤ t.val + duration ∧ t.val + duration ≤ MAX_UTC_NANOSECONDS) :
    t.checked_add_signed duration = some ⟨t.val + duration, h⟩ := dif_pos h

/-- The store admits every quota the client holds to be valid. -/
theorem validate_quota_observation_valid {prior : FactoryPollingState}
    {q : GithubGraphqlQuota} {now : DateTime} (hvalid : valid_quota q = true)
    (hle : q.observed_at ≤ now)
    (hmin : MIN_UTC_NANOSECONDS + TimeDelta.seconds (5 * 60) ≤ q.observed_at.val)
    (hmax : now.val + TimeDelta.seconds (7 * 86400) ≤ MAX_UTC_NANOSECONDS)
    (hprior : ∀ old ∈ prior.graphql, old.observed_at ≤ q.observed_at) :
    validate_quota_observation prior q now.val = .ok () := by
  have hle' : q.observed_at.val ≤ now.val := hle
  have hminutes : TimeDelta.seconds (5 * 60) = 300000000000 := rfl
  have hdays : TimeDelta.seconds (7 * 86400) = 604800000000000 := rfl
  have hmargins : TimeDelta.seconds (-5) = -5000000000
      ∧ TimeDelta.seconds (24 * 60 * 60) = 86400000000000 := ⟨rfl, rfl⟩
  have hlatest : MIN_UTC_NANOSECONDS ≤ q.observed_at.val + TimeDelta.seconds (7 * 86400)
      ∧ q.observed_at.val + TimeDelta.seconds (7 * 86400) ≤ MAX_UTC_NANOSECONDS := by omega
  have hearliest : MIN_UTC_NANOSECONDS ≤ q.observed_at.val + -TimeDelta.seconds (5 * 60)
      ∧ q.observed_at.val + -TimeDelta.seconds (5 * 60) ≤ MAX_UTC_NANOSECONDS := by omega
  simp only [valid_quota, valid_counters, Bool.and_eq_true, decide_eq_true_eq] at hvalid
  simp only [MAX_QUOTA_POINTS, MAX_QUOTA_WINDOW_SECONDS, RESET_MARGIN_SECONDS] at hvalid
  obtain ⟨⟨⟨⟨⟨hpos, hlimit⟩, hremaining⟩, hcost⟩, hmargin⟩, hwindow⟩ := hvalid
  have hreset : q.reset_at ≤ (⟨_, hlatest⟩ : DateTime) := by
    show q.reset_at.val ≤ q.observed_at.val + TimeDelta.seconds (7 * 86400)
    omega
  have hreset' : (⟨_, hearliest⟩ : DateTime) ≤ q.reset_at := by
    show q.observed_at.val + -TimeDelta.seconds (5 * 60) ≤ q.reset_at.val
    omega
  have hbounds : q.limit ≠ 0 ∧ q.limit ≤ 1000000000 ∧ q.remaining ≤ q.limit
      ∧ q.cost ≤ 1000000000 ∧ q.observed_at.val ≤ now.val + TimeDelta.seconds (5 * 60)
      ∧ q.reset_at ≤ (⟨_, hlatest⟩ : DateTime) ∧ (⟨_, hearliest⟩ : DateTime) ≤ q.reset_at :=
    ⟨by omega, by omega, hremaining, by omega, by omega, hreset, hreset'⟩
  unfold validate_quota_observation
  rw [checked_add_signed_eq_some hlatest, checked_add_signed_eq_some hearliest]
  simp only [context, ok_bind, ensure_of hbounds, ensure_of hprior]

/-- **A heartbeat of an acceptable client is accepted.** -/
theorem Acceptable.validates {st : Session} (h : Acceptable st) {now : DateTime}
    (hlatest : st.latest ≤ now)
    (hmax : now.val + TimeDelta.seconds (7 * 86400) ≤ MAX_UTC_NANOSECONDS) :
    validate_polling_update st.accepted st.client now.val = .ok () := by
  have hfailures : st.client.consecutive_failures ≤ 32 := by
    have hbounded := h.sound.bounded
    unfold MAX_FAILURES at hbounded
    omega
  have hwait : ∀ required ∈ st.accepted.next_retry_at, now.val < required.val →
      ∃ proposed ∈ st.client.next_retry_at, required ≤ proposed := by
    intro required hrequired hahead
    rcases h.wait required hrequired with hover | hkept
    · -- The wait was over at the latest reading, so it is over now.
      have hpast : required.val ≤ now.val := le_trans hover hlatest
      omega
    · exact hkept
  unfold validate_polling_update
  rw [ensure_of ⟨h.sound.paired, hfailures⟩, ensure_of hwait]
  simp only [ok_bind]
  split
  · rfl
  · rename_i q hq
    obtain ⟨hvalid, hle, hmin, hprior⟩ := h.quota q hq
    exact validate_quota_observation_valid hvalid (le_trans hle hlatest) hmin hmax hprior

/-! ## Sessions keep their clients acceptable -/

section Runs

variable {parse_from_rfc3339 : String → Option DateTime}

/-- What a client restores from the record of the store. -/
theorem Acceptable.of_connected {accepted : FactoryPollingState} {since latest now : DateTime}
    (hordered : since ≤ latest) (hnow : now ≤ latest)
    (hrecorded : ∀ old ∈ accepted.graphql,
      MIN_UTC_NANOSECONDS + TimeDelta.seconds (5 * 60) ≤ old.observed_at.val) :
    Acceptable { Session.connected accepted since now with latest := latest } where
  ordered := hordered
  sound := (Moves.restore {} accepted now).sound ⟨rfl, Nat.zero_le _⟩
  wait := by
    intro required hrequired
    by_cases hout : outstanding required now = true
    · exact Or.inr (restore_keeps_wait accepted now required hrequired hout)
    · have hpast : required ≤ now := not_lt.mp fun hlt => hout (outstanding_iff.mpr (Or.inr hlt))
      exact Or.inl (le_trans hpast hnow)
  recorded := hrecorded
  quota := by
    intro q hq
    rcases (Observes.restore {} accepted now).kept q hq with hbefore | ⟨hvalid, hle, haccepted, -⟩
    · cases hbefore
    · have hold := (Option.mem_filter_iff.mp haccepted).1
      refine ⟨hvalid, le_trans hle hnow, hrecorded q hold, ?_⟩
      intro old' hold'
      rw [Option.mem_unique hold' hold]

/-- **Step lemma.** -/
theorem Acceptable.step {st : Session} {op : SessionOp} (h : Acceptable st)
    (hop : op.Timely parse_from_rfc3339 st) :
    Acceptable ((session parse_from_rfc3339).step st op) := by
  cases op with
  | connect now =>
    exact .of_connected (le_trans h.ordered (le_max_left _ _)) (le_max_right _ _) h.recorded
  | operate op =>
    obtain ⟨hsince, hfresh⟩ := hop
    have hlatest : st.latest ≤ max st.latest op.now := le_max_left _ _
    have hnow : op.now ≤ max st.latest op.now := le_max_right _ _
    have hmoves := budget_step_moves parse_from_rfc3339 st.client op
    refine ⟨le_trans h.ordered hlatest, hmoves.sound h.sound, ?_, h.recorded, ?_⟩
    · intro required hrequired
      rcases h.wait required hrequired with hover | ⟨proposed, hproposed, hle⟩
      · exact Or.inl (le_trans hover hlatest)
      · by_cases hout : outstanding proposed op.now = true
        · obtain ⟨r, hr, hle'⟩ := hmoves.wait proposed hproposed hout
          exact Or.inr ⟨r, hr, le_trans hle hle'⟩
        · -- Only a wait that the reading has passed may be dropped.
          have hpast : proposed ≤ op.now := not_lt.mp fun hlt =>
            hout (outstanding_iff.mpr (Or.inr hlt))
          exact Or.inl (le_trans hle (le_trans hpast hnow))
    · intro q hq
      rcases (budget_step_observes parse_from_rfc3339 st.client op).kept q hq with
        hbefore | ⟨hvalid, hle, haccepted, hcurrent⟩
      · obtain ⟨hvalid, hle, hmin, hprior⟩ := h.quota q hbefore
        exact ⟨hvalid, le_trans hle hlatest, hmin, hprior⟩
      · obtain ⟨hrep, hfirst⟩ := hfresh q haccepted
        refine ⟨hvalid, le_trans hle hnow, hrep.1, ?_⟩
        intro old hold
        cases hclient : st.client.graphql with
        | none => exact hfirst hclient old hold
        | some current =>
          obtain ⟨-, -, -, hprior⟩ := h.quota current hclient
          exact le_trans (hprior old hold) (hcurrent current hclient)
  | heartbeat now =>
    obtain ⟨hlatest, hrep⟩ := hop
    have hvalidates := h.validates hlatest hrep.2
    simp only [session, hvalidates]
    refine ⟨le_refl now, h.sound, fun required hrequired => ?_, ?_, ?_⟩
    · exact Or.inr ⟨required, hrequired, le_refl required⟩
    · intro old hold
      exact (h.quota old hold).2.2.1
    · intro q hq
      obtain ⟨hvalid, hle, hmin, -⟩ := h.quota q hq
      refine ⟨hvalid, le_trans hle hlatest, hmin, ?_⟩
      intro old hold
      rw [Option.mem_unique hold hq]

/-- The store has computed the window of an observation it accepted. -/
theorem recorded_of_accepted {prior accepted : FactoryPollingState} {now : Int}
    (h : validate_polling_update prior accepted now = .ok ()) :
    ∀ old ∈ accepted.graphql,
      MIN_UTC_NANOSECONDS + TimeDelta.seconds (5 * 60) ≤ old.observed_at.val := by
  intro old hold
  unfold validate_polling_update at h
  obtain ⟨_, -, h⟩ := bind_eq_ok.mp h
  obtain ⟨_, -, h⟩ := bind_eq_ok.mp h
  rw [Option.mem_def.mp hold] at h
  obtain ⟨_, -, h⟩ := bind_eq_ok.mp h
  obtain ⟨earliest, hearliest, -⟩ := bind_eq_ok.mp h
  have hsome : old.observed_at.checked_add_signed (-TimeDelta.seconds (5 * 60)) = some earliest :=
    context_eq_ok.mp hearliest
  unfold DateTime.checked_add_signed at hsome
  split at hsome
  · rename_i hrange
    omega
  · cases hsome

/-- **Every heartbeat of a session is accepted.** A client connects with the polling state the
store accepted last, at `since`. After every sequence of operations, heartbeats and new
connections, none of whose clock readings is earlier than the last acceptance or later than
the next heartbeat, the snapshot of the client passes the check of the store, provided that a
client that holds no quota observation takes none older than the recorded one. -/
theorem client_snapshots_accepted (parse_from_rfc3339 : String → Option DateTime)
    (prior accepted : FactoryPollingState) (since start : DateTime)
    (haccepted : validate_polling_update prior accepted since.val = .ok ())
    (hstart : since ≤ start) (commands : List SessionOp)
    (htimely : (session parse_from_rfc3339).Meets (fun st op => op.Timely parse_from_rfc3339 st)
      (.connected accepted since start) commands) :
    let st := (session parse_from_rfc3339).run (.connected accepted since start) commands
    ∀ now, st.latest ≤ now → Representable now →
      validate_polling_update st.accepted st.client now.val = .ok () := by
  intro st now hlatest hrep
  have hconnected : Acceptable (.connected accepted since start) :=
    .of_connected hstart (le_refl start) (recorded_of_accepted haccepted)
  have hrun := TransitionSystem.Reaches.run htimely
  have hst : Acceptable st := hrun.preserves hconnected fun _ _ h hop => h.step hop
  exact hst.validates hlatest hrep.2

end Runs

/-! ## A day at the desk -/

namespace Desk

/-- The first hours of the epoch. -/
def clock (n : Fin 400000) : DateTime :=
  ⟨TimeDelta.seconds n.val, by
    have hlt := n.isLt
    unfold MIN_UTC_NANOSECONDS MAX_UTC_NANOSECONDS TimeDelta.seconds
    omega⟩

def balance (remaining : Int) : Json :=
  .obj [("data", .obj [("rateLimit", .obj [("limit", .int 5000), ("remaining", .int remaining),
    ("cost", .int 1), ("resetAt", .str "1970-01-01T01:30:00Z")])])]

def parse (_ : String) : Option DateTime := some (clock 5400)

/-- A healthy balance, observed at `observed_at`, of a window that ends at `reset_at`. -/
def observed (observed_at reset_at : DateTime) : FactoryPollingState :=
  { graphql := some { limit := 5000, remaining := 4000, cost := 1, reset_at, observed_at } }

/-- A wait for the service. -/
def waiting : FactoryPollingState :=
  { next_retry_at := some (clock 2000), retry_reason := some .github_unavailable
    consecutive_failures := 1 }

end Desk

open Desk in
/-- A session that waits, observes a balance, reports it, is replaced by a new client and
reports again. -/
theorem client_snapshots_accepted_desk :
    let st := (session parse).run (.connected waiting (clock 1000) (clock 1001))
      [.operate (.success (clock 2001)), .operate (.observe_json (balance 4000) (clock 2002)),
        .heartbeat (clock 2003), .connect (clock 2004)]
    validate_polling_update st.accepted st.client (clock 2005).val = .ok () :=
  client_snapshots_accepted parse {} waiting (clock 1000) (clock 1001) (by decide +kernel)
    (by decide) _ (by decide +kernel) (clock 2005) (by decide +kernel) (by decide +kernel)

open Desk in
/-- What the store accepts and the client does not take over. An observation up to five
minutes ahead of the store's clock is dropped by a client with the same clock, and the next
one is older; so is, where the window is longer than a day, one that is restored later. A
client whose clock is ahead drops a wait that is not over for the store. And at the last time
there is, which no clock shows but the readings of the session range up to, the store cannot
compute the window of an observation. -/
theorem client_snapshots_refused :
    (validate_polling_update {} (observed (clock 1240) (clock 5400)) (clock 1000).val = .ok ()
      ∧ validate_polling_update (observed (clock 1240) (clock 5400))
          ((budget parse).run (restore {} (observed (clock 1240) (clock 5400)) (clock 1001))
            [.observe_json (balance 4000) (clock 1100)]) (clock 1100).val
        = .error "GraphQL quota observations cannot move backwards")
    ∧ (validate_polling_update {} (observed (clock 900) (clock 172800)) (clock 1000).val = .ok ()
      ∧ validate_polling_update (observed (clock 900) (clock 172800))
          ((budget parse).run (restore {} (observed (clock 900) (clock 172800)) (clock 1001))
            [.restore (observed (clock 800) (clock 5400)) (clock 1002)]) (clock 1003).val
        = .error "GraphQL quota observations cannot move backwards")
    ∧ (validate_polling_update {} waiting (clock 1000).val = .ok ()
      ∧ validate_polling_update waiting
          ((budget parse).run (restore {} waiting (clock 1000)) [.success (clock 2000)])
          (clock 1999).val
        = .error "factory polling update cannot shorten an outstanding retry wait")
    ∧ (validate_polling_update {} {} (clock 1000).val = .ok ()
      ∧ validate_polling_update {}
          ((budget fun _ => some MAX_UTC).run (restore {} {} (clock 1000))
            [.observe_json (balance 4000) MAX_UTC]) MAX_UTC.val
        = .error "GraphQL observation timestamp is out of range") := by
  decide +kernel

end Crony.Cli
