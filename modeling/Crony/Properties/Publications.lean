/-
Publications over whole runs.

An item has one publication, whatever is started, taken over, repeated or refused, and is
published exactly with it; the attempts at a publication are numbered without gaps and only
the last one can run. What a publication has recorded stays recorded. Versions and tokens fence
a publisher that has been replaced, a lease keeps others away, and a key is good for one
effect.
-/
import Crony.Lib.Once
import Crony.Lifecycle.Publishing
import Crony.Properties.Claims

set_option autoImplicit false

open Crony.Lib

namespace Crony.Store

variable {env : Env} {documents : PolicyDocuments} {s t : Press}

/-! ## Publications, items and attempts -/

namespace Desk

def policy : Json :=
  .obj [("auto_merge", .bool false),
    ("publication", .obj [("allowed", .bool true), ("base_ref", .str "main"),
      ("repository_allowlist", .arr [.str "o/s"]), ("review_status", .str "In review"),
      ("status_before", .str "In progress")]),
    ("source_base_commit", .str Shop.base_commit), ("source_base_ref", .str "HEAD"),
    ("source_commit_upgrade_required", .bool false)]

def serde : PolicyDocuments where
  from_value := fun _ => none
  to_vec_len := fun _ => 100
  to_text := fun _ => "policy"
  from_text := fun _ => some policy

/-- The publisher of the office is enrolled. -/
def office : Press :=
  { Shop.office with
    publications := []
    publisher_credentials := [{ id := 1, corp_id := 1, publisher_id := "publisher"
                                credential_hash := Office.sha 'c', created_by := 1, expires_at :=
                                  1000 }] }

theorem initial : office.Initial where
  workshop := Shop.initial
  publications := rfl
  publication_attempts := rfl
  publication_operations := rfl

/-- The state after some calls. -/
def after (calls : List PressOp) : Press := (presses Office.digest serde).run office calls

theorem reachable_after (calls : List PressOp) :
    (presses Office.digest serde).Reachable (after calls) :=
  TransitionSystem.Reachable.run initial calls

theorem after_append (calls : List PressOp) (op : PressOp) :
    after (calls ++ [op]) = (presses Office.digest serde).step (after calls) op :=
  List.foldl_append

/-- Further calls that meet a condition are a run. -/
theorem reaches_after {ok : Press → PressOp → Prop} (calls : List PressOp) {more : List PressOp}
    (h : (presses Office.digest serde).Meets ok (after calls) more) :
    (presses Office.digest serde).Reaches ok (after calls) (after (calls ++ more)) := by
  have hrun := TransitionSystem.Reaches.run h
  unfold after TransitionSystem.run at hrun ⊢
  rw [List.foldl_append]
  exact hrun

def claim : PressOp :=
  .workshop (.claim_factory_work_item 0 { Shop.input 1 "c" with policy })

/-- A task that delivers a commit. -/
def task : PlannedTask :=
  { Office.task "a" [] Office.file_policy with
    contract := { Office.contract with
      source_repository := some "o/s", source_base_ref := some "HEAD"
      source_base_commit := some Shop.base_commit
      deliverable := some { form := .commit_branch } } }

def materialize : Op :=
  .materialize_factory_mission 0
    { mission := { corp_id := 1, requested_by := 1, title := "Mission", description := ""
                   room_id := 10, plan := Office.plan [task] }
      work_item_id := 1, claim_token := 1, expected_version := 1, idempotency_key := "plan"
      request := "plan", policy_allows := true }

def head_commit : String := "89abcdef0123456789abcdef0123456789abcdef"

/-- The commit of the run. -/
def deliverable : Artifact :=
  { Office.artifact 50 80 .source_deliverable 'd' with
    metadata := .obj
      [("form", .str "commit_branch"), ("verification_sha256", .str (Office.sha 'a')),
      ("base_commit", .str Shop.base_commit), ("head_commit", .str head_commit),
      ("branch", .str "c"), ("integration_state", .str "ready_for_review"),
      ("publication_ready", .bool true), ("git_bundle_sha256", .str (Office.sha 'b'))] }

def upload : Op :=
  .prepare_artifact_upload 0
    { event_id := 80, runner_id := "runner", corp_id := 1, run_id := 50, agent_id := 100
      assignment_token := 7, event_type := .run_deliverable_upload, payload := .obj [] }
    deliverable ("staging/corps/" ++ uuid_text 1 ++ "/" ++ uuid_text 80) true

/-- An item is claimed, worked on and verified. -/
def verified : List PressOp :=
  claim :: [materialize, Office.dispatch 1 50, Office.report 50 201 .run_started (.obj []),
    Office.report 50 202 .run_verification_started (.obj []),
    Office.report 50 203 .run_verification_evidence (Office.evidence 0 900 "file"),
    upload, Office.finalize 80,
    Office.report 50 300 .run_verification_passed
      (.obj [("verification_sha256", .str (Office.sha 'a')),
        ("deliverable_sha256", .str (Office.sha 'd'))]),
    Office.report 50 400 .run_completed (.obj [])].map fun op => .workshop (.lifecycle op)

def answers : PublicationAnswers where
  checkpoint := .ok none
  correction := .ok ()
  observed_source_revision := fun _ => ""

def start_input (idempotency_key : String) : StartPullRequestPublicationInput where
  work_item_id := 1
  source_deliverable_id := 80
  target_repository := "o/s"
  base_ref := "main"
  branch := "ecorp/s"
  title := "t"
  body := "https://github.com/o/s/issues/3"
  authorization_id := 500
  authorization_reason := "verified"
  effect_key := "effect"
  publisher_id := "publisher"
  lease_seconds := 60
  corp_id := 1
  actor_id := 1
  actor_role := "owner"
  idempotency_key := idempotency_key
  publisher_credential_hash := Office.sha 'c'

def start (now : Int) (idempotency_key : String) : PressOp :=
  .start_pull_request_publication now (start_input idempotency_key) answers

/-- The publisher with a token records a checkpoint. -/
def record (now : Int) (publisher_token : Uuid) (expected_version : Int) (idempotency_key : String)
    (checkpoint : PullRequestPublicationCheckpointInput) : PressOp :=
  .record_pull_request_publication_checkpoint now
    { corp_id := 1, publication_id := 1, actor_id := 1, publisher_id := "publisher"
      publisher_credential_hash := Office.sha 'c', publisher_token, expected_version
      idempotency_key, checkpoint }
    answers

def report : PullRequestReport where
  number := 9
  node_id := "PR_9"
  url := "https://github.com/o/s/pull/9"
  state := "OPEN"
  draft := false
  base_ref := "main"
  head_sha := head_commit
  head_repository_owner := "o"
  is_cross_repository := false
  title := "t"
  body := "https://github.com/o/s/issues/3"
  head_ref := "ecorp/s"
  auto_merge_enabled := false

/-- A publication is started. -/
def started : List PressOp := verified ++ [start 10 "first"]

/-- The second attempt ends well. -/
def finish : List PressOp :=
  [record 90 2 2 "pushed" (.branch_pushed head_commit),
    record 100 2 3 "created" (.pull_request_created report),
    record 110 2 4 "published" (.published "In review" "field" "option")]

/-- The lease of the first attempt runs out, and the publication is taken over and finished. -/
def published : List PressOp := started ++ start 80 "second" :: finish

end Desk

/-- A later row of an attempt: one that has ended is never written again. -/
structure PublicationAttempt.Later (a a' : PublicationAttempt) : Prop where
  columns : a' = { a with state := a'.state, failure_detail := a'.failure_detail }
  ended : a.state ≠ .running → a' = a

theorem PublicationAttempt.Later.refl (a : PublicationAttempt) : a.Later a := ⟨rfl, fun _ => rfl⟩

theorem PublicationAttempt.Later.trans {a b c : PublicationAttempt} (h : a.Later b)
    (h' : b.Later c) :
    a.Later c where
  columns := by
    rw [h'.columns, h.columns]
  ended := by
    intro hstate
    have hb := h.ended hstate
    rw [← hb]
    exact h'.ended (by rw [hb]; exact hstate)

/-- What was there is still there. -/
structure Press.History (s t : Press) : Prop where
  publications : ∀ p ∈ s.publications, ∃ p' ∈ t.publications, p.Later p'
  attempts : ∀ a ∈ s.publication_attempts, ∃ a' ∈ t.publication_attempts, a.Later a'
  operations : ∀ row ∈ s.publication_operations, row ∈ t.publication_operations
  published : ∀ i ∈ s.factory_work_items, i.state = .published → i ∈ t.factory_work_items

theorem Press.History.refl (hs : s.Sound) : s.History s where
  publications := fun p hp => ⟨p, hp, .refl (hs.registered.shaped p hp)⟩
  attempts := fun a ha => ⟨a, ha, .refl a⟩
  operations := fun _ hrow => hrow
  published := fun _ hi _ => hi

theorem Press.History.trans {u : Press} (h : s.History t) (h' : t.History u) : s.History u where
  publications := by
    intro p hp
    obtain ⟨q, hq, hpq⟩ := h.publications p hp
    obtain ⟨r, hr, hqr⟩ := h'.publications q hq
    exact ⟨r, hr, hpq.trans hqr⟩
  attempts := by
    intro a ha
    obtain ⟨b, hb, hab⟩ := h.attempts a ha
    obtain ⟨c, hc, hbc⟩ := h'.attempts b hb
    exact ⟨c, hc, hab.trans hbc⟩
  operations := fun row hrow => h'.operations row (h.operations row hrow)
  published := fun i hi hstate => h'.published i (h.published i hi hstate) hstate

namespace Press.Advance

variable {op : PressOp}

theorem publications_later (h : s.Advance env documents op t) (hs : s.Sound)
    {p : PullRequestPublication} (hp : p ∈ s.publications) : ∃ p' ∈ t.publications, p.Later p' := by
  have hrefl := PullRequestPublication.Later.refl (hs.registered.shaped p hp)
  cases h.turns hs with
  | same h _ =>
    rw [h]
    exact ⟨p, hp, hrefl⟩
  | turned q q' hq turned succeeds _ =>
    by_cases hkey : p.key = q.key
    · obtain rfl := hs.registered.keyed.eq_of_mem hp hq hkey
      exact ⟨q', turned.mem hq rfl, succeeds.later⟩
    · exact ⟨p, turned.kept hp hkey, hrefl⟩
  | added q _ _ _ publications _ =>
    rw [publications]
    exact ⟨p, List.mem_append_left _ hp, hrefl⟩

/-- A statement that ends attempts that run. -/
theorem attempts_ended {l : List PublicationAttempt} {p : PublicationAttempt → Bool}
    {f : PublicationAttempt → PublicationAttempt}
    (hp : ∀ a, p a = true → a.state = .running)
    (hf : ∀ a, f a = { a with state := (f a).state, failure_detail := (f a).failure_detail })
    {a : PublicationAttempt} (ha : a ∈ l) : ∃ a' ∈ updateWhere p f l, a.Later a' := by
  refine ⟨_, mem_updateWhere.mpr ⟨a, ha, rfl⟩, ?_⟩
  by_cases hclause : p a = true
  · rw [if_pos hclause]
    exact ⟨hf a, fun hstate => absurd (hp a hclause) hstate⟩
  · rw [if_neg hclause]
    exact .refl a

theorem attempts_later (h : s.Advance env documents op t) {a : PublicationAttempt}
    (ha : a ∈ s.publication_attempts) : ∃ a' ∈ t.publication_attempts, a.Later a' := by
  have hsame : t.publication_attempts = s.publication_attempts →
      ∃ a' ∈ t.publication_attempts, a.Later a' := by
    intro hattempts
    rw [hattempts]
    exact ⟨a, ha, .refl a⟩
  have hfinished : ∀ (p : PullRequestPublication) (state : PublicationAttemptState)
      (detail : Option String),
      ∃ a' ∈ (s.finish_attempt p state detail).publication_attempts, a.Later a' := by
    intro p state detail
    refine attempts_ended ?_ (fun _ => rfl) ha
    intro b hb
    simp only [Bool.and_eq_true, beq_iff_eq] at hb
    exact hb.2
  cases h with
  | workshop _ _ _ _ attempts _ => exact hsame attempts
  | unchanged h => exact hsame (by rw [h])
  | credentials _ _ _ h => exact hsame (by rw [h])
  | noted _ _ _ _ _ quiet _ _ _ => exact hsame quiet.attempts
  | requested _ _ _ b _ _ _ _ _ _ _ _ _ _ attempts _ _ =>
    rw [attempts]
    exact ⟨a, List.mem_append_left _ ha, .refl a⟩
  | restarted _ p _ b _ _ _ _ _ _ _ _ attempts _ =>
    rw [attempts]
    obtain ⟨a', ha', hlater⟩ : ∃ a' ∈ (s.abandon_attempts p).publication_attempts, a.Later a' := by
      refine attempts_ended ?_ (fun _ => rfl) ha
      intro c hc
      simp only [Bool.and_eq_true, beq_iff_eq] at hc
      exact hc.2
    exact ⟨a', List.mem_append_left _ ha', hlater⟩
  | advanced _ _ _ _ _ _ _ _ _ quiet _ => exact hsame quiet.attempts
  | finished _ p _ _ _ _ _ _ _ _ _ attempts _ _ => exact attempts ▸ hfinished p _ _
  | failed _ p _ _ _ _ _ _ attempts _ => exact attempts ▸ hfinished p _ _

theorem operations_grow (h : s.Advance env documents op t) (hs : s.Sound)
    {row : PublicationOperation} (hrow : row ∈ s.publication_operations) :
    row ∈ t.publication_operations := by
  cases h.turns hs with
  | same _ operations => exact operations ▸ hrow
  | turned _ _ _ _ _ operations =>
    rcases operations with hsame | ⟨token, log⟩
    · exact hsame ▸ hrow
    · exact log.grow hrow
  | added _ _ _ _ _ log => exact log.grow hrow

/-- A published item is never written again. -/
theorem items_published (h : s.Advance env documents op t) (hs : s.Sound) {i : FactoryWorkItem}
    (hi : i ∈ s.factory_work_items) (hstate : i.state = .published) : i ∈ t.factory_work_items := by
  have hmoved : ∀ {p : PullRequestPublication} {source target : FactoryWorkItemState},
      s.Moved t p source target → source ≠ .published → i ∈ t.factory_work_items := by
    intro p source target hmoved hsource
    rw [hmoved.items]
    refine mem_updateWhere.mpr ⟨i, hi, if_neg ?_⟩
    simp only [Bool.and_eq_true, beq_iff_eq]
    intro hclause
    exact hsource (hclause.2.symm.trans hstate)
  cases h with
  | workshop w _ h _ _ _ =>
    have hadvance := Workshop.exec_advance hs.workshop.bound h
    obtain ⟨i', hi', rfl | hnewer⟩ := hadvance.rows_kept hs.workshop hi
    · exact hi'
    · have hlive := hnewer.live
      rw [hstate] at hlive
      cases hlive
  | unchanged h => exact h ▸ hi
  | credentials _ _ _ h => exact h ▸ hi
  | noted _ _ _ _ _ quiet _ _ _ => exact quiet.workshop ▸ hi
  | requested _ _ _ _ _ _ _ _ _ _ _ _ _ _ _ moved _ => exact hmoved moved nofun
  | restarted _ _ _ _ _ _ _ _ _ _ workshop _ _ _ => exact workshop ▸ hi
  | advanced _ _ _ _ _ _ _ _ _ quiet _ => exact quiet.workshop ▸ hi
  | finished _ _ _ _ _ _ _ _ _ _ _ _ moved _ => exact hmoved moved nofun
  | failed _ _ _ _ _ _ _ workshop _ _ => exact workshop ▸ hi

theorem history (h : s.Advance env documents op t) (hs : s.Sound) : s.History t where
  publications := fun _ hp => h.publications_later hs hp
  attempts := fun _ ha => h.attempts_later ha
  operations := fun _ hrow => h.operations_grow hs hrow
  published := fun _ hi hstate => h.items_published hs hi hstate

end Press.Advance

theorem Press.Sound.reaches (hs : s.Sound) {ok : Press → PressOp → Prop}
    (hrun : (presses env documents).Reaches ok s t) : t.Sound :=
  TransitionSystem.Reaches.preserves_of_exec (I := Press.Sound) hrun hs
    fun _ _ _ hI _ hexec => Press.exec_sound hI hexec

theorem Press.Sound.history (hs : s.Sound) {ok : Press → PressOp → Prop}
    (hrun : (presses env documents).Reaches ok s t) : s.History t := by
  have hboth : t.Sound ∧ s.History t := by
    refine TransitionSystem.Reaches.preserves_of_exec (I := fun u : Press => u.Sound ∧ s.History u)
      hrun ⟨hs, .refl hs⟩ ?_
    rintro a op b ⟨ha, hhistory⟩ - hab
    exact ⟨Press.exec_sound ha hab,
      hhistory.trans ((Press.exec_advance ha.registered.keyed hab).history ha)⟩
  exact hboth.2

/-- **Nothing that was recorded is ever taken back.** A publication keeps its order, its state only
goes forward, what a checkpoint has recorded stays, and a published one is never written again,
nor is an attempt that has ended, an operation or a published item. -/
theorem publications_history {ok ok' : Press → PressOp → Prop}
    (h : (presses env documents).ReachableVia ok s)
    (hrun : (presses env documents).Reaches ok' s t) :
    s.History t :=
  (presses_sound h).history hrun

/-- The first attempt, and all that is there when the second one has published. -/
theorem publications_history_published :
    (Desk.after Desk.started).History (Desk.after Desk.published) := by
  have hmeets : (presses Office.digest Desk.serde).Meets (fun _ _ => True) (Desk.after Desk.started)
      (Desk.start 80 "second" :: Desk.finish) := ⟨trivial, trivial, trivial, trivial, trivial⟩
  exact publications_history (Desk.reachable_after Desk.started)
    (Desk.reaches_after Desk.started hmeets)

/-! ## Versions and tokens -/

/-- Nothing has changed but where publications say they come from. -/
structure Press.Refreshed (s t : Press) : Prop where
  workshop : t.toWorkshop = s.toWorkshop
  publications :
    Updated (fun p p' : PullRequestPublication => p' = { p with provenance := p'.provenance })
    s.publications t.publications
  attempts : t.publication_attempts = s.publication_attempts
  operations : t.publication_operations = s.publication_operations
  credentials : t.publisher_credentials = s.publisher_credentials
  events : t.publication_events = s.publication_events

theorem Press.Refreshed.refl (s : Press) : s.Refreshed s :=
  ⟨rfl, Updated.refl fun _ _ => rfl, rfl, rfl, rfl, rfl⟩

/-- A publication that is read back. -/
theorem Press.Refreshed.of_turned {p : PullRequestPublication} {provenance : Json}
    (hs : Keyed PullRequestPublication.key s.publications) (hp : p ∈ s.publications)
    (turned : s.Turned t p { p with provenance }) (quiet : s.Quiet t)
    (events : t.publication_events = s.publication_events)
    (credentials : t.publisher_credentials = s.publisher_credentials)
    (operations : t.publication_operations = s.publication_operations) : s.Refreshed t := by
  refine ⟨quiet.workshop, ?_, quiet.attempts, operations, credentials, events⟩
  refine (Replaced.updated turned hs hp).mono fun q hq q' hturn => ?_
  rcases hturn with ⟨rfl, rfl⟩ | rfl
  · rfl
  · rfl

/-- Whoever does not hold the publication changes nothing. -/
theorem Press.Advance.held_of_control {op : PressOp} {c : PublicationControl}
    (h : s.Advance env documents op t) (hs : s.Sound) (hc : op.control = some c) :
    s.Refreshed t ∨ ∃ p ∈ s.publications, s.Held p c := by
  have hstarts : ∀ {now : Int}, ¬ op.starts_at = some now := by
    intro now hop
    rw [PressOp.control_of_starts hop] at hc
    cases hc
  cases h with
  | workshop w hop _ _ _ _ =>
    rw [hop] at hc
    cases hc
  | unchanged h => exact Or.inl (h ▸ .refl s)
  | credentials hcontrol _ _ _ =>
    rw [hcontrol] at hc
    cases hc
  | noted p provenance hp turned _ quiet events credentials log =>
    rcases log with hsame | ⟨token, -, hheld⟩
    · exact Or.inl (.of_turned hs.registered.keyed hp turned quiet events credentials hsame)
    · exact Or.inr ⟨p, hp, hheld c hc⟩
  | requested now p item a hop _ _ _ _ _ _ _ _ _ _ _ _ => exact absurd hop hstarts
  | restarted now p q a hop _ _ _ _ _ _ _ _ _ => exact absurd hop hstarts
  | advanced c' p p' provenance hop hp held _ _ _ _ =>
    obtain rfl : c' = c := Option.some.inj (hop.symm.trans hc)
    exact Or.inr ⟨p, hp, held⟩
  | finished c' p p' status hop hp held _ _ _ _ _ _ _ =>
    obtain rfl : c' = c := Option.some.inj (hop.symm.trans hc)
    exact Or.inr ⟨p, hp, held⟩
  | failed c' p detail hop hp held _ _ _ _ =>
    obtain rfl : c' = c := Option.some.inj (hop.symm.trans hc)
    exact Or.inr ⟨p, hp, held⟩

/-- A call of somebody who does not hold a publication. -/
theorem step_of_not_held {op : PressOp} {c : PublicationControl} (hs : s.Sound)
    (hc : op.control = some c) (hnot : ∀ p ∈ s.publications, ¬ s.Held p c) :
    s.Refreshed ((presses env documents).step s op) := by
  refine TransitionSystem.ofExec_step_cases (P := fun t : Press => s.Refreshed t) (.refl s) ?_
  intro t ht
  rcases (Press.exec_advance hs.registered.keyed ht).held_of_control hs hc with hrefreshed | hheld
  · exact hrefreshed
  · obtain ⟨p, hp, hheld⟩ := hheld
    exact absurd hheld (hnot p hp)

/-- The token has been handed out, and whatever has it satisfies `P`. -/
structure Press.Issued (s : Press) (token : Uuid) (P : Uuid → Prop) : Prop where
  recorded : ∃ row ∈ s.publication_operations, row.publisher_token = some token
  holder : ∀ p ∈ s.publications, ∀ q ∈ p.publisher, q.token = token → P p.id

/-- A token that has been handed out goes to no other publication. -/
theorem Press.Issued.turns {op : PressOp} {token : Uuid} {P : Uuid → Prop} (h : s.Issued token P)
    (hs : s.Sound) (hadvance : s.Advance env documents op t) : t.Issued token P := by
  obtain ⟨row, hrow, htoken⟩ := h.recorded
  have hfresh : token ≠ s.next_publisher_token := by
    intro he
    exact s.next_publisher_token_fresh.2 row hrow (htoken.trans (congrArg some he))
  refine ⟨⟨row, hadvance.operations_grow hs hrow, htoken⟩, ?_⟩
  intro p hp b hb hsame
  cases hadvance.turns hs with
  | same hpublications _ => exact h.holder p (hpublications ▸ hp) b hb hsame
  | turned q q' hq turned succeeds _ =>
    rcases turned.old hp with rfl | ⟨hp, -⟩
    · rcases succeeds.publisher b hb with ⟨-, a, ha, hab⟩ | ⟨-, hnext, -⟩
      · rw [show p.id = q.id from succeeds.later.key]
        exact h.holder q hq a ha (hab.trans hsame)
      · exact absurd (hsame.symm.trans hnext) hfresh
    · exact h.holder p hp b hb hsame
  | added q _ fresh _ publications _ =>
    rw [publications] at hp
    rcases List.mem_append.mp hp with hp | hp
    · exact h.holder p hp b hb hsame
    · obtain rfl := List.mem_singleton.mp hp
      obtain ⟨holder, hholder, hnext⟩ := fresh.publisher
      obtain rfl : holder = b := Option.some.inj (hholder.symm.trans hb)
      exact absurd (hsame.symm.trans hnext) hfresh

theorem Press.Issued.reaches {token : Uuid} {P : Uuid → Prop} (h : s.Issued token P) (hs : s.Sound)
    {ok : Press → PressOp → Prop} (hrun : (presses env documents).Reaches ok s t) :
    t.Issued token P := by
  have hboth : t.Sound ∧ t.Issued token P := by
    refine TransitionSystem.Reaches.preserves_of_exec
      (I := fun u : Press => u.Sound ∧ u.Issued token P) hrun ⟨hs, h⟩ ?_
    rintro a op b ⟨ha, hissued⟩ - hab
    exact ⟨Press.exec_sound ha hab,
      hissued.turns ha (Press.exec_advance ha.registered.keyed hab)⟩
  exact hboth.2

/-- What versions and tokens keep out. -/
structure Press.Fenced (env : Env) (documents : PolicyDocuments) (s : Press) : Prop where
  /-- A call that presents a version the publication has left behind changes nothing. -/
  stale_version : ∀ {ok : Press → PressOp → Prop} {t : Press},
    (presses env documents).Reaches ok s t → ∀ p ∈ s.publications, ∀ p' ∈ t.publications,
      p'.id = p.id → p'.version ≠ p.version → ∀ (op : PressOp) (c : PublicationControl),
        op.control = some c → c.publication_id = p.id → c.expected_version ≤ p.version →
          t.Refreshed ((presses env documents).step t op)
  /-- A token that has been taken away is never handed out again, and whoever presents it changes
  nothing. -/
  stale_token : ∀ {ok ok' : Press → PressOp → Prop} {t u : Press},
    (presses env documents).Reaches ok s t → (presses env documents).Reaches ok' t u →
      ∀ p ∈ s.publications, ∀ a ∈ p.publisher, ∀ p' ∈ t.publications, p'.id = p.id →
        (∀ b ∈ p'.publisher, b.token ≠ a.token) →
          (∀ q ∈ u.publications, ∀ b ∈ q.publisher, b.token ≠ a.token)
            ∧ ∀ (op : PressOp) (c : PublicationControl), op.control = some c →
              c.publisher_token = a.token → u.Refreshed ((presses env documents).step u op)

/-- **Versions and tokens fence the publishers, in every reachable state.** -/
theorem publications_fenced {ok : Press → PressOp → Prop}
    (h : (presses env documents).ReachableVia ok s) : s.Fenced env documents := by
  have hs := presses_sound h
  constructor
  · intro ok t hrun p hp p' hp' hid hne op c hop hc hversion
    have ht := hs.reaches hrun
    obtain ⟨q, hq, hlater⟩ := (hs.history hrun).publications p hp
    obtain rfl : q = p' := by
      refine ht.registered.keyed.eq_of_mem hq hp' ?_
      exact hlater.key.trans (show p.id = p'.id from hid.symm)
    have hgrown := hlater.version
    refine step_of_not_held ht hop fun r hr hheld => ?_
    obtain rfl : r = q := by
      refine ht.registered.keyed.eq_of_mem hr hq ?_
      show r.id = q.id
      rw [hheld.id, hc, hid]
    have hpresented := hheld.version
    omega
  · intro ok ok' t u hrun hrest p hp a ha p' hp' hid hreplaced
    have ht := hs.reaches hrun
    have hissued : s.Issued a.token fun id => id = p.id := by
      refine ⟨hs.registered.recorded p hp a ha, fun q hq b hb hsame => ?_⟩
      exact hs.registered.tokens q hq p hp b hb a ha hsame
    -- the token could only be this publication's, and it has another one or none
    have hspent : t.Issued a.token fun _ => False := by
      have hthen := hissued.reaches hs hrun
      refine ⟨hthen.recorded, fun q hq b hb hsame => ?_⟩
      have hqid := hthen.holder q hq b hb hsame
      obtain rfl : q = p' := by
        refine ht.registered.keyed.eq_of_mem hq hp' ?_
        exact hqid.trans (show p.id = p'.id from hid.symm)
      exact hreplaced b hb hsame
    have hgone := hspent.reaches ht hrest
    refine ⟨fun q hq b hb hsame => hgone.holder q hq b hb hsame, ?_⟩
    intro op c hop hc
    refine step_of_not_held (ht.reaches hrest) hop fun q hq hheld => ?_
    obtain ⟨b, hb, hsame, -⟩ := hheld.publisher
    exact hgone.holder q hq b hb (hsame.trans hc)

/-- The desk after the first start, before the publication is taken over. -/
theorem publications_fenced_started :
    (Desk.after Desk.started).Fenced Office.digest Desk.serde :=
  publications_fenced (Desk.reachable_after Desk.started)

/-! ## Keys -/

/-- The calls leave their keys in the table of operations. -/
theorem publication_operations_ledger : (presses env documents).Ledger Press.Sound Press.Refreshed
    PressOp.key
    fun (s : Press) (k : Uuid × String) => (s.publication_operation k.1 k.2).isSome = true where
  keeps := by
    intro s op hs
    exact TransitionSystem.ofExec_step_cases hs fun t ht => Press.exec_sound hs ht
  kept := by
    intro s op k hs hk
    refine TransitionSystem.ofExec_step_cases
      (P := fun u : Press => (u.publication_operation k.1 k.2).isSome = true) hk ?_
    intro t ht
    unfold Press.publication_operation at hk ⊢
    obtain ⟨row, hrow, hclause⟩ := List.find?_isSome.mp hk
    exact List.find?_isSome.mpr
      ⟨row, (Press.exec_advance hs.registered.keyed ht).operations_grow hs hrow, hclause⟩
  replay := by
    intro s op k hs hkey hk
    refine TransitionSystem.ofExec_step_cases (P := fun u : Press => s.Refreshed u) (.refl s) ?_
    intro t ht
    -- every effect is recorded under a key that was not there
    have hrecorded : ∀ token, ¬ s.Recorded t op token := by
      rintro token ⟨corp_id, key, hop, hfresh, -⟩
      obtain rfl := Option.some.inj (hkey.symm.trans hop)
      rw [hfresh] at hk
      cases hk
    cases Press.exec_advance hs.registered.keyed ht with
    | workshop w hop _ _ _ _ =>
      rw [hop] at hkey
      cases hkey
    | unchanged h => exact h ▸ .refl s
    | credentials _ hnone _ _ =>
      rw [hnone] at hkey
      cases hkey
    | noted p provenance hp turned _ quiet events credentials log =>
      rcases log with hsame | ⟨token, log, -⟩
      · exact .of_turned hs.registered.keyed hp turned quiet events credentials hsame
      · exact absurd log (hrecorded token)
    | requested _ _ _ _ _ _ _ _ _ _ _ _ _ _ _ _ log => exact absurd log (hrecorded _)
    | restarted _ _ _ _ _ _ _ _ _ _ _ _ _ log => exact absurd log (hrecorded _)
    | advanced _ _ _ _ _ _ _ _ _ _ log => exact absurd log (hrecorded _)
    | finished _ _ _ _ _ _ _ _ _ _ _ _ _ log => exact absurd log (hrecorded _)
    | failed _ _ _ _ _ _ _ _ _ log => exact absurd log (hrecorded _)
  entry := by
    intro s op k hs hkey
    refine TransitionSystem.ofExec_step_cases (P := fun u : Press =>
      s.Refreshed u ∨ (u.publication_operation k.1 k.2).isSome = true) (Or.inl (.refl s)) ?_
    intro t ht
    have hrecorded : ∀ token, s.Recorded t op token →
        (t.publication_operation k.1 k.2).isSome = true := by
      rintro token ⟨corp_id, key, hop, -, row, hcorp, hrow, -, hops⟩
      obtain rfl := Option.some.inj (hkey.symm.trans hop)
      unfold Press.publication_operation
      refine List.find?_isSome.mpr ⟨row, ?_, by simp [hcorp, hrow]⟩
      rw [hops]
      exact List.mem_append_right _ List.mem_cons_self
    cases Press.exec_advance hs.registered.keyed ht with
    | workshop w hop _ _ _ _ =>
      rw [hop] at hkey
      cases hkey
    | unchanged h => exact Or.inl (h ▸ .refl s)
    | credentials _ hnone _ _ =>
      rw [hnone] at hkey
      cases hkey
    | noted p provenance hp turned _ quiet events credentials log =>
      rcases log with hsame | ⟨token, log, -⟩
      · exact Or.inl (.of_turned hs.registered.keyed hp turned quiet events credentials hsame)
      · exact Or.inr (hrecorded token log)
    | requested _ _ _ _ _ _ _ _ _ _ _ _ _ _ _ _ log => exact Or.inr (hrecorded _ log)
    | restarted _ _ _ _ _ _ _ _ _ _ _ _ _ log => exact Or.inr (hrecorded _ log)
    | advanced _ _ _ _ _ _ _ _ _ _ log => exact Or.inr (hrecorded _ log)
    | finished _ _ _ _ _ _ _ _ _ _ _ _ _ log => exact Or.inr (hrecorded _ log)
    | failed _ _ _ _ _ _ _ _ _ log => exact Or.inr (hrecorded _ log)

/-- **A key is good for one effect.** Of two calls about publications with the same key, one
anywhere later in the run than the other, at most one changes more than where a publication says
it comes from. -/
theorem publication_operations_once {ok ok' : Press → PressOp → Prop} {first again : PressOp}
    (h : (presses env documents).ReachableVia ok s) (hkeyed : first.key.isSome = true)
    (hsame : again.key = first.key)
    (hrun : (presses env documents).Reaches ok' ((presses env documents).step s first) t) :
    s.Refreshed ((presses env documents).step s first)
      ∨ t.Refreshed ((presses env documents).step t again) := by
  obtain ⟨k, hk⟩ := Option.isSome_iff_exists.mp hkeyed
  exact publication_operations_ledger.once (presses_sound h) hk (hsame.trans hk) hrun

/-- A start is repeated with its key after the publication has been taken over and finished. -/
theorem publication_operations_once_repeated :
    (Desk.after Desk.verified).Refreshed (Desk.after Desk.started)
      ∨ (Desk.after Desk.published).Refreshed
        (Desk.after (Desk.published ++ [Desk.start 200 "first"])) := by
  have hkeyed : (Desk.start 10 "first").key.isSome = true := by decide +kernel
  have hsame : (Desk.start 200 "first").key = (Desk.start 10 "first").key := by decide +kernel
  have hmeets : (presses Office.digest Desk.serde).Meets (fun _ _ => True) (Desk.after Desk.started)
      (Desk.start 80 "second" :: Desk.finish) := ⟨trivial, trivial, trivial, trivial, trivial⟩
  have hrun := Desk.reaches_after Desk.started hmeets
  rw [Desk.started, Desk.after_append] at hrun ⊢
  rw [Desk.after_append]
  exact publication_operations_once (Desk.reachable_after Desk.verified) hkeyed hsame hrun

/-! ## Leases -/

/-- A start, a renewal or a checkpoint of an actor at `now` commits `t` and is answered `o`. -/
inductive Press.Answers (documents : PolicyDocuments) (s : Press) (now : Int) :
    Uuid → PullRequestPublicationOutcome → Press → Prop
  | start (input : StartPullRequestPublicationInput) (answers : PublicationAnswers)
      {o : PullRequestPublicationOutcome} {t : Press}
      (h : start_pull_request_publication documents s now input answers = .ok (o, t)) :
      Answers documents s now input.actor_id o t
  | renew (input : RenewPullRequestPublicationInput) (answers : PublicationAnswers)
      {o : PullRequestPublicationOutcome} {t : Press}
      (h : renew_pull_request_publication documents s now input answers = .ok (o, t)) :
      Answers documents s now input.actor_id o t
  | record (input : RecordPullRequestPublicationCheckpointInput) (answers : PublicationAnswers)
      {o : PullRequestPublicationOutcome} {t : Press}
      (h : record_pull_request_publication_checkpoint documents s now input answers = .ok (o, t)) :
      Answers documents s now input.actor_id o t

variable (env) in
theorem Press.Answers.exec {now : Int} {actor_id : Uuid} {o : PullRequestPublicationOutcome}
    (h : s.Answers documents now actor_id o t) :
    ∃ op, s.exec env documents op = .ok t ∧ ∀ n, op.starts_at = some n → n = now := by
  cases h with
  | start input answers h =>
    refine ⟨.start_pull_request_publication now input answers, ?_, fun n hn =>
      (Option.some.inj hn).symm⟩
    exact map_eq_ok.mpr ⟨_, h, rfl⟩
  | renew input answers h =>
    refine ⟨.renew_pull_request_publication now input answers, ?_, nofun⟩
    exact map_eq_ok.mpr ⟨_, h, rfl⟩
  | record input answers h =>
    refine ⟨.record_pull_request_publication_checkpoint now input answers, ?_, nofun⟩
    exact map_eq_ok.mpr ⟨_, h, rfl⟩

/-- The publication is there, and whoever has the token has a lease on it. -/
structure PullRequestPublication.Leased (p : PullRequestPublication) (t : Press) (now : Int)
    (token : Uuid) : Prop where
  mem : p ∈ t.publications
  publisher : ∃ q, p.publisher = some q ∧ q.token = token ∧ now < q.lease_expires_at

section Granted

variable {p p' : PullRequestPublication} {now : Int} {token : Uuid}
  {o : PullRequestPublicationOutcome} {answers : PublicationAnswers}

theorem replayable_publication_token_eq_some {op : PublicationOperation}
    (h : replayable_publication_token p op now = some token) :
    ∃ q, p.publisher = some q ∧ q.token = token ∧ now < q.lease_expires_at := by
  have hclause := (Option.filter_eq_some_iff.mp h).2
  simp only [Bool.and_eq_true, bne_iff_ne, decide_eq_true_iff] at hclause
  obtain ⟨q, hq, hlease⟩ := Option.any_eq_true _ _ |>.mp hclause.2
  simp only [Bool.and_eq_true, decide_eq_true_iff, beq_iff_eq] at hlease
  exact ⟨q, hq, hlease.2, hlease.1⟩

theorem revalidate_replay_mem {op : PublicationOperation} {actor_id : Uuid}
    (hp : p ∈ s.publications)
    (h : revalidate_replay documents s now p op actor_id answers = .ok (p', t)) :
    p' ∈ t.publications := by
  unfold revalidate_replay at h
  split at h
  · simp only [bind_eq_ok, context_eq_ok, pure_eq_ok, Prod.mk.injEq] at h
    obtain ⟨v, -, q, hq, rfl, rfl⟩ := h
    exact (Press.publication_eq_some hq).1
  · simp only [Except.ok.injEq, Prod.mk.injEq] at h
    obtain ⟨rfl, rfl⟩ := h
    exact hp

/-- A lease lasts five seconds at least. -/
theorem normalize_start_input_lease {input input' : StartPullRequestPublicationInput}
    (h : normalize_start_input input = .ok input') : 5 ≤ input'.lease_seconds := by
  unfold normalize_start_input at h
  simp only [bind_eq_ok, pure_eq_ok] at h
  obtain ⟨_, -, _, -, _, -, _, -, _, -, _, -, _, -, _, -, _, -, _, -, _, -, _, -, _, -, _, -,
    seconds, hseconds, rfl⟩ := h
  unfold validate_publication_lease_seconds at hseconds
  simp only [bind_eq_ok, ensure_eq_ok, pure_eq_ok] at hseconds
  obtain ⟨_, hrange, rfl⟩ := hseconds
  exact hrange.1

theorem resume_publication_granted {input : StartPullRequestPublicationInput}
    (hs : Keyed PullRequestPublication.key s.publications) (hp : p ∈ s.publications)
    (hseconds : 5 ≤ input.lease_seconds)
    (h : resume_publication documents s now input p answers = .ok (o, t))
    (htoken : o.publisher_token = some token) : o.publication.Leased t now token := by
  unfold resume_publication at h
  simp only [bind_eq_ok] at h
  obtain ⟨_, -, _, -, h⟩ := h
  split at h
  · simp only [pure_eq_ok, Prod.mk.injEq] at h
    obtain ⟨rfl, -⟩ := h
    cases htoken
  · simp only [bind_eq_ok] at h
    obtain ⟨_, -, h⟩ := h
    split at h
    · simp only [pure_eq_ok, Prod.mk.injEq] at h
      obtain ⟨rfl, -⟩ := h
      cases htoken
    · unfold restart_publication at h
      simp only [bind_eq_ok, pure_eq_ok, Prod.mk.injEq] at h
      obtain ⟨v, hv, rfl, rfl⟩ := h
      obtain ⟨events, rfl⟩ := publication_event_tx_ok hv
      refine ⟨?_, _, rfl, Option.some.inj htoken, ?_⟩
      · exact (Press.update_publication_turned (s := s) hs hp _).mem hp rfl
      · show now < now + input.lease_seconds
        omega

theorem request_publication_granted {input : StartPullRequestPublicationInput}
    (hseconds : 5 ≤ input.lease_seconds)
    (h : request_publication documents s now input answers = .ok (o, t))
    (htoken : o.publisher_token = some token) : o.publication.Leased t now token := by
  unfold request_publication insert_publication at h
  simp only [bind_eq_ok, ensure_eq_ok, pure_eq_ok, Prod.mk.injEq] at h
  obtain ⟨r, -, _, -, u, ⟨_, -, rfl⟩, ⟨version, v⟩, hv, w, hw, x, hx, rfl, rfl⟩ := h
  obtain ⟨-, rfl⟩ := advance_item_ok hv
  obtain ⟨journal, rfl⟩ := item_event_ok hw
  obtain ⟨events, rfl⟩ := publication_event_tx_ok hx
  refine ⟨List.mem_append_right _ List.mem_cons_self, _, rfl, Option.some.inj htoken, ?_⟩
  show now < now + input.lease_seconds
  omega

theorem start_pull_request_publication_granted {input : StartPullRequestPublicationInput}
    (hs : Keyed PullRequestPublication.key s.publications)
    (h : start_pull_request_publication documents s now input answers = .ok (o, t))
    (htoken : o.publisher_token = some token) : o.publication.Leased t now token := by
  unfold start_pull_request_publication at h
  simp only [bind_eq_ok] at h
  obtain ⟨input', hnormal, _, -, _, -, _, -, h⟩ := h
  have hseconds := normalize_start_input_lease hnormal
  split at h
  · unfold replay_start at h
    simp only [bind_eq_ok, context_eq_ok, pure_eq_ok, Prod.mk.injEq] at h
    obtain ⟨_, -, p, hp, _, -, ⟨q, v⟩, hv, rfl, rfl⟩ := h
    exact ⟨revalidate_replay_mem (Press.publication_eq_some hp).1 hv,
      replayable_publication_token_eq_some htoken⟩
  · split at h
    · rename_i p hp
      exact resume_publication_granted hs (List.mem_of_find?_eq_some hp) hseconds h htoken
    · exact request_publication_granted hseconds h htoken

theorem renew_pull_request_publication_granted {input : RenewPullRequestPublicationInput}
    (hs : Keyed PullRequestPublication.key s.publications)
    (h : renew_pull_request_publication documents s now input answers = .ok (o, t))
    (htoken : o.publisher_token = some token) : o.publication.Leased t now token := by
  unfold renew_pull_request_publication at h
  simp only [bind_eq_ok] at h
  obtain ⟨_, -, key, -, publisher_id, -, _, -, seconds, hseconds, _, -, _, -, h⟩ := h
  unfold validate_publication_lease_seconds at hseconds
  simp only [bind_eq_ok, ensure_eq_ok, pure_eq_ok] at hseconds
  obtain ⟨_, hrange, rfl⟩ := hseconds
  split at h
  · unfold replay_renewal at h
    simp only [bind_eq_ok, context_eq_ok, pure_eq_ok, Prod.mk.injEq] at h
    obtain ⟨_, -, p, -, v, -, q, hq, rfl, rfl⟩ := h
    exact ⟨(Press.publication_eq_some hq).1, replayable_publication_token_eq_some htoken⟩
  · simp only [bind_eq_ok, context_eq_ok, pure_eq_ok, Prod.mk.injEq] at h
    obtain ⟨p, hp, _, hcontrol, v, hv, q, hq, w, hw, rfl, rfl⟩ := h
    obtain ⟨hmem, hid, hcorp⟩ := Press.publication_eq_some hp
    obtain ⟨holder, hholder, hsame, -⟩ :=
      (ensure_active_publication_control_tx_ok hid hcorp hcontrol).publisher
    obtain ⟨-, provenance, publications, rfl, hturned⟩ :=
      revalidate_publication_authority_tx_ok hs hmem hv
    obtain rfl := hturned.reread hid hq
    obtain ⟨events, rfl⟩ := publication_event_tx_ok hw
    have hkeyed := hturned.keyed hs rfl
    have hcurrent := hturned.mem hmem rfl
    refine ⟨?_, { holder with lease_expires_at := now + input.lease_seconds }, ?_, ?_, ?_⟩
    · exact (Press.update_publication_turned hkeyed hcurrent _).mem hcurrent rfl
    · show p.publisher.map _ = _
      rw [hholder]
      rfl
    · exact hsame.trans (Option.some.inj htoken)
    · show now < now + input.lease_seconds
      omega

/-- Where the publication of a checkpoint is found again. -/
theorem CheckpointCall.Ready.leased {u : Press} {op : PressOp} {call : CheckpointCall}
    {c : PublicationControl} {q : PullRequestPublication} (h : call.Ready s u op c p q)
    (hmem : p' ∈ t.publications) (hpublisher : p'.publisher = q.publisher) :
    p'.Leased t c.now c.publisher_token := by
  obtain ⟨provenance, publications, rfl, -, -⟩ := h.current
  obtain ⟨holder, hholder, hsame, hlease⟩ := h.held.publisher
  exact ⟨hmem, holder, hpublisher.trans hholder, hsame, hlease⟩

theorem CheckpointCall.Ready.mem_current {u : Press} {op : PressOp} {call : CheckpointCall}
    {c : PublicationControl} {q : PullRequestPublication} (h : call.Ready s u op c p q) :
    q ∈ u.publications := by
  obtain ⟨provenance, publications, rfl, rfl, hturned⟩ := h.current
  exact hturned.mem h.mem rfl

/-- A checkpoint that leaves the publication with its publisher. -/
theorem record_checkpoint_granted {u : Press} {op : PressOp} {call : CheckpointCall}
    {c : PublicationControl} {q r : PullRequestPublication}
    {checkpoint : PullRequestPublicationCheckpointInput} {replayed : Bool}
    (hs : Keyed PullRequestPublication.key s.publications) (hready : call.Ready s u op c p q)
    (h : record_checkpoint u now call q checkpoint = .ok (r, replayed, t))
    (hlive : r.state ≠ .published) (hpublisher : r.publisher.isSome = true) :
    r.Leased t c.now c.publisher_token := by
  cases checkpoint with
  | failed detail =>
    simp only [record_checkpoint, record_failed, bind_eq_ok, pure_eq_ok, Prod.mk.injEq] at h
    obtain ⟨_, -, v, -, rfl, -⟩ := h
    cases hpublisher
  | branch_pushed commit_sha =>
    simp only [record_checkpoint, record_branch_pushed] at h
    split at h
    · simp only [bind_eq_ok, pure_eq_ok, Prod.mk.injEq] at h
      obtain ⟨_, -, rfl, -, rfl⟩ := h
      exact hready.leased hready.mem_current rfl
    · simp only [bind_eq_ok, pure_eq_ok, Prod.mk.injEq] at h
      obtain ⟨_, -, v, hv, rfl, -, rfl⟩ := h
      obtain ⟨events, rfl⟩ := publication_event_tx_ok hv
      exact hready.leased ((hready.turned hs _).mem hready.mem rfl) rfl
  | pull_request_created report =>
    simp only [record_checkpoint, record_pull_request_created, bind_eq_ok] at h
    obtain ⟨_, -, h⟩ := h
    split at h
    · simp only [bind_eq_ok, pure_eq_ok, Prod.mk.injEq] at h
      obtain ⟨_, -, rfl, -, rfl⟩ := h
      exact hready.leased hready.mem_current rfl
    · simp only [bind_eq_ok, pure_eq_ok, Prod.mk.injEq] at h
      obtain ⟨_, -, v, hv, rfl, -, rfl⟩ := h
      obtain ⟨events, rfl⟩ := publication_event_tx_ok hv
      exact hready.leased ((hready.turned hs _).mem hready.mem rfl) rfl
  | published project_status field_id option_id =>
    simp only [record_checkpoint, record_published, bind_eq_ok] at h
    obtain ⟨_, -, _, -, _, -, _, -, h⟩ := h
    split at h
    · rename_i hstate
      simp only [bind_eq_ok, pure_eq_ok, Prod.mk.injEq] at h
      obtain ⟨_, -, rfl, -, -⟩ := h
      exact absurd hstate hlive
    · simp only [bind_eq_ok, pure_eq_ok, Prod.mk.injEq] at h
      obtain ⟨_, -, _, -, _, -, _, -, _, -, rfl, -, -⟩ := h
      exact absurd rfl hlive

theorem record_pull_request_publication_checkpoint_granted
    {input : RecordPullRequestPublicationCheckpointInput}
    (hs : Keyed PullRequestPublication.key s.publications)
    (h : record_pull_request_publication_checkpoint documents s now input answers = .ok (o, t))
    (htoken : o.publisher_token = some token) : o.publication.Leased t now token := by
  rcases record_pull_request_publication_checkpoint_ok hs h with
    ⟨row, p, hp, -, hreplay, hgrant⟩
      | ⟨call, c, p, q, u, checkpoint, replayed, hready, -, rfl, -, -, hw, hgrant⟩
  · exact ⟨revalidate_replay_mem hp hreplay,
      replayable_publication_token_eq_some (hgrant.symm.trans htoken)⟩
  · rw [htoken] at hgrant
    by_cases hheld : o.publication.state ≠ .published ∧ o.publication.publisher.isSome = true
    · rw [if_pos hheld] at hgrant
      rw [Option.some.inj hgrant]
      exact record_checkpoint_granted hs hready hw hheld.1 hheld.2
    · rw [if_neg hheld] at hgrant
      cases hgrant

/-- Whoever is handed a token has a lease on the publication. -/
theorem Press.Answers.granted {actor_id : Uuid} (h : s.Answers documents now actor_id o t)
    (hs : Keyed PullRequestPublication.key s.publications)
    (htoken : o.publisher_token = some token) : o.publication.Leased t now token := by
  cases h with
  | start input answers h => exact start_pull_request_publication_granted hs h htoken
  | renew input answers h => exact renew_pull_request_publication_granted hs h htoken
  | record input answers h => exact record_pull_request_publication_checkpoint_granted hs h htoken

end Granted

/-- What a call does to one publication: it is started again after its lease, or its holder goes
on with it or lets it go, or it is brought up to date at most. -/
theorem Press.Advance.row {op : PressOp} (h : s.Advance env documents op t) (hs : s.Sound)
    {p : PullRequestPublication} (hp : p ∈ s.publications) :
    (∃ now, op.starts_at = some now ∧ ∀ q ∈ p.publisher, q.lease_expires_at ≤ now)
      ∨ (∃ c p', op.control = some c ∧ s.Held p c ∧ p' ∈ t.publications ∧ p'.id = p.id
        ∧ ∀ b ∈ p'.publisher, ∃ a ∈ p.publisher, a.token = b.token)
      ∨ ∃ p' ∈ t.publications, p' = { p with provenance := p'.provenance } := by
  have hsame : t.publications = s.publications →
      ∃ p' ∈ t.publications, p' = { p with provenance := p'.provenance } := by
    intro hpublications
    rw [hpublications]
    exact ⟨p, hp, rfl⟩
  -- a call on another publication
  have hother : ∀ {q q' : PullRequestPublication}, s.Turned t q q' → p.key ≠ q.key →
      ∃ p' ∈ t.publications, p' = { p with provenance := p'.provenance } :=
    fun hturned hne => ⟨p, hturned.kept hp hne, rfl⟩
  have hkeyed := hs.registered.keyed
  cases h with
  | workshop _ _ _ publications _ _ => exact Or.inr (Or.inr (hsame publications))
  | unchanged h => exact Or.inr (Or.inr (hsame (by rw [h])))
  | credentials _ _ _ h => exact Or.inr (Or.inr (hsame (by rw [h])))
  | noted q provenance hq turned _ _ _ _ _ =>
    by_cases hkey : p.key = q.key
    · obtain rfl := hkeyed.eq_of_mem hp hq hkey
      exact Or.inr (Or.inr ⟨_, turned.mem hp rfl, rfl⟩)
    · exact Or.inr (Or.inr (hother turned hkey))
  | requested now q item a hop _ _ _ _ _ _ _ publications _ _ _ _ =>
    rw [publications]
    exact Or.inr (Or.inr ⟨p, List.mem_append_left _ hp, rfl⟩)
  | restarted now q holder a hop hq _ lapsed _ turned _ _ _ _ =>
    by_cases hkey : p.key = q.key
    · obtain rfl := hkeyed.eq_of_mem hp hq hkey
      exact Or.inl ⟨now, hop, lapsed⟩
    · exact Or.inr (Or.inr (hother turned hkey))
  | advanced c q q' provenance hop hq held step turned _ _ =>
    by_cases hkey : p.key = q.key
    · obtain rfl := hkeyed.eq_of_mem hp hq hkey
      have hrefreshed : p.Later { p with provenance } := by
        exact .refreshed (hs.registered.shaped p hp) fun hpublished => absurd hpublished held.live
      obtain ⟨hlater, -, htokens⟩ := step.later hrefreshed.shaped held.live
      refine Or.inr (Or.inl ⟨c, q', hop, held, turned.mem hp rfl, hlater.key, fun b hb => ?_⟩)
      have htoken : p.publisher.map Publisher.token = some b.token := by
        rw [← show q'.publisher.map Publisher.token = p.publisher.map Publisher.token from htokens,
          Option.mem_def.mp hb]
        rfl
      exact Option.map_eq_some_iff.mp htoken
    · exact Or.inr (Or.inr (hother turned hkey))
  | finished c q q' status hop hq held _ _ columns turned _ _ _ =>
    by_cases hkey : p.key = q.key
    · obtain rfl := hkeyed.eq_of_mem hp hq hkey
      refine Or.inr (Or.inl ⟨c, q', hop, held, turned.mem hp rfl, by rw [columns], fun b hb => ?_⟩)
      rw [columns] at hb
      cases hb
    · exact Or.inr (Or.inr (hother turned hkey))
  | failed c q detail hop hq held turned _ _ _ =>
    by_cases hkey : p.key = q.key
    · obtain rfl := hkeyed.eq_of_mem hp hq hkey
      exact Or.inr (Or.inl ⟨c, _, hop, held, turned.mem hp rfl, rfl, nofun⟩)
    · exact Or.inr (Or.inr (hother turned hkey))

/-- Nobody presents the token, and nothing is started after the lease. -/
def PressOp.Strange (token : Uuid) (lease_expires_at : Int) (op : PressOp) : Prop :=
  (∀ c ∈ op.control, c.publisher_token ≠ token) ∧ ∀ now ∈ op.starts_at, now < lease_expires_at

instance (token : Uuid) (lease_expires_at : Int) (op : PressOp) :
    Decidable (op.Strange token lease_expires_at) :=
  inferInstanceAs (Decidable (_ ∧ _))

/-- What a lease keeps out. -/
structure Press.Excludes (env : Env) (documents : PolicyDocuments) (s : Press) : Prop where
  /-- A publisher that was handed a token keeps the publication as it got it, whatever others do in
  whatever order, as long as nobody presents the token and nothing is started after the lease. -/
  kept : ∀ {now : Int} {actor_id token : Uuid} {o : PullRequestPublicationOutcome} {q : Publisher}
    {t u : Press}, s.Answers documents now actor_id o t → o.publisher_token = some token →
      o.publication.publisher = some q →
        (presses env documents).Reaches (fun _ op => op.Strange token q.lease_expires_at) t u →
          ∃ p ∈ u.publications, p = { o.publication with provenance := p.provenance }
  /-- Until then no other token for the publication is handed out. -/
  alone : ∀ {now : Int} {actor_id token : Uuid} {o : PullRequestPublicationOutcome} {q : Publisher}
    {t u : Press}, s.Answers documents now actor_id o t → o.publisher_token = some token →
      o.publication.publisher = some q →
        (presses env documents).Reaches (fun _ op => op.Strange token q.lease_expires_at) t u →
          ∀ (now' : Int) (actor_id' token' : Uuid) (o' : PullRequestPublicationOutcome) (v : Press),
            now' < q.lease_expires_at → u.Answers documents now' actor_id' o' v →
              o'.publication.id = o.publication.id → o'.publisher_token = some token' →
                token' = token

/-- A publication is kept as it was handed out, to a publisher with a lease. -/
theorem Press.Answers.kept {u : Press} {now : Int} {actor_id token : Uuid}
    {o : PullRequestPublicationOutcome} {q : Publisher} (h : s.Answers documents now actor_id o t)
    (hs : s.Sound) (htoken : o.publisher_token = some token)
    (hpublisher : o.publication.publisher = some q)
    (hrun : (presses env documents).Reaches (fun _ op => op.Strange token q.lease_expires_at) t u) :
    q.token = token ∧ u.Sound
      ∧ ∃ p ∈ u.publications, p = { o.publication with provenance := p.provenance } := by
  have hleased := h.granted hs.registered.keyed htoken
  obtain ⟨holder, hholder, hsame, -⟩ := hleased.publisher
  obtain rfl : holder = q := Option.some.inj (hholder.symm.trans hpublisher)
  obtain ⟨op, hexec, -⟩ := h.exec env
  have hend : u.Sound ∧ ∃ p ∈ u.publications,
      p = { o.publication with provenance := p.provenance } := by
    refine TransitionSystem.Reaches.preserves_of_exec
      (I := fun w : Press => w.Sound ∧ ∃ p ∈ w.publications,
        p = { o.publication with provenance := p.provenance }) hrun
      ⟨Press.exec_sound hs hexec, o.publication, hleased.mem, rfl⟩ ?_
    rintro a op b ⟨ha, p, hp, hcolumns⟩ hstrange hab
    refine ⟨Press.exec_sound ha hab, ?_⟩
    have hheld : p.publisher = some holder := by rw [hcolumns, hholder]
    rcases (Press.exec_advance ha.registered.keyed hab).row ha hp with
      ⟨now, hop, hover⟩ | ⟨c, p', hop, hc, -⟩ | ⟨p', hp', hnext⟩
    · have hbefore := hstrange.2 now hop
      have hafter := hover holder hheld
      omega
    · -- the holder would have had to present the token
      obtain ⟨r, hr, hrtoken, -⟩ := hc.publisher
      obtain rfl : holder = r := Option.some.inj (hheld.symm.trans hr)
      exact absurd (hrtoken.symm.trans hsame) (hstrange.1 c hop)
    · refine ⟨p', hp', ?_⟩
      rw [hnext, hcolumns]
  exact ⟨hsame, hend⟩

/-- **A lease excludes, in every reachable state.** -/
theorem publication_lease_excludes {ok : Press → PressOp → Prop}
    (h : (presses env documents).ReachableVia ok s) : s.Excludes env documents := by
  have hs := presses_sound h
  refine ⟨fun h htoken hpublisher hrun => (h.kept hs htoken hpublisher hrun).2.2, ?_⟩
  intro now actor_id token o holder t u h htoken hholder hrun
  obtain ⟨hsame, hu, p, hp, hcolumns⟩ := h.kept hs htoken hholder hrun
  intro now' actor_id' token' o' v hbefore hanswers hid htoken'
  have hheld : p.publisher = some holder := by rw [hcolumns, hholder]
  have hgranted := hanswers.granted hu.registered.keyed htoken'
  obtain ⟨b, hb, hbtoken, -⟩ := hgranted.publisher
  obtain ⟨op', hexec', hat⟩ := hanswers.exec env
  have hv := Press.exec_sound hu hexec'
  -- the row the answer is about is the row of the lease
  have hrow : ∀ p' ∈ v.publications, p'.id = p.id → o'.publication = p' := by
    intro p' hp' hsameid
    refine hv.registered.keyed.eq_of_mem hgranted.mem hp' ?_
    show o'.publication.id = p'.id
    rw [hid, hsameid, hcolumns]
  rcases (Press.exec_advance hu.registered.keyed hexec').row hu hp with
    ⟨n, hop, hover⟩ | ⟨c, p', -, -, hp', hsameid, htokens⟩ | ⟨p', hp', hnext⟩
  · have hafter := hover holder hheld
    rw [hat n hop] at hafter
    omega
  · obtain rfl := hrow p' hp' hsameid
    obtain ⟨a, ha, hab⟩ := htokens b hb
    obtain rfl : holder = a := Option.some.inj (hheld.symm.trans ha)
    rw [← hbtoken, ← hab, hsame]
  · have hsamerow := hrow p' hp' (by rw [hnext])
    rw [hsamerow, hnext] at hb
    obtain rfl : holder = b := Option.some.inj (hheld.symm.trans hb)
    rw [← hbtoken, hsame]

/-- The desk when the work is verified, before anybody has a lease on its publication. -/
theorem publication_lease_excludes_verified :
    (Desk.after Desk.verified).Excludes Office.digest Desk.serde :=
  publication_lease_excludes (Desk.reachable_after Desk.verified)

end Crony.Store
