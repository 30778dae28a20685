/-
What holds of publications, their attempts and their items between any two calls.

A publication has one attempt for each number up to its count; the last one runs exactly while
a publisher has the publication. An item is in one of its last two stages exactly if it has a
publication, and it is published with it. Tokens are never handed out twice. Every argument is
a case split on what a committed call does.
-/
import Crony.Lifecycle.Publications

set_option autoImplicit false

open Crony.Lib

namespace Crony.Store

variable {env : Env} {documents : PolicyDocuments}

/-! ## Attempts -/

/-- An attempt of the publication. -/
structure PublicationAttempt.Of (a : PublicationAttempt) (p : PullRequestPublication) : Prop where
  publication_id : a.publication_id = p.id
  corp_id : a.corp_id = p.corp_id
  first : 0 < a.attempt
  last : a.attempt ≤ p.attempt_count
  running : a.state = .running ↔ a.attempt = p.attempt_count ∧ p.publisher.isSome = true
  published : a.state = .published ↔ a.attempt = p.attempt_count ∧ p.state = .published

/-- The key of an attempt. -/
def PublicationAttempt.number (a : PublicationAttempt) : Uuid × Int := (a.publication_id, a.attempt)

/-- Publications and their attempts. -/
structure Attempted (publications : List PullRequestPublication)
    (attempts : List PublicationAttempt) :
    Prop where
  owned : ∀ a ∈ attempts, ∃ p ∈ publications, a.Of p
  numbered : Keyed PublicationAttempt.number attempts
  complete : ∀ p ∈ publications, ∀ n, 0 < n → n ≤ p.attempt_count →
    ∃ a ∈ attempts, a.publication_id = p.id ∧ a.attempt = n

namespace Attempted

variable {ps ps' : List PullRequestPublication} {as bs new : List PublicationAttempt}
  {p p' : PullRequestPublication}

/-- The attempts of one publication are written and perhaps another one is started. -/
theorem turned (h : Attempted ps as) (hps : Keyed PullRequestPublication.key ps)
    (hp : p ∈ ps) (hid : p'.id = p.id)
    (hturned : Replaced PullRequestPublication.key p.key p' ps ps')
    (hwritten : Updated (fun a b => b.number = a.number ∧ (a.Of p → b.Of p')
      ∧ (a.publication_id ≠ p.id → b = a)) as bs)
    (hnew : ∀ a ∈ new, a.Of p' ∧ p.attempt_count < a.attempt)
    (hone : Keyed PublicationAttempt.number new)
    (hcount : ∀ n, p.attempt_count < n → n ≤ p'.attempt_count → ∃ a ∈ new, a.attempt = n) :
    Attempted ps' (bs ++ new) := by
  have hmem : p' ∈ ps' := hturned.mem hp rfl
  have hbs : Keyed PublicationAttempt.number bs := hwritten.keyed h.numbered fun _ _ hr => hr.1
  -- the attempts there were belong to the row there was
  have hbound : ∀ b ∈ bs, b.publication_id = p.id → b.attempt ≤ p.attempt_count := by
    intro b hb hbid
    obtain ⟨a, ha, hnumber, -, -⟩ := hwritten.exists_old hb
    rw [PublicationAttempt.number, PublicationAttempt.number, Prod.mk.injEq] at hnumber
    obtain ⟨q, hq, hof⟩ := h.owned a ha
    have hkey : q.key = p.key := by
      show q.id = p.id
      rw [← hof.publication_id, ← hnumber.1, hbid]
    obtain rfl := hps.eq_of_mem hq hp hkey
    rw [hnumber.2]
    exact hof.last
  constructor
  · intro b hb
    rcases List.mem_append.mp hb with hb | hb
    · obtain ⟨a, ha, hnumber, hturn, hkeep⟩ := hwritten.exists_old hb
      obtain ⟨q, hq, hof⟩ := h.owned a ha
      by_cases hkey : q.key = p.key
      · obtain rfl := hps.eq_of_mem hq hp hkey
        exact ⟨p', hmem, hturn hof⟩
      · have hother : a.publication_id ≠ p.id := by
          rw [hof.publication_id]
          exact hkey
        rw [hkeep hother]
        exact ⟨q, hturned.kept hq hkey, hof⟩
    · exact ⟨p', hmem, (hnew b hb).1⟩
  · refine hbs.append hone ?_
    intro b hb a ha hsame
    rw [PublicationAttempt.number, PublicationAttempt.number, Prod.mk.injEq] at hsame
    obtain ⟨hof, hlater⟩ := hnew a ha
    have hold := hbound b hb (by rw [hsame.1, hof.publication_id, hid])
    omega
  · intro q hq n hpos hle
    rcases hturned.old hq with rfl | ⟨hq, hne⟩
    · by_cases hlast : n ≤ p.attempt_count
      · obtain ⟨a, ha, haid, han⟩ := h.complete p hp n hpos hlast
        obtain ⟨b, hb, hnumber, -, -⟩ := hwritten.exists_new ha
        rw [PublicationAttempt.number, PublicationAttempt.number, Prod.mk.injEq] at hnumber
        exact ⟨b, List.mem_append_left _ hb, by rw [hnumber.1, haid, hid], by rw [hnumber.2, han]⟩
      · obtain ⟨a, ha, han⟩ := hcount n (by omega) hle
        exact ⟨a, List.mem_append_right _ ha, (hnew a ha).1.publication_id, han⟩
    · obtain ⟨a, ha, haid, han⟩ := h.complete q hq n hpos hle
      obtain ⟨b, hb, hnumber, -, hkeep⟩ := hwritten.exists_new ha
      rw [hkeep (by rw [haid]; exact hne)] at hb
      exact ⟨a, List.mem_append_left _ hb, haid, han⟩

/-- A publication whose attempts stay as they are. -/
theorem same (h : Attempted ps as) (hps : Keyed PullRequestPublication.key ps)
    (hp : p ∈ ps) (hturned : Replaced PullRequestPublication.key p.key p' ps ps')
    (hid : p'.id = p.id) (hcorp : p'.corp_id = p.corp_id)
    (hcount : p'.attempt_count = p.attempt_count)
    (hpublisher : p'.publisher.isSome = p.publisher.isSome)
    (hstate : p'.state = .published ↔ p.state = .published) : Attempted ps' as := by
  have hwritten : Updated (fun a b => PublicationAttempt.number b = PublicationAttempt.number a
      ∧ (a.Of p → b.Of p') ∧ (a.publication_id ≠ p.id → b = a)) as as := by
    refine Updated.refl fun a _ => ⟨rfl, fun hof => ?_, fun _ => rfl⟩
    refine ⟨hof.publication_id.trans hid.symm, hof.corp_id.trans hcorp.symm, hof.first, ?_, ?_, ?_⟩
    · rw [hcount]
      exact hof.last
    · rw [hcount, hpublisher]
      exact hof.running
    · rw [hcount, hstate]
      exact hof.published
  have hnone : Attempted ps' (_ ++ []) := h.turned hps hp hid hturned hwritten (by simp)
    (by simp [Keyed]) (by intro n hlt hle; omega)
  rwa [List.append_nil] at hnone

/-- The attempt that runs ends. -/
theorem finished (h : Attempted ps as) (hps : Keyed PullRequestPublication.key ps)
    (hp : p ∈ ps) (hturned : Replaced PullRequestPublication.key p.key p' ps ps')
    (hid : p'.id = p.id) (hcorp : p'.corp_id = p.corp_id)
    (hcount : p'.attempt_count = p.attempt_count) (hpublisher : p.publisher.isSome = true)
    (hreleased : p'.publisher = none)
    {state : PublicationAttemptState} {detail : Option String} (hrunning : state ≠ .running)
    (hstate : state = .published ↔ p'.state = .published) :
    Attempted ps' (updateWhere
      (fun a => a.publication_id == p.id && a.corp_id == p.corp_id && a.attempt == p.attempt_count
        && a.state == .running)
      (fun a => { a with state, failure_detail := detail }) as) := by
  have hwritten : Updated (fun a b => PublicationAttempt.number b = PublicationAttempt.number a
      ∧ (a.Of p → b.Of p') ∧ (a.publication_id ≠ p.id → b = a)) as (updateWhere
      (fun a => a.publication_id == p.id && a.corp_id == p.corp_id && a.attempt == p.attempt_count
        && a.state == .running)
      (fun a => { a with state, failure_detail := detail }) as) := by
    refine Updated.of_updateWhere ?_ ?_
    · intro a _ hclause
      simp only [Bool.and_eq_true, beq_iff_eq] at hclause
      refine ⟨rfl, fun hof => ?_, fun hne => absurd hclause.1.1.1 hne⟩
      refine ⟨hof.publication_id.trans hid.symm, hof.corp_id.trans hcorp.symm, hof.first, ?_, ?_,
        ?_⟩
      · rw [hcount]
        exact hof.last
      · refine iff_of_false hrunning ?_
        rw [hreleased]
        simp
      · rw [hcount]
        show state = .published ↔ _
        rw [hstate]
        exact (and_iff_right hclause.1.2).symm
    · intro a _ hclause
      refine ⟨rfl, fun hof => ?_, fun _ => rfl⟩
      -- the last attempt is the one that runs
      have hearlier : a.attempt ≠ p.attempt_count := by
        intro hlast
        have hstate := hof.running.mpr ⟨hlast, hpublisher⟩
        rw [hof.publication_id, hof.corp_id, hlast, hstate] at hclause
        simp at hclause
      refine ⟨hof.publication_id.trans hid.symm, hof.corp_id.trans hcorp.symm, hof.first, ?_, ?_,
        ?_⟩
      · rw [hcount]
        exact hof.last
      · rw [hcount, hof.running]
        exact iff_of_false (fun hlast => hearlier hlast.1) fun hlast => hearlier hlast.1
      · rw [hcount, hof.published]
        exact iff_of_false (fun hlast => hearlier hlast.1) fun hlast => hearlier hlast.1
  have hnone : Attempted ps' (_ ++ []) := h.turned hps hp hid hturned hwritten (by simp)
    (by simp [Keyed]) (by intro n hlt hle; omega)
  rwa [List.append_nil] at hnone

/-- Another attempt starts, and whatever ran is abandoned. -/
theorem restarted (h : Attempted ps as) (hps : Keyed PullRequestPublication.key ps)
    (hp : p ∈ ps) (hlive : p.state ≠ .published) (hrequested : p.state ≠ .requested)
    {q : Publisher} {a : PublicationAttempt} {f : PublicationAttempt → Option String}
    (hcount : 0 < p.attempt_count)
    (hturned : Replaced PullRequestPublication.key p.key (p.attempted q) ps ps')
    (hstarts : a.Starts (p.attempted q)) :
    Attempted ps' (updateWhere
      (fun a => a.publication_id == p.id && a.corp_id == p.corp_id && a.state == .running)
      (fun a => { a with state := .abandoned, failure_detail := f a }) as ++ [a]) := by
  have hstate : (p.attempted q).state = p.state := if_neg hrequested
  have hnext : (p.attempted q).attempt_count = p.attempt_count + 1 := rfl
  have hid : (p.attempted q).id = p.id := rfl
  refine h.turned hps hp hid hturned ?_ ?_ (by simp [Keyed]) ?_
  · refine Updated.of_updateWhere ?_ ?_
    · intro b _ hclause
      simp only [Bool.and_eq_true, beq_iff_eq] at hclause
      refine ⟨rfl, fun hof => ?_, fun hne => absurd hclause.1.1 hne⟩
      have hlast := hof.last
      refine ⟨hof.publication_id, hof.corp_id, hof.first, ?_, ?_, ?_⟩
      · show b.attempt ≤ p.attempt_count + 1
        omega
      · refine iff_of_false (fun hsame => by cases hsame) ?_
        rw [hnext]
        show ¬ (b.attempt = p.attempt_count + 1 ∧ _)
        omega
      · refine iff_of_false (fun hsame => by cases hsame) ?_
        rw [hstate]
        exact fun hpublished => hlive hpublished.2
    · intro b _ hclause
      refine ⟨rfl, fun hof => ?_, fun _ => rfl⟩
      have hlast := hof.last
      refine ⟨hof.publication_id, hof.corp_id, hof.first, ?_, ?_, ?_⟩
      · show b.attempt ≤ p.attempt_count + 1
        omega
      · refine iff_of_false ?_ ?_
        · intro hrunning
          rw [hof.publication_id, hof.corp_id, hrunning] at hclause
          simp at hclause
        · rw [hnext]
          omega
      · rw [hof.published, hstate]
        exact iff_of_false (fun hpublished => hlive hpublished.2) fun hpublished =>
          hlive hpublished.2
  · intro b hb
    obtain rfl := List.mem_singleton.mp hb
    have hattempt := hstarts.attempt
    rw [hnext] at hattempt
    refine ⟨⟨hstarts.publication_id, hstarts.corp_id, ?_, ?_, ?_, ?_⟩, ?_⟩
    · omega
    · rw [hnext]
      omega
    · exact iff_of_true hstarts.state ⟨hstarts.attempt, rfl⟩
    · rw [hstarts.state, hstate]
      exact iff_of_false (fun hsame => by cases hsame) fun hpublished => hlive hpublished.2
    · omega
  · intro n hlt hle
    rw [hnext] at hle
    refine ⟨a, List.mem_cons_self, ?_⟩
    rw [hstarts.attempt, hnext]
    omega

/-- A publication with its first attempt. -/
theorem requested (h : Attempted ps as) (hnew : ∀ q ∈ ps, q.id ≠ p.id) {token : Uuid}
    (hp : p.Requested token) {a : PublicationAttempt} (hstarts : a.Starts p) :
    Attempted (ps ++ [p]) (as ++ [a]) := by
  have hattempt : a.attempt = 1 := hstarts.attempt.trans hp.attempt_count
  obtain ⟨holder, hholder, -⟩ := hp.publisher
  have hof : a.Of p := by
    refine ⟨hstarts.publication_id, hstarts.corp_id, by omega, ?_, ?_, ?_⟩
    · rw [hstarts.attempt]
    · exact iff_of_true hstarts.state ⟨hstarts.attempt, by rw [hholder]; rfl⟩
    · rw [hstarts.state, hp.state]
      exact iff_of_false nofun fun hpublished => by cases hpublished.2
  constructor
  · intro b hb
    rcases List.mem_append.mp hb with hb | hb
    · obtain ⟨q, hq, hof⟩ := h.owned b hb
      exact ⟨q, List.mem_append_left _ hq, hof⟩
    · obtain rfl := List.mem_singleton.mp hb
      exact ⟨p, List.mem_append_right _ List.mem_cons_self, hof⟩
  · refine h.numbered.append_singleton ?_
    intro b hb hsame
    rw [PublicationAttempt.number, PublicationAttempt.number, Prod.mk.injEq] at hsame
    obtain ⟨q, hq, hofq⟩ := h.owned b hb
    refine hnew q hq ?_
    rw [← hofq.publication_id, hsame.1, hof.publication_id]
  · intro q hq n hpos hle
    rcases List.mem_append.mp hq with hq | hq
    · obtain ⟨b, hb, hbid, hbn⟩ := h.complete q hq n hpos hle
      exact ⟨b, List.mem_append_left _ hb, hbid, hbn⟩
    · obtain rfl := List.mem_singleton.mp hq
      rw [hp.attempt_count] at hle
      exact ⟨a, List.mem_append_right _ List.mem_cons_self, hstarts.publication_id, by omega⟩

end Attempted

/-! ## Orders and tokens -/

/-- The orders are for the same item or deliverable, or would have the same effect. -/
def PublicationOrder.Collides (p q : PublicationOrder) : Prop :=
  p.factory_work_item_id = q.factory_work_item_id
    ∨ p.source_deliverable_id = q.source_deliverable_id
    ∨ (p.corp_id = q.corp_id ∧ (p.effect_key = q.effect_key ∨ p.idempotency_key = q.idempotency_key
      ∨ (p.target_repository = q.target_repository ∧ p.branch = q.branch)))

theorem PublicationOrder.Collides.symm {p q : PublicationOrder} (h : p.Collides q) :
    q.Collides p := by
  unfold Collides at *
  rcases h with h | h | ⟨hcorp, h | h | ⟨h, h'⟩⟩
  · exact Or.inl h.symm
  · exact Or.inr (Or.inl h.symm)
  · exact Or.inr (Or.inr ⟨hcorp.symm, Or.inl h.symm⟩)
  · exact Or.inr (Or.inr ⟨hcorp.symm, Or.inr (Or.inl h.symm)⟩)
  · exact Or.inr (Or.inr ⟨hcorp.symm, Or.inr (Or.inr ⟨h.symm, h'.symm⟩)⟩)

/-- What is handed out and recorded. -/
structure Press.Registered (s : Press) : Prop where
  keyed : Keyed PullRequestPublication.key s.publications
  /-- No two orders collide. -/
  one_each : ∀ p ∈ s.publications, ∀ q ∈ s.publications,
    p.toPublicationOrder.Collides q.toPublicationOrder → p.key = q.key
  shaped : ∀ p ∈ s.publications, p.Shaped
  /-- A token is for one publication. -/
  tokens : ∀ p ∈ s.publications, ∀ q ∈ s.publications, ∀ a ∈ p.publisher, ∀ b ∈ q.publisher,
    a.token = b.token → p.key = q.key
  /-- The operation that handed out the token is on record. -/
  recorded : ∀ p ∈ s.publications, ∀ a ∈ p.publisher, ∃ row ∈ s.publication_operations,
    row.publisher_token = some a.token
  /-- A key is recorded once. -/
  operations : Keyed (fun op : PublicationOperation => (op.corp_id, op.idempotency_key))
    s.publication_operations

/-- A new token is no publication's and no operation's. -/
theorem Press.next_publisher_token_fresh (s : Press) :
    (∀ p ∈ s.publications, ∀ q ∈ p.publisher, q.token ≠ s.next_publisher_token)
      ∧ ∀ row ∈ s.publication_operations, row.publisher_token ≠ some s.next_publisher_token := by
  have hfresh := s.new_v4_notMem
    (s.publications.filterMap (fun p => p.publisher.map Publisher.token)
      ++ s.publication_operations.filterMap PublicationOperation.publisher_token)
  constructor
  · intro p hp q hq he
    refine hfresh (List.mem_append_left _ (List.mem_filterMap.mpr ⟨p, hp, ?_⟩))
    rw [Option.mem_def.mp hq]
    exact congrArg some he
  · intro row hrow he
    exact hfresh (List.mem_append_right _ (List.mem_filterMap.mpr ⟨row, hrow, he⟩))

theorem Press.next_publication_id_fresh (s : Press) :
    ∀ p ∈ s.publications, p.id ≠ s.next_publication_id := by
  intro p hp he
  exact s.new_v4_notMem (s.publications.map fun p => p.id) (List.mem_map.mpr ⟨p, hp, he⟩)

/-- What one publication becomes. A new token comes with another attempt. -/
structure PullRequestPublication.Succeeds (s t : Press) (p p' : PullRequestPublication) : Prop where
  later : p.Later p'
  publisher : ∀ b ∈ p'.publisher,
    (p'.attempt_count = p.attempt_count ∧ ∃ a ∈ p.publisher, a.token = b.token)
      ∨ (p'.attempt_count = p.attempt_count + 1 ∧ b.token = s.next_publisher_token
        ∧ ∃ row ∈ t.publication_operations, row.publisher_token = some b.token)

section Runs

variable {s t : Press} {op : PressOp} {p p' : PullRequestPublication}

theorem PullRequestPublication.Later.key (h : p.Later p') : p'.key = p.key := by
  show p'.id = p.id
  rw [h.order]

/-- The publisher has not changed. -/
theorem PullRequestPublication.Succeeds.of_tokens (h : p.Later p')
    (hcount : p'.attempt_count = p.attempt_count)
    (htokens : p'.publisher.map Publisher.token = p.publisher.map Publisher.token) :
    p.Succeeds s t p' := by
  refine ⟨h, fun b hb => Or.inl ⟨hcount, ?_⟩⟩
  have htoken : p.publisher.map Publisher.token = some b.token := by
    rw [← htokens, Option.mem_def.mp hb]
    rfl
  exact Option.map_eq_some_iff.mp htoken

/-- The publisher has been let go. -/
theorem PullRequestPublication.Succeeds.of_none (h : p.Later p') (hnone : p'.publisher = none) :
    p.Succeeds s t p' := by
  refine ⟨h, fun b hb => ?_⟩
  rw [hnone] at hb
  cases hb

theorem Press.Recorded.grow {token : Option Uuid} (h : s.Recorded t op token)
    {row : PublicationOperation} (hrow : row ∈ s.publication_operations) :
    row ∈ t.publication_operations := by
  obtain ⟨_, _, -, -, _, -, -, -, hops⟩ := h
  rw [hops]
  exact List.mem_append_left _ hrow

theorem Press.Recorded.mem {token : Option Uuid} (h : s.Recorded t op token) :
    ∃ row ∈ t.publication_operations, row.publisher_token = token := by
  obtain ⟨_, _, -, -, row, -, -, htoken, hops⟩ := h
  refine ⟨row, ?_, htoken⟩
  rw [hops]
  exact List.mem_append_right _ List.mem_cons_self

theorem Press.Recorded.keyed {token : Option Uuid} (h : s.Recorded t op token)
    (hs : Keyed (fun op : PublicationOperation => (op.corp_id, op.idempotency_key))
      s.publication_operations) :
    Keyed (fun op : PublicationOperation => (op.corp_id, op.idempotency_key))
      t.publication_operations := by
  obtain ⟨corp_id, k, -, hfresh, row, hcorp, hkey, -, hops⟩ := h
  rw [hops]
  refine hs.append_singleton ?_
  intro other hother hsame
  have hnot := List.find?_eq_none.mp hfresh other hother
  rw [Prod.mk.injEq, hcorp, hkey] at hsame
  simp [hsame.1, hsame.2] at hnot

namespace Press.Registered

/-- Nothing is written. -/
theorem congr (h : s.Registered) (hpublications : t.publications = s.publications)
    (hops : t.publication_operations = s.publication_operations) : t.Registered := by
  constructor
  · rw [hpublications]
    exact h.keyed
  · rw [hpublications]
    exact h.one_each
  · rw [hpublications]
    exact h.shaped
  · rw [hpublications]
    exact h.tokens
  · rw [hpublications, hops]
    exact h.recorded
  · rw [hops]
    exact h.operations

theorem turned (h : s.Registered) (hp : p ∈ s.publications) (hturned : s.Turned t p p')
    (hsucceeds : p.Succeeds s t p')
    (hgrow : ∀ row ∈ s.publication_operations, row ∈ t.publication_operations)
    (hops : Keyed (fun op : PublicationOperation => (op.corp_id, op.idempotency_key))
      t.publication_operations) : t.Registered := by
  have hkey := hsucceeds.later.key
  -- the order of a row is the order of a row that was there
  have hold : ∀ q ∈ t.publications, ∃ r ∈ s.publications, r.key = q.key
      ∧ r.toPublicationOrder = q.toPublicationOrder := by
    intro q hq
    rcases hturned.old hq with rfl | ⟨hq, -⟩
    · exact ⟨p, hp, hkey.symm, hsucceeds.later.order.symm⟩
    · exact ⟨q, hq, rfl, rfl⟩
  have hshared : ∀ q ∈ s.publications, q.key ≠ p.key → ∀ a ∈ q.publisher, ∀ b ∈ p'.publisher,
      a.token ≠ b.token := by
    intro q hq hne a ha b hb hsame
    rcases hsucceeds.publisher b hb with ⟨-, c, hc, hcb⟩ | ⟨-, hnext, -⟩
    · exact hne (h.tokens q hq p hp a ha c hc (hsame.trans hcb.symm))
    · exact s.next_publisher_token_fresh.1 q hq a ha (hsame.trans hnext)
  refine ⟨hturned.keyed h.keyed hkey, ?_, ?_, ?_, ?_, hops⟩
  · intro q hq r hr hcollides
    obtain ⟨q₀, hq₀, hkey₀, horder₀⟩ := hold q hq
    obtain ⟨r₀, hr₀, hkey₁, horder₁⟩ := hold r hr
    rw [← horder₀, ← horder₁] at hcollides
    rw [← hkey₀, ← hkey₁]
    exact h.one_each q₀ hq₀ r₀ hr₀ hcollides
  · intro q hq
    rcases hturned.old hq with rfl | ⟨hq, -⟩
    · exact hsucceeds.later.shaped
    · exact h.shaped q hq
  · intro q hq r hr a ha b hb hsame
    rcases hturned.old hq with rfl | ⟨hq, hqne⟩
    · rcases hturned.old hr with rfl | ⟨hr, hrne⟩
      · rfl
      · exact absurd hsame.symm (hshared r hr hrne b hb a ha)
    · rcases hturned.old hr with rfl | ⟨hr, -⟩
      · exact absurd hsame (hshared q hq hqne a ha b hb)
      · exact h.tokens q hq r hr a ha b hb hsame
  · intro q hq a ha
    rcases hturned.old hq with rfl | ⟨hq, -⟩
    · rcases hsucceeds.publisher a ha with ⟨-, c, hc, hca⟩ | ⟨-, -, hrow⟩
      · obtain ⟨row, hrow, htoken⟩ := h.recorded p hp c hc
        exact ⟨row, hgrow row hrow, by rw [htoken, hca]⟩
      · exact hrow
    · obtain ⟨row, hrow, htoken⟩ := h.recorded q hq a ha
      exact ⟨row, hgrow row hrow, htoken⟩

theorem requested (h : s.Registered) (hid : p.id = s.next_publication_id)
    (hfresh : p.Requested s.next_publisher_token)
    (hnew : ∀ q ∈ s.publications, ¬ q.toPublicationOrder.Collides p.toPublicationOrder)
    (hpublications : t.publications = s.publications ++ [p])
    (hlog : s.Recorded t op (some s.next_publisher_token)) : t.Registered := by
  obtain ⟨holder, hholder, htoken⟩ := hfresh.publisher
  have hkeys : ∀ q ∈ s.publications, q.key ≠ p.key := by
    intro q hq hsame
    exact s.next_publication_id_fresh q hq ((show q.id = p.id from hsame).trans hid)
  have hmem : ∀ q ∈ t.publications, q ∈ s.publications ∨ q = p := by
    intro q hq
    rw [hpublications] at hq
    exact (List.mem_append.mp hq).imp_right List.mem_singleton.mp
  -- the token of the new row is new
  have hshared : ∀ q ∈ s.publications, ∀ a ∈ q.publisher, ∀ b ∈ p.publisher, a.token ≠ b.token := by
    intro q hq a ha b hb hsame
    rw [hholder] at hb
    obtain rfl := Option.some.inj hb
    exact s.next_publisher_token_fresh.1 q hq a ha (hsame.trans htoken)
  refine ⟨?_, ?_, ?_, ?_, ?_, hlog.keyed h.operations⟩
  · rw [hpublications]
    exact h.keyed.append_singleton hkeys
  · intro q hq r hr hcollides
    rcases hmem q hq with hq | rfl
    · rcases hmem r hr with hr | rfl
      · exact h.one_each q hq r hr hcollides
      · exact absurd hcollides (hnew q hq)
    · rcases hmem r hr with hr | rfl
      · exact absurd hcollides.symm (hnew r hr)
      · rfl
  · intro q hq
    rcases hmem q hq with hq | rfl
    · exact h.shaped q hq
    · exact hfresh.shaped
  · intro q hq r hr a ha b hb hsame
    rcases hmem q hq with hq | rfl
    · rcases hmem r hr with hr | rfl
      · exact h.tokens q hq r hr a ha b hb hsame
      · exact absurd hsame (hshared q hq a ha b hb)
    · rcases hmem r hr with hr | rfl
      · exact absurd hsame.symm (hshared r hr b hb a ha)
      · rfl
  · intro q hq a ha
    rcases hmem q hq with hq | rfl
    · obtain ⟨row, hrow, hrowtoken⟩ := h.recorded q hq a ha
      exact ⟨row, hlog.grow hrow, hrowtoken⟩
    · rw [hholder] at ha
      obtain rfl := Option.some.inj ha
      rw [htoken]
      exact hlog.mem

end Press.Registered

end Runs

/-! ## Items -/

/-- The item of the publication. -/
structure FactoryWorkItem.For (i : FactoryWorkItem) (p : PullRequestPublication) : Prop where
  id : i.id = p.factory_work_item_id
  corp_id : i.corp_id = p.corp_id
  mission_id : i.mission_id = some p.mission_id
  published : p.state = .published → i.state = .published

/-- Items and their publications. -/
structure Staged (items : List FactoryWorkItem) (publications : List PullRequestPublication) :
    Prop where
  item : ∀ p ∈ publications, ∃ i ∈ items, i.For p
  /-- An item in one of its last two stages has a publication, and is published with it. -/
  publication : ∀ i ∈ items, i.state ∈ [.publishing, .published] →
    ∃ p ∈ publications, i.For p ∧ (i.state = .published → p.state = .published)

theorem FactoryWorkItem.For.later {i : FactoryWorkItem} {p p' : PullRequestPublication}
    (h : i.For p)
    (hlater : p.Later p') (hstate : p'.state = .published → p.state = .published) : i.For p' where
  id := by rw [h.id, hlater.order]
  corp_id := by rw [h.corp_id, hlater.order]
  mission_id := by rw [h.mission_id, hlater.order]
  published := fun hpublished => h.published (hstate hpublished)

theorem FactoryWorkItem.For.newer {i i' : FactoryWorkItem} {p : PullRequestPublication}
    (h : i.For p)
    (hnewer : i.Newer i') : i'.For p where
  id := hnewer.id.trans h.id
  corp_id := hnewer.corp_id.trans h.corp_id
  mission_id := by
    rw [hnewer.mission (by rw [h.mission_id]; rfl)]
    exact h.mission_id
  published := by
    intro hpublished
    have hlive := hnewer.live
    rw [h.published hpublished] at hlive
    cases hlive

namespace Staged

variable {items : List FactoryWorkItem} {ps ps' : List PullRequestPublication}
  {p p' : PullRequestPublication}

/-- A call about claims, or of the lifecycle. -/
theorem workshop {s t : Workshop} {op : WorkshopOp} (h : Staged s.factory_work_items ps)
    (hs : s.Sound) (hadvance : s.Advance op t) : Staged t.factory_work_items ps := by
  constructor
  · intro p hp
    obtain ⟨i, hi, hfor⟩ := h.item p hp
    obtain ⟨i', hi', rfl | hnewer⟩ := hadvance.rows_kept hs hi
    · exact ⟨i', hi', hfor⟩
    · exact ⟨i', hi', hfor.newer hnewer⟩
  · intro i' hi' hstage
    obtain ⟨i, hi, hid, hstate⟩ := hadvance.stage hi' hstage
    rw [← hstate] at hstage
    obtain ⟨p, hp, hfor, hpublished⟩ := h.publication i hi hstage
    refine ⟨p, hp, ?_, by rw [← hstate]; exact hpublished⟩
    -- the row is the one that the item of the publication has become
    obtain ⟨j, hj, hsame⟩ := hadvance.rows_kept hs hi
    have hjid : j.id = i'.id := by
      rcases hsame with rfl | hnewer
      · exact hid
      · exact hnewer.id.trans hid
    obtain rfl := (hadvance.items_keyed hs).eq_of_mem hj hi' hjid
    rcases hsame with rfl | hnewer
    · exact hfor
    · exact hfor.newer hnewer

/-- A publication goes on, and is not finished. -/
theorem turned (h : Staged items ps) (hps : Keyed PullRequestPublication.key ps) (hp : p ∈ ps)
    (hturned : Replaced PullRequestPublication.key p.key p' ps ps') (hlater : p.Later p')
    (hlive : p'.state = .published → p.state = .published) : Staged items ps' := by
  constructor
  · intro q hq
    rcases hturned.old hq with rfl | ⟨hq, -⟩
    · obtain ⟨i, hi, hfor⟩ := h.item p hp
      exact ⟨i, hi, hfor.later hlater hlive⟩
    · exact h.item q hq
  · intro i hi hstage
    obtain ⟨q, hq, hfor, hpublished⟩ := h.publication i hi hstage
    by_cases hkey : q.key = p.key
    · obtain rfl := hps.eq_of_mem hq hp hkey
      refine ⟨p', hturned.mem hp rfl, hfor.later hlater hlive, fun hstate => ?_⟩
      rw [hlater.frozen (hpublished hstate)]
      exact hpublished hstate
    · exact ⟨q, hturned.kept hq hkey, hfor, hpublished⟩

end Staged

section Runs

variable {s t : Press} {op : PressOp} {p p' : PullRequestPublication}

/-- The item of a publication, moved, and the others. -/
theorem Press.Moved.items_old {source target : FactoryWorkItemState} (h : s.Moved t p source target)
    {i' : FactoryWorkItem} (hi' : i' ∈ t.factory_work_items) :
    ∃ i ∈ s.factory_work_items, (i.id = p.factory_work_item_id ∧ i.corp_id = p.corp_id
      ∧ i.state = source ∧ i' = { i with
        state := target, version := i.version + 1, failure_detail := none }) ∨ i' = i := by
  rw [h.items] at hi'
  obtain ⟨i, hi, rfl⟩ := mem_updateWhere.mp hi'
  refine ⟨i, hi, ?_⟩
  split
  · rename_i hclause
    simp only [Bool.and_eq_true, beq_iff_eq] at hclause
    exact Or.inl ⟨hclause.1.1, hclause.1.2, hclause.2, rfl⟩
  · exact Or.inr rfl

/-- An item that is another one's stays. -/
theorem Press.Moved.items_kept {source target : FactoryWorkItemState}
    (h : s.Moved t p source target)
    {i : FactoryWorkItem} (hi : i ∈ s.factory_work_items) (hne : i.id ≠ p.factory_work_item_id) :
    i ∈ t.factory_work_items := by
  rw [h.items]
  refine mem_updateWhere.mpr ⟨i, hi, ?_⟩
  simp [hne]

/-- The item that is moved. -/
theorem Press.Moved.item_new {source target : FactoryWorkItemState} (h : s.Moved t p source target)
    (hs : Keyed FactoryWorkItem.id s.factory_work_items) {i : FactoryWorkItem}
    (hi : i ∈ s.factory_work_items) (hid : i.id = p.factory_work_item_id) :
    i.state = source ∧ { i with
      state := target, version := i.version + 1, failure_detail := none }
        ∈ t.factory_work_items := by
  obtain ⟨j, hj, hjid, hjcorp, hjstate⟩ := h.item
  obtain rfl := hs.eq_of_mem hj hi (hjid.trans hid.symm)
  refine ⟨hjstate, ?_⟩
  rw [h.items]
  refine mem_updateWhere.mpr ⟨j, hj, ?_⟩
  simp [hjid, hjcorp, hjstate]

theorem Press.Moved.newer {source target : FactoryWorkItemState} (h : s.Moved t p source target)
    (hsource : factory_state_is_terminal source = false)
    (hlinked : ∀ i ∈ s.factory_work_items, i.id = p.factory_work_item_id →
    i.mission_id.isSome = true)
    (htarget : target ≠ .claimed) :
    Updated (fun i i' => i' = i ∨ (i.Newer i' ∧ i'.claim_token = i.claim_token))
      s.factory_work_items t.factory_work_items := by
  rw [h.items]
  refine Updated.of_updateWhere ?_ fun _ _ _ => Or.inl rfl
  intro i hi hclause
  simp only [Bool.and_eq_true, beq_iff_eq] at hclause
  have hlive : factory_state_is_terminal i.state = false := by
    rw [hclause.2]
    exact hsource
  refine Or.inr ⟨⟨rfl, rfl, rfl, rfl, rfl, hlive, by simp, fun _ => rfl, fun _ => ⟨?_, ?_⟩⟩, rfl⟩
  · intro hnone
    have hsome := hlinked i hi hclause.1.1
    rw [show i.mission_id = none from hnone] at hsome
    cases hsome
  · exact fun hclaimed => absurd hclaimed htarget

theorem Staged.requested (h : Staged s.factory_work_items s.publications)
    (hs : Keyed FactoryWorkItem.id s.factory_work_items)
    (hnew : ∀ q ∈ s.publications, q.factory_work_item_id ≠ p.factory_work_item_id)
    {token : Uuid} (hp : p.Requested token) {item : FactoryWorkItem}
    (hitem : item ∈ s.factory_work_items) (hid : item.id = p.factory_work_item_id)
    (hcorp : item.corp_id = p.corp_id) (hmission : item.mission_id = some p.mission_id)
    (hmoved : s.Moved t p .verified .publishing)
    (hpublications : t.publications = s.publications ++ [p]) :
    Staged t.factory_work_items t.publications := by
  have hlive : p.state ≠ .published := by
    rw [hp.state]
    decide
  obtain ⟨-, hnewitem⟩ := hmoved.item_new hs hitem hid
  constructor
  · intro q hq
    rw [hpublications] at hq
    rcases List.mem_append.mp hq with hq | hq
    · obtain ⟨i, hi, hfor⟩ := h.item q hq
      refine ⟨i, hmoved.items_kept hi ?_, hfor⟩
      rw [hfor.id]
      exact hnew q hq
    · rw [List.mem_singleton.mp hq]
      exact ⟨_, hnewitem, hid, hcorp, hmission, fun hpublished => absurd hpublished hlive⟩
  · intro i' hi' hstage
    rw [hpublications]
    obtain ⟨i, hi, ⟨hiid, -, -, rfl⟩ | rfl⟩ := hmoved.items_old hi'
    · obtain rfl := hs.eq_of_mem hi hitem (hiid.trans hid.symm)
      exact ⟨p, List.mem_append_right _ List.mem_cons_self,
        ⟨hid, hcorp, hmission, fun hpublished => absurd hpublished hlive⟩, nofun⟩
    · obtain ⟨q, hq, hfor⟩ := h.publication i' hi hstage
      exact ⟨q, List.mem_append_left _ hq, hfor⟩

theorem Staged.finished (h : Staged s.factory_work_items s.publications)
    (hs : Keyed FactoryWorkItem.id s.factory_work_items)
    (hps : Keyed PullRequestPublication.key s.publications)
    (hone : ∀ q ∈ s.publications, q.factory_work_item_id = p.factory_work_item_id → q.key = p.key)
    (hp : p ∈ s.publications) (hlater : p.Later p') (hstate : p'.state = .published)
    (hturned : s.Turned t p p') (hmoved : s.Moved t p .publishing .published) :
    Staged t.factory_work_items t.publications := by
  obtain ⟨item, hitem, hfor⟩ := h.item p hp
  obtain ⟨-, hnewitem⟩ := hmoved.item_new hs hitem hfor.id
  have hnewfor : FactoryWorkItem.For { item with
      state := .published, version := item.version + 1, failure_detail := none } p' := by
    refine ⟨?_, ?_, ?_, fun _ => rfl⟩
    · rw [hlater.order]
      exact hfor.id
    · rw [hlater.order]
      exact hfor.corp_id
    · rw [hlater.order]
      exact hfor.mission_id
  constructor
  · intro q hq
    rcases hturned.old hq with rfl | ⟨hq, hne⟩
    · exact ⟨_, hnewitem, hnewfor⟩
    · obtain ⟨i, hi, hifor⟩ := h.item q hq
      refine ⟨i, hmoved.items_kept hi ?_, hifor⟩
      rw [hifor.id]
      exact fun hsame => hne (hone q hq hsame)
  · intro i' hi' hstage
    obtain ⟨i, hi, ⟨hiid, -, -, rfl⟩ | rfl⟩ := hmoved.items_old hi'
    · obtain rfl := hs.eq_of_mem hi hitem (hiid.trans hfor.id.symm)
      exact ⟨p', hturned.mem hp rfl, hnewfor, fun _ => hstate⟩
    · obtain ⟨q, hq, hqfor, hpublished⟩ := h.publication i' hi hstage
      by_cases hkey : q.key = p.key
      · -- the item of the publication is published now
        obtain rfl := hps.eq_of_mem hq hp hkey
        obtain rfl := hs.eq_of_mem hi hitem (hqfor.id.trans hfor.id.symm)
        have hkeyed : Keyed FactoryWorkItem.id t.factory_work_items := by
          rw [hmoved.items]
          exact hs.updateWhere fun _ _ => rfl
        have hsame : i' = { i' with
            state := .published, version := i'.version + 1, failure_detail := none } :=
          hkeyed.eq_of_mem hi' hnewitem rfl
        rw [hsame]
        exact ⟨p', hturned.mem hp rfl, hnewfor, fun _ => hstate⟩
      · exact ⟨q, hturned.kept hq hkey, hqfor, hpublished⟩

/-! ## Every call -/

/-- **What holds of publications between any two calls.** -/
structure Press.Sound (s : Press) : Prop where
  workshop : s.toWorkshop.Sound
  registered : s.Registered
  staged : Staged s.factory_work_items s.publications
  attempted : Attempted s.publications s.publication_attempts

theorem Press.Initial.sound {s : Press} (h : s.Initial) : s.Sound where
  workshop := h.workshop.sound
  registered := by
    refine ⟨?_, ?_, ?_, ?_, ?_, ?_⟩ <;> simp [h.publications, h.publication_operations, Keyed]
  staged := by
    refine ⟨by simp [h.publications], ?_⟩
    simp [h.workshop.factory_work_items]
  attempted := by
    refine ⟨?_, ?_, ?_⟩ <;> simp [h.publications, h.publication_attempts, Keyed]

theorem PullRequestPublication.Step.live (h : p.Step p') (hlive : p.state ≠ .published) :
    p'.state ≠ .published := by
  cases h with
  | renewed lease => exact hlive
  | branch_pushed now hstate => exact nofun
  | pull_request_created report provenance hstate hvalid => exact nofun

theorem Press.Held.isSome {c : PublicationControl} (h : s.Held p c) :
    p.publisher.isSome = true := by
  obtain ⟨q, hq, -⟩ := h.publisher
  rw [hq]
  rfl

/-- A publication whose attempt runs is not finished. -/
theorem Press.Sound.running (hs : s.Sound) (hp : p ∈ s.publications)
    (h : (s.running_attempt p).isSome = true) :
    p.publisher.isSome = true ∧ p.state ≠ .published := by
  obtain ⟨a, ha⟩ := Option.isSome_iff_exists.mp h
  have hclause := List.find?_some ha
  simp only [Bool.and_eq_true, beq_iff_eq] at hclause
  obtain ⟨q, hq, hof⟩ := hs.attempted.owned a (List.mem_of_find?_eq_some ha)
  have hkey : q.key = p.key := by
    show q.id = p.id
    rw [← hof.publication_id, hclause.1.1.1]
  obtain rfl := hs.registered.keyed.eq_of_mem hq hp hkey
  have hpublisher := (hof.running.mp hclause.2).2
  refine ⟨hpublisher, fun hstate => ?_⟩
  rw [(hs.registered.shaped q hq).released hstate] at hpublisher
  cases hpublisher

/-- What a committed call does to the table of the publications. -/
inductive Press.Turns (s t : Press) (op : PressOp) : Prop
  | same (h : t.publications = s.publications)
      (operations : t.publication_operations = s.publication_operations)
  | turned (p p' : PullRequestPublication) (hp : p ∈ s.publications) (turned : s.Turned t p p')
      (succeeds : p.Succeeds s t p')
      (operations : t.publication_operations = s.publication_operations
        ∨ ∃ token, s.Recorded t op token)
  | added (p : PullRequestPublication) (id : p.id = s.next_publication_id)
      (fresh : p.Requested s.next_publisher_token)
      (hnew : ∀ q ∈ s.publications, ¬ q.toPublicationOrder.Collides p.toPublicationOrder)
      (publications : t.publications = s.publications ++ [p])
      (log : s.Recorded t op (some s.next_publisher_token))

theorem Press.Advance.turns (h : s.Advance env documents op t) (hs : s.Sound) : s.Turns t op := by
  have hshaped := hs.registered.shaped
  cases h with
  | workshop w _ _ publications _ operations => exact .same publications operations
  | unchanged h => exact h ▸ .same rfl rfl
  | credentials _ _ credentials h => exact h ▸ .same rfl rfl
  | noted p provenance hp turned live _ _ _ log =>
    have hlater : p.Later { p with provenance } := by
      refine .refreshed (hshaped p hp) fun hpublished => ?_
      rcases live with hsame | hrunning
      · exact hsame
      · exact absurd hpublished (hs.running hp hrunning).2
    refine .turned p _ hp turned (.of_tokens hlater rfl rfl) ?_
    rcases log with hsame | ⟨token, hlog, -⟩
    · exact Or.inl hsame
    · exact Or.inr ⟨token, hlog⟩
  | requested now p item a _ hnew id fresh _ _ _ _ publications _ _ _ log =>
    refine .added p id fresh ?_ publications log
    rintro q hq (hitem | hdeliverable | ⟨hcorp, hsame⟩)
    · exact (hnew q hq).1 hitem
    · exact (hnew q hq).2.1 hdeliverable
    · obtain ⟨heffect, hkey, htarget⟩ := (hnew q hq).2.2 hcorp
      rcases hsame with hsame | hsame | hsame
      · exact heffect hsame
      · exact hkey hsame
      · exact htarget hsame
  | restarted now p q a _ hp live _ token turned _ _ _ log =>
    have hlater := PullRequestPublication.Later.attempted (hshaped p hp) live q
    refine .turned p _ hp turned ⟨hlater, fun b hb => Or.inr ⟨rfl, ?_⟩⟩ (Or.inr ⟨_, log⟩)
    obtain rfl : q = b := Option.some.inj hb
    rw [token]
    exact ⟨rfl, log.mem⟩
  | advanced c p p' provenance _ hp held step turned _ log =>
    have hrefreshed : p.Later { p with provenance } :=
      .refreshed (hshaped p hp) fun hpublished => absurd hpublished held.live
    obtain ⟨hlater, hcount, htokens⟩ := step.later hrefreshed.shaped held.live
    exact .turned p p' hp turned (.of_tokens (hrefreshed.trans hlater) hcount htokens)
      (Or.inr ⟨_, log⟩)
  | finished c p p' status _ hp held hstate hidentity columns turned _ _ log =>
    have hlater := PullRequestPublication.Later.finished (hshaped p hp) hstate hidentity columns
    refine .turned p p' hp turned (.of_none hlater ?_) (Or.inr ⟨_, log⟩)
    rw [columns]
  | failed c p detail _ hp held turned _ _ log =>
    have hlater := PullRequestPublication.Later.failed (hshaped p hp) held.live detail
    exact .turned p _ hp turned (.of_none hlater rfl) (Or.inr ⟨_, log⟩)

theorem Press.Turns.registered (h : s.Turns t op) (hs : s.Registered) : t.Registered := by
  cases h with
  | same h operations => exact hs.congr h operations
  | turned p p' hp turned succeeds operations =>
    refine hs.turned hp turned succeeds ?_ ?_
    · intro row hrow
      rcases operations with hsame | ⟨token, log⟩
      · exact hsame ▸ hrow
      · exact log.grow hrow
    · rcases operations with hsame | ⟨token, log⟩
      · rw [hsame]
        exact hs.operations
      · exact log.keyed hs.operations
  | added p id fresh hnew publications log => exact hs.requested id fresh hnew publications log

/-- The attempts of a publication that goes on with the attempt it has. -/
theorem Press.Sound.same_attempt (hs : s.Sound) (hp : p ∈ s.publications)
    (hturned : s.Turned t p p')
    (hattempts : t.publication_attempts = s.publication_attempts) (hlater : p.Later p')
    (hcount : p'.attempt_count = p.attempt_count)
    (htokens : p'.publisher.map Publisher.token = p.publisher.map Publisher.token)
    (hstate : p'.state = .published → p.state = .published) :
    Attempted t.publications t.publication_attempts := by
  rw [hattempts]
  refine hs.attempted.same hs.registered.keyed hp hturned hlater.key ?_ hcount ?_ ⟨hstate, ?_⟩
  · rw [hlater.order]
  · rw [← Option.isSome_map, htokens, Option.isSome_map]
  · intro hpublished
    rw [hlater.frozen hpublished]
    exact hpublished

/-- **They are kept by every call.** -/
theorem Press.exec_sound (hs : s.Sound) (h : s.exec env documents op = .ok t) : t.Sound := by
  have hadvance := Press.exec_advance hs.registered.keyed h
  have hshaped := hs.registered.shaped
  have hregistered := (hadvance.turns hs).registered hs.registered
  have hitems := hs.workshop.bound.items_keyed
  have hps := hs.registered.keyed
  cases hadvance with
  | workshop w _ h publications attempts _ =>
    refine ⟨Workshop.exec_sound hs.workshop h, hregistered, ?_, ?_⟩
    · rw [publications]
      exact hs.staged.workshop hs.workshop (Workshop.exec_advance hs.workshop.bound h)
    · rw [publications, attempts]
      exact hs.attempted
  | unchanged h => exact h ▸ hs
  | credentials _ _ credentials h =>
    refine ⟨?_, hregistered, ?_, ?_⟩
    · exact h ▸ hs.workshop
    · exact h ▸ hs.staged
    · exact h ▸ hs.attempted
  | noted p provenance hp turned live quiet _ _ _ =>
    have hlater : p.Later { p with provenance } := by
      refine .refreshed (hshaped p hp) fun hpublished => ?_
      rcases live with hsame | hrunning
      · exact hsame
      · exact absurd hpublished (hs.running hp hrunning).2
    refine ⟨quiet.workshop ▸ hs.workshop, hregistered, ?_, ?_⟩
    · rw [quiet.workshop]
      exact hs.staged.turned hps hp turned hlater fun hpublished => hpublished
    · exact hs.same_attempt hp turned quiet.attempts hlater rfl rfl fun hpublished => hpublished
  | requested now p item a _ hnew id fresh hitem item_id item_corp item_mission publications starts
      attempts moved _ =>
    have hother : ∀ q ∈ s.publications, q.factory_work_item_id ≠ p.factory_work_item_id :=
      fun q hq => (hnew q hq).1
    refine ⟨?_, hregistered, ?_, ?_⟩
    · refine hs.workshop.of_clerical moved.clerical moved.operations (moved.newer rfl ?_ nofun)
      intro i hi hid
      obtain rfl := hitems.eq_of_mem hi hitem (hid.trans item_id.symm)
      rw [item_mission]
      rfl
    · exact hs.staged.requested hitems hother fresh hitem item_id item_corp item_mission moved
        publications
    · rw [publications, attempts]
      refine hs.attempted.requested ?_ fresh starts
      intro q hq
      rw [id]
      exact s.next_publication_id_fresh q hq
  | restarted now p q a _ hp live _ _ turned workshop starts attempts _ =>
    have hp' := hshaped p hp
    have hlater := PullRequestPublication.Later.attempted hp' live q
    have hstate : (p.attempted q).state = p.state := if_neg hp'.requested
    refine ⟨workshop ▸ hs.workshop, hregistered, ?_, ?_⟩
    · rw [workshop]
      refine hs.staged.turned hps hp turned hlater ?_
      rw [hstate]
      exact fun hpublished => hpublished
    · rw [attempts]
      exact hs.attempted.restarted hps hp live hp'.requested hp'.attempt_count turned starts
  | advanced c p p' provenance _ hp held step turned quiet _ =>
    have hrefreshed : p.Later { p with provenance } :=
      .refreshed (hshaped p hp) fun hpublished => absurd hpublished held.live
    obtain ⟨hlater, hcount, htokens⟩ := step.later hrefreshed.shaped held.live
    have hlive : p'.state = .published → p.state = .published :=
      fun hpublished => absurd hpublished (step.live held.live)
    refine ⟨quiet.workshop ▸ hs.workshop, hregistered, ?_, ?_⟩
    · rw [quiet.workshop]
      exact hs.staged.turned hps hp turned (hrefreshed.trans hlater) hlive
    · exact hs.same_attempt hp turned quiet.attempts (hrefreshed.trans hlater) hcount htokens hlive
  | finished c p p' status _ hp held hstate hidentity columns turned attempts moved _ =>
    have hlater := PullRequestPublication.Later.finished (hshaped p hp) hstate hidentity columns
    have hpublished : p'.state = .published := by rw [columns]
    have hone : ∀ q ∈ s.publications, q.factory_work_item_id = p.factory_work_item_id →
        q.key = p.key := fun q hq hsame => hs.registered.one_each q hq p hp (Or.inl hsame)
    refine ⟨?_, hregistered, ?_, ?_⟩
    · refine hs.workshop.of_clerical moved.clerical moved.operations (moved.newer rfl ?_ nofun)
      intro i hi hid
      obtain ⟨j, hj, hfor⟩ := hs.staged.item p hp
      obtain rfl := hitems.eq_of_mem hi hj (hid.trans hfor.id.symm)
      rw [hfor.mission_id]
      rfl
    · exact hs.staged.finished hitems hps hone hp hlater hpublished turned moved
    · rw [attempts]
      refine hs.attempted.finished hps hp turned hlater.key ?_ ?_ held.isSome ?_ nofun ?_
      · rw [hlater.order]
      · rw [columns]
      · rw [columns]
      · exact iff_of_true rfl hpublished
  | failed c p detail _ hp held turned workshop attempts _ =>
    have hlater := PullRequestPublication.Later.failed (hshaped p hp) held.live detail
    refine ⟨workshop ▸ hs.workshop, hregistered, ?_, ?_⟩
    · rw [workshop]
      exact hs.staged.turned hps hp turned hlater fun hpublished => hpublished
    · rw [attempts]
      refine hs.attempted.finished hps hp turned rfl rfl rfl held.isSome rfl nofun ?_
      exact iff_of_false nofun held.live

end Runs

/-- They hold in every reachable state. -/
theorem presses_sound {ok : Press → PressOp → Prop} {s : Press}
    (h : (presses env documents).ReachableVia ok s) : s.Sound :=
  TransitionSystem.ReachableVia.invariant_of_exec (I := Press.Sound) h (fun _ h0 => h0.sound)
    fun _ _ _ hI _ hexec => Press.exec_sound hI hexec

end Crony.Store
