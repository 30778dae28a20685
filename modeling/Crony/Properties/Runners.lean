/-
The runner credential protocol.

A token is good for a runner of a Corp while it is in an unrevoked, unexpired credential
or in an unused, unexpired enrolment; the history of tokens is guarded by that notion
(`TokenEntry.Guarded`), so every token authenticates at most once. Revocation reaches the
credential only: an enrolment that is still outstanding brings the runner back and resets
`revoked_at`. And the rows of runners are found by the runner identifier alone, which two
Corps may share. The last section states when the protocol does keep its promises, and
shows that without the conditions it does not.
-/
import Crony.Lifecycle.Fleet

set_option autoImplicit false

open Crony.Lib

namespace Crony.Store

/-! ## The invariant -/

/-- A token is good for a runner of a Corp. -/
def Fleet.Live (s : Fleet) (party : Uuid × String) (hash : String) : Prop :=
  (∃ c ∈ s.runner_credentials, c.corp_id = party.1 ∧ c.runner_id = party.2 ∧ c.token_hash = hash
      ∧ c.revoked_at = none ∧ s.clock < c.expires_at)
    ∨ ∃ e ∈ s.runner_enrollment_tokens, e.corp_id = party.1 ∧ e.runner_id = party.2
      ∧ e.token_hash = hash ∧ e.used_at = none ∧ s.clock < e.expires_at

/-- The keys of the tables, and the history of the tokens. Every digest is in one row only. -/
structure Roll.Sound (s : Roll) : Prop where
  inv : Inv s.toDb
  nodes_keyed : Keyed RunnerNode.id s.runner_nodes
  enrollments_keyed : Keyed RunnerEnrollmentToken.id s.runner_enrollment_tokens
  enrollment_hashes : Keyed RunnerEnrollmentToken.token_hash s.runner_enrollment_tokens
  credentials_keyed : Keyed RunnerCredential.id s.runner_credentials
  credential_runners : Keyed RunnerCredential.runner_id s.runner_credentials
  credential_hashes : Keyed RunnerCredential.token_hash s.runner_credentials
  hashes_apart : ∀ e ∈ s.runner_enrollment_tokens, ∀ c ∈ s.runner_credentials,
    e.token_hash ≠ c.token_hash
  enrollments_issued : ∀ e ∈ s.runner_enrollment_tokens, .issued e.token_hash ∈ s.log
  credentials_issued : ∀ c ∈ s.runner_credentials, .issued c.token_hash ∈ s.log
  guarded : TokenEntry.Guarded s.Live s.log

/-- A new token is one that was never issued before: the server makes it from two random
UUIDs. -/
def FleetOp.Fresh (s : Roll) : FleetOp → Prop
  | .create_runner_enrollment input => .issued input.token_hash ∉ s.log
  | .authenticate_and_rotate_runner input => .issued input.next_token_hash ∉ s.log
  | _ => True

/-- A revocation that is carried out leaves no enrolment of the runner outstanding. -/
def FleetOp.Settled (s : Fleet) : FleetOp → Prop
  | .revoke_runner input => s.manages_runners input.corp_id input.actor_id →
    ∀ e ∈ s.runner_enrollment_tokens, e.corp_id = input.corp_id → e.runner_id = input.runner_id →
      e.used_at = none → e.expires_at ≤ s.clock
  | _ => True

section Invariant

variable {s : Roll} {t : Fleet}

/-- Where the tokens are as they were, the history is still guarded. -/
theorem Fleet.SameTokens.live {s t : Fleet} (h : s.SameTokens t) {party : Uuid × String}
    {hash : String} (hl : t.Live party hash) : s.Live party hash := by
  have hclock := h.clock
  rcases hl with ⟨c, hc, h1, h2, h3, h4, h5⟩ | ⟨e, he, h1, h2, h3, h4, h5⟩
  · rw [h.runner_credentials] at hc
    exact Or.inl ⟨c, hc, h1, h2, h3, h4, by omega⟩
  · rw [h.runner_enrollment_tokens] at he
    exact Or.inr ⟨e, he, h1, h2, h3, h4, by omega⟩

theorem Roll.Sound.of_same (hs : s.Sound) (h : s.toFleet.SameTokens t) (hinv : Inv t.toDb)
    (hnodes : Keyed RunnerNode.id t.runner_nodes) : Roll.Sound { t with log := s.log } where
  inv := hinv
  nodes_keyed := hnodes
  enrollments_keyed := h.runner_enrollment_tokens ▸ hs.enrollments_keyed
  enrollment_hashes := h.runner_enrollment_tokens ▸ hs.enrollment_hashes
  credentials_keyed := h.runner_credentials ▸ hs.credentials_keyed
  credential_runners := h.runner_credentials ▸ hs.credential_runners
  credential_hashes := h.runner_credentials ▸ hs.credential_hashes
  hashes_apart := by
    intro e he c hc
    exact hs.hashes_apart e (h.runner_enrollment_tokens ▸ he) c (h.runner_credentials ▸ hc)
  enrollments_issued := fun e he => hs.enrollments_issued e (h.runner_enrollment_tokens ▸ he)
  credentials_issued := fun c hc => hs.credentials_issued c (h.runner_credentials ▸ hc)
  guarded := hs.guarded.mono fun party hash hl => h.live hl

/-- An enrolment with a new token. -/
theorem Roll.Sound.enrolled (hs : s.Sound) {input : RunnerEnrollmentInput}
    (hfresh : .issued input.token_hash ∉ s.log)
    (h : create_runner_enrollment s.toFleet input = .ok t) :
    Roll.Sound { t with log := s.log ++ [.issued input.token_hash] } := by
  obtain ⟨hdb, hcredentials, hnodes, hclock, hunique, henrollments⟩ := create_runner_enrollment_ok h
  have hmem : ∀ e ∈ t.runner_enrollment_tokens, e ∈ s.runner_enrollment_tokens
      ∨ e.token_hash = input.token_hash := by
    intro e he
    rw [henrollments] at he
    rcases List.mem_append.mp he with he | he
    · exact Or.inl he
    · rw [List.mem_singleton.mp he]
      exact Or.inr rfl
  refine ⟨hdb.inv hs.inv, ?_, ?_, ?_, ?_, ?_, ?_, ?_, ?_, ?_, ?_⟩
  · exact hnodes ▸ hs.nodes_keyed
  · change Keyed _ t.runner_enrollment_tokens
    rw [henrollments]
    refine hs.enrollments_keyed.append_singleton fun e he hid => ?_
    exact s.new_v4_notMem _ (hid ▸ List.mem_map_of_mem (f := RunnerEnrollmentToken.id) he)
  · change Keyed _ t.runner_enrollment_tokens
    rw [henrollments]
    exact hs.enrollment_hashes.append_singleton fun e he => hunique e he
  · exact hcredentials ▸ hs.credentials_keyed
  · exact hcredentials ▸ hs.credential_runners
  · exact hcredentials ▸ hs.credential_hashes
  · intro e he c hc heq
    change c ∈ t.runner_credentials at hc
    rw [hcredentials] at hc
    rcases hmem e he with he | he
    · exact hs.hashes_apart e he c hc heq
    · refine hfresh ?_
      rw [← he, heq]
      exact hs.credentials_issued c hc
  · intro e he
    rcases hmem e he with he | he
    · exact List.mem_append_left _ (hs.enrollments_issued e he)
    · rw [he]
      exact List.mem_append_right _ List.mem_cons_self
  · intro c hc
    change c ∈ t.runner_credentials at hc
    rw [hcredentials] at hc
    exact List.mem_append_left _ (hs.credentials_issued c hc)
  · refine hs.guarded.issue hfresh fun party hash hl => ?_
    change t.Live party hash at hl
    rcases hl with ⟨c, hc, h1, h2, h3, h4, h5⟩ | ⟨e, he, h1, h2, h3, h4, h5⟩
    · rw [hcredentials] at hc
      rw [hclock] at h5
      exact Or.inl (Or.inl ⟨c, hc, h1, h2, h3, h4, h5⟩)
    · rw [hclock] at h5
      rcases hmem e he with he | he
      · exact Or.inl (Or.inr ⟨e, he, h1, h2, h3, h4, h5⟩)
      · exact Or.inr (h3.symm.trans he)

/-- A row of the table after the upsert is the row, or of another runner. -/
theorem mem_upsert_credential {row c : RunnerCredential} {l : List RunnerCredential}
    (h : c ∈ upsert_credential row l) : c = row ∨ (c ∈ l ∧ c.runner_id ≠ row.runner_id) := by
  unfold upsert_credential at h
  split at h
  · obtain ⟨d, hd, hc⟩ := mem_updateWhere.mp h
    split at hc
    · exact Or.inl hc.symm
    · rename_i hp
      rw [beq_iff_eq] at hp
      exact Or.inr (hc ▸ ⟨hd, hp⟩)
  · rename_i hnone
    rcases List.mem_append.mp h with h | h
    · refine Or.inr ⟨h, fun heq => hnone ?_⟩
      exact List.any_eq_true.mpr ⟨c, h, beq_iff_eq.mpr heq⟩
    · exact Or.inl (List.mem_singleton.mp h)

/-- A key that the rows of the other runners do not have. -/
theorem keyed_upsert_credential {κ : Type} {k : RunnerCredential → κ} {row : RunnerCredential}
    {l : List RunnerCredential} (hl : Keyed k l) (hrunners : Keyed RunnerCredential.runner_id l)
    (hnew : ∀ c ∈ l, c.runner_id ≠ row.runner_id → k c ≠ k row) :
    Keyed k (upsert_credential row l) := by
  unfold upsert_credential
  split
  · refine hl.updateWhere_key ?_ ?_
    · intro c hc d hd hpc hpd
      exact hrunners.eq_of_mem hc hd ((beq_iff_eq.mp hpc).trans (beq_iff_eq.mp hpd).symm)
    · intro c _ _ d hd hpd
      exact hnew d hd fun heq => by simp [heq] at hpd
  · rename_i hnone
    refine hl.append_singleton fun c hc => hnew c hc fun heq => hnone ?_
    exact List.any_eq_true.mpr ⟨c, hc, beq_iff_eq.mpr heq⟩

/-- **The exchange.** A good token is presented, its row no longer has it, and the only new
token is a fresh one. -/
theorem Roll.Sound.exchange (hs : s.Sound) {input : RunnerAuthentication}
    (hgood : s.Live (input.corp_id, input.runner_id) input.presented_token_hash)
    (hfresh : .issued input.next_token_hash ∉ s.log) (hclock : t.clock = s.clock)
    (hcredentials : ∀ c ∈ t.runner_credentials, c.token_hash = input.next_token_hash
      ∨ (c ∈ s.runner_credentials ∧ c.token_hash ≠ input.presented_token_hash))
    (henrollments : ∀ e ∈ t.runner_enrollment_tokens, e.used_at = none →
      e ∈ s.runner_enrollment_tokens ∧ e.token_hash ≠ input.presented_token_hash) :
    TokenEntry.Guarded t.Live (s.log ++ [.presented (input.corp_id, input.runner_id)
      input.presented_token_hash, .issued input.next_token_hash]) := by
  have hpresent : TokenEntry.Guarded
      (fun party hash => s.Live party hash ∧ hash ≠ input.presented_token_hash)
      (s.log ++ [.presented (input.corp_id, input.runner_id) input.presented_token_hash]) :=
    hs.guarded.present hgood fun _ _ h => h
  rw [List.append_cons]
  refine hpresent.issue ?_ ?_
  · simpa using hfresh
  · intro party hash hl
    rcases hl with ⟨c, hc, h1, h2, h3, h4, h5⟩ | ⟨e, he, h1, h2, h3, h4, h5⟩
    · rw [hclock] at h5
      rcases hcredentials c hc with hnext | ⟨hold, hne⟩
      · exact Or.inr (h3.symm.trans hnext)
      · exact Or.inl ⟨Or.inl ⟨c, hold, h1, h2, h3, h4, h5⟩, h3 ▸ hne⟩
    · rw [hclock] at h5
      obtain ⟨hold, hne⟩ := henrollments e he h4
      exact Or.inl ⟨Or.inr ⟨e, hold, h1, h2, h3, h4, h5⟩, h3 ▸ hne⟩

theorem RunnerAuthentication.credential_matches_iff {input : RunnerAuthentication} {now : Int}
    {c : RunnerCredential} : input.credential_matches now c = true ↔ c.runner_id = input.runner_id
      ∧ c.corp_id = input.corp_id ∧ c.token_hash = input.presented_token_hash
      ∧ c.revoked_at = none ∧ now < c.expires_at := by
  simp [credential_matches, and_assoc]

theorem RunnerAuthentication.enrollment_matches_iff {input : RunnerAuthentication} {now : Int}
    {e : RunnerEnrollmentToken} : input.enrollment_matches now e = true
      ↔ e.corp_id = input.corp_id ∧ e.runner_id = input.runner_id
        ∧ e.token_hash = input.presented_token_hash ∧ e.used_at = none ∧ now < e.expires_at := by
  simp [enrollment_matches, and_assoc]

/-- A fresh token is in no row. -/
theorem Roll.Sound.fresh_credential (hs : s.Sound) {token : String}
    (hfresh : .issued token ∉ s.log) :
    ∀ c ∈ s.runner_credentials, c.token_hash ≠ token := by
  rintro c hc rfl
  exact hfresh (hs.credentials_issued c hc)

theorem Roll.Sound.fresh_enrollment (hs : s.Sound) {token : String}
    (hfresh : .issued token ∉ s.log) :
    ∀ e ∈ s.runner_enrollment_tokens, e.token_hash ≠ token := by
  rintro e he rfl
  exact hfresh (hs.enrollments_issued e he)

/-- A credential is exchanged for the next one. -/
theorem Roll.Sound.rotated (hs : s.Sound) {input : RunnerAuthentication}
    (hfresh : .issued input.next_token_hash ∉ s.log) (hdb : OnlyEvents s.toDb t.toDb)
    (hnodes : t.runner_nodes = s.runner_nodes) (hclock : t.clock = s.clock)
    {c : RunnerCredential} (hc : c ∈ s.runner_credentials)
    (hfound : input.credential_matches s.clock c = true)
    (hcredentials : t.runner_credentials = updateWhere (fun d => d.id == c.id)
      (fun d => { d with token_hash := input.next_token_hash, expires_at := input.next_expires_at })
      s.runner_credentials)
    (henrollments : t.runner_enrollment_tokens = s.runner_enrollment_tokens) :
    Roll.Sound { t with log := s.log ++ [.presented (input.corp_id, input.runner_id)
      input.presented_token_hash, .issued input.next_token_hash] } := by
  obtain ⟨hrunner, hcorp, hhash, hrevoked, hexpires⟩ :=
    RunnerAuthentication.credential_matches_iff.mp hfound
  have honly : ∀ d ∈ s.runner_credentials, (d.id == c.id) = true → d = c := fun d hd hid =>
    hs.credentials_keyed.eq_of_mem hd hc (beq_iff_eq.mp hid)
  have hone : ∀ d ∈ s.runner_credentials, ∀ d' ∈ s.runner_credentials, (d.id == c.id) = true →
      (d'.id == c.id) = true → d = d' := fun d hd d' hd' h h' =>
    (honly d hd h).trans (honly d' hd' h').symm
  have hmem : ∀ d ∈ t.runner_credentials, d.token_hash = input.next_token_hash
      ∨ (d ∈ s.runner_credentials ∧ d.token_hash ≠ input.presented_token_hash) := by
    intro d hd
    rw [hcredentials] at hd
    obtain ⟨x, hx, rfl⟩ := mem_updateWhere.mp hd
    by_cases hid : (x.id == c.id) = true
    · rw [if_pos hid]
      exact Or.inl rfl
    · rw [if_neg hid]
      refine Or.inr ⟨hx, fun heq => hid ?_⟩
      rw [hs.credential_hashes.eq_of_mem hx hc (heq.trans hhash.symm)]
      exact beq_self_eq_true c.id
  refine ⟨hdb.inv hs.inv, ?_, ?_, ?_, ?_, ?_, ?_, ?_, ?_, ?_, ?_⟩
  · exact hnodes ▸ hs.nodes_keyed
  · exact henrollments ▸ hs.enrollments_keyed
  · exact henrollments ▸ hs.enrollment_hashes
  · exact hcredentials ▸ hs.credentials_keyed.updateWhere fun _ _ => rfl
  · exact hcredentials ▸ hs.credential_runners.updateWhere fun _ _ => rfl
  · exact hcredentials ▸ hs.credential_hashes.updateWhere_key hone fun _ _ _ d hd _ =>
      hs.fresh_credential hfresh d hd
  · intro e he d hd
    change e ∈ t.runner_enrollment_tokens at he
    rw [henrollments] at he
    rcases hmem d hd with hd | ⟨hd, -⟩
    · rw [hd]
      exact hs.fresh_enrollment hfresh e he
    · exact hs.hashes_apart e he d hd
  · intro e he
    change e ∈ t.runner_enrollment_tokens at he
    rw [henrollments] at he
    exact List.mem_append_left _ (hs.enrollments_issued e he)
  · intro d hd
    rcases hmem d hd with hd | ⟨hd, -⟩
    · rw [hd]
      exact List.mem_append_right _ (List.mem_cons_of_mem _ List.mem_cons_self)
    · exact List.mem_append_left _ (hs.credentials_issued d hd)
  · refine hs.exchange (Or.inl ⟨c, hc, hcorp, hrunner, hhash, hrevoked, hexpires⟩) hfresh hclock
      hmem ?_
    intro e he _
    rw [henrollments] at he
    exact ⟨he, hhash ▸ hs.hashes_apart e he c hc⟩

/-- An enrolment is consumed. -/
theorem Roll.Sound.consumed (hs : s.Sound) {input : RunnerAuthentication}
    (hfresh : .issued input.next_token_hash ∉ s.log) (hdb : OnlyEvents s.toDb t.toDb)
    (hnodes : t.runner_nodes = s.runner_nodes) (hclock : t.clock = s.clock)
    {e : RunnerEnrollmentToken} (he : e ∈ s.runner_enrollment_tokens)
    (hfound : input.enrollment_matches s.clock e = true)
    (hcredentials : t.runner_credentials
      = upsert_credential (input.credential
          (s.new_v4 (s.runner_credentials.map RunnerCredential.id)) e.created_by)
            s.runner_credentials)
    (henrollments : t.runner_enrollment_tokens
      = updateWhere (fun d => d.id == e.id && d.used_at.isNone)
        (fun d => { d with used_at := some s.clock }) s.runner_enrollment_tokens) :
    Roll.Sound { t with log := s.log ++ [.presented (input.corp_id, input.runner_id)
      input.presented_token_hash, .issued input.next_token_hash] } := by
  obtain ⟨hcorp, hrunner, hhash, hunused, hexpires⟩ :=
    RunnerAuthentication.enrollment_matches_iff.mp hfound
  have hmem : ∀ d ∈ t.runner_credentials, d.token_hash = input.next_token_hash
      ∨ (d ∈ s.runner_credentials ∧ d.token_hash ≠ input.presented_token_hash) := by
    intro d hd
    rw [hcredentials] at hd
    rcases mem_upsert_credential hd with rfl | ⟨hd, -⟩
    · exact Or.inl rfl
    · exact Or.inr ⟨hd, hhash ▸ (hs.hashes_apart e he d hd).symm⟩
  have hold : ∀ x ∈ t.runner_enrollment_tokens, ∃ y ∈ s.runner_enrollment_tokens,
      x.token_hash = y.token_hash := by
    intro x hx
    rw [henrollments] at hx
    obtain ⟨y, hy, rfl⟩ := mem_updateWhere.mp hx
    refine ⟨y, hy, ?_⟩
    split <;> rfl
  refine ⟨hdb.inv hs.inv, ?_, ?_, ?_, ?_, ?_, ?_, ?_, ?_, ?_, ?_⟩
  · exact hnodes ▸ hs.nodes_keyed
  · exact henrollments ▸ hs.enrollments_keyed.updateWhere fun _ _ => rfl
  · exact henrollments ▸ hs.enrollment_hashes.updateWhere fun _ _ => rfl
  · refine hcredentials ▸ keyed_upsert_credential hs.credentials_keyed hs.credential_runners ?_
    intro d hd _ hid
    exact s.new_v4_notMem _ (hid ▸ List.mem_map_of_mem (f := RunnerCredential.id) hd)
  · exact hcredentials ▸ keyed_upsert_credential hs.credential_runners hs.credential_runners
      fun _ _ hne => hne
  · exact hcredentials ▸ keyed_upsert_credential hs.credential_hashes hs.credential_runners
      fun d hd _ => hs.fresh_credential hfresh d hd
  · intro x hx d hd
    obtain ⟨y, hy, hxy⟩ := hold x hx
    rw [hxy]
    rcases hmem d hd with hd | ⟨hd, -⟩
    · rw [hd]
      exact hs.fresh_enrollment hfresh y hy
    · exact hs.hashes_apart y hy d hd
  · intro x hx
    obtain ⟨y, hy, hxy⟩ := hold x hx
    rw [hxy]
    exact List.mem_append_left _ (hs.enrollments_issued y hy)
  · intro d hd
    rcases hmem d hd with hd | ⟨hd, -⟩
    · rw [hd]
      exact List.mem_append_right _ (List.mem_cons_of_mem _ List.mem_cons_self)
    · exact List.mem_append_left _ (hs.credentials_issued d hd)
  · refine hs.exchange (Or.inr ⟨e, he, hcorp, hrunner, hhash, hunused, hexpires⟩) hfresh hclock
      hmem ?_
    -- An enrolment that is still unused is another one.
    intro x hx hxunused
    rw [henrollments] at hx
    obtain ⟨y, hy, rfl⟩ := mem_updateWhere.mp hx
    split at hxunused
    · cases hxunused
    · rename_i hother
      rw [if_neg hother]
      refine ⟨hy, fun heq => hother ?_⟩
      rw [hs.enrollment_hashes.eq_of_mem hy he (heq.trans hhash.symm), hunused]
      simp

theorem Roll.Sound.authenticated (hs : s.Sound) {input : RunnerAuthentication}
    (hfresh : .issued input.next_token_hash ∉ s.log)
    (h : authenticate_and_rotate_runner s.toFleet input = .ok t) :
    Roll.Sound { t with log := s.log ++ [.presented (input.corp_id, input.runner_id)
      input.presented_token_hash, .issued input.next_token_hash] } := by
  obtain ⟨hdb, hnodes, hclock, hcase⟩ := authenticate_and_rotate_runner_ok h
  cases hcase with
  | rotated c hc hfound hcredentials henrollments =>
    exact hs.rotated hfresh hdb hnodes hclock hc hfound hcredentials henrollments
  | enrolled e he hfound hcredentials henrollments =>
    exact hs.consumed hfresh hdb hnodes hclock he hfound hcredentials henrollments

/-- A revocation takes the credential; the enrolments are assumed to be settled. -/
theorem Roll.Sound.revoked (env : Env) (hs : s.Sound) {input : RunnerRevocation} {revoked : Bool}
    (hsettled : FleetOp.Settled s.toFleet (.revoke_runner input))
    (h : revoke_runner s.toFleet input = .ok (revoked, t)) :
    Roll.Sound { t with log := s.log ++ [.revoked (input.corp_id, input.runner_id)] } := by
  obtain ⟨hmanages, hcase⟩ := revoke_runner_ok h
  have henrolled := hsettled hmanages
  rcases hcase with ⟨rfl, hnone⟩ | hrevoked
  · refine ⟨hs.inv, hs.nodes_keyed, hs.enrollments_keyed, hs.enrollment_hashes,
      hs.credentials_keyed, hs.credential_runners, hs.credential_hashes, hs.hashes_apart, ?_, ?_,
        ?_⟩
    · exact fun e he => List.mem_append_left _ (hs.enrollments_issued e he)
    · exact fun c hc => List.mem_append_left _ (hs.credentials_issued c hc)
    · refine hs.guarded.revoke fun hash hl => ?_
      rcases hl with ⟨c, hc, h1, h2, -, h4, -⟩ | ⟨e, he, h1, h2, -, h4, h5⟩
      · refine hnone c hc ?_
        simp only [RunnerRevocation.revokes, h1, h2, h4, beq_self_eq_true, Option.isNone_none,
          Bool.and_self]
      · have := henrolled e he h1 h2 h4
        omega
  · have hcredentials := hrevoked.runner_credentials
    have henrollments := hrevoked.runner_enrollment_tokens
    have hmem : ∀ d ∈ t.runner_credentials, ∃ c ∈ s.runner_credentials,
        d.token_hash = c.token_hash ∧ (d.revoked_at = none → d = c ∧ ¬ input.revokes c = true) := by
      intro d hd
      rw [hcredentials] at hd
      obtain ⟨c, hc, rfl⟩ := mem_updateWhere.mp hd
      by_cases hrev : input.revokes c = true
      · rw [if_pos hrev]
        exact ⟨c, hc, rfl, fun h => by cases h⟩
      · rw [if_neg hrev]
        exact ⟨c, hc, rfl, fun _ => ⟨rfl, hrev⟩⟩
    refine ⟨hrevoked.swept.inv env hs.inv, ?_, ?_, ?_, ?_, ?_, ?_, ?_, ?_, ?_, ?_⟩
    · change Keyed _ t.runner_nodes
      rw [hrevoked.runner_nodes]
      exact hs.nodes_keyed.updateWhere fun _ _ => rfl
    · exact henrollments ▸ hs.enrollments_keyed
    · exact henrollments ▸ hs.enrollment_hashes
    · exact hcredentials ▸ hs.credentials_keyed.updateWhere fun _ _ => rfl
    · exact hcredentials ▸ hs.credential_runners.updateWhere fun _ _ => rfl
    · exact hcredentials ▸ hs.credential_hashes.updateWhere fun _ _ => rfl
    · intro e he d hd
      change e ∈ t.runner_enrollment_tokens at he
      rw [henrollments] at he
      obtain ⟨c, hc, hhash, -⟩ := hmem d hd
      rw [hhash]
      exact hs.hashes_apart e he c hc
    · intro e he
      change e ∈ t.runner_enrollment_tokens at he
      rw [henrollments] at he
      exact List.mem_append_left _ (hs.enrollments_issued e he)
    · intro d hd
      obtain ⟨c, hc, hhash, -⟩ := hmem d hd
      rw [hhash]
      exact List.mem_append_left _ (hs.credentials_issued c hc)
    · have hlive : ∀ party hash, t.Live party hash → s.Live party hash
          ∧ party ≠ (input.corp_id, input.runner_id) := by
        intro party hash hl
        rcases hl with ⟨d, hd, h1, h2, h3, h4, h5⟩ | ⟨e, he, h1, h2, h3, h4, h5⟩
        · obtain ⟨c, hc, -, hkept⟩ := hmem d hd
          obtain ⟨rfl, hrev⟩ := hkept h4
          rw [hrevoked.clock] at h5
          refine ⟨Or.inl ⟨d, hc, h1, h2, h3, h4, h5⟩, ?_⟩
          rintro rfl
          exact hrev (by simp [RunnerRevocation.revokes, h1, h2, h4])
        · rw [henrollments] at he
          rw [hrevoked.clock] at h5
          refine ⟨Or.inr ⟨e, he, h1, h2, h3, h4, h5⟩, ?_⟩
          rintro rfl
          have := henrolled e he h1 h2 h4
          omega
      exact (hs.guarded.mono fun party hash hl => (hlive party hash hl).1).revoke
        fun hash hl => (hlive _ hash hl).2 rfl

end Invariant

/-! ## Rows of other Corps -/

/-- The rows of the other Corps are the same rows. -/
structure Fleet.OthersKept (corp_id : Uuid) (s t : Fleet) : Prop where
  runner_nodes : SameWhere (fun n => n.corp_id != corp_id) s.runner_nodes t.runner_nodes
  runner_credentials : SameWhere (fun c => c.corp_id != corp_id) s.runner_credentials
    t.runner_credentials
  runs : SameWhere (fun r => r.corp_id != corp_id) s.runs t.runs

/-- One lost run is a run of its Corp. -/
theorem lose_run_tx_others {s t : Db} {row : LostRow} {reason : String} {corp_id : Uuid}
    (hkeyed : Keyed Run.id s.runs) (hrow : row.Live s) (hcorp : row.run.corp_id = corp_id)
    (h : lose_run_tx s row reason = .ok t) :
    SameWhere (fun r => r.corp_id != corp_id) s.runs t.runs ∧ Keyed Run.id t.runs
      ∧ ∀ r ∈ s.runs, r.id ≠ row.run.id → r ∈ t.runs := by
  obtain ⟨hstop, -, -, f, hruns⟩ := lose_run_tx_ok hrow.run_mem hrow.active hrow.task_id h
  obtain ⟨φ, hφ, hkept⟩ := hstop.runs
  have heq : ∀ r ∈ s.runs, φ r = if (r.id == row.run.id) = true then f r else r := by
    refine List.map_inj_left.mp ?_
    rw [← hφ, hruns]
    rfl
  have hother : ∀ r ∈ s.runs, r.id ≠ row.run.id → φ r = r := fun r hr hne => by
    rw [heq r hr, if_neg (by simpa using hne)]
  refine ⟨?_, hstop.runs.keyed hkeyed fun _ _ h => h.1.id, ?_⟩
  · refine SameWhere.of_updated (R := fun r r' => r'.corp_id = r.corp_id
      ∧ (r.id ≠ row.run.id → r' = r)) ⟨φ, hφ, fun r hr => ⟨(hkept r hr).1.corp_id, hother r hr⟩⟩ ?_
        ?_
    · intro r hr r' hR hp
      refine hR.2 fun hid => ?_
      have : r = row.run := hkeyed.eq_of_mem hr hrow.run_mem hid
      rw [this, hcorp] at hp
      simp at hp
    · intro r _ r' hR hp
      rw [hR.1]
      exact hp
  · intro r hr hne
    rw [hφ]
    exact List.mem_map.mpr ⟨r, hr, hother r hr hne⟩

/-- The loss of runs of one Corp leaves the runs of the others alone. -/
theorem foldlM_lose_row_others {now : Int} {reason : String} {corp_id : Uuid} {s t : Db}
    (rows : List LostRow) (hnodup : (rows.map fun row => row.run.id).Nodup)
    (hlive : ∀ row ∈ rows, row.Live s) (hcorp : ∀ row ∈ rows, row.run.corp_id = corp_id)
    (hkeyed : Keyed Run.id s.runs) (h : rows.foldlM (lose_row now reason) s = .ok t) :
    SameWhere (fun r => r.corp_id != corp_id) s.runs t.runs := by
  induction rows generalizing s with
  | nil =>
    simp only [List.foldlM_nil, pure_eq_ok] at h
    rw [h]
    exact SameWhere.refl
  | cons row rows ih =>
    rw [List.map_cons, List.nodup_cons] at hnodup
    have hcorp' := fun x hx => hcorp x (List.mem_cons_of_mem row hx)
    simp only [List.foldlM_cons, bind_eq_ok] at h
    obtain ⟨u, hu, h⟩ := h
    unfold lose_row at hu
    simp only [bind_eq_ok] at hu
    obtain ⟨ready, -, hu⟩ := hu
    split at hu
    · rw [pure_eq_ok] at hu
      subst hu
      exact ih hnodup.2 (fun x hx => hlive x (List.mem_cons_of_mem row hx)) hcorp' hkeyed h
    · have hrow := hlive row List.mem_cons_self
      obtain ⟨hsame, hkeyed', hrest⟩ :=
        lose_run_tx_others hkeyed hrow (hcorp row List.mem_cons_self) hu
      refine hsame.trans (ih hnodup.2 ?_ hcorp' hkeyed' h)
      intro x hx
      have hx' := hlive x (List.mem_cons_of_mem row hx)
      refine ⟨hrest x.run hx'.run_mem fun hid => hnodup.1 ?_, hx'.active, hx'.task_id⟩
      exact hid ▸ List.mem_map_of_mem (f := fun row : LostRow => row.run.id) hx

theorem mark_runner_runs_lost_tx_others {now : Int} {input : LostRunner} {corp_id : Uuid} {s t : Db}
    (hs : Life s) (hcorp : ∀ r ∈ lost_runs s input, r.corp_id = corp_id)
    (h : mark_runner_runs_lost_tx s now input = .ok t) :
    SameWhere (fun r => r.corp_id != corp_id) s.runs t.runs := by
  refine foldlM_lose_row_others (lost_rows s input) (lost_rows_nodup hs input)
    (lost_rows_live hs input) ?_ hs.runs_keyed h
  intro row hrow
  obtain ⟨r, hr, hmap⟩ := List.mem_filterMap.mp hrow
  obtain ⟨⟨run, task, mission⟩, hjoin, rfl⟩ := Option.map_eq_some_iff.mp hmap
  have hj := Db.run_task_mission_eq_some hjoin
  exact hj.corp_id.trans (hcorp r hr)

theorem Swept.others {s t : Fleet} {input : LostRunner} {corp_id : Uuid} (h : Swept s t input)
    (hs : Inv s.toDb) (hcorp : ∀ r ∈ lost_runs s.toDb input, r.corp_id = corp_id) :
    SameWhere (fun r => r.corp_id != corp_id) s.runs t.runs := by
  obtain ⟨db, hdb, hevents⟩ := h
  rw [hevents.runs]
  exact mark_runner_runs_lost_tx_others hs.life hcorp hdb

/-- The Corp an authentication, a connection or a loss is performed for. -/
def FleetOp.performed_for (s : Fleet) : FleetOp → Option Uuid
  | .authenticate_and_rotate_runner input => some input.corp_id
  | .revoke_runner input => some input.corp_id
  | .runner_connected input => some input.corp_id
  | .expire_runner_grace runner_id _ =>
    (s.runner_nodes.find? fun n => n.id == runner_id).map RunnerNode.corp_id
  | .mark_unclaimed_runner_runs_lost runner_id _ _ =>
    (s.runner_nodes.find? fun n => n.id == runner_id).map RunnerNode.corp_id
  | _ => none

/-- The row a call writes under a runner identifier, and the runs it loses under it, are those
of its own Corp. -/
def FleetOp.Bound (s : Fleet) : FleetOp → Prop
  | .authenticate_and_rotate_runner input =>
    (∃ e ∈ s.runner_enrollment_tokens, input.enrollment_matches s.clock e = true) →
      ∀ c ∈ s.runner_credentials, c.runner_id = input.runner_id → c.corp_id = input.corp_id
  | .revoke_runner input =>
    (∃ c ∈ s.runner_credentials, input.revokes c = true) →
      ∀ r ∈ lost_runs s.toDb input.loss, r.corp_id = input.corp_id
  | .runner_connected input => ∀ n ∈ s.runner_nodes, n.id = input.id → n.corp_id = input.corp_id
  | .expire_runner_grace runner_id connection_epoch =>
    ∀ n ∈ s.runner_nodes, n.grace_over s.clock runner_id connection_epoch = true →
      ∀ r ∈ lost_runs s.toDb (grace_loss runner_id), r.corp_id = n.corp_id
  | .mark_unclaimed_runner_runs_lost runner_id connection_epoch accepted_claims =>
    ∀ n ∈ s.runner_nodes, n.is runner_id connection_epoch .connected = true →
      ∀ r ∈ lost_runs s.toDb (unclaimed_loss runner_id accepted_claims n.connected_at),
        r.corp_id = n.corp_id
  | _ => True

section Others

variable {env : Env} {s : Roll} {t : Fleet} {corp_id : Uuid}

theorem RunnerNode.id_of_is {n : RunnerNode} {runner_id : String} {connection_epoch : Uuid}
    {status : RunnerNodeStatus} (h : n.is runner_id connection_epoch status = true) :
    n.id = runner_id := by
  simp only [RunnerNode.is, Bool.and_eq_true, beq_iff_eq] at h
  exact h.1.1

theorem RunnerNode.id_of_grace_over {n : RunnerNode} {now : Int} {runner_id : String}
    {connection_epoch : Uuid} (h : n.grace_over now runner_id connection_epoch = true) :
    n.id = runner_id := by
  simp only [RunnerNode.grace_over, Bool.and_eq_true] at h
  exact RunnerNode.id_of_is h.1

/-- A runner identifier has one node, and it tells the Corp. -/
theorem Roll.Sound.node_corp (hs : s.Sound) {runner_id : String} {n : RunnerNode}
    (hn : n ∈ s.runner_nodes) (hid : n.id = runner_id)
    (hcorp : (s.runner_nodes.find? fun n => n.id == runner_id).map RunnerNode.corp_id
    = some corp_id) :
    n.corp_id = corp_id := by
  subst hid
  rw [hs.nodes_keyed.find?_eq_some hn] at hcorp
  exact Option.some.inj hcorp

theorem authenticate_others (hs : s.Sound) {input : RunnerAuthentication}
    (hbound : FleetOp.Bound s.toFleet (.authenticate_and_rotate_runner input))
    (h : authenticate_and_rotate_runner s.toFleet input = .ok t) :
    s.OthersKept input.corp_id t := by
  obtain ⟨hdb, hnodes, -, hcase⟩ := authenticate_and_rotate_runner_ok h
  refine ⟨hnodes ▸ SameWhere.refl, ?_, hdb.runs ▸ SameWhere.refl⟩
  cases hcase with
  | rotated c hc hfound hcredentials =>
    obtain ⟨-, hcorp, -⟩ := RunnerAuthentication.credential_matches_iff.mp hfound
    rw [hcredentials]
    refine SameWhere.of_updateWhere fun d hd hid => ?_
    have hdc : d = c := hs.credentials_keyed.eq_of_mem hd hc (beq_iff_eq.mp hid)
    subst hdc
    simp [hcorp]
  | enrolled e he hfound hcredentials =>
    have hown := hbound ⟨e, he, hfound⟩
    rw [hcredentials]
    unfold upsert_credential
    split
    · refine SameWhere.of_updateWhere fun d hd hid => ?_
      have hcorp := hown d hd (beq_iff_eq.mp hid)
      simp [hcorp, RunnerAuthentication.credential]
    · exact SameWhere.append_singleton (by simp [RunnerAuthentication.credential])

theorem revoke_runner_others (hs : s.Sound) {input : RunnerRevocation} {revoked : Bool}
    (hbound : FleetOp.Bound s.toFleet (.revoke_runner input))
    (h : revoke_runner s.toFleet input = .ok (revoked, t)) : s.OthersKept input.corp_id t := by
  rcases (revoke_runner_ok h).2 with ⟨rfl, -⟩ | hrevoked
  · exact ⟨SameWhere.refl, SameWhere.refl, SameWhere.refl⟩
  · refine ⟨?_, ?_, hrevoked.swept.others hs.inv (hbound hrevoked.found)⟩
    · rw [hrevoked.runner_nodes]
      refine SameWhere.of_updateWhere fun n _ hp => ?_
      simp only [Bool.and_eq_true, beq_iff_eq] at hp
      simp [hp.2]
    · rw [hrevoked.runner_credentials]
      refine SameWhere.of_updateWhere fun c _ hp => ?_
      simp only [RunnerRevocation.revokes, Bool.and_eq_true, beq_iff_eq] at hp
      simp [hp.1.2]

theorem runner_connected_others {s : Fleet} {input : RunnerConnectInput}
    (hbound : FleetOp.Bound s (.runner_connected input)) :
    s.OthersKept input.corp_id (runner_connected s input) := by
  refine ⟨?_, SameWhere.refl, SameWhere.refl⟩
  change SameWhere _ s.runner_nodes (if _ then _ else _)
  split
  · refine SameWhere.of_updateWhere fun n hn hid => ?_
    have hcorp := hbound n hn (beq_iff_eq.mp hid)
    simp [hcorp, RunnerConnectInput.node]
  · exact SameWhere.append_singleton (by simp [RunnerConnectInput.node])

/-- **Step lemma.** A bound call leaves the rows of the other Corps alone. -/
theorem FleetOp.Bound.others {op : FleetOp} (hbound : op.Bound s.toFleet) (hs : s.Sound)
    (hcorp : op.performed_for s.toFleet = some corp_id) (h : s.toFleet.exec env op = .ok t) :
    s.OthersKept corp_id t := by
  cases op with
  | authenticate_and_rotate_runner input =>
    rw [← Option.some.inj hcorp]
    exact authenticate_others hs hbound h
  | revoke_runner input =>
    rw [← Option.some.inj hcorp]
    obtain ⟨⟨revoked, u⟩, hu, rfl⟩ := map_eq_ok.mp h
    exact revoke_runner_others hs hbound hu
  | runner_connected input =>
    rw [← Option.some.inj hcorp, ← Except.ok.inj h]
    exact runner_connected_others hbound
  | expire_runner_grace runner_id connection_epoch =>
    rcases expire_runner_grace_ok h with rfl | ⟨⟨n, hn, hover⟩, hswept, hsame, hnodes⟩
    · exact ⟨SameWhere.refl, SameWhere.refl, SameWhere.refl⟩
    · have hown := hs.node_corp hn (RunnerNode.id_of_grace_over hover) hcorp
      refine ⟨?_, hsame.runner_credentials ▸ SameWhere.refl,
        hswept.others hs.inv (hown ▸ hbound n hn hover)⟩
      rw [hnodes]
      refine SameWhere.of_updateWhere fun m hm hp => ?_
      have hcorp' := hs.node_corp hm (RunnerNode.id_of_grace_over hp) hcorp
      simp [hcorp']
  | mark_unclaimed_runner_runs_lost runner_id connection_epoch accepted_claims =>
    rcases mark_unclaimed_runner_runs_lost_ok h with
      rfl | ⟨⟨n, hn, hconnected, hswept⟩, hsame, hnodes⟩
    · exact ⟨SameWhere.refl, SameWhere.refl, SameWhere.refl⟩
    · have hown := hs.node_corp hn (RunnerNode.id_of_is hconnected) hcorp
      exact ⟨hnodes ▸ SameWhere.refl, hsame.runner_credentials ▸ SameWhere.refl,
        hswept.others hs.inv (hown ▸ hbound n hn hconnected)⟩
  | _ => cases hcorp

end Others

/-! ## Runs -/

theorem Roll.Initial.sound {s : Roll} (hs : s.Initial) : s.Sound where
  inv := hs.db.inv
  nodes_keyed := by simp [hs.runner_nodes, Keyed]
  enrollments_keyed := by simp [hs.runner_enrollment_tokens, Keyed]
  enrollment_hashes := by simp [hs.runner_enrollment_tokens, Keyed]
  credentials_keyed := by simp [hs.runner_credentials, Keyed]
  credential_runners := by simp [hs.runner_credentials, Keyed]
  credential_hashes := by simp [hs.runner_credentials, Keyed]
  hashes_apart := by simp [hs.runner_enrollment_tokens]
  enrollments_issued := by simp [hs.runner_enrollment_tokens]
  credentials_issued := by simp [hs.runner_credentials]
  guarded := by
    rw [hs.log]
    refine TokenEntry.Guarded.nil fun party hash hl => ?_
    simp [Fleet.Live, hs.runner_credentials, hs.runner_enrollment_tokens] at hl

/-- The nodes after a connection are still keyed. -/
theorem runner_connected_keyed {s : Fleet} {input : RunnerConnectInput}
    (h : Keyed RunnerNode.id s.runner_nodes) :
    Keyed RunnerNode.id (runner_connected s input).runner_nodes := by
  change Keyed _ (if _ then _ else _)
  split
  · exact h.updateWhere fun n hid => (beq_iff_eq.mp hid).symm
  · rename_i hnone
    refine h.append_singleton fun n hn heq => hnone ?_
    exact List.any_eq_true.mpr ⟨n, hn, beq_iff_eq.mpr heq⟩

/-- **Step lemma.** A call with fresh tokens that leaves no enrolment outstanding where it
revokes keeps the invariant. -/
theorem Roll.Sound.exec {env : Env} {s t : Roll} {op : FleetOp} (hs : s.Sound)
    (hfresh : op.Fresh s) (hsettled : op.Settled s.toFleet) (h : s.exec env op = .ok t) :
    t.Sound := by
  simp only [Roll.exec, bind_eq_ok, pure_eq_ok] at h
  obtain ⟨u, hu, rfl⟩ := h
  have hnil : ∀ {u : Fleet}, Roll.Sound { u with log := s.log }
      → Roll.Sound { u with log := s.log ++ [] } := fun hsound => by
    rwa [List.append_nil]
  cases op with
  | create_runner_enrollment input => exact hs.enrolled hfresh hu
  | authenticate_and_rotate_runner input => exact hs.authenticated hfresh hu
  | revoke_runner input =>
    obtain ⟨⟨revoked, v⟩, hv, rfl⟩ := map_eq_ok.mp hu
    exact hs.revoked env hsettled hv
  | lifecycle op =>
    simp only [Fleet.exec, bind_eq_ok, ensure_eq_ok] at hu
    obtain ⟨-, -, hu⟩ := hu
    obtain ⟨db, hdb, rfl⟩ := map_eq_ok.mp hu
    exact hnil (hs.of_same ⟨rfl, rfl, Int.le_refl _⟩ (exec_inv hs.inv hdb) hs.nodes_keyed)
  | pass seconds =>
    rw [← Except.ok.inj hu]
    exact hnil (hs.of_same ⟨rfl, rfl, Int.le_add_of_nonneg_right (Int.natCast_nonneg _)⟩ hs.inv
      hs.nodes_keyed)
  | runner_connected input =>
    rw [← Except.ok.inj hu]
    exact hnil (hs.of_same ⟨rfl, rfl, Int.le_refl _⟩ hs.inv (runner_connected_keyed hs.nodes_keyed))
  | runner_heartbeat runner_id connection_epoch =>
    rw [← Except.ok.inj hu]
    exact hnil (hs.of_same ⟨rfl, rfl, Int.le_refl _⟩ hs.inv
      (hs.nodes_keyed.updateWhere fun _ _ => rfl))
  | runner_disconnected runner_id connection_epoch grace_seconds =>
    obtain ⟨hdb, hsame, hnodes⟩ := runner_disconnected_ok hu
    exact hnil (hs.of_same hsame (hdb.inv hs.inv) (hnodes.keyed hs.nodes_keyed fun _ _ h => h.1))
  | expire_runner_grace runner_id connection_epoch =>
    rcases expire_runner_grace_ok hu with rfl | ⟨-, hswept, hsame, hnodes⟩
    · exact hnil (hs.of_same ⟨rfl, rfl, Int.le_refl _⟩ hs.inv hs.nodes_keyed)
    · refine hnil (hs.of_same hsame (hswept.inv env hs.inv) ?_)
      rw [hnodes]
      exact hs.nodes_keyed.updateWhere fun _ _ => rfl
  | reconcile_runner_claims runner_id connection_epoch claims =>
    obtain ⟨outcome, houtcome, rfl⟩ := map_eq_ok.mp hu
    obtain ⟨hdb, hsame, hnodes⟩ := reconcile_runner_claims_ok houtcome
    exact hnil (hs.of_same hsame (hdb.inv hs.inv) (hnodes ▸ hs.nodes_keyed))
  | mark_unclaimed_runner_runs_lost runner_id connection_epoch accepted_claims =>
    rcases mark_unclaimed_runner_runs_lost_ok hu with rfl | ⟨⟨n, -, -, hswept⟩, hsame, hnodes⟩
    · exact hnil (hs.of_same ⟨rfl, rfl, Int.le_refl _⟩ hs.inv hs.nodes_keyed)
    · exact hnil (hs.of_same hsame (hswept.inv env hs.inv) (hnodes ▸ hs.nodes_keyed))

/-- **The runner credential protocol.** In every run with fresh tokens whose revocations leave
no enrolment of the runner outstanding, no token authenticates twice and no token issued
before a revocation authenticates the runner after it; and a call that is bound to its Corp
leaves the runner rows and the runs of the other Corps alone. -/
theorem runner_credentials_confined {env : Env} {s : Roll}
    (h : (runners env).ReachableVia (fun s op => op.Fresh s ∧ op.Settled s.toFleet) s) :
    TokenEntry.Once s.log ∧ TokenEntry.Fenced s.log
      ∧ ∀ op : FleetOp, op.Bound s.toFleet → ∀ corp_id,
        op.performed_for s.toFleet = some corp_id →
          s.OthersKept corp_id ((runners env).step s op).toFleet := by
  have hsound : s.Sound := TransitionSystem.ReachableVia.invariant_of_exec h
    (fun _ h0 => h0.sound) fun _ _ _ hs hok hexec => hs.exec hok.1 hok.2 hexec
  refine ⟨hsound.guarded.once, hsound.guarded.fenced, fun op hbound corp_id hcorp => ?_⟩
  refine TransitionSystem.ofExec_step_cases (P := fun t : Roll => s.OthersKept corp_id t.toFleet)
    ⟨SameWhere.refl, SameWhere.refl, SameWhere.refl⟩ fun t ht => ?_
  simp only [Roll.exec, bind_eq_ok, pure_eq_ok] at ht
  obtain ⟨u, hu, rfl⟩ := ht
  exact hbound.others hsound hcorp hu

instance (s : Roll) (op : FleetOp) : Decidable (op.Fresh s) :=
  match op with
  | .create_runner_enrollment input =>
      inferInstanceAs (Decidable (.issued input.token_hash ∉ s.log))
  | .authenticate_and_rotate_runner input =>
    inferInstanceAs (Decidable (.issued input.next_token_hash ∉ s.log))
  | .lifecycle _ | .pass _ | .revoke_runner _ | .runner_connected _ | .runner_heartbeat ..
  | .runner_disconnected .. | .expire_runner_grace .. | .reconcile_runner_claims ..
  | .mark_unclaimed_runner_runs_lost .. => .isTrue trivial

instance (s : Fleet) (op : FleetOp) : Decidable (op.Settled s) :=
  match op with
  | .revoke_runner input =>
    inferInstanceAs (Decidable (s.manages_runners input.corp_id input.actor_id →
      ∀ e ∈ s.runner_enrollment_tokens, e.corp_id = input.corp_id → e.runner_id = input.runner_id →
        e.used_at = none → e.expires_at ≤ s.clock))
  | .lifecycle _ | .pass _ | .create_runner_enrollment _ | .authenticate_and_rotate_runner _
  | .runner_connected _ | .runner_heartbeat .. | .runner_disconnected .. | .expire_runner_grace ..
  | .reconcile_runner_claims .. | .mark_unclaimed_runner_runs_lost .. => .isTrue trivial

namespace Dock

/-- The small corp, and the owner of a second one. -/
def db : Db :=
  { Office.db with
    actors := Office.db.actors ++ [{ id := 5, corp_id := 2, kind := .human, role := "owner" }] }

def roll : Roll := { toDb := db }

theorem initial : roll.Initial where
  db := { Office.initial with }
  runner_enrollment_tokens := rfl
  runner_credentials := rfl
  runner_nodes := rfl
  log := rfl

/-- An owner enrols the runner with a token of one hour. -/
def enroll (corp_id actor_id : Uuid) (token : String) : FleetOp :=
  .create_runner_enrollment
    { corp_id, actor_id, runner_id := "runner", token_hash := token, expires_at := 3600 }

/-- The runner registers with a token and is given the next one. -/
def register (corp_id : Uuid) (token next : String) (nonce : Uuid) : FleetOp :=
  .authenticate_and_rotate_runner
    { corp_id, runner_id := "runner", presented_token_hash := token, next_token_hash := next
      next_expires_at := 7200, nonce }

def revoke (corp_id actor_id : Uuid) : FleetOp :=
  .revoke_runner { corp_id, actor_id, runner_id := "runner", reason := "lost laptop" }

/-- The runner connects for a Corp. -/
def connect (corp_id : Uuid) : FleetOp :=
  .runner_connected
    { id := "runner", corp_id, hostname := "host", os := "linux", capabilities := "[]"
      connection_epoch := 7 }

def after (calls : List FleetOp) : Roll := (runners Office.digest).run roll calls

/-- A runner is revoked and enrolled again. -/
def renewed : List FleetOp :=
  [enroll 1 1 "first", register 1 "first" "second" 1, connect 1, revoke 1 1, enroll 1 1 "third",
    register 1 "third" "fourth" 2]

/-- Two enrolments were issued before the revocation. -/
def returned : List FleetOp :=
  [enroll 1 1 "first", enroll 1 1 "second", register 1 "first" "third" 1, revoke 1 1,
    register 1 "second" "fourth" 2]

/-- A runner of the second Corp has the identifier of one that executes a run of the first. -/
def shared : List FleetOp :=
  [enroll 2 5 "first", register 2 "first" "second" 1,
    .lifecycle (Office.create_mission (Office.plan [Office.task "a" [] Office.file_policy])),
    .lifecycle (Office.dispatch 1 50)]

end Dock

set_option maxRecDepth 20000 in
theorem runner_credentials_confined_renewed :
    (Dock.after Dock.renewed).log.length = 7
      ∧ TokenEntry.Once (Dock.after Dock.renewed).log
      ∧ TokenEntry.Fenced (Dock.after Dock.renewed).log
      ∧ (Dock.after Dock.renewed).OthersKept 1
        ((runners Office.digest).step (Dock.after Dock.renewed) (Dock.connect 1)).toFleet := by
  have hrun : (runners Office.digest).ReachableVia (fun s op => op.Fresh s ∧ op.Settled s.toFleet)
      (Dock.after Dock.renewed) :=
    TransitionSystem.ReachableVia.run Dock.initial (by decide +kernel)
  obtain ⟨honce, hfenced, hothers⟩ := runner_credentials_confined hrun
  have hbound : FleetOp.Bound (Dock.after Dock.renewed).toFleet (Dock.connect 1) := by
    change ∀ n ∈ (Dock.after Dock.renewed).runner_nodes, n.id = "runner" → n.corp_id = 1
    decide +kernel
  exact ⟨by decide +kernel, honce, hfenced, hothers _ hbound 1 rfl⟩

set_option maxRecDepth 20000 in
/-- An enrolment issued before the revocation brings the runner back; and the revocation of a
runner of one Corp loses the run of another. -/
theorem revoked_runner_returns :
    ((runners Office.digest).ReachableVia (fun s op => op.Fresh s) (Dock.after Dock.returned)
        ∧ ¬ TokenEntry.Fenced (Dock.after Dock.returned).log)
      ∧ (runners Office.digest).ReachableVia (fun s op => op.Fresh s) (Dock.after Dock.shared)
      ∧ FleetOp.performed_for (Dock.after Dock.shared).toFleet (Dock.revoke 2 5) = some 2
      ∧ ¬ (Dock.after Dock.shared).OthersKept 2
        ((runners Office.digest).step (Dock.after Dock.shared) (Dock.revoke 2 5)).toFleet := by
  refine ⟨⟨TransitionSystem.ReachableVia.run Dock.initial (by decide +kernel), ?_⟩,
    TransitionSystem.ReachableVia.run Dock.initial (by decide +kernel), rfl, ?_⟩
  · intro hfenced
    refine hfenced [.issued "first", .issued "second", .presented (1, "runner") "first",
        .issued "third"] (1, "runner") [.presented (1, "runner") "second", .issued "fourth"] ?_
      "second" (by decide) List.mem_cons_self
    decide +kernel
  · rintro ⟨-, -, hruns⟩
    have hstatus := congrArg (List.map Run.status) hruns
    revert hstatus
    decide +kernel

end Crony.Store
