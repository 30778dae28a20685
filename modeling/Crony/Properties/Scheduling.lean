/-
No Corp and no runner starves.

The ready Corps in their order are a fixed list while the connections are, and so are the
peers of each Corp. A tick takes the next hundred Corps round that list and moves the cursor
behind the last of them; a visit of a Corp takes its next peer and moves that Corp's cursor
behind it. Neither depends on what the callback returns. A cursor that names a Corp or a
runner that is gone is the cursor of some position all the same, so the starting cursor does
not matter.
-/
import Crony.Server.Scheduling
import Mathlib.Data.List.Dedup

set_option autoImplicit false

open Crony.Lib

namespace Crony.Server

variable (runners : Runners)

/-! ## The ready Corps and their peers -/

/-- The ready connections of a Corp. -/
def ready_runners (corp_id : Uuid) : List String :=
  (runners.connections.filter fun c => c.dispatch_ready && c.corp_id == corp_id).map
    RunnerConnection.runner_id

/-- The Corps with a ready connection. -/
def ready_corps : List Uuid :=
  ((runners.connections.filter RunnerConnection.dispatch_ready).map RunnerConnection.corp_id).dedup

/-- The peers of a Corp in their order. -/
def peers (corp_id : Uuid) : List ReadyCorpSchedule :=
  (ready_scopes runners).filter fun scope => scope.corp_id == corp_id

/-- The ready Corps in the order the rotation has. -/
def corps : List Uuid := (ready_peers runners).filterMap fun peers => peers.head?.map (·.corp_id)

variable {runners}

theorem mem_ready_scopes {scope : ReadyCorpSchedule} :
    scope ∈ ready_scopes runners ↔
      ∃ c ∈ runners.connections, c.dispatch_ready = true ∧ c.schedule = scope := by
  rw [ready_scopes, mem_sort_by_key, List.mem_map]
  constructor
  · rintro ⟨c, hc, rfl⟩
    obtain ⟨hmem, hready⟩ := List.mem_filter.mp hc
    exact ⟨c, hmem, hready, rfl⟩
  · rintro ⟨c, hmem, hready, rfl⟩
    exact ⟨c, List.mem_filter.mpr ⟨hmem, hready⟩, rfl⟩

/-- A ready scope is current as long as its connection is. -/
theorem is_current_of_mem {scope : ReadyCorpSchedule} (h : scope ∈ ready_scopes runners) :
    scope.is_current runners = true := by
  obtain ⟨c, hmem, hready, rfl⟩ := mem_ready_scopes.mp h
  have hfind : runners.connections.find? (fun d => d.runner_id == c.runner_id) = some c :=
    runners.keyed.find?_eq_some hmem
  unfold ReadyCorpSchedule.is_current
  rw [show c.schedule.runner_id = c.runner_id from rfl, hfind, Option.any_some]
  simp only [RunnerConnection.schedule, beq_self_eq_true, hready, Bool.and_self]

/-- The scopes are sorted by Corp, and by runner within a Corp, without repetition. -/
theorem ready_scopes_pairwise : (ready_scopes runners).Pairwise fun a b =>
    a.corp_id ≤ b.corp_id ∧ (a.corp_id = b.corp_id → a.runner_id < b.runner_id) := by
  have hsorted := sort_by_key_pairwise (fun scope : ReadyCorpSchedule =>
    toLex (scope.corp_id, scope.runner_id))
    ((runners.connections.filter RunnerConnection.dispatch_ready).map RunnerConnection.schedule)
  have hnodup : ((ready_scopes runners).map (·.runner_id)).Nodup := by
    have hperm : (ready_scopes runners).Perm
        ((runners.connections.filter RunnerConnection.dispatch_ready).map
          RunnerConnection.schedule) :=
      sort_by_key_perm _ _
    rw [(hperm.map _).nodup_iff, List.map_map]
    exact runners.keyed.sublist ((List.filter_sublist).map _)
  have hne : (ready_scopes runners).Pairwise fun a b => a.runner_id ≠ b.runner_id :=
    List.pairwise_map.mp hnodup
  refine (hsorted.and hne).imp ?_
  rintro a b ⟨hle, hne⟩
  rcases Prod.Lex.le_iff.mp hle with hlt | ⟨heq, hrunner⟩
  · exact ⟨le_of_lt hlt, fun h => absurd h (ne_of_lt hlt)⟩
  · exact ⟨le_of_eq heq, fun _ => lt_of_le_of_ne hrunner hne⟩

theorem ready_scopes_sorted :
    (ready_scopes runners).Pairwise fun a b => a.corp_id ≤ b.corp_id :=
  ready_scopes_pairwise.imp fun h => h.1

/-- The peers of a Corp are strictly sorted by runner. -/
theorem peers_pairwise (corp_id : Uuid) :
    ((peers runners corp_id).map (·.runner_id)).Pairwise (· < ·) := by
  refine List.pairwise_map.mpr ?_
  have hsub : (peers runners corp_id).Sublist (ready_scopes runners) := List.filter_sublist
  refine (ready_scopes_pairwise.sublist hsub).imp_of_mem ?_
  intro a b ha hb h
  have hcorp : a.corp_id = b.corp_id :=
    (beq_iff_eq.mp (List.mem_filter.mp ha).2).trans (beq_iff_eq.mp (List.mem_filter.mp hb).2).symm
  exact h.2 hcorp

/-- The peers of a Corp are its ready runners. -/
theorem peers_perm (runners : Runners) (corp_id : Uuid) :
    ((peers runners corp_id).map (·.runner_id)).Perm (ready_runners runners corp_id) := by
  have hperm : (ready_scopes runners).Perm
      ((runners.connections.filter RunnerConnection.dispatch_ready).map
        RunnerConnection.schedule) :=
    sort_by_key_perm _ _
  have hpeers := ((hperm.filter fun scope => scope.corp_id == corp_id).map (·.runner_id))
  refine hpeers.trans (List.Perm.of_eq ?_)
  rw [List.filter_map, List.map_map, List.filter_filter, ready_runners]
  have hcomm : (fun c : RunnerConnection => c.dispatch_ready && c.corp_id == corp_id)
      = fun c => ((fun scope : ReadyCorpSchedule => scope.corp_id == corp_id) ∘
          RunnerConnection.schedule) c && c.dispatch_ready := by
    funext c
    exact Bool.and_comm _ _
  rw [hcomm]
  rfl

/-- A chunk is the list of the peers of its Corp. -/
theorem ready_peers_eq {chunk : List ReadyCorpSchedule} (h : chunk ∈ ready_peers runners)
    {scope : ReadyCorpSchedule} (hscope : scope ∈ chunk) : peers runners scope.corp_id = chunk :=
  chunk_by_eq_filter ready_scopes_sorted h hscope

/-- The members of a chunk are of one Corp. -/
theorem ready_peers_corp {chunk : List ReadyCorpSchedule} (h : chunk ∈ ready_peers runners)
    {a b : ReadyCorpSchedule} (ha : a ∈ chunk) (hb : b ∈ chunk) : a.corp_id = b.corp_id :=
  chunk_by_key h ha hb

theorem ready_peers_ne_nil {chunk : List ReadyCorpSchedule} (h : chunk ∈ ready_peers runners) :
    chunk ≠ [] := chunk_by_ne_nil h

/-- The Corps of the rotation are strictly sorted. -/
theorem corps_pairwise : (corps runners).Pairwise (· < ·) := by
  refine List.Pairwise.filterMap _ ?_ (chunk_by_pairwise ready_scopes_sorted)
  intro c d h a ha b hb
  obtain ⟨x, hx, rfl⟩ := Option.map_eq_some_iff.mp ha
  obtain ⟨y, hy, rfl⟩ := Option.map_eq_some_iff.mp hb
  exact h x (List.mem_of_mem_head? hx) y (List.mem_of_mem_head? hy)

theorem mem_corps {corp_id : Uuid} :
    corp_id ∈ corps runners ↔ ∃ scope ∈ ready_scopes runners, scope.corp_id = corp_id := by
  unfold corps
  rw [List.mem_filterMap]
  constructor
  · rintro ⟨chunk, hchunk, hhead⟩
    obtain ⟨scope, hscope, rfl⟩ := Option.map_eq_some_iff.mp hhead
    refine ⟨scope, ?_, rfl⟩
    rw [← chunk_by_flatten (fun a b => a.corp_id == b.corp_id) (ready_scopes runners)]
    exact List.mem_flatten.mpr ⟨chunk, hchunk, List.mem_of_mem_head? hscope⟩
  · rintro ⟨scope, hscope, rfl⟩
    rw [← chunk_by_flatten (fun a b => a.corp_id == b.corp_id) (ready_scopes runners)] at hscope
    obtain ⟨chunk, hchunk, hscope⟩ := List.mem_flatten.mp hscope
    refine ⟨chunk, hchunk, ?_⟩
    cases chunk with
    | nil => exact absurd hscope List.not_mem_nil
    | cons first rest =>
      exact congrArg some (ready_peers_corp hchunk List.mem_cons_self hscope)

/-- There are as many Corps in the rotation as Corps with a ready connection. -/
theorem corps_perm (runners : Runners) : (corps runners).Perm (ready_corps runners) := by
  refine (List.perm_ext_iff_of_nodup (corps_pairwise.imp ne_of_lt) (List.nodup_dedup _)).mpr ?_
  intro corp_id
  rw [mem_corps, List.mem_dedup, List.mem_map]
  constructor
  · rintro ⟨scope, hscope, rfl⟩
    obtain ⟨c, hmem, hready, rfl⟩ := mem_ready_scopes.mp hscope
    exact ⟨c, List.mem_filter.mpr ⟨hmem, hready⟩, rfl⟩
  · rintro ⟨c, hc, rfl⟩
    obtain ⟨hmem, hready⟩ := List.mem_filter.mp hc
    exact ⟨c.schedule, mem_ready_scopes.mpr ⟨c, hmem, hready, rfl⟩, rfl⟩

/-! ## The representatives of a tick -/

/-- The turn of a Corp's peers, given the cursor. -/
def turn (runners : Runners) (cursor : CorpScheduleCursor) (corp_id : Uuid) : Nat :=
  next_peer (cursor.after_runner corp_id) (peers runners corp_id)

theorem next_peer_lt {last : Option String} {l : List ReadyCorpSchedule} (h : l ≠ []) :
    next_peer last l < l.length := by
  have hpos : 0 < l.length := List.length_pos_of_ne_nil h
  cases last with
  | none => exact hpos
  | some last => exact Nat.mod_lt _ hpos

/-- Behind the peer at a position the turn is the next one's. -/
theorem next_peer_after {l : List ReadyCorpSchedule} (hl : (l.map (·.runner_id)).Pairwise (· < ·))
    {i : Nat} {scope : ReadyCorpSchedule} (h : l[i]? = some scope) :
    next_peer (some scope.runner_id) l = (i + 1) % l.length := by
  obtain ⟨hi, hget⟩ := List.getElem?_eq_some_iff.mp h
  have hi' : i < (l.map (·.runner_id)).length := by rwa [List.length_map]
  have hkey : (l.map (·.runner_id))[i] = scope.runner_id := by rw [List.getElem_map, hget]
  have hpoint := partition_point_getElem hl hi'
  rw [hkey, ← partition_point_map] at hpoint
  unfold next_peer
  dsimp only
  rw [hpoint]

/-- Each chunk has its representative: the peer whose turn it is. -/
theorem representative_eq (cursor : CorpScheduleCursor) {chunk : List ReadyCorpSchedule}
    (h : chunk ∈ ready_peers runners) :
    ∃ scope ∈ chunk, representative cursor chunk = some scope
      ∧ chunk.head?.map (·.corp_id) = some scope.corp_id
      ∧ (peers runners scope.corp_id)[turn runners cursor scope.corp_id]? = some scope := by
  rcases chunk with _ | ⟨first, rest⟩
  · exact absurd rfl (ready_peers_ne_nil h)
  · have hlt : next_peer (cursor.after_runner first.corp_id) (first :: rest) <
        (first :: rest).length :=
      next_peer_lt (List.cons_ne_nil first rest)
    have hpeers : peers runners first.corp_id = first :: rest := ready_peers_eq h List.mem_cons_self
    have hget := List.getElem?_eq_getElem hlt
    have hmem := List.getElem_mem hlt
    have hcorp :
        ((first :: rest)[next_peer (cursor.after_runner first.corp_id) (first :: rest)]).corp_id
        = first.corp_id :=
      ready_peers_corp h hmem List.mem_cons_self
    refine ⟨_, hmem, hget, ?_, ?_⟩
    · rw [hcorp]
      rfl
    · unfold turn
      rw [hcorp, hpeers, hget]

/-- The Corps of the representatives do not depend on the cursor. -/
theorem representative_corps (runners : Runners) (cursor : CorpScheduleCursor) :
    ((ready_peers runners).filterMap (representative cursor)).map (·.corp_id) = corps runners := by
  unfold corps
  rw [List.map_filterMap]
  refine List.filterMap_congr ?_
  intro chunk hchunk
  obtain ⟨scope, -, hrep, hhead, -⟩ := representative_eq cursor hchunk
  rw [hrep, hhead]
  rfl

/-- Every representative is the peer of its Corp whose turn it is. -/
theorem representative_turn {cursor : CorpScheduleCursor} {scope : ReadyCorpSchedule}
    (h : scope ∈ (ready_peers runners).filterMap (representative cursor)) :
    (peers runners scope.corp_id)[turn runners cursor scope.corp_id]? = some scope := by
  obtain ⟨chunk, hchunk, hrep⟩ := List.mem_filterMap.mp h
  obtain ⟨scope', -, hrep', -, hturn⟩ := representative_eq cursor hchunk
  rw [hrep] at hrep'
  rw [Option.some.inj hrep']
  exact hturn

/-- Where the rotation of the Corps starts in this tick. -/
def first_corp (runners : Runners) (cursor : CorpScheduleCursor) : Nat :=
  match cursor.after_corp with
  | none => 0
  | some after => partition_point (fun corp_id => decide (corp_id ≤ after)) (corps runners)

/-- **The Corps of a tick** are the next hundred behind the cursor. -/
theorem representatives_corps (runners : Runners) (cursor : CorpScheduleCursor) :
    (representatives runners cursor).map (·.corp_id)
      = ((corps runners).rotate (first_corp runners cursor)).take 100 := by
  have hcorps := representative_corps runners cursor
  unfold representatives first_corp
  dsimp only
  rw [List.map_take]
  cases cursor.after_corp with
  | none =>
    dsimp only
    rw [List.rotate_zero, hcorps]
  | some after =>
    dsimp only
    rw [List.map_rotate, hcorps, ← hcorps,
      partition_point_map (fun s : ReadyCorpSchedule => s.corp_id) (fun c => decide (c ≤ after))]

theorem mem_representatives {cursor : CorpScheduleCursor} {scope : ReadyCorpSchedule}
    (h : scope ∈ representatives runners cursor) :
    scope ∈ (ready_peers runners).filterMap (representative cursor) := by
  have htake := List.mem_of_mem_take h
  cases hafter : cursor.after_corp with
  | none => simpa only [hafter] using htake
  | some after => simpa only [hafter, List.mem_rotate] using htake

theorem representatives_nodup (cursor : CorpScheduleCursor) :
    ((representatives runners cursor).map (·.corp_id)).Nodup := by
  rw [representatives_corps runners]
  have hnodup : (corps runners).Nodup := corps_pairwise.imp ne_of_lt
  exact (List.nodup_rotate.mpr hnodup).sublist (List.take_sublist _ _)

theorem representatives_current {cursor : CorpScheduleCursor} {scope : ReadyCorpSchedule}
    (h : scope ∈ representatives runners cursor) : scope.is_current runners = true := by
  have hturn := representative_turn (mem_representatives h)
  exact is_current_of_mem (List.mem_of_mem_filter (List.mem_of_getElem? hturn))

/-! ## What a tick does -/

section Visits

variable {multi_runner : Uuid → Bool} {reconcile : ReadyCorpSchedule → Except String Bool}

/-- **The visits of a tick.** Current scopes of distinct Corps are all handed on, in order,
and each moves the cursor of its own Corp and of no other. -/
theorem visits {scopes : List ReadyCorpSchedule}
    (hcurrent : ∀ s ∈ scopes, s.is_current runners = true)
    (hnodup : (scopes.map (·.corp_id)).Nodup) (tick : Tick) :
    let done := scopes.foldl (visit runners multi_runner reconcile) tick
    done.handed = tick.handed ++ scopes ∧ done.cursor.after_corp = tick.cursor.after_corp
      ∧ (∀ corp_id, corp_id ∉ scopes.map (·.corp_id) →
          done.cursor.after_runner corp_id = tick.cursor.after_runner corp_id)
      ∧ ∀ s ∈ scopes, done.cursor.after_runner s.corp_id
          = if multi_runner s.corp_id then some s.runner_id else none := by
  induction scopes generalizing tick with
  | nil =>
    exact ⟨(List.append_nil _).symm, rfl, fun _ _ => rfl, fun _ hs => absurd hs List.not_mem_nil⟩
  | cons scope scopes ih =>
    obtain ⟨hfirst, hrest⟩ := List.nodup_cons.mp hnodup
    have hscope : scope.is_current runners = true := hcurrent scope List.mem_cons_self
    have hnext := ih (fun s hs => hcurrent s (List.mem_cons_of_mem _ hs)) hrest
      (visit runners multi_runner reconcile tick scope)
    obtain ⟨hhanded, hafter, hother, hown⟩ := hnext
    have hvisit : (visit runners multi_runner reconcile tick scope).handed = tick.handed ++ [scope]
        ∧ (visit runners multi_runner reconcile tick scope).cursor.after_corp
          = tick.cursor.after_corp
        ∧ (visit runners multi_runner reconcile tick scope).cursor.after_runner
          = Function.update tick.cursor.after_runner scope.corp_id
              (if multi_runner scope.corp_id then some scope.runner_id else none) := by
      unfold visit
      rw [if_pos hscope]
      refine ⟨rfl, rfl, ?_⟩
      by_cases hmulti : multi_runner scope.corp_id = true
      · simp only [hmulti, if_true]
      · simp only [hmulti, Bool.false_eq_true, if_false, Function.update_idem]
    obtain ⟨hvhanded, hvafter, hvrunner⟩ := hvisit
    rw [List.foldl_cons]
    refine ⟨?_, hafter.trans hvafter, ?_, ?_⟩
    · rw [hhanded, hvhanded, List.append_assoc]
      rfl
    · intro corp_id hnotin
      rw [List.map_cons, List.mem_cons, not_or] at hnotin
      rw [hother corp_id hnotin.2, hvrunner, Function.update_of_ne hnotin.1]
    · intro s hs
      rcases List.mem_cons.mp hs with rfl | hs
      · rw [hother s.corp_id hfirst, hvrunner, Function.update_self]
      · exact hown s hs

end Visits

/-- A Corp has several ready runners exactly when it has several peers. -/
theorem multi_runner_iff (corp_id : Uuid) :
    ((ready_peers runners).any fun chunk =>
        chunk.head?.any (fun first => first.corp_id == corp_id) && decide (1 < chunk.length)) = true
      ↔ 1 < (peers runners corp_id).length := by
  rw [List.any_eq_true]
  constructor
  · rintro ⟨chunk, hchunk, h⟩
    rw [Bool.and_eq_true, decide_eq_true_eq] at h
    obtain ⟨first, hfirst, hcorp⟩ := (Option.any_eq_true _ _).mp h.1
    have hpeers := ready_peers_eq hchunk (List.mem_of_mem_head? hfirst)
    rw [beq_iff_eq.mp hcorp] at hpeers
    rw [hpeers]
    exact h.2
  · intro hlt
    obtain ⟨scope, hscope⟩ := List.exists_mem_of_length_pos (Nat.lt_trans Nat.zero_lt_one hlt)
    obtain ⟨hmem, hcorp⟩ := List.mem_filter.mp hscope
    rw [← chunk_by_flatten (fun a b => a.corp_id == b.corp_id) (ready_scopes runners)] at hmem
    obtain ⟨chunk, hchunk, hin⟩ := List.mem_flatten.mp hmem
    have hpeers := ready_peers_eq hchunk hin
    rw [beq_iff_eq.mp hcorp] at hpeers
    refine ⟨chunk, hchunk, ?_⟩
    rw [Bool.and_eq_true, decide_eq_true_eq, ← hpeers]
    refine ⟨?_, hlt⟩
    rw [hpeers]
    rcases chunk with _ | ⟨first, rest⟩
    · exact absurd hin List.not_mem_nil
    · have hfirst : first.corp_id = scope.corp_id :=
        ready_peers_corp hchunk List.mem_cons_self hin
      rw [List.head?_cons, Option.any_some, hfirst]
      exact hcorp

section Ticks

variable (cursor : CorpScheduleCursor) (reconcile : ReadyCorpSchedule → Except String Bool)

theorem reconcile_handed :
    (reconcile_ready_corps runners cursor reconcile).handed = representatives runners cursor := by
  unfold reconcile_ready_corps
  dsimp only
  exact (visits (fun _ hs => representatives_current hs) (representatives_nodup cursor) _).1

/-- The next tick goes on behind the Corps of this one. -/
theorem reconcile_split :
    (corps runners).rotate
      (first_corp runners (reconcile_ready_corps runners cursor reconcile).cursor)
      = (corps runners).rotate (first_corp runners cursor + min (corps runners).length 100) := by
  have hafter : (reconcile_ready_corps runners cursor reconcile).cursor.after_corp
      = (representatives runners cursor).getLast?.elim cursor.after_corp fun last =>
        some last.corp_id := by
    unfold reconcile_ready_corps
    dsimp only
    rw [(visits (fun _ hs => representatives_current hs) (representatives_nodup cursor) _).2.1]
    cases (representatives runners cursor).getLast? <;> rfl
  have hcorps := representatives_corps runners cursor
  by_cases hempty : corps runners = []
  · rw [hempty, List.rotate_nil, List.rotate_nil]
  · have hpos : 0 < (corps runners).length := List.length_pos_of_ne_nil hempty
    have hlength : (representatives runners cursor).length = min (corps runners).length 100 := by
      have h := congrArg List.length hcorps
      rw [List.length_map, List.length_take, List.length_rotate] at h
      omega
    obtain ⟨last, hlast⟩ : ∃ last, (representatives runners cursor).getLast? = some last :=
      Option.isSome_iff_exists.mp (by
        rw [List.getLast?_isSome]
        exact List.ne_nil_of_length_pos (by omega))
    -- the Corp visited last stands at this position of the rotation
    have hpos' : min (corps runners).length 100 - 1 <
        ((corps runners).rotate (first_corp runners cursor)).length := by
      rw [List.length_rotate]
      omega
    have hlt : (min (corps runners).length 100 - 1 + first_corp runners cursor) %
        (corps runners).length
        < (corps runners).length := Nat.mod_lt _ hpos
    have hcorp : last.corp_id
        = (corps runners)[(min (corps runners).length 100 - 1 + first_corp runners cursor)
            % (corps runners).length] := by
      rw [List.getLast?_eq_getElem?, hlength] at hlast
      have hget := congrArg (fun l => l[min (corps runners).length 100 - 1]?) hcorps
      rw [List.getElem?_map, hlast, List.getElem?_take_of_lt (by omega),
        List.getElem?_eq_getElem hpos', List.getElem_rotate] at hget
      exact Option.some.inj hget
    have hsplit : first_corp runners (reconcile_ready_corps runners cursor reconcile).cursor
        = (min (corps runners).length 100 - 1 + first_corp runners cursor) %
          (corps runners).length + 1 := by
      unfold first_corp
      rw [hafter, hlast, Option.elim_some]
      dsimp only
      rw [hcorp]
      exact partition_point_getElem corps_pairwise hlt
    rw [hsplit, ← List.rotate_mod, ← List.rotate_mod (corps runners)
      (first_corp runners cursor + _), Nat.mod_add_mod]
    congr 2
    omega

/-- **A visit of a Corp takes its next peer.** -/
theorem reconcile_turn {corp_id : Uuid} (hcorp : corp_id ∈ corps runners) :
    let tick := reconcile_ready_corps runners cursor reconcile
    (tick.handed.filter (fun s => s.corp_id == corp_id) = []
        ∧ turn runners tick.cursor corp_id = turn runners cursor corp_id)
    ∨ ∃ scope, tick.handed.filter (fun s => s.corp_id == corp_id) = [scope]
        ∧ (peers runners corp_id)[turn runners cursor corp_id]? = some scope
        ∧ turn runners tick.cursor corp_id
          = (turn runners cursor corp_id + 1) % (peers runners corp_id).length := by
  have hready : (ready_scopes runners).any (fun s => s.corp_id == corp_id) = true := by
    obtain ⟨scope, hscope, rfl⟩ := mem_corps.mp hcorp
    exact List.any_eq_true.mpr ⟨scope, hscope, beq_self_eq_true _⟩
  -- the tick starts with the cursors of the ready Corps, whatever Corp it remembers
  have hvisits := fun after_corp => @visits runners
    (fun corp_id => (ready_peers runners).any fun chunk =>
      chunk.head?.any (fun first => first.corp_id == corp_id) && decide (1 < chunk.length))
    reconcile _ (fun _ hs => representatives_current hs) (representatives_nodup cursor)
    { cursor :=
        { after_corp
          after_runner := fun corp_id =>
            if (ready_scopes runners).any (fun s => s.corp_id == corp_id)
            then cursor.after_runner corp_id else none } }
  dsimp only
  rw [reconcile_handed]
  by_cases hin : corp_id ∈ (representatives runners cursor).map (·.corp_id)
  · obtain ⟨scope, hscope, rfl⟩ := List.mem_map.mp hin
    have hturn := representative_turn (mem_representatives hscope)
    refine Or.inr ⟨scope, ?_, hturn, ?_⟩
    · exact Keyed.filter_eq_singleton (representatives_nodup cursor) hscope
    · have hlast : (reconcile_ready_corps runners cursor reconcile).cursor.after_runner
          scope.corp_id
          = _ := (hvisits _).2.2.2 scope hscope
      have hlt := (List.getElem?_eq_some_iff.mp hturn).1
      unfold turn
      rw [hlast]
      by_cases hmulti : 1 < (peers runners scope.corp_id).length
      · rw [if_pos ((multi_runner_iff scope.corp_id).mpr hmulti)]
        exact next_peer_after (peers_pairwise scope.corp_id) hturn
      · rw [if_neg fun h => hmulti ((multi_runner_iff scope.corp_id).mp h)]
        have hone : (peers runners scope.corp_id).length = 1 := by omega
        rw [hone, Nat.mod_one]
        rfl
  · refine Or.inl ⟨?_, ?_⟩
    · refine List.filter_eq_nil_iff.mpr ?_
      intro s hs heq
      exact hin (List.mem_map.mpr ⟨s, hs, beq_iff_eq.mp heq⟩)
    · have hlast : (reconcile_ready_corps runners cursor reconcile).cursor.after_runner corp_id
          = _ := (hvisits _).2.2.1 corp_id hin
      unfold turn
      rw [hlast]
      dsimp only
      rw [if_pos hready]

end Ticks

/-! ## Ticks in a row -/

/-- The turn of a tick of the schedule round the Corps. -/
theorem schedule_corps (callbacks : List (ReadyCorpSchedule → Except String Bool)) :
    ∀ (cursor : CorpScheduleCursor) (i : Nat) (tick : List ReadyCorpSchedule),
      (schedule runners cursor callbacks)[i]? = some tick →
      tick.map (·.corp_id) = ((corps runners).rotate
        (first_corp runners cursor + i * min (corps runners).length 100)).take 100 := by
  induction callbacks with
  | nil => exact fun _ _ _ h => by cases h
  | cons reconcile rest ih =>
    intro cursor i tick h
    cases i with
    | zero =>
      obtain rfl := Option.some.inj h
      rw [reconcile_handed, representatives_corps runners, Nat.zero_mul, Nat.add_zero]
    | succ i =>
      have hnext := ih _ i tick h
      rw [hnext, ← List.rotate_rotate, reconcile_split, List.rotate_rotate, Nat.succ_mul]
      congr 2
      omega

/-- **The visits of a Corp go round its peers.** -/
theorem schedule_turns {corp_id : Uuid} (hcorp : corp_id ∈ corps runners)
    (callbacks : List (ReadyCorpSchedule → Except String Bool)) (cursor : CorpScheduleCursor) :
    ∃ n, ((schedule runners cursor callbacks).flatten.filter (fun s => s.corp_id == corp_id)).map
      some
      = (List.range n).map fun v =>
        (peers runners corp_id)[(turn runners cursor corp_id + v) %
          (peers runners corp_id).length]? := by
  induction callbacks generalizing cursor with
  | nil => exact ⟨0, rfl⟩
  | cons reconcile rest ih =>
    obtain ⟨n, hn⟩ := ih (reconcile_ready_corps runners cursor reconcile).cursor
    have hsplit : (schedule runners cursor (reconcile :: rest)).flatten.filter
        (fun s => s.corp_id == corp_id)
        = (reconcile_ready_corps runners cursor reconcile).handed.filter
          (fun s => s.corp_id == corp_id)
          ++ (schedule runners (reconcile_ready_corps runners cursor reconcile).cursor
            rest).flatten.filter
            (fun s => s.corp_id == corp_id) := by
      rw [← List.filter_append]
      rfl
    rw [hsplit, List.map_append, hn]
    rcases reconcile_turn cursor reconcile hcorp with ⟨hnone, hturn⟩ | ⟨scope, hone, hget, hturn⟩
    · exact ⟨n, by rw [hnone, hturn]; rfl⟩
    · refine ⟨n + 1, ?_⟩
      have hlt := (List.getElem?_eq_some_iff.mp hget).1
      have hfirst : (peers runners corp_id)[(turn runners cursor corp_id + 0)
          % (peers runners corp_id).length]? = some scope := by
        rw [Nat.add_zero, Nat.mod_eq_of_lt hlt, hget]
      rw [hone, hturn, List.range_succ_eq_map, List.map_cons (f := fun v =>
        (peers runners corp_id)[(turn runners cursor corp_id + v) %
          (peers runners corp_id).length]?),
        hfirst, List.map_map]
      refine congrArg (some scope :: ·) ?_
      refine List.map_congr_left ?_
      intro v _
      rw [Function.comp_apply, Nat.mod_add_mod, Nat.add_assoc, Nat.add_comm 1 v]

/-- Ticks in a row are the schedule from some cursor. -/
theorem schedule_infix {window : List (List ReadyCorpSchedule)}
    {callbacks : List (ReadyCorpSchedule → Except String Bool)} {cursor : CorpScheduleCursor}
    (h : window <:+: schedule runners cursor callbacks) :
    ∃ cursor' callbacks', window = schedule runners cursor' callbacks' := by
  obtain ⟨before, after, hsplit⟩ := h
  induction before generalizing cursor callbacks with
  | nil =>
    rw [List.nil_append] at hsplit
    refine ⟨cursor, callbacks.take window.length, ?_⟩
    induction window generalizing cursor callbacks with
    | nil => cases callbacks <;> rfl
    | cons tick window ih =>
      cases callbacks with
      | nil => cases hsplit
      | cons reconcile rest =>
        obtain ⟨htick, hrest⟩ := List.cons.inj hsplit
        rw [List.length_cons, List.take_succ_cons]
        exact List.cons_eq_cons.mpr ⟨htick, ih hrest⟩
  | cons tick before ih =>
    cases callbacks with
    | nil => cases hsplit
    | cons reconcile rest => exact ih (List.cons.inj hsplit).2

/-- Each tick of the schedule hands on the representatives for some cursor. -/
theorem schedule_tick {tick : List ReadyCorpSchedule}
    {callbacks : List (ReadyCorpSchedule → Except String Bool)} {cursor : CorpScheduleCursor}
    (h : tick ∈ schedule runners cursor callbacks) :
    ∃ cursor', tick = representatives runners cursor' := by
  induction callbacks generalizing cursor with
  | nil => cases h
  | cons reconcile rest ih =>
    rcases List.mem_cons.mp h with rfl | h
    · exact ⟨cursor, reconcile_handed cursor reconcile⟩
    · exact ih h

/-- **Nobody starves.** For every set of connections, every starting cursor and whatever the
callbacks return: each tick visits `min(N, 100)` pairwise distinct Corps of the `N` ready
ones; every `⌈N / 100⌉` ticks in a row visit every ready Corp; and as many visits of a Corp
in a row as it has ready runners hand each of them to the callback exactly once. -/
theorem fair_scheduling (runners : Runners) (cursor : CorpScheduleCursor)
    (callbacks : List (ReadyCorpSchedule → Except String Bool)) :
    (∀ tick ∈ schedule runners cursor callbacks,
        tick.length = min (ready_corps runners).length 100 ∧ (tick.map (·.corp_id)).Nodup
          ∧ ∀ scope ∈ tick, scope.runner_id ∈ ready_runners runners scope.corp_id)
    ∧ (∀ window, window <:+: schedule runners cursor callbacks →
        window.length = ((ready_corps runners).length + 99) / 100 →
        ∀ corp_id ∈ ready_corps runners, corp_id ∈ window.flatten.map (·.corp_id))
    ∧ ∀ (corp_id : Uuid) (visited : List ReadyCorpSchedule),
        visited <:+: (schedule runners cursor callbacks).flatten.filter
          (fun s => s.corp_id == corp_id) →
        visited.length = (ready_runners runners corp_id).length →
        (visited.map (·.runner_id)).Perm (ready_runners runners corp_id) := by
  have hlength := (corps_perm runners).length_eq
  have hnodup : (corps runners).Nodup := corps_pairwise.imp ne_of_lt
  refine ⟨?_, ?_, ?_⟩
  · intro tick htick
    obtain ⟨i, hi, rfl⟩ := List.getElem_of_mem htick
    have hcorps := schedule_corps callbacks cursor i _ (List.getElem?_eq_getElem hi)
    refine ⟨?_, ?_, ?_⟩
    · have h := congrArg List.length hcorps
      rw [List.length_map, List.length_take, List.length_rotate] at h
      omega
    · rw [hcorps]
      exact (List.nodup_rotate.mpr hnodup).sublist (List.take_sublist _ _)
    · intro scope hscope
      obtain ⟨cursor', htick⟩ := schedule_tick htick
      rw [htick] at hscope
      have hpeer := List.mem_of_getElem? (representative_turn (mem_representatives hscope))
      exact (peers_perm runners scope.corp_id).mem_iff.mp (List.mem_map_of_mem hpeer)
  · intro window hwindow hn corp_id hcorp
    obtain ⟨cursor', callbacks', rfl⟩ := schedule_infix hwindow
    have hmem : corp_id ∈ corps runners := (corps_perm runners).mem_iff.mpr hcorp
    have hpos : 0 < (corps runners).length := List.length_pos_of_mem hmem
    obtain ⟨i, hi, hin⟩ := mem_windows hmem (first_corp runners cursor')
      (m := min (corps runners).length 100) (n := (schedule runners cursor' callbacks').length)
      (by omega) (by
        rw [hn, ← hlength]
        rcases Nat.le_total (corps runners).length 100 with hle | hge
        · rw [Nat.min_eq_left hle]
          exact Nat.le_mul_of_pos_left _ (by omega)
        · rw [Nat.min_eq_right hge]
          omega)
    have hcorps := schedule_corps callbacks' cursor' i _ (List.getElem?_eq_getElem hi)
    have htake : corp_id ∈ ((schedule runners cursor' callbacks')[i]).map (·.corp_id) := by
      rw [hcorps, List.take_eq_take_min, List.length_rotate, Nat.min_comm]
      exact hin
    obtain ⟨scope, hscope, hcorp_id⟩ := List.mem_map.mp htake
    exact List.mem_map.mpr ⟨scope, List.mem_flatten.mpr ⟨_, List.getElem_mem hi, hscope⟩, hcorp_id⟩
  · intro corp_id visited hvisited hn
    have hperm := peers_perm runners corp_id
    by_cases hcorp : corp_id ∈ corps runners
    · obtain ⟨n, hturns⟩ := schedule_turns hcorp callbacks cursor
      have hinfix : visited.map some <:+: _ := hvisited.map some
      rw [hturns] at hinfix
      have hwindow := turns_perm (fun _ => rfl) hinfix
        (by rw [List.length_map, hn, ← hperm.length_eq, List.length_map])
      have hpeers : visited.Perm (peers runners corp_id) := by
        have h := hwindow.filterMap id
        simpa only [List.filterMap_map, Function.comp_def, id_eq, List.filterMap_some] using h
      exact (hpeers.map _).trans hperm
    · have hnone : ready_runners runners corp_id = [] := by
        refine List.Perm.nil_eq ?_ |>.symm
        refine (List.Perm.of_eq ?_).trans hperm
        symm
        refine List.map_eq_nil_iff.mpr (List.filter_eq_nil_iff.mpr ?_)
        intro scope hscope heq
        exact hcorp (mem_corps.mpr ⟨scope, hscope, beq_iff_eq.mp heq⟩)
      rw [hnone] at hn ⊢
      rw [List.length_eq_zero_iff.mp hn]
      exact List.Perm.nil

end Crony.Server
