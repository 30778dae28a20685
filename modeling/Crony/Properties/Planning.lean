/-
What `validate_plan` guarantees, and what it never refuses.

The search behind the last loop is correct entry by entry: whatever stands in `depths` is
the length of the longest dependency chain ending there, and `visiting` is the way from the
root down to the current task, so that meeting one of its members again closes a real cycle.
The number of keys that are not being visited bounds the nesting of the calls.
-/
import Crony.Lib.Depth
import Crony.Server.Planning

set_option autoImplicit false

open Crony.Lib

namespace Crony.Server

/-! ## The graph -/

/-- The task with key `k` depends on the task with key `d`. -/
def DependsOn (tasks : List PlannedTask) (k d : String) : Prop :=
  ∃ t ∈ tasks, t.key = k ∧ d ∈ t.depends_on

/-- What the search reads as a dependency. -/
def Edge (tasks : List PlannedTask) (keys : List (String × Nat)) (k d : String) : Prop :=
  ∃ t, task_of tasks keys k = some t ∧ d ∈ t.depends_on

section Search

variable {tasks : List PlannedTask} {keys : List (String × Nat)}

/-! ## What one call does -/

/-- The result of a task whose dependencies have been visited. -/
def settle (key : String) (depth : Int) (state : Visit) : Visit :=
  { visiting := state.visiting.filter (· ≠ key), depths := (key, depth) :: state.depths }

/-- **One call.** It answers from the memo, refuses, or visits the dependencies. -/
theorem compute_depth_cases {calls : Nat} {key : String} {state : Visit}
    {r : Outcome (Int × Visit)} (h : compute_depth tasks keys (calls + 1) key state = r) :
    (∃ depth, state.depths.lookup key = some depth ∧ r = some (.ok (depth, state)))
    ∨ (state.depths.lookup key = none ∧ key ∈ state.visiting ∧ r = some (.error (.cycle key)))
    ∨ (state.depths.lookup key = none ∧ key ∉ state.visiting ∧ task_of tasks keys key = none
      ∧ r = some (.error (.unknown_task key)))
    ∨ ∃ task loop, state.depths.lookup key = none ∧ key ∉ state.visiting
      ∧ task_of tasks keys key = some task
      ∧ visit_dependencies (compute_depth tasks keys calls) keys task.key task.depends_on 0
        { state with visiting := key :: state.visiting } = loop
      ∧ r = loop.map (Except.map fun p => (p.1, settle key p.1 p.2)) := by
  rw [compute_depth] at h
  rcases hlook : state.depths.lookup key with _ | depth
  · rw [hlook] at h
    by_cases hvis : key ∈ state.visiting
    · simp only [hvis, if_true] at h
      exact Or.inr (Or.inl ⟨rfl, hvis, h.symm⟩)
    · simp only [hvis, if_false] at h
      rcases htask : task_of tasks keys key with _ | task
      · rw [htask] at h
        exact Or.inr (Or.inr (Or.inl ⟨rfl, hvis, rfl, h.symm⟩))
      · rw [htask] at h
        refine Or.inr (Or.inr (Or.inr ⟨task, _, rfl, hvis, rfl, rfl, ?_⟩))
        rw [← h]
        dsimp only
        rcases visit_dependencies (compute_depth tasks keys calls) keys task.key task.depends_on 0
            { state with visiting := key :: state.visiting } with _ | ⟨e⟩ | ⟨depth, st⟩ <;> rfl
  · rw [hlook] at h
    exact Or.inl ⟨depth, rfl, h.symm⟩

/-- **One round of the loop.** -/
theorem visit_dependencies_cons {visit : String → Visit → Outcome (Int × Visit)}
    {task_key d : String}
    {rest : List String} {depth : Int} {state : Visit} {r : Outcome (Int × Visit)}
    (h : visit_dependencies visit keys task_key (d :: rest) depth state = r) :
    (keys.lookup d = none ∧ r = some (.error (.unknown_dependency task_key d)))
    ∨ ((keys.lookup d).isSome = true ∧ visit d state = none ∧ r = none)
    ∨ (∃ e, (keys.lookup d).isSome = true ∧ visit d state = some (.error e) ∧ r = some (.error e))
    ∨ ∃ below next, (keys.lookup d).isSome = true ∧ visit d state = some (.ok (below, next))
      ∧ ((i32_max < below + 1 ∧ r = some (.error .depth_overflow))
        ∨ (below + 1 ≤ i32_max
          ∧ r = visit_dependencies visit keys task_key rest (max depth (below + 1)) next)) := by
  rw [visit_dependencies] at h
  rcases hlook : keys.lookup d with _ | index
  · rw [hlook] at h
    exact Or.inl ⟨rfl, h.symm⟩
  · rw [hlook] at h
    simp only [Option.isNone_some, Bool.false_eq_true, if_false] at h
    rcases hv : visit d state with _ | ⟨e⟩ | ⟨below, next⟩
    · rw [hv] at h
      exact Or.inr (Or.inl ⟨rfl, rfl, h.symm⟩)
    · rw [hv] at h
      exact Or.inr (Or.inr (Or.inl ⟨e, rfl, rfl, h.symm⟩))
    · rw [hv] at h
      dsimp only at h
      refine Or.inr (Or.inr (Or.inr ⟨below, next, rfl, rfl, ?_⟩))
      by_cases hle : below + 1 ≤ i32_max
      · rw [if_pos hle] at h
        exact Or.inr ⟨hle, h.symm⟩
      · rw [if_neg hle] at h
        exact Or.inl ⟨by omega, h.symm⟩

/-! ## The tasks on the way down -/

theorem visit_dependencies_visiting {visit : String → Visit → Outcome (Int × Visit)}
    {task_key : String} (hvisit : ∀ k st n st', visit k st = some (.ok (n, st')) →
      st'.visiting = st.visiting) {deps : List String} {depth n : Int} {st st' : Visit}
    (h : visit_dependencies visit keys task_key deps depth st = some (.ok (n, st'))) :
    st'.visiting = st.visiting := by
  induction deps generalizing depth st with
  | nil =>
    rw [visit_dependencies] at h
    cases h
    rfl
  | cons d rest ih =>
    rcases visit_dependencies_cons h with ⟨-, hr⟩ | ⟨-, -, hr⟩ | ⟨e, -, -, hr⟩
      | ⟨below, next, -, hv, ⟨-, hr⟩ | ⟨-, hr⟩⟩
    · cases hr
    · cases hr
    · cases hr
    · cases hr
    · rw [ih hr.symm]
      exact hvisit d st below next hv

/-- A call that returns leaves `visiting` as it was. -/
theorem compute_depth_visiting {calls : Nat} {key : String} {st st' : Visit} {n : Int}
    (h : compute_depth tasks keys calls key st = some (.ok (n, st'))) :
    st'.visiting = st.visiting := by
  induction calls generalizing key st n st' with
  | zero => cases h
  | succ calls ih =>
    rcases compute_depth_cases h with ⟨depth, -, hr⟩ | ⟨-, -, hr⟩ | ⟨-, -, -, hr⟩
      | ⟨task, loop, -, hnew, -, hloop, hr⟩
    · cases hr
      rfl
    · cases hr
    · cases hr
    · rcases loop with _ | ⟨e⟩ | ⟨depth, next⟩
      · cases hr
      · cases hr
      · cases hr
        have hsame : next.visiting = key :: st.visiting :=
          visit_dependencies_visiting (fun k st n st' hk => ih hk) hloop
        -- The key was not on the list before, so that removing it restores the list.
        change next.visiting.filter (· ≠ key) = st.visiting
        rw [hsame, List.filter_cons_of_neg (by simp), List.filter_eq_self]
        intro v hv
        have hne : v ≠ key := fun heq => hnew (heq ▸ hv)
        simpa using hne

/-! ## Termination -/

/-- The keys that are not being visited. -/
def unvisited (keys : List (String × Nat)) (st : Visit) : List String :=
  (keys.map Prod.fst).filter fun k => k ∉ st.visiting

/-- Visiting one more known key leaves fewer. -/
theorem unvisited_lt {key : String} {st : Visit} {task : PlannedTask}
    (htask : task_of tasks keys key = some task) (hnew : key ∉ st.visiting) :
    (unvisited keys { st with visiting := key :: st.visiting }).length
      < (unvisited keys st).length := by
  have hmem : key ∈ keys.map Prod.fst := by
    unfold task_of at htask
    obtain ⟨index, hlook, -⟩ := Option.bind_eq_some_iff.mp htask
    have hsome : keys.lookup key ≠ none := by simp [hlook]
    by_contra hout
    apply hsome
    rw [List.lookup_eq_none_iff]
    intro p hp
    have hne : p.1 ≠ key := fun heq => hout (List.mem_map.mpr ⟨p, hp, heq⟩)
    simpa using fun heq => hne heq.symm
  have hsub : unvisited keys { st with visiting := key :: st.visiting }
      = (unvisited keys st).filter fun k => k ≠ key := by
    unfold unvisited
    rw [List.filter_filter]
    apply List.filter_congr
    intro k _
    by_cases hk : k = key
    · simp [hk]
    · simp [hk]
  have hin : key ∈ unvisited keys st := List.mem_filter.mpr ⟨hmem, by simpa using hnew⟩
  rw [hsub]
  exact List.length_filter_lt_length_iff_exists.mpr ⟨key, hin, by simp⟩

theorem visit_dependencies_returns {visit : String → Visit → Outcome (Int × Visit)}
    (task_key : String) {st : Visit}
    (hsame : ∀ k st n st', visit k st = some (.ok (n, st')) → st'.visiting = st.visiting)
    (hvisit : ∀ k st', st'.visiting = st.visiting → visit k st' ≠ none)
    (deps : List String) (depth : Int) {st' : Visit} (hst : st'.visiting = st.visiting) :
    visit_dependencies visit keys task_key deps depth st' ≠ none := by
  induction deps generalizing depth st' with
  | nil => simp [visit_dependencies]
  | cons d rest ih =>
    intro hnone
    rcases visit_dependencies_cons hnone with ⟨-, hr⟩ | ⟨-, hv, -⟩ | ⟨e, -, -, hr⟩
      | ⟨below, next, -, hv, ⟨-, hr⟩ | ⟨-, hr⟩⟩
    · cases hr
    · exact hvisit d st' hst hv
    · cases hr
    · cases hr
    · exact ih _ ((hsame d st' below next hv).trans hst) hr.symm

/-- **Enough calls.** One more than there are unvisited keys. -/
theorem compute_depth_returns {calls : Nat} (key : String) {st : Visit}
    (h : (unvisited keys st).length < calls) : compute_depth tasks keys calls key st ≠ none := by
  induction calls generalizing key st with
  | zero => omega
  | succ calls ih =>
    intro hnone
    rcases compute_depth_cases hnone with ⟨depth, -, hr⟩ | ⟨-, -, hr⟩ | ⟨-, -, -, hr⟩
      | ⟨task, loop, -, hnew, htask, hloop, hr⟩
    · cases hr
    · cases hr
    · cases hr
    · have hlt := unvisited_lt htask hnew
      have hvisit : ∀ k st', st'.visiting = key :: st.visiting →
          compute_depth tasks keys calls k st' ≠ none := by
        intro k st' hst'
        apply ih
        have heq : unvisited keys st' = unvisited keys
            { st with visiting := key :: st.visiting } := by
          unfold unvisited
          rw [hst']
        rw [heq]
        omega
      have hnever : visit_dependencies (compute_depth tasks keys calls) keys task.key
          task.depends_on 0 { st with visiting := key :: st.visiting } ≠ none :=
        visit_dependencies_returns task.key (fun k st n st' hk => compute_depth_visiting hk) hvisit
          task.depends_on 0 rfl
      rw [hloop] at hnever
      rcases loop with _ | ⟨e⟩ | ⟨depth, next⟩
      · exact hnever rfl
      · cases hr
      · cases hr

theorem visit_dependencies_mono {visit visit' : String → Visit → Outcome (Int × Visit)}
    {task_key : String} (hvisit : ∀ k st r, visit k st = some r → visit' k st = some r)
    {deps : List String} {depth : Int} {st : Visit} {r : Except PlanError (Int × Visit)}
    (h : visit_dependencies visit keys task_key deps depth st = some r) :
    visit_dependencies visit' keys task_key deps depth st = some r := by
  induction deps generalizing depth st with
  | nil => exact h
  | cons d rest ih =>
    rw [visit_dependencies]
    rcases visit_dependencies_cons h with ⟨hlook, hr⟩ | ⟨-, -, hr⟩ | ⟨e, hlook, hv, hr⟩
      | ⟨below, next, hlook, hv, ⟨hgt, hr⟩ | ⟨hle, hr⟩⟩
    · rw [hlook, hr]
      rfl
    · cases hr
    · rw [if_neg (Bool.eq_false_iff.mp (Option.isNone_eq_false_iff.mpr hlook)), hvisit _ _ _ hv,
        hr]
    · rw [if_neg (Bool.eq_false_iff.mp (Option.isNone_eq_false_iff.mpr hlook)), hvisit _ _ _ hv,
        hr]
      exact if_neg (not_le.mpr hgt)
    · rw [if_neg (Bool.eq_false_iff.mp (Option.isNone_eq_false_iff.mpr hlook)), hvisit _ _ _ hv]
      dsimp only
      rw [if_pos hle]
      exact ih hr.symm

/-- More calls do not change what fewer returned. -/
theorem compute_depth_mono {calls more : Nat} (hle : calls ≤ more) {key : String} {st : Visit}
    {r : Except PlanError (Int × Visit)} (h : compute_depth tasks keys calls key st = some r) :
    compute_depth tasks keys more key st = some r := by
  induction calls generalizing more key st r with
  | zero => cases h
  | succ calls ih =>
    obtain ⟨more, rfl⟩ : ∃ n, more = n + 1 := ⟨more - 1, by omega⟩
    rcases compute_depth_cases h with ⟨depth, hlook, hr⟩ | ⟨hlook, hvis, hr⟩
      | ⟨hlook, hvis, htask, hr⟩ | ⟨task, loop, hlook, hvis, htask, hloop, hr⟩
    · rw [compute_depth, hlook, hr]
    · rw [compute_depth, hlook, hr]
      simp [hvis]
    · rw [compute_depth, hlook, hr]
      simp [hvis, htask]
    · rcases loop with _ | loop
      · cases hr
      · have hvisit : ∀ k st r, compute_depth tasks keys calls k st = some r →
            compute_depth tasks keys more k st = some r := by
          intro k st r hk
          exact ih (by omega) hk
        have hmore := visit_dependencies_mono hvisit hloop
        rw [compute_depth, hlook, hr]
        simp only [hvis, if_false, htask, hmore]
        rcases loop with e | ⟨depth, next⟩ <;> rfl

/-- **The recursion terminates.** From some number of nested calls on there is one result. -/
theorem compute_depth_terminates (key : String) (st : Visit) :
    ∃ r, ∀ calls, keys.length < calls → compute_depth tasks keys calls key st = some r := by
  have hlen : (unvisited keys st).length < keys.length + 1 := by
    have hle := List.length_filter_le (fun k => decide (k ∉ st.visiting)) (keys.map Prod.fst)
    rw [List.length_map] at hle
    unfold unvisited
    omega
  have hreturns : compute_depth tasks keys (keys.length + 1) key st ≠ none :=
    compute_depth_returns key hlen
  obtain ⟨r, hr⟩ := Option.ne_none_iff_exists'.mp hreturns
  exact ⟨r, fun calls hcalls => compute_depth_mono (by omega) hr⟩

/-! ## Soundness -/

/-- What the memo asserts of a key: its depth, and that its dependencies exist. -/
def Known (tasks : List PlannedTask) (keys : List (String × Nat)) (key : String) (n : Int) : Prop :=
  (∃ m : Nat, n = m ∧ Depth (Edge tasks keys) key m)
    ∧ ∃ task, task_of tasks keys key = some task
      ∧ ∀ d ∈ task.depends_on, (keys.lookup d).isSome = true

/-- Every entry of the memo is right. -/
def Sound (tasks : List PlannedTask) (keys : List (String × Nat)) (st : Visit) : Prop :=
  ∀ k n, st.depths.lookup k = some n → Known tasks keys k n

/-- What the loop has found out about the dependencies it visited. -/
structure Deepest (tasks : List PlannedTask) (keys : List (String × Nat)) (deps : List String)
    (start n : Int) : Prop where
  start_le : start ≤ n
  known : ∀ d ∈ deps, (keys.lookup d).isSome = true
  above : ∀ d ∈ deps, ∃ m : Nat, Depth (Edge tasks keys) d m ∧ (m : Int) + 1 ≤ n
  attained : n = start ∨ ∃ d ∈ deps, ∃ m : Nat, Depth (Edge tasks keys) d m ∧ n = (m : Int) + 1

theorem visit_dependencies_sound {visit : String → Visit → Outcome (Int × Visit)}
    {task_key : String}
    (hvisit : ∀ k st n st', visit k st = some (.ok (n, st')) → Sound tasks keys st →
      Known tasks keys k n ∧ Sound tasks keys st')
    {deps : List String} {depth n : Int} {st st' : Visit} (hst : Sound tasks keys st)
    (h : visit_dependencies visit keys task_key deps depth st = some (.ok (n, st'))) :
    Deepest tasks keys deps depth n ∧ Sound tasks keys st' := by
  induction deps generalizing depth st with
  | nil =>
    rw [visit_dependencies] at h
    cases h
    exact ⟨⟨le_refl _, by simp, by simp, Or.inl rfl⟩, hst⟩
  | cons d rest ih =>
    rcases visit_dependencies_cons h with ⟨-, hr⟩ | ⟨-, -, hr⟩ | ⟨e, -, -, hr⟩
      | ⟨below, next, hlook, hv, ⟨-, hr⟩ | ⟨-, hr⟩⟩
    · cases hr
    · cases hr
    · cases hr
    · cases hr
    · obtain ⟨⟨⟨m, hm, hdepth⟩, -⟩, hnext⟩ := hvisit d st below next hv hst
      obtain ⟨hdeep, hsound⟩ := ih hnext hr.symm
      have hmax := hdeep.start_le
      refine ⟨⟨by omega, ?_, ?_, ?_⟩, hsound⟩
      · intro x hx
        rcases List.mem_cons.mp hx with rfl | hx
        · exact hlook
        · exact hdeep.known x hx
      · intro x hx
        rcases List.mem_cons.mp hx with rfl | hx
        · exact ⟨m, hdepth, by omega⟩
        · exact hdeep.above x hx
      · rcases hdeep.attained with hn | ⟨x, hx, m', hm', hn⟩
        · -- The maximum so far is the old one or the dependency just visited.
          by_cases hle : below + 1 ≤ depth
          · exact Or.inl (by omega)
          · exact Or.inr ⟨d, List.mem_cons_self, m, hdepth, by omega⟩
        · exact Or.inr ⟨x, List.mem_cons_of_mem d hx, m', hm', hn⟩

/-- The depth of a task from its visited dependencies. -/
theorem Deepest.known_task {task : PlannedTask} {key : String} {n : Int}
    (htask : task_of tasks keys key = some task)
    (h : Deepest tasks keys task.depends_on 0 n) : Known tasks keys key n := by
  have hpos := h.start_le
  refine ⟨⟨n.toNat, by omega, Depth.of_dependencies ?_ ?_⟩, task, htask, h.known⟩
  · rintro d ⟨t, ht, hd⟩
    obtain rfl : task = t := Option.some.inj (htask.symm.trans ht)
    obtain ⟨m, hm, hle⟩ := h.above d hd
    exact ⟨m, hm, by omega⟩
  · rcases h.attained with hn | ⟨d, hd, m, hm, hn⟩
    · exact Or.inl (by omega)
    · exact Or.inr ⟨d, m, ⟨task, htask, hd⟩, hm, by omega⟩

theorem compute_depth_sound {calls : Nat} {key : String} {st st' : Visit} {n : Int}
    (hst : Sound tasks keys st) (h : compute_depth tasks keys calls key st = some (.ok (n, st'))) :
    Known tasks keys key n ∧ Sound tasks keys st' := by
  induction calls generalizing key st n st' with
  | zero => cases h
  | succ calls ih =>
    rcases compute_depth_cases h with ⟨depth, hlook, hr⟩ | ⟨-, -, hr⟩ | ⟨-, -, -, hr⟩
      | ⟨task, loop, -, -, htask, hloop, hr⟩
    · cases hr
      exact ⟨hst key n hlook, hst⟩
    · cases hr
    · cases hr
    · rcases loop with _ | ⟨e⟩ | ⟨depth, next⟩
      · cases hr
      · cases hr
      · cases hr
        have hstart : Sound tasks keys { st with visiting := key :: st.visiting } := hst
        obtain ⟨hdeep, hnext⟩ :=
          visit_dependencies_sound (fun k st n st' hk hs => ih hs hk) hstart hloop
        have hknown := hdeep.known_task htask
        refine ⟨hknown, ?_⟩
        intro k m hk
        by_cases hkey : k = key
        · subst hkey
          simp only [settle, List.lookup_cons_self, Option.some.injEq] at hk
          exact hk ▸ hknown
        · have hbeq : (k == key) = false := by simpa using hkey
          rw [settle, List.lookup_cons, hbeq] at hk
          exact hnext k m hk

/-! ## Completeness -/

/-- A graph the search has nothing to object to. -/
structure Orderly (tasks : List PlannedTask) (keys : List (String × Nat)) : Prop where
  acyclic : Acyclic (Edge tasks keys)
  closed : ∀ k t, task_of tasks keys k = some t → ∀ d ∈ t.depends_on,
    (task_of tasks keys d).isSome = true
  shallow : ∀ k t m, task_of tasks keys k = some t → Depth (Edge tasks keys) k m →
    (m : Int) + 1 ≤ i32_max

theorem lookup_isSome_of_task {key : String} (h : (task_of tasks keys key).isSome = true) :
    (keys.lookup key).isSome = true := by
  obtain ⟨t, ht⟩ := Option.isSome_iff_exists.mp h
  obtain ⟨index, hlook, -⟩ := Option.bind_eq_some_iff.mp ht
  rw [hlook]
  rfl

theorem visit_dependencies_accepts (ho : Orderly tasks keys)
    {visit : String → Visit → Outcome (Int × Visit)} {task_key : String} {visiting : List String}
    (hsame : ∀ k st n st', visit k st = some (.ok (n, st')) → st'.visiting = st.visiting)
    (hsound : ∀ k st n st', visit k st = some (.ok (n, st')) → Sound tasks keys st →
      Known tasks keys k n ∧ Sound tasks keys st')
    {deps : List String} (hdeps : ∀ d ∈ deps, (task_of tasks keys d).isSome = true)
    (hvisit : ∀ d ∈ deps, ∀ st, st.visiting = visiting → Sound tasks keys st →
      ∀ e, visit d st ≠ some (.error e))
    {depth : Int} {st : Visit} (hst : Sound tasks keys st) (hvst : st.visiting = visiting)
    {e : PlanError} : visit_dependencies visit keys task_key deps depth st ≠ some (.error e) := by
  induction deps generalizing depth st with
  | nil => simp [visit_dependencies]
  | cons d rest ih =>
    intro h
    have hd := hdeps d List.mem_cons_self
    rcases visit_dependencies_cons h with ⟨hlook, -⟩ | ⟨-, -, hr⟩ | ⟨e', -, hv, -⟩
      | ⟨below, next, -, hv, ⟨hgt, -⟩ | ⟨-, hr⟩⟩
    · have hsome := lookup_isSome_of_task hd
      rw [hlook] at hsome
      cases hsome
    · cases hr
    · exact hvisit d List.mem_cons_self st hvst hst e' hv
    · -- A known depth is far below the range of the type.
      obtain ⟨⟨⟨m, rfl, hdepth⟩, t, ht, -⟩, -⟩ := hsound d st below next hv hst
      have hle := ho.shallow d t m ht hdepth
      omega
    · obtain ⟨-, hnext⟩ := hsound d st below next hv hst
      exact ih (fun x hx => hdeps x (List.mem_cons_of_mem d hx))
        (fun x hx => hvisit x (List.mem_cons_of_mem d hx)) hnext
        ((hsame d st below next hv).trans hvst) hr.symm

/-- **The search refuses no orderly graph.** All that is being visited leads to the key. -/
theorem compute_depth_accepts (ho : Orderly tasks keys) {calls : Nat} {key : String} {st : Visit}
    (htask : (task_of tasks keys key).isSome = true) (hst : Sound tasks keys st)
    (hpath : ∀ v ∈ st.visiting, Relation.TransGen (Edge tasks keys) v key) {e : PlanError} :
    compute_depth tasks keys calls key st ≠ some (.error e) := by
  induction calls generalizing key st e with
  | zero => simp [compute_depth]
  | succ calls ih =>
    intro h
    rcases compute_depth_cases h with ⟨depth, -, hr⟩ | ⟨-, hvis, -⟩ | ⟨-, -, hnone, -⟩
      | ⟨task, loop, -, -, hsome, hloop, hr⟩
    · cases hr
    · exact ho.acyclic key (hpath key hvis)
    · rw [hnone] at htask
      cases htask
    · have hdeps := ho.closed key task hsome
      have hvisit : ∀ d ∈ task.depends_on, ∀ st', st'.visiting = key :: st.visiting →
          Sound tasks keys st' → ∀ e, compute_depth tasks keys calls d st' ≠ some (.error e) := by
        intro d hd st' hst' hsound' e'
        have hedge : Edge tasks keys key d := ⟨task, hsome, hd⟩
        refine ih (hdeps d hd) hsound' ?_
        intro v hv
        rw [hst'] at hv
        rcases List.mem_cons.mp hv with rfl | hv
        · exact Relation.TransGen.single hedge
        · exact (hpath v hv).tail hedge
      have hstart : Sound tasks keys { st with visiting := key :: st.visiting } := hst
      rcases loop with _ | ⟨e'⟩ | ⟨depth, next⟩
      · cases hr
      · exact visit_dependencies_accepts ho (fun k st n st' hk => compute_depth_visiting hk)
          (fun k st n st' hk hs => compute_depth_sound hs hk) hdeps hvisit hstart rfl hloop
      · cases hr

end Search

/-! ## The first loop -/

section Shape

variable {tasks : List PlannedTask} {keys : List (String × Nat)} {agents : List Store.Agent}

/-- The map of keys says where each of the first `n` tasks stands. -/
def Indexed (tasks : List PlannedTask) (n : Nat) (keys : List (String × Nat)) : Prop :=
  ∀ k i, keys.lookup k = some i ↔ i < n ∧ ∃ t, tasks[i]? = some t ∧ t.key = k

/-- One more task with a new key. -/
theorem Indexed.cons {n : Nat} (h : Indexed tasks n keys) {task : PlannedTask}
    (htask : tasks[n]? = some task) (hnew : keys.lookup task.key = none) :
    Indexed tasks (n + 1) ((task.key, n) :: keys) := by
  intro k i
  by_cases hk : k = task.key
  · subst hk
    rw [List.lookup_cons_self, Option.some.injEq]
    constructor
    · rintro rfl
      exact ⟨by omega, task, htask, rfl⟩
    · rintro ⟨hi, t, ht, hkey⟩
      by_contra hne
      have hold : keys.lookup task.key = some i := (h task.key i).mpr ⟨by omega, t, ht, hkey⟩
      rw [hnew] at hold
      cases hold
  · have hbeq : (k == task.key) = false := by simpa using hk
    rw [List.lookup_cons, hbeq, h k i]
    constructor
    · rintro ⟨hi, hrest⟩
      exact ⟨by omega, hrest⟩
    · rintro ⟨hi, t, ht, hkey⟩
      refine ⟨?_, t, ht, hkey⟩
      by_contra hlt
      obtain rfl : i = n := by omega
      rw [htask, Option.some.injEq] at ht
      exact hk (by rw [← hkey, ht])

theorem validate_tasks_indexed {done rest : List PlannedTask} {keys' : List (String × Nat)}
    (hkeys : Indexed (done ++ rest) done.length keys)
    (h : validate_tasks agents rest done.length keys = .ok keys') :
    Indexed (done ++ rest) (done ++ rest).length keys'
      ∧ keys'.length = keys.length + rest.length := by
  induction rest generalizing done keys with
  | nil =>
    simp only [validate_tasks, pure_eq_ok] at h
    subst h
    simpa using hkeys
  | cons task rest ih =>
    simp only [validate_tasks, bind_eq_ok] at h
    obtain ⟨_, htask, hrest⟩ := h
    simp only [validate_task, bind_eq_ok, ensure_eq_ok] at htask
    obtain ⟨_, -, _, hnew, -⟩ := htask
    have hat : (done ++ task :: rest)[done.length]? = some task := by simp
    have hlist : done ++ task :: rest = (done ++ [task]) ++ rest := by simp
    have hstep := hkeys.cons hat hnew
    have hlen : (done ++ [task]).length = done.length + 1 := by simp
    rw [hlist] at hstep ⊢
    rw [← hlen] at hstep hrest
    obtain ⟨hindexed, hlength⟩ := ih hstep hrest
    refine ⟨hindexed, ?_⟩
    rw [hlength, List.length_cons, List.length_cons]
    omega

theorem Indexed.task_of_iff (h : Indexed tasks tasks.length keys) {k : String} {t : PlannedTask} :
    task_of tasks keys k = some t ↔ t ∈ tasks ∧ t.key = k := by
  unfold task_of
  rw [Option.bind_eq_some_iff]
  constructor
  · rintro ⟨i, hlook, ht⟩
    obtain ⟨-, t', ht', hkey⟩ := (h k i).mp hlook
    obtain rfl : t' = t := Option.some.inj (ht'.symm.trans ht)
    exact ⟨List.mem_of_getElem? ht, hkey⟩
  · rintro ⟨hmem, hkey⟩
    obtain ⟨i, hi⟩ := List.mem_iff_getElem?.mp hmem
    have hlt : i < tasks.length := (List.getElem?_eq_some_iff.mp hi).1
    exact ⟨i, (h k i).mpr ⟨hlt, t, hi, hkey⟩, hi⟩

/-- The search reads the plan's own dependencies. -/
theorem Indexed.edge (h : Indexed tasks tasks.length keys) : Edge tasks keys = DependsOn tasks := by
  funext k d
  apply propext
  constructor
  · rintro ⟨t, ht, hd⟩
    obtain ⟨hmem, hkey⟩ := h.task_of_iff.mp ht
    exact ⟨t, hmem, hkey, hd⟩
  · rintro ⟨t, hmem, hkey, hd⟩
    exact ⟨t, h.task_of_iff.mpr ⟨hmem, hkey⟩, hd⟩

theorem Indexed.nodup (h : Indexed tasks tasks.length keys) :
    (tasks.map PlannedTask.key).Nodup := by
  rw [List.nodup_iff_pairwise_ne, List.pairwise_iff_getElem]
  intro i j hi hj hlt heq
  rw [List.length_map] at hi hj
  rw [List.getElem_map, List.getElem_map] at heq
  have hi' := (h tasks[i].key i).mpr ⟨hi, tasks[i], List.getElem?_eq_getElem hi, rfl⟩
  have hj' := (h tasks[i].key j).mpr ⟨hj, tasks[j], List.getElem?_eq_getElem hj, heq.symm⟩
  rw [hi', Option.some.injEq] at hj'
  omega

/-- A checked sum that succeeds is the exact sum. -/
theorem checked_sum_eq {overflow : PlanError} {l : List Int} {start total : Int}
    (h : checked_sum overflow l start = .ok total) : total = start + l.sum := by
  induction l generalizing start with
  | nil =>
    simp only [checked_sum, pure_eq_ok] at h
    simp [h]
  | cons n rest ih =>
    simp only [checked_sum, bind_eq_ok] at h
    obtain ⟨_, -, hrest⟩ := h
    have htotal := ih hrest
    rw [List.sum_cons]
    omega

/-! ## Errors that are not about the graph -/

/-- The computation never fails with an error about the graph or its depth limit. -/
def Plain {α : Type} (x : Except PlanError α) : Prop :=
  ∀ e, x = .error e → e.of_graph = false ∧ e ≠ .depth_limit_invalid

theorem Plain.bind {α β : Type} {x : Except PlanError α} {f : α → Except PlanError β}
    (hx : Plain x) (hf : ∀ a, Plain (f a)) : Plain (x >>= f) := by
  intro e he
  rcases x with e' | a
  · rw [error_bind] at he
    cases he
    exact hx e rfl
  · exact hf a e he

theorem plain_pure {α : Type} (a : α) : Plain (pure a) := by
  intro e he
  cases he

theorem plain_ensure {p : Prop} [Decidable p] {message : String} :
    Plain (ensure p (.invalid message)) := by
  intro e he
  unfold ensure at he
  split at he
  · cases he
  · cases he
    exact ⟨rfl, by simp⟩

theorem plain_context {α : Type} {o : Option α} {message : String} :
    Plain (context o (.invalid message)) := by
  intro e he
  cases o with
  | none =>
    cases he
    exact ⟨rfl, by simp⟩
  | some a => cases he

theorem plain_forM {α : Type} {f : α → Except PlanError Unit} (hf : ∀ a, Plain (f a))
    (l : List α) : Plain (l.forM f) := by
  induction l with
  | nil => exact plain_pure ()
  | cons a l ih => exact (hf a).bind fun _ => ih

theorem plain_checked_sum {message : String} (l : List Int) (start : Int) :
    Plain (checked_sum (.invalid message) l start) := by
  induction l generalizing start with
  | nil => exact plain_pure start
  | cons n rest ih => exact plain_ensure.bind fun _ => ih (start + n)

theorem plain_validate_secrets {task_key : String} (l : List TaskSecretReference)
    (names : List String) : Plain (validate_secrets task_key l names) := by
  induction l generalizing names with
  | nil => exact plain_pure ()
  | cons secret rest ih =>
    exact plain_ensure.bind fun _ => plain_ensure.bind fun _ => plain_ensure.bind fun _ => ih _

theorem plain_validate_source_requirement {task_key : String}
    {repository base_ref base_commit : Option String} :
    Plain (validate_source_requirement task_key repository base_ref base_commit) := by
  unfold validate_source_requirement
  split
  · exact plain_ensure
  · exact plain_ensure

theorem plain_validate_declared_deliverable {task_key : String} (o : Option DeliverableSpec) :
    Plain (validate_declared_deliverable task_key o) := by
  cases o with
  | none => exact plain_pure ()
  | some d => exact plain_ensure.bind fun _ => plain_ensure

theorem plain_validate_write_scope {task_key : String} {write_scope : List String} :
    Plain (validate_write_scope task_key write_scope) := by
  unfold validate_write_scope
  split
  · intro e he
    cases he
    exact ⟨rfl, by simp⟩
  · exact plain_pure ()

theorem plain_validate_contract {task_key : String} {contract : ContractDocument} :
    Plain (validate_contract task_key contract) :=
  plain_ensure.bind fun _ => plain_ensure.bind fun _ => plain_ensure.bind fun _ =>
    plain_ensure.bind fun _ => plain_validate_source_requirement.bind fun _ =>
    (plain_validate_declared_deliverable _).bind fun _ => plain_ensure.bind fun _ =>
    plain_ensure.bind fun _ => plain_ensure.bind fun _ => plain_validate_write_scope.bind fun _ =>
    plain_validate_secrets _ _

theorem plain_validate_check {task_key : String} (check : VerifierCheck) :
    Plain (validate_check task_key check) := by
  unfold validate_check
  cases check with
  | artifact => exact plain_ensure
  | file => exact plain_ensure.bind fun _ => plain_ensure
  | screenshot => exact plain_ensure.bind fun _ => plain_ensure
  | json_schema => exact plain_ensure.bind fun _ => plain_ensure
  | command => exact plain_ensure
  | test => exact plain_ensure

theorem plain_validate_verification_policy {task_key : String} {policy : VerificationPolicy} :
    Plain (validate_verification_policy task_key policy) := by
  unfold validate_verification_policy
  refine plain_ensure.bind fun _ => (plain_forM plain_validate_check _).bind fun _ => ?_
  split
  · exact plain_pure ()
  · exact plain_ensure

theorem plain_validate_tasks (l : List PlannedTask) (index : Nat) (keys : List (String × Nat)) :
    Plain (validate_tasks agents l index keys) := by
  induction l generalizing index keys with
  | nil => exact plain_pure keys
  | cons task rest ih =>
    refine Plain.bind ?_ fun _ => ih _ _
    exact plain_ensure.bind fun _ => plain_ensure.bind fun _ => plain_context.bind fun _ =>
      plain_ensure.bind fun _ => plain_ensure.bind fun _ => plain_ensure.bind fun _ =>
      plain_validate_contract.bind fun _ => plain_validate_verification_policy

/-- Before the last loop only the plan's own depth limit is an error about depths. -/
theorem validate_shape_error {plan : TaskGraphPlan} {e : PlanError}
    (h : validate_shape plan agents = .error e) :
    e.of_graph = false
      ∧ (e = .depth_limit_invalid → ¬ (0 ≤ plan.max_depth ∧ plan.max_depth ≤ MAX_GRAPH_DEPTH)) := by
  by_cases hlimit : 0 ≤ plan.max_depth ∧ plan.max_depth ≤ MAX_GRAPH_DEPTH
  · have hplain : Plain (validate_shape plan agents) := by
      unfold validate_shape
      rw [ensure_of hlimit]
      exact plain_ensure.bind fun _ => plain_ensure.bind fun _ => (plain_pure ()).bind fun _ =>
        plain_ensure.bind fun _ => plain_ensure.bind fun _ => (plain_validate_tasks _ _ _).bind
        fun _ => (plain_checked_sum _ _).bind fun _ => plain_ensure.bind fun _ =>
        (plain_checked_sum _ _).bind fun _ => plain_ensure.bind fun _ => plain_pure _
    exact ⟨(hplain e h).1, fun he => absurd he (hplain e h).2⟩
  · refine ⟨?_, fun _ => hlimit⟩
    unfold validate_shape at h
    rw [ensure_of_not hlimit, error_bind] at h
    -- Two checks stand before the limit; their errors are messages.
    have hfirst : ∀ {p q : Prop} [Decidable p] [Decidable q] {m m' : String},
        (ensure p (.invalid m) >>= fun _ => ensure q (.invalid m') >>= fun _ =>
          (.error .depth_limit_invalid : Except PlanError (List (String × Nat)))) = .error e →
        e.of_graph = false := by
      intro p q _ _ m m' heq
      unfold ensure at heq
      split at heq
      · split at heq
        · cases heq
          rfl
        · cases heq
          rfl
      · cases heq
        rfl
    exact hfirst h

theorem validate_shape_ok {plan : TaskGraphPlan}
    (h : validate_shape plan agents = .ok keys) :
    Indexed plan.tasks plan.tasks.length keys ∧ keys.length = plan.tasks.length
      ∧ (plan.tasks.map fun t => t.contract.budget_tokens).sum ≤ plan.budget_tokens
      ∧ (plan.tasks.map fun t => t.contract.budget_cost_microusd).sum
        ≤ plan.budget_cost_microusd := by
  simp only [validate_shape, bind_eq_ok, ensure_eq_ok, pure_eq_ok] at h
  obtain ⟨_, -, _, -, _, -, _, -, _, -, keys', htasks, total, htotal, _, hle, cost, hcost, _, hcle,
    rfl⟩ := h
  have hstart : Indexed ([] ++ plan.tasks) ([] : List PlannedTask).length [] := by
    intro k i
    simp
  obtain ⟨hindexed, hlength⟩ := validate_tasks_indexed hstart htasks
  have hsum := checked_sum_eq htotal
  have hcsum := checked_sum_eq hcost
  refine ⟨hindexed, by simpa using hlength, ?_, ?_⟩
  · omega
  · omega

end Shape

/-! ## The last loop -/

section Depths

variable {plan : TaskGraphPlan} {keys : List (String × Nat)} {calls : Nat}

/-- One round of the last loop. -/
theorem validate_depths_cons {task : PlannedTask} {rest : List PlannedTask} {st : Visit}
    {r : Outcome Unit} (h : validate_depths calls plan keys (task :: rest) st = r) :
    (compute_depth plan.tasks keys calls task.key st = none ∧ r = none)
    ∨ (∃ e, compute_depth plan.tasks keys calls task.key st = some (.error e)
      ∧ r = some (.error e))
    ∨ ∃ depth st', compute_depth plan.tasks keys calls task.key st = some (.ok (depth, st'))
      ∧ ((depth ≠ task.depth ∧ r = some (.error (.declared_depth task.key task.depth depth)))
        ∨ (depth = task.depth ∧ (plan.max_depth < depth ∨ MAX_GRAPH_DEPTH < depth)
          ∧ r = some (.error (.depth_limit task.key)))
        ∨ (depth = task.depth ∧ depth ≤ plan.max_depth ∧ depth ≤ MAX_GRAPH_DEPTH
          ∧ r = validate_depths calls plan keys rest st')) := by
  rw [validate_depths] at h
  rcases hc : compute_depth plan.tasks keys calls task.key st with _ | ⟨e⟩ | ⟨depth, st'⟩
  · rw [hc] at h
    exact Or.inl ⟨rfl, h.symm⟩
  · rw [hc] at h
    exact Or.inr (Or.inl ⟨e, rfl, h.symm⟩)
  · rw [hc] at h
    dsimp only at h
    refine Or.inr (Or.inr ⟨depth, st', rfl, ?_⟩)
    by_cases hne : depth = task.depth
    · rw [if_neg (not_not.mpr hne)] at h
      by_cases hlimit : depth > plan.max_depth ∨ depth > MAX_GRAPH_DEPTH
      · rw [if_pos hlimit] at h
        exact Or.inr (Or.inl ⟨hne, hlimit, h.symm⟩)
      · rw [if_neg hlimit] at h
        exact Or.inr (Or.inr ⟨hne, by omega, by omega, h.symm⟩)
    · rw [if_pos hne] at h
      exact Or.inl ⟨hne, h.symm⟩

theorem validate_depths_sound {rest : List PlannedTask} {st : Visit}
    (hst : Sound plan.tasks keys st)
    (h : validate_depths calls plan keys rest st = some (.ok ())) :
    ∀ t ∈ rest, Known plan.tasks keys t.key t.depth ∧ t.depth ≤ plan.max_depth
      ∧ t.depth ≤ MAX_GRAPH_DEPTH := by
  induction rest generalizing st with
  | nil => simp
  | cons task rest ih =>
    rcases validate_depths_cons h with ⟨-, hr⟩ | ⟨e, -, hr⟩
      | ⟨depth, st', hc, ⟨-, hr⟩ | ⟨-, -, hr⟩ | ⟨hdepth, hmax, hlimit, hr⟩⟩
    · cases hr
    · cases hr
    · cases hr
    · cases hr
    · obtain ⟨hknown, hst'⟩ := compute_depth_sound hst hc
      subst hdepth
      intro t ht
      rcases List.mem_cons.mp ht with rfl | ht
      · exact ⟨hknown, hmax, hlimit⟩
      · exact ih hst' hr.symm t ht

theorem validate_depths_accepts (ho : Orderly plan.tasks keys) {rest : List PlannedTask}
    {st : Visit}
    (hst : Sound plan.tasks keys st) (hvisiting : st.visiting = [])
    (hrest : ∀ t ∈ rest, (task_of plan.tasks keys t.key).isSome = true)
    (hdepth : ∀ t ∈ rest, ∃ n : Nat, t.depth = n ∧ Depth (Edge plan.tasks keys) t.key n)
    (hlimit : ∀ t ∈ rest, t.depth ≤ plan.max_depth ∧ t.depth ≤ MAX_GRAPH_DEPTH) {e : PlanError} :
    validate_depths calls plan keys rest st ≠ some (.error e) := by
  induction rest generalizing st with
  | nil => simp [validate_depths]
  | cons task rest ih =>
    intro h
    have hmem : task ∈ task :: rest := List.mem_cons_self
    rcases validate_depths_cons h with ⟨-, hr⟩ | ⟨e', hc, -⟩
      | ⟨depth, st', hc, ⟨hne, -⟩ | ⟨heq, hover, -⟩ | ⟨-, -, -, hr⟩⟩
    · cases hr
    · exact compute_depth_accepts ho (hrest task hmem) hst (by simp [hvisiting]) hc
    · -- The computed depth is the longest chain, and so is the declared one.
      obtain ⟨⟨⟨m, hm, hd⟩, -⟩, -⟩ := compute_depth_sound hst hc
      obtain ⟨n, hn, hd'⟩ := hdepth task hmem
      have hmn := hd.unique hd'
      omega
    · have hle := hlimit task hmem
      omega
    · obtain ⟨-, hst'⟩ := compute_depth_sound hst hc
      exact ih hst' ((compute_depth_visiting hc).trans hvisiting)
        (fun t ht => hrest t (List.mem_cons_of_mem task ht))
        (fun t ht => hdepth t (List.mem_cons_of_mem task ht))
        (fun t ht => hlimit t (List.mem_cons_of_mem task ht)) hr.symm

/-- The last loop returns, and more calls do not change what it returns. -/
theorem validate_depths_terminates (rest : List PlannedTask) (st : Visit) :
    ∃ r, ∀ calls, keys.length < calls → validate_depths calls plan keys rest st = some r := by
  induction rest generalizing st with
  | nil => exact ⟨.ok (), fun calls _ => rfl⟩
  | cons task rest ih =>
    obtain ⟨r, hr⟩ : ∃ r, ∀ calls, keys.length < calls →
        compute_depth plan.tasks keys calls task.key st = some r := compute_depth_terminates _ _
    rcases r with e | ⟨depth, st'⟩
    · refine ⟨.error e, fun calls hcalls => ?_⟩
      rw [validate_depths, hr calls hcalls]
    · by_cases hne : depth = task.depth
      · by_cases hlimit : depth > plan.max_depth ∨ depth > MAX_GRAPH_DEPTH
        · refine ⟨.error (.depth_limit task.key), fun calls hcalls => ?_⟩
          rw [validate_depths, hr calls hcalls]
          simp only [hne, ne_eq, not_true_eq_false, if_false]
          rw [← hne, if_pos hlimit]
        · obtain ⟨r, hrest⟩ := ih st'
          refine ⟨r, fun calls hcalls => ?_⟩
          rw [validate_depths, hr calls hcalls]
          simp only [hne, ne_eq, not_true_eq_false, if_false]
          rw [← hne, if_neg hlimit, hrest calls hcalls]
      · refine ⟨.error (.declared_depth task.key task.depth depth), fun calls hcalls => ?_⟩
        rw [validate_depths, hr calls hcalls]
        exact if_pos hne

end Depths

/-! ## Plans -/

/-- The dependency graph of a plan: its dependencies exist, it has no cycle, and the declared
depths are the lengths of the longest chains, within the limits. -/
structure WellGraphed (plan : TaskGraphPlan) : Prop where
  dependencies_exist : ∀ t ∈ plan.tasks, ∀ d ∈ t.depends_on, ∃ u ∈ plan.tasks, u.key = d
  acyclic : Acyclic (DependsOn plan.tasks)
  longest_chain : ∀ t ∈ plan.tasks, ∃ n : Nat, t.depth = n ∧ Depth (DependsOn plan.tasks) t.key n
  depth_limit : ∀ t ∈ plan.tasks, t.depth ≤ min plan.max_depth MAX_GRAPH_DEPTH

/-- What an accepted plan is. -/
structure Accepted (plan : TaskGraphPlan) : Prop extends WellGraphed plan where
  keys_distinct : (plan.tasks.map PlannedTask.key).Nodup
  tokens : (plan.tasks.map fun t => t.contract.budget_tokens).sum ≤ plan.budget_tokens
  cost : (plan.tasks.map fun t => t.contract.budget_cost_microusd).sum ≤ plan.budget_cost_microusd

section Plans

variable {plan : TaskGraphPlan} {agents : List Store.Agent} {calls : Nat}

/-- The memo is empty at first. -/
theorem sound_start {tasks : List PlannedTask} {keys : List (String × Nat)} :
    Sound tasks keys {} := by
  intro k n h
  cases h

theorem validate_plan_accepted (h : validate_plan calls plan agents = some (.ok ())) :
    Accepted plan := by
  unfold validate_plan at h
  split at h
  · cases h
  rename_i keys hshape
  obtain ⟨hindexed, -, htokens, hcost⟩ := validate_shape_ok hshape
  have hknown := validate_depths_sound sound_start h
  have hdepth : ∀ t ∈ plan.tasks,
      ∃ n : Nat, t.depth = n ∧ Depth (DependsOn plan.tasks) t.key n := by
    intro t ht
    rw [← hindexed.edge]
    exact (hknown t ht).1.1
  refine ⟨⟨?_, ?_, hdepth, ?_⟩, hindexed.nodup, htokens, hcost⟩
  · intro t ht d hd
    obtain ⟨task, htask, hdeps⟩ := (hknown t ht).1.2
    obtain rfl : task = t :=
      Option.some.inj (htask.symm.trans (hindexed.task_of_iff.mpr ⟨ht, rfl⟩))
    obtain ⟨i, hi⟩ := Option.isSome_iff_exists.mp (hdeps d hd)
    obtain ⟨-, u, hu, hkey⟩ := (hindexed d i).mp hi
    exact ⟨u, List.mem_of_getElem? hu, hkey⟩
  · -- Whatever lies on a cycle is the key of a task, and every task has a depth.
    intro k hcycle
    obtain ⟨d, ⟨t, ht, rfl, -⟩, -⟩ := Relation.TransGen.head'_iff.mp hcycle
    obtain ⟨n, -, hn⟩ := hdepth t ht
    exact hn.not_cyclic hcycle
  · intro t ht
    exact le_min (hknown t ht).2.1 (hknown t ht).2.2

theorem WellGraphed.orderly (h : WellGraphed plan) {keys : List (String × Nat)}
    (hindexed : Indexed plan.tasks plan.tasks.length keys) : Orderly plan.tasks keys := by
  refine ⟨?_, ?_, ?_⟩
  · rw [hindexed.edge]
    exact h.acyclic
  · intro k t ht d hd
    obtain ⟨hmem, -⟩ := hindexed.task_of_iff.mp ht
    obtain ⟨u, hu, hkey⟩ := h.dependencies_exist t hmem d hd
    rw [hindexed.task_of_iff.mpr ⟨hu, hkey⟩]
    rfl
  · intro k t m ht hm
    obtain ⟨hmem, rfl⟩ := hindexed.task_of_iff.mp ht
    obtain ⟨n, hn, hdepth⟩ := h.longest_chain t hmem
    rw [hindexed.edge] at hm
    have hmn : m = n := hm.unique hdepth
    have hle := h.depth_limit t hmem
    have hmax : (4 : Int) + 1 ≤ i32_max := by decide
    have hfour : MAX_GRAPH_DEPTH = 4 := rfl
    omega

theorem validate_plan_refusal (hg : WellGraphed plan) {e : PlanError}
    (h : validate_plan calls plan agents = some (.error e)) :
    e.of_graph = false
      ∧ (e = .depth_limit_invalid → ¬ (0 ≤ plan.max_depth ∧ plan.max_depth ≤ MAX_GRAPH_DEPTH)) := by
  unfold validate_plan at h
  split at h
  · rename_i e' hshape
    cases h
    exact validate_shape_error hshape
  · rename_i keys hshape
    obtain ⟨hindexed, -⟩ := validate_shape_ok hshape
    refine absurd h (validate_depths_accepts (hg.orderly hindexed) sound_start rfl ?_ ?_ ?_)
    · intro t ht
      rw [hindexed.task_of_iff.mpr ⟨ht, rfl⟩]
      rfl
    · intro t ht
      rw [hindexed.edge]
      exact hg.longest_chain t ht
    · intro t ht
      exact le_min_iff.mp (hg.depth_limit t ht)

theorem validate_plan_terminates (plan : TaskGraphPlan) (agents : List Store.Agent) :
    ∃ r, ∀ calls, plan.tasks.length < calls → validate_plan calls plan agents = some r := by
  rcases hshape : validate_shape plan agents with e | keys
  · refine ⟨.error e, fun calls _ => ?_⟩
    rw [validate_plan, hshape]
  · obtain ⟨-, hlen, -⟩ := validate_shape_ok hshape
    obtain ⟨r, hr⟩ : ∃ r, ∀ calls, keys.length < calls →
        validate_depths calls plan keys plan.tasks {} = some r := validate_depths_terminates _ _
    refine ⟨r, fun calls hcalls => ?_⟩
    rw [validate_plan, hshape]
    exact hr calls (by omega)

/-- **`validate_plan` decides the graph.** An accepted plan has distinct keys, existing
dependencies, no cycle, the longest chains as declared depths within the limits, and exact
budget sums within the mission's. A plan with such a graph is never refused for a cycle, an
unknown dependency or a depth; the plan's own depth limit is objected to only when it is out
of range. Both `validate_plan` and, on arbitrary maps, the recursion of `compute_depth`
terminate. -/
theorem validate_plan_correct (plan : TaskGraphPlan) (agents : List Store.Agent) :
    (∀ calls, validate_plan calls plan agents = some (.ok ()) → Accepted plan)
    ∧ (∀ calls e, WellGraphed plan → validate_plan calls plan agents = some (.error e) →
        e.of_graph = false
          ∧ (e = .depth_limit_invalid → ¬ (0 ≤ plan.max_depth ∧ plan.max_depth ≤ MAX_GRAPH_DEPTH)))
    ∧ (∃ r, ∀ calls, plan.tasks.length < calls → validate_plan calls plan agents = some r)
    ∧ (∀ (tasks : List PlannedTask) (keys : List (String × Nat)) (key : String) (state : Visit),
        ∃ r, ∀ calls, keys.length < calls → compute_depth tasks keys calls key state = some r) :=
  ⟨fun _ h => validate_plan_accepted h, fun _ _ hg h => validate_plan_refusal hg h,
    validate_plan_terminates plan agents, fun _ _ key state => compute_depth_terminates key state⟩

end Plans

namespace Workshop

def contract : ContractDocument :=
  { budget_tokens := 1000, budget_cost_microusd := 1000, model := none, reasoning_effort := none
    source_repository := none, source_base_ref := none, source_base_commit := none
    deliverable := none, objective := "Build", expected_output := "A report"
    acceptance_tests := ["report exists"], allowed_tools := ["shell"]
    prohibited_actions := ["deploy"], references := [], write_scope := ["out/**"]
    escalation := "ask" }

def task (key : String) (depends_on : List String) (depth : Int) : PlannedTask :=
  { key, title := key, contract, assigned_agent_id := 100, required_adapter := "codex", depends_on
    depth, max_attempts := 1
    verification_policy := { checks := [.artifact 1], manual_gate := none } }

def plan (tasks : List PlannedTask) : TaskGraphPlan :=
  { strategy := "single", max_nodes := 3, max_depth := 2, budget_tokens := 5000
    budget_cost_microusd := 5000, tasks }

def roster : List Store.Agent := [{ id := 100, corp_id := 1, actor_id := 2, adapter := "codex" }]

/-- Three tasks; the last depends on the first also through the second. -/
def triangle : TaskGraphPlan :=
  plan [task "c" ["a", "b"] 2, task "a" [] 0, task "b" ["a", "a"] 1]

end Workshop

set_option maxRecDepth 20000 in
/-- The theorem at a plan with a shared and a repeated dependency. -/
theorem validate_plan_correct_triangle :
    validate_plan 4 Workshop.triangle Workshop.roster = some (.ok ())
      ∧ Accepted Workshop.triangle := by
  have h : validate_plan 4 Workshop.triangle Workshop.roster = some (.ok ()) := by rfl
  exact ⟨h, (validate_plan_correct Workshop.triangle Workshop.roster).1 4 h⟩

set_option maxRecDepth 20000 in
example : validate_plan 3 (Workshop.plan [Workshop.task "a" ["b"] 1, Workshop.task "b" ["a"] 1])
    Workshop.roster = some (.error (.cycle "a")) := by
  rfl

end Crony.Server
