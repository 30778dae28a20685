/-
Walking a parent map.

Rows name their parent or none; a list of them is collected into a map, in which a later
row replaces an earlier one with the same key. Following the parents from a row ends at a row
without one, leaves the map, or comes back to a row it has passed; the walk keeps the rows it
has passed and so tells the three apart. It stops because every step passes a row of the map
that it had not passed.
-/
import Mathlib.Data.Finset.Lattice.Fold
import Crony.Lib.Table

set_option autoImplicit false

namespace Crony.Lib

universe u v w

variable {α : Type u} {β : Type v} {ε : Type w} [DecidableEq α]

/-! ## Maps collected from rows -/

/-- The map of the rows: a later row replaces an earlier one with its key. -/
def collect (rows : List (α × β)) : List (α × β) :=
  rows.foldl (fun m row => m.filter (fun old => old.1 ≠ row.1) ++ [row]) []

theorem collect_concat (rows : List (α × β)) (row : α × β) :
    collect (rows ++ [row]) = (collect rows).filter (fun old => old.1 ≠ row.1) ++ [row] := by
  simp only [collect, List.foldl_append, List.foldl_cons, List.foldl_nil]

/-- Rows with distinct keys are their own map. -/
theorem collect_eq_self {rows : List (α × β)} (h : Keyed Prod.fst rows) : collect rows = rows := by
  induction rows using List.reverseRecOn with
  | nil => rfl
  | append_singleton rows row ih =>
    rw [Keyed, List.map_append, List.nodup_append] at h
    obtain ⟨hrows, -, hdisjoint⟩ := h
    have hkept : rows.filter (fun old => old.1 ≠ row.1) = rows := by
      refine List.filter_eq_self.mpr ?_
      intro old hold
      exact decide_eq_true
        (hdisjoint _ (List.mem_map_of_mem hold) row.1 (List.mem_singleton.mpr rfl))
    rw [collect_concat, ih hrows, hkept]

/-- **Lost rows are noticed.** The map has as many entries as there were rows only when no
two rows share a key. -/
theorem length_collect_eq_iff {rows : List (α × β)} :
    (collect rows).length = rows.length ↔ Keyed Prod.fst rows := by
  refine ⟨?_, fun h => by rw [collect_eq_self h]⟩
  have hle : ∀ rows : List (α × β), (collect rows).length ≤ rows.length := by
    intro rows
    induction rows using List.reverseRecOn with
    | nil => exact le_refl _
    | append_singleton rows row ih =>
      have hfilter := List.length_filter_le (fun old => decide (old.1 ≠ row.1)) (collect rows)
      rw [collect_concat, List.length_append, List.length_append]
      simp only [List.length_singleton]
      omega
  induction rows using List.reverseRecOn with
  | nil => exact fun _ => List.nodup_nil
  | append_singleton rows row ih =>
    intro h
    have hfilter := List.length_filter_le (fun old => decide (old.1 ≠ row.1)) (collect rows)
    have hrows := hle rows
    rw [collect_concat, List.length_append, List.length_append] at h
    simp only [List.length_singleton] at h
    have hkeyed : Keyed Prod.fst rows := ih (by omega)
    rw [collect_eq_self hkeyed] at h hfilter
    have hall : ∀ old ∈ rows, decide (old.1 ≠ row.1) = true :=
      List.length_filter_eq_length_iff.mp (by omega)
    rw [Keyed, List.map_append, List.nodup_append]
    refine ⟨hkeyed, List.nodup_singleton _, ?_⟩
    intro key hkey key' hkey' heq
    obtain ⟨old, hold, rfl⟩ := List.mem_map.mp hkey
    rw [List.map_singleton, List.mem_singleton] at hkey'
    exact of_decide_eq_true (hall old hold) (heq.trans hkey')

/-- The value of a key. -/
def valueOf (m : List (α × β)) (key : α) : Option β :=
  (m.find? fun row => row.1 == key).map Prod.snd

/-- In a map with distinct keys the value of a key is that of its row. -/
theorem Keyed.valueOf_eq_some {m : List (α × β)} (h : Keyed Prod.fst m) {key : α} {value : β} :
    valueOf m key = some value ↔ (key, value) ∈ m := by
  unfold valueOf
  rw [Option.map_eq_some_iff]
  constructor
  · rintro ⟨row, hfind, rfl⟩
    have hkey : row.1 = key := by simpa only [beq_iff_eq] using List.find?_some hfind
    rw [← hkey]
    exact List.mem_of_find?_eq_some hfind
  · intro hmem
    exact ⟨(key, value), h.find?_eq_some hmem, rfl⟩

/-! ## Walks -/

/-- The rows passed on the way from `a` to a row without a parent, in order. -/
inductive Path (m : List (α × Option α)) : α → List α → Prop where
  | last {a : α} (h : (a, none) ∈ m) : Path m a [a]
  | link {a b : α} {rest : List α} (h : (a, some b) ∈ m) (p : Path m b rest) :
      Path m a (a :: rest)

/-- Follow the parents, collecting what is passed. -/
def walk (m : List (α × Option α)) (cycle : ε) (outside : α → ε) (passed : Finset α) :
    Option α → Except ε (Finset α)
  | none => .ok passed
  | some a =>
    if _hpassed : a ∈ passed then .error cycle
    else match _hparent : valueOf m a with
      | none => .error (outside a)
      | some next => walk m cycle outside (insert a passed) next
termination_by (m.filter fun row => row.1 ∉ passed).length
decreasing_by
  obtain ⟨row, hfind, -⟩ := Option.map_eq_some_iff.mp _hparent
  have hrow : row ∈ m := List.mem_of_find?_eq_some hfind
  have hkey : row.1 = a := by simpa only [beq_iff_eq] using List.find?_some hfind
  have hsub : (m.filter fun row => row.1 ∉ insert a passed).Sublist
      (m.filter fun row => row.1 ∉ passed) := by
    refine List.monotone_filter_right m ?_
    intro old hold
    rw [decide_eq_true_eq] at hold ⊢
    exact fun hin => hold (Finset.mem_insert_of_mem hin)
  rcases Nat.lt_or_eq_of_le hsub.length_le with hlt | heq
  · exact hlt
  · -- the row just passed is in one list and not in the other
    have hin : row ∈ m.filter fun row => row.1 ∉ passed := by
      refine List.mem_filter.mpr ⟨hrow, ?_⟩
      rw [decide_eq_true_eq, hkey]
      exact _hpassed
    rw [← hsub.eq_of_length heq, List.mem_filter, decide_eq_true_eq, hkey] at hin
    exact absurd (Finset.mem_insert_self a passed) hin.2

/-- The path from an optional start; without a start nothing is passed. -/
def PathFrom (m : List (α × Option α)) : Option α → List α → Prop
  | none, path => path = []
  | some a, path => Path m a path

/-- **A walk succeeds exactly along a path.** It adds the rows of the path to those passed
before, none of which it meets, and meets none of its own twice. -/
theorem walk_eq_ok {m : List (α × Option α)} (hm : Keyed Prod.fst m) {cycle : ε} {outside : α → ε}
    (passed : Finset α) (current : Option α) (s : Finset α) :
    walk m cycle outside passed current = .ok s ↔
      ∃ path, PathFrom m current path ∧ path.Nodup ∧ (∀ b ∈ path, b ∉ passed)
        ∧ s = passed ∪ path.toFinset := by
  fun_induction walk m cycle outside passed current with
  | case1 passed =>
    constructor
    · intro h
      obtain rfl := Except.ok.inj h
      exact ⟨[], rfl, List.nodup_nil, fun _ hb => absurd hb List.not_mem_nil, by simp⟩
    · rintro ⟨path, rfl, -, -, rfl⟩
      simp
  | case2 passed a ha =>
    refine ⟨(fun h => by cases h), ?_⟩
    rintro ⟨path, hpath, -, hfresh, -⟩
    have hstart : a ∈ path := by
      cases hpath with
      | last => exact List.mem_cons_self
      | link => exact List.mem_cons_self
    exact absurd ha (hfresh a hstart)
  | case3 passed a ha hparent =>
    refine ⟨(fun h => by cases h), ?_⟩
    rintro ⟨path, hpath, -⟩
    have hrow : ∃ next, (a, next) ∈ m := by
      cases hpath with
      | last h => exact ⟨_, h⟩
      | link h _ => exact ⟨_, h⟩
    obtain ⟨next, hrow⟩ := hrow
    rw [hm.valueOf_eq_some.mpr hrow] at hparent
    cases hparent
  | case4 passed a ha next hparent ih =>
    have hrow : (a, next) ∈ m := hm.valueOf_eq_some.mp hparent
    rw [ih]
    constructor
    · rintro ⟨path, hpath, hnodup, hfresh, rfl⟩
      have hnew : a ∉ path := fun hin => hfresh a hin (Finset.mem_insert_self a passed)
      refine ⟨a :: path, ?_, List.nodup_cons.mpr ⟨hnew, hnodup⟩, ?_, ?_⟩
      · cases next with
        | none =>
          obtain rfl : path = [] := hpath
          exact Path.last hrow
        | some b => exact Path.link hrow hpath
      · intro b hb
        rcases List.mem_cons.mp hb with rfl | hb
        · exact ha
        · exact fun hin => hfresh b hb (Finset.mem_insert_of_mem hin)
      · rw [List.toFinset_cons, Finset.insert_union, Finset.union_insert]
    · rintro ⟨path, hpath, hnodup, hfresh, rfl⟩
      have hrest : ∃ rest, path = a :: rest ∧ PathFrom m next rest := by
        cases hpath with
        | last h =>
          have hnone := hm.valueOf_eq_some.mpr h
          rw [hparent] at hnone
          exact ⟨[], rfl, by rw [Option.some.inj hnone]; rfl⟩
        | @link _ b rest h p =>
          have hsome := hm.valueOf_eq_some.mpr h
          rw [hparent] at hsome
          exact ⟨rest, rfl, by rw [Option.some.inj hsome]; exact p⟩
      obtain ⟨rest, rfl, hrest⟩ := hrest
      obtain ⟨hnew, hnodup⟩ := List.nodup_cons.mp hnodup
      refine ⟨rest, hrest, hnodup, ?_, ?_⟩
      · intro b hb hin
        rcases Finset.mem_insert.mp hin with rfl | hin
        · exact hnew hb
        · exact hfresh b (List.mem_cons_of_mem a hb) hin
      · rw [List.toFinset_cons, Finset.insert_union, Finset.union_insert]

end Crony.Lib
