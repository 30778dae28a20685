/-
Words, and texts that are words with one separator between them.

A list is split at the elements that satisfy a predicate, and the empty pieces are dropped: what
is left are its words. Joining words with a separator and splitting again gives the words back.
What a prefix of a joined text can be is the lemma to use when a text is cut: it is joined
itself, or joined with one separator more at its end.
-/
import Mathlib.Algebra.Order.BigOperators.Group.List
import Mathlib.Algebra.Order.Group.Nat
import Mathlib.Algebra.Ring.Nat
import Mathlib.Data.List.Basic

set_option autoImplicit false

namespace Crony.Lib

variable {α : Type} {p : α → Bool} {s : α}

/-- The words of a list. -/
def words (p : α → Bool) (cs : List α) : List (List α) :=
  (cs.splitOnP p).filter fun word => !word.isEmpty

/-- A word is not empty and has no separating element. -/
structure IsWord (p : α → Bool) (w : List α) : Prop where
  ne_nil : w ≠ []
  clean : ∀ c ∈ w, p c = false

/-- The pieces of a split have no separating element. -/
theorem splitOnP_clean (cs : List α) : ∀ piece ∈ cs.splitOnP p, ∀ c ∈ piece, p c = false := by
  induction cs with
  | nil =>
    intro piece hpiece c hc
    rw [List.splitOnP_nil, List.mem_singleton] at hpiece
    rw [hpiece] at hc
    cases hc
  | cons a as ih =>
    intro piece hpiece c hc
    rw [List.splitOnP_cons_eq_if_modifyHead] at hpiece
    by_cases ha : p a = true
    · rw [if_pos ha] at hpiece
      rcases List.mem_cons.mp hpiece with rfl | hpiece
      · cases hc
      · exact ih piece hpiece c hc
    · rw [if_neg ha] at hpiece
      obtain ⟨first, rest, hsplit⟩ := List.exists_cons_of_ne_nil (List.splitOnP_ne_nil p as)
      rw [hsplit, List.modifyHead_cons] at hpiece
      rw [hsplit] at ih
      rcases List.mem_cons.mp hpiece with rfl | hpiece
      · rcases List.mem_cons.mp hc with rfl | hc
        · simpa using ha
        · exact ih first List.mem_cons_self c hc
      · exact ih piece (List.mem_cons_of_mem _ hpiece) c hc

/-- The pieces of a split come from the list. -/
theorem splitOnP_subset (cs : List α) : ∀ piece ∈ cs.splitOnP p, piece ⊆ cs := by
  induction cs with
  | nil =>
    intro piece hpiece
    rw [List.splitOnP_nil, List.mem_singleton] at hpiece
    rw [hpiece]
    exact List.Subset.refl _
  | cons a as ih =>
    intro piece hpiece
    rw [List.splitOnP_cons_eq_if_modifyHead] at hpiece
    by_cases ha : p a = true
    · rw [if_pos ha] at hpiece
      rcases List.mem_cons.mp hpiece with rfl | hpiece
      · exact List.nil_subset _
      · exact List.subset_cons_of_subset a (ih piece hpiece)
    · rw [if_neg ha] at hpiece
      obtain ⟨first, rest, hsplit⟩ := List.exists_cons_of_ne_nil (List.splitOnP_ne_nil p as)
      rw [hsplit, List.modifyHead_cons] at hpiece
      rw [hsplit] at ih
      rcases List.mem_cons.mp hpiece with rfl | hpiece
      · exact List.cons_subset_cons a (ih first List.mem_cons_self)
      · exact List.subset_cons_of_subset a (ih piece (List.mem_cons_of_mem _ hpiece))

theorem words_subset {cs w : List α} (h : w ∈ words p cs) : w ⊆ cs :=
  splitOnP_subset cs w (List.mem_of_mem_filter h)

theorem words_spec {cs : List α} {w : List α} (h : w ∈ words p cs) : IsWord p w := by
  obtain ⟨hpiece, hne⟩ := List.mem_filter.mp h
  exact ⟨by simpa using hne, splitOnP_clean cs w hpiece⟩

@[simp] theorem words_nil : words p [] = [] := by
  rw [words, List.splitOnP_nil]
  rfl

theorem words_append (hs : p s = true) (xs as : List α) :
    words p (xs ++ s :: as) = words p xs ++ words p as := by
  rw [words, List.splitOnP_append_cons xs as hs, List.filter_append]
  rfl

theorem words_of_isWord {w : List α} (h : IsWord p w) : words p w = [w] := by
  rw [words, List.splitOnP_eq_singleton h.clean, List.filter_cons_of_pos (by simpa using h.ne_nil),
    List.filter_nil]

theorem join_cons {w : List α} {ws : List (List α)} (hne : ws ≠ []) :
    [s].intercalate (w :: ws) = w ++ s :: [s].intercalate ws := by
  rw [List.intercalate_cons_of_ne_nil hne, List.append_assoc]
  rfl

/-- Joining two lists of words, neither of them empty. -/
theorem join_append {ws vs : List (List α)} (hws : ws ≠ []) (hvs : vs ≠ []) :
    [s].intercalate (ws ++ vs) = [s].intercalate ws ++ s :: [s].intercalate vs := by
  induction ws with
  | nil => exact absurd rfl hws
  | cons w ws ih =>
    rw [List.cons_append, join_cons (List.append_ne_nil_of_right_ne_nil ws hvs)]
    by_cases hne : ws = []
    · rw [hne, List.nil_append, List.intercalate_singleton]
    · rw [ih hne, join_cons hne, List.append_assoc, List.cons_append]

/-- **Joined words are the words again.** By induction on the words. -/
theorem words_join (hs : p s = true) {ws : List (List α)} (h : ∀ w ∈ ws, IsWord p w) :
    words p ([s].intercalate ws) = ws := by
  induction ws with
  | nil => exact words_nil
  | cons w ws ih =>
    have hw := words_of_isWord (h w List.mem_cons_self)
    by_cases hne : ws = []
    · subst hne
      rw [List.intercalate_singleton]
      exact hw
    · rw [join_cons hne, words_append hs, hw, ih fun v hv => h v (List.mem_cons_of_mem w hv)]
      rfl

theorem join_ne_nil {ws : List (List α)} (h : ∀ w ∈ ws, IsWord p w) (hne : ws ≠ []) :
    [s].intercalate ws ≠ [] := by
  obtain ⟨w, ws, rfl⟩ := List.exists_cons_of_ne_nil hne
  have hw := (h w List.mem_cons_self).ne_nil
  by_cases hrest : ws = []
  · subst hrest
    rw [List.intercalate_singleton]
    exact hw
  · rw [join_cons hrest]
    simp

theorem mem_join {ws : List (List α)} {c : α} (h : c ∈ [s].intercalate ws) :
    c = s ∨ ∃ w ∈ ws, c ∈ w := by
  induction ws with
  | nil => cases h
  | cons w ws ih =>
    by_cases hne : ws = []
    · subst hne
      rw [List.intercalate_singleton] at h
      exact Or.inr ⟨w, List.mem_cons_self, h⟩
    · rw [join_cons hne, List.mem_append, List.mem_cons] at h
      rcases h with h | h | h
      · exact Or.inr ⟨w, List.mem_cons_self, h⟩
      · exact Or.inl h
      · rcases ih h with h | ⟨v, hv, hc⟩
        · exact Or.inl h
        · exact Or.inr ⟨v, List.mem_cons_of_mem w hv, hc⟩

/-- The last element of a joined text belongs to a word. -/
theorem join_getLast {ws : List (List α)} (h : ∀ w ∈ ws, IsWord p w) {c : α}
    (hc : ([s].intercalate ws).getLast? = some c) : p c = false := by
  induction ws with
  | nil => cases hc
  | cons w ws ih =>
    have hw := h w List.mem_cons_self
    by_cases hne : ws = []
    · subst hne
      rw [List.intercalate_singleton] at hc
      exact hw.clean c (List.mem_of_getLast? hc)
    · have hrest : ∀ v ∈ ws, IsWord p v := fun v hv => h v (List.mem_cons_of_mem w hv)
      obtain ⟨d, ds, hds⟩ := List.exists_cons_of_ne_nil (join_ne_nil (s := s) hrest hne)
      rw [join_cons hne, hds, List.getLast?_append_of_ne_nil _ (by simp), List.getLast?_cons_cons,
        ← hds] at hc
      exact ih hrest hc

/-- **A prefix of a joined text** is joined, or joined with one separator more. By induction on
the words: the prefix ends in the first one, behind it, or later. -/
theorem join_prefix {ws : List (List α)} (h : ∀ w ∈ ws, IsWord p w) {q : List α}
    (hq : q <+: [s].intercalate ws) :
    ∃ vs, (∀ v ∈ vs, IsWord p v)
      ∧ (q = [s].intercalate vs ∨ (vs ≠ [] ∧ q = [s].intercalate vs ++ [s])) := by
  induction ws generalizing q with
  | nil =>
    have hnil : q = [] := List.prefix_nil.mp hq
    exact ⟨[], by simp, Or.inl hnil⟩
  | cons w ws ih =>
    have hw := h w List.mem_cons_self
    have hrest : ∀ v ∈ ws, IsWord p v := fun v hv => h v (List.mem_cons_of_mem w hv)
    have hshort : ∀ q : List α, q <+: w → ∃ vs, (∀ v ∈ vs, IsWord p v)
        ∧ (q = [s].intercalate vs ∨ (vs ≠ [] ∧ q = [s].intercalate vs ++ [s])) := by
      intro q hq
      by_cases hnil : q = []
      · exact ⟨[], by simp, Or.inl hnil⟩
      · refine ⟨[q], ?_, Or.inl (List.intercalate_singleton ..).symm⟩
        intro v hv
        rw [List.mem_singleton] at hv
        subst hv
        exact ⟨hnil, fun c hc => hw.clean c (hq.subset hc)⟩
    by_cases hne : ws = []
    · subst hne
      rw [List.intercalate_singleton] at hq
      exact hshort q hq
    · rw [join_cons hne] at hq
      rcases List.prefix_or_prefix_of_prefix hq (List.prefix_append w _) with hq' | ⟨t, rfl⟩
      · exact hshort q hq'
      · rw [List.prefix_append_right_inj] at hq
        cases t with
        | nil =>
          rw [List.append_nil]
          exact hshort w (List.prefix_refl w)
        | cons a t =>
          obtain ⟨rfl, ht⟩ := List.cons_prefix_cons.mp hq
          obtain ⟨vs, hvs, hvs'⟩ := ih hrest ht
          by_cases hnil : vs = []
          · subst hnil
            rcases hvs' with rfl | ⟨hcontra, -⟩
            · refine ⟨[w], ?_, Or.inr ⟨by simp, by rw [List.intercalate_singleton]; rfl⟩⟩
              intro v hv
              rw [List.mem_singleton] at hv
              exact hv ▸ hw
            · exact absurd rfl hcontra
          · refine ⟨w :: vs, ?_, ?_⟩
            · intro v hv
              rcases List.mem_cons.mp hv with rfl | hv
              · exact hw
              · exact hvs v hv
            · rcases hvs' with rfl | ⟨-, rfl⟩
              · exact Or.inl (join_cons hnil).symm
              · refine Or.inr ⟨by simp, ?_⟩
                rw [join_cons hnil, List.append_assoc]
                rfl

/-! ## Lengths -/

theorem length_join (ws : List (List α)) :
    ([s].intercalate ws).length = (ws.map List.length).sum + (ws.length - 1) := by
  induction ws with
  | nil => rfl
  | cons w ws ih =>
    by_cases hne : ws = []
    · subst hne
      rw [List.intercalate_singleton]
      simp
    · have hpos : 0 < ws.length := List.length_pos_iff.mpr hne
      rw [join_cons hne, List.length_append, List.length_cons, ih, List.map_cons, List.sum_cons,
        List.length_cons]
      omega

theorem length_splitOnP (cs : List α) :
    ((cs.splitOnP p).map List.length).sum + ((cs.splitOnP p).length - 1) = cs.length := by
  induction cs with
  | nil =>
    rw [List.splitOnP_nil]
    rfl
  | cons a as ih =>
    have hne := List.splitOnP_ne_nil p as
    have hpos : 0 < (as.splitOnP p).length := List.length_pos_iff.mpr hne
    rw [List.splitOnP_cons_eq_if_modifyHead]
    by_cases ha : p a = true
    · rw [if_pos ha, List.map_cons, List.sum_cons, List.length_nil, List.length_cons,
        List.length_cons]
      omega
    · obtain ⟨first, rest, hsplit⟩ := List.exists_cons_of_ne_nil hne
      rw [if_neg ha, hsplit, List.modifyHead_cons]
      rw [hsplit] at ih
      simp only [List.map_cons, List.sum_cons, List.length_cons] at ih ⊢
      omega

/-- Joining the words again makes a text no longer. -/
theorem length_join_words_le (cs : List α) : ([s].intercalate (words p cs)).length ≤ cs.length := by
  have hsum : ((words p cs).map List.length).sum ≤ ((cs.splitOnP p).map List.length).sum :=
    (List.filter_sublist.map _).sum_le_sum fun _ _ => Nat.zero_le _
  have hcount : (words p cs).length ≤ (cs.splitOnP p).length := List.length_filter_le _ _
  have hlength := @length_splitOnP α p cs
  rw [length_join]
  omega

/-! ## The pieces between separators -/

section

variable [BEq α] [LawfulBEq α]

/-- Splitting after a map that meets the separator only at the separator. By induction on the
list. -/
theorem splitOn_map {β : Type} [BEq β] [LawfulBEq β] {f : α → β} {a : α} {b : β}
    (hf : ∀ c, f c = b ↔ c = a) (l : List α) :
    (l.map f).splitOn b = (l.splitOn a).map (List.map f) := by
  induction l with
  | nil => simp
  | cons c l ih =>
    rw [List.splitOn, List.splitOn] at ih ⊢
    rw [List.map_cons, List.splitOnP_cons_eq_if_modifyHead, List.splitOnP_cons_eq_if_modifyHead, ih]
    obtain ⟨first, rest, hsplit⟩ := List.exists_cons_of_ne_nil (List.splitOnP_ne_nil (· == a) l)
    by_cases hc : c = a
    · rw [if_pos (beq_iff_eq.mpr ((hf c).mpr hc)), if_pos (beq_iff_eq.mpr hc)]
      rfl
    · rw [if_neg (mt beq_iff_eq.mp (mt (hf c).mp hc)), if_neg (mt beq_iff_eq.mp hc), hsplit]
      rfl

/-- **The pieces of a list begin with those of another** exactly when it is the other list, or
continues it behind a separator. -/
theorem splitOn_prefix_iff {a : α} {l m : List α} :
    l.splitOn a <+: m.splitOn a ↔ m = l ∨ ∃ rest, m = l ++ a :: rest := by
  constructor
  · rintro ⟨pieces, hpieces⟩
    have hm : m = [a].intercalate (l.splitOn a ++ pieces) := by
      rw [hpieces, List.intercalate_splitOn]
    by_cases hnil : pieces = []
    · left
      rw [hm, hnil, List.append_nil, List.intercalate_splitOn]
    · right
      refine ⟨[a].intercalate pieces, ?_⟩
      have hne : l.splitOn a ≠ [] := List.splitOn_ne_nil a l
      rw [hm, join_append hne hnil, List.intercalate_splitOn]
  · rintro (rfl | ⟨rest, rfl⟩)
    · exact List.prefix_refl _
    · have hsplit : (l ++ a :: rest).splitOn a = l.splitOn a ++ rest.splitOn a :=
        List.splitOnP_append_cons l rest (beq_self_eq_true a)
      rw [hsplit]
      exact List.prefix_append _ _

end

end Crony.Lib
