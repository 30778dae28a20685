/-
What write scopes mean.

A scope grants a set of paths: `**` grants every path, `stem/**` the stem and everything
below it, any other text itself. The syntactic tests on scopes are read off against that
meaning. `write_scope_is_subset` decides inclusion of what two valid scopes grant; the
narrower test of the revisions composes with what a scope grants; and the store's own
normal form of a scope is compared with the grammar the runner checks at export.
-/
import Crony.Runner.Deliverable
import Crony.Store.Budgets

set_option autoImplicit false

open Crony.Lib

namespace Crony

/-! ## Prefixes and suffixes -/

theorem starts_with_iff {text pattern : String} :
    starts_with text pattern = true ↔ pattern.toList <+: text.toList := by
  rw [starts_with, List.isPrefixOf_iff_prefix]

theorem ends_with_iff {text pattern : String} :
    ends_with text pattern = true ↔ pattern.toList <:+ text.toList := by
  rw [ends_with, List.isSuffixOf_iff_suffix]

/-- Stripping a suffix splits the text. -/
theorem strip_suffix_eq_some {text pattern stem : String} :
    strip_suffix text pattern = some stem ↔ text.toList = stem.toList ++ pattern.toList := by
  unfold strip_suffix
  constructor
  · intro h
    by_cases hends : ends_with text pattern = true
    · rw [if_pos hends] at h
      obtain ⟨front, hfront⟩ := ends_with_iff.mp hends
      have hstem : stem = String.ofList (text.toList.take
          (text.toList.length - pattern.toList.length)) := (Option.some.inj h).symm
      rw [hstem, String.toList_ofList, ← hfront]
      simp
    · rw [if_neg hends] at h
      cases h
  · intro h
    have hends : ends_with text pattern = true := ends_with_iff.mpr ⟨stem.toList, h.symm⟩
    rw [if_pos hends, h]
    simp

theorem strip_prefix_eq_some {text pattern rest : String} :
    strip_prefix_str text pattern = some rest ↔ text.toList = pattern.toList ++ rest.toList := by
  unfold strip_prefix_str
  constructor
  · intro h
    by_cases hstarts : starts_with text pattern = true
    · rw [if_pos hstarts] at h
      obtain ⟨back, hback⟩ := starts_with_iff.mp hstarts
      have hrest : rest = String.ofList (text.toList.drop pattern.toList.length) :=
        (Option.some.inj h).symm
      rw [hrest, String.toList_ofList, ← hback]
      simp
    · rw [if_neg hstarts] at h
      cases h
  · intro h
    have hstarts : starts_with text pattern = true := starts_with_iff.mpr ⟨rest.toList, h.symm⟩
    rw [if_pos hstarts, h]
    simp

/-- The path is the stem or lies below it. -/
def Below (stem path : List Char) : Prop := path = stem ∨ ∃ rest, path = stem ++ '/' :: rest

/-- What a scope pattern allows. -/
theorem write_scope_allows_path_iff {scope path : String} :
    write_scope_allows_path scope path = true ↔
      scope = "**" ∨ scope = path
        ∨ ∃ stem : String, scope.toList = stem.toList ++ "/**".toList
          ∧ Below stem.toList path.toList := by
  unfold write_scope_allows_path
  by_cases hsame : scope = "**" ∨ scope = path
  · rw [if_pos hsame]
    exact ⟨fun _ => hsame.elim Or.inl fun h => Or.inr (Or.inl h), fun _ => rfl⟩
  · rw [if_neg hsame]
    have hdrop : (scope = "**" ∨ scope = path ∨ ∃ stem : String,
        scope.toList = stem.toList ++ "/**".toList ∧ Below stem.toList path.toList)
        ↔ ∃ stem : String, scope.toList = stem.toList ++ "/**".toList
          ∧ Below stem.toList path.toList := by
      constructor
      · rintro (h | h | h)
        · exact absurd (Or.inl h) hsame
        · exact absurd (Or.inr h) hsame
        · exact h
      · exact fun h => Or.inr (Or.inr h)
    rw [hdrop]
    rcases hstrip : strip_suffix scope "/**" with _ | stem
    · simp only [Bool.false_eq_true, false_iff]
      rintro ⟨stem, hstem, -⟩
      rw [strip_suffix_eq_some.mpr hstem] at hstrip
      cases hstrip
    · have hscope := strip_suffix_eq_some.mp hstrip
      -- The stem of a pattern is unique.
      have hstem : ∀ other : String, scope.toList = other.toList ++ "/**".toList →
          other = stem := by
        intro other hother
        rw [hother] at hscope
        exact String.ext (List.append_cancel_right hscope)
      have hrest : (strip_prefix_str path stem).any (fun rest => starts_with rest "/") = true
          ↔ ∃ rest, path.toList = stem.toList ++ '/' :: rest := by
        rw [Option.any_eq_true]
        constructor
        · rintro ⟨rest, hrest, hslash⟩
          obtain ⟨tail, htail⟩ := starts_with_iff.mp hslash
          refine ⟨tail, ?_⟩
          rw [strip_prefix_eq_some.mp hrest, ← htail]
          rfl
        · rintro ⟨rest, hpath⟩
          refine ⟨String.ofList ('/' :: rest), strip_prefix_eq_some.mpr ?_, ?_⟩
          · rw [hpath, String.toList_ofList]
          · exact starts_with_iff.mpr ⟨rest, by simp⟩
      simp only [Bool.or_eq_true, beq_iff_eq]
      rw [hrest]
      constructor
      · rintro (rfl | hbelow)
        · exact ⟨_, hscope, Or.inl rfl⟩
        · exact ⟨stem, hscope, Or.inr hbelow⟩
      · rintro ⟨other, hother, hbelow⟩
        obtain rfl := hstem other hother
        rcases hbelow with h | h
        · exact Or.inl (String.ext h)
        · exact Or.inr h

/-- A pattern whose stem has no wildcard. -/
def PlainScope (scope : String) : Prop :=
  scope = "**" ∨ ∀ stem : String, scope.toList = stem.toList ++ "/**".toList → '*' ∉ stem.toList

/-- A stem that is above a pattern without using its wildcard is above its stem. -/
theorem Below.of_pattern {stem inner : List Char} (hplain : '*' ∉ stem)
    (h : Below stem (inner ++ "/**".toList)) : Below stem inner := by
  rcases h with h | ⟨rest, h⟩
  · refine absurd ?_ hplain
    rw [← h]
    simp
  · have hlists : inner ++ ('/' :: '*' :: ['*']) = stem ++ '/' :: rest := h
    rw [List.append_eq_append_iff] at hlists
    rcases hlists with ⟨mid, rfl, hmid⟩ | ⟨mid, rfl, hmid⟩
    · -- The stem would reach into the wildcard, unless nothing is left of it.
      rcases mid with _ | ⟨c, _ | ⟨d, mid⟩⟩
      · exact Or.inl (List.append_nil inner).symm
      · simp only [List.cons_append, List.nil_append, List.cons.injEq] at hmid
        obtain ⟨-, hslash, -⟩ := hmid
        exact absurd hslash (by decide)
      · simp only [List.cons_append, List.cons.injEq] at hmid
        refine absurd ?_ hplain
        rw [← hmid.2.1]
        simp
    · rcases mid with _ | ⟨c, mid⟩
      · exact Or.inl (List.append_nil stem)
      · simp only [List.cons_append, List.cons.injEq] at hmid
        rw [← hmid.1]
        exact Or.inr ⟨mid, rfl⟩

theorem Below.trans {a b c : List Char} (h : Below a b) (h' : Below b c) : Below a c := by
  rcases h with rfl | ⟨rest, rfl⟩
  · exact h'
  · rcases h' with rfl | ⟨rest', rfl⟩
    · exact Or.inr ⟨rest, rfl⟩
    · exact Or.inr ⟨rest ++ '/' :: rest', by simp⟩

/-- **Containment of patterns composes with what they allow.** If a plain pattern allows
another pattern as a path, it allows every path the other allows. -/
theorem write_scope_allows_path_trans {outer inner path : String} (hplain : PlainScope outer)
    (h : write_scope_allows_path outer inner = true)
    (h' : write_scope_allows_path inner path = true) :
    write_scope_allows_path outer path = true := by
  rw [write_scope_allows_path_iff] at h ⊢
  rcases h with h | rfl | ⟨stem, hstem, hbelow⟩
  · exact Or.inl h
  · exact write_scope_allows_path_iff.mp h'
  · -- Its own stem has no wildcard, because `**` itself has no stem.
    have hstar : '*' ∉ stem.toList := by
      rcases hplain with rfl | hplain
      · have hlen := congrArg List.length hstem
        simp at hlen
      · exact hplain stem hstem
    refine Or.inr (Or.inr ⟨stem, hstem, ?_⟩)
    rw [write_scope_allows_path_iff] at h'
    rcases h' with rfl | rfl | ⟨inner_stem, hinner, hpath⟩
    · -- `**` is not below any stem without a wildcard.
      exfalso
      rcases hbelow with hbelow | ⟨rest, hbelow⟩
      · exact hstar (by rw [← hbelow]; decide)
      · rcases hchars : stem.toList with _ | ⟨c, cs⟩
        · rw [hchars] at hbelow
          simp at hbelow
        · rw [hchars] at hbelow hstar
          simp only [List.cons_append] at hbelow
          have hc : '*' = c := (List.cons.inj hbelow).1
          exact hstar (hc ▸ List.mem_cons_self)
    · exact hbelow
    · rw [hinner] at hbelow
      exact (Below.of_pattern hstar hbelow).trans hpath

/-- A valid scope is plain. -/
theorem PlainScope.of_valid {scope : String} (h : write_scope_is_valid scope = true) :
    PlainScope scope := by
  unfold write_scope_is_valid at h
  by_cases hall : scope = "**"
  · exact Or.inl hall
  · rw [if_neg hall] at h
    refine Or.inr fun stem hstem hstar => ?_
    simp only [strip_suffix_eq_some.mpr hstem, Option.getD_some, Bool.and_eq_true,
      Bool.not_eq_true', List.any_eq_false] at h
    exact h.2 '*' hstar rfl

/-- A normalised scope is plain. -/
theorem PlainScope.of_normalized {value scope : String}
    (h : Store.normalize_write_scope value = .ok scope) : PlainScope scope := by
  unfold Store.normalize_write_scope at h
  simp only [bind_eq_ok] at h
  obtain ⟨text, -, h⟩ := h
  split at h
  · rename_i hall
    rw [pure_eq_ok] at h
    exact Or.inl (h ▸ hall)
  · simp only [bind_eq_ok, ensure_eq_ok, pure_eq_ok] at h
    obtain ⟨_, -, _, ⟨-, hstars, -⟩, rfl⟩ := h
    refine Or.inr fun stem hstem hstar => ?_
    rw [strip_suffix_eq_some.mpr hstem, Option.getD_some, List.any_eq_false] at hstars
    exact hstars '*' hstar rfl

/-! ## What a scope grants -/

/-- The paths a scope pattern grants. -/
def Grants (scope : String) : Set String := {path | write_scope_allows_path scope path = true}

theorem mem_grants {scope path : String} :
    path ∈ Grants scope ↔ write_scope_allows_path scope path = true := Iff.rfl

/-- The three kinds of valid scopes. -/
inductive ScopeShape : String → Prop
  | everything : ScopeShape "**"
  | tree (scope stem : String) (hscope : scope.toList = stem.toList ++ "/**".toList)
      (hne : stem ≠ "") (hplain : '*' ∉ stem.toList) : ScopeShape scope
  | single (scope : String) (hall : scope ≠ "**")
      (hscope : ∀ stem : String, scope.toList ≠ stem.toList ++ "/**".toList) (hne : scope ≠ "") :
      ScopeShape scope

theorem ScopeShape.of_valid {scope : String} (h : write_scope_is_valid scope = true) :
    ScopeShape scope := by
  have hplain := PlainScope.of_valid h
  unfold write_scope_is_valid at h
  by_cases hall : scope = "**"
  · subst hall
    exact .everything
  rw [if_neg hall] at h
  -- A valid path is not empty.
  have hne : ∀ path : String, repository_relative_path_is_valid path = true → path ≠ "" := by
    rintro path hpath rfl
    simp [repository_relative_path_is_valid] at hpath
  cases hstrip : strip_suffix scope "/**" with
  | none =>
    rw [hstrip] at h
    simp only [Option.getD_none, Bool.and_eq_true] at h
    refine .single scope hall (fun stem hstem => ?_) (hne scope h.1)
    rw [strip_suffix_eq_some.mpr hstem] at hstrip
    cases hstrip
  | some stem =>
    have hstem := strip_suffix_eq_some.mp hstrip
    rw [hstrip] at h
    simp only [Option.getD_some, Bool.and_eq_true] at h
    exact .tree scope stem hstem (hne stem h.1) (hplain.resolve_left hall stem hstem)

theorem mem_grants_everything (path : String) : path ∈ Grants "**" := by
  rw [mem_grants, write_scope_allows_path_iff]
  exact Or.inl rfl

/-- A tree grants its stem and what lies below. -/
theorem mem_grants_tree {scope stem path : String}
    (hscope : scope.toList = stem.toList ++ "/**".toList) :
    path ∈ Grants scope ↔ Below stem.toList path.toList := by
  rw [mem_grants, write_scope_allows_path_iff]
  constructor
  · rintro (rfl | rfl | ⟨other, hother, hbelow⟩)
    · have hlen := congrArg List.length hscope
      simp at hlen
    · exact Or.inr ⟨"**".toList, hscope⟩
    · have hsame : other.toList = stem.toList :=
        List.append_cancel_right (hother.symm.trans hscope)
      rw [← hsame]
      exact hbelow
  · exact fun hbelow => Or.inr (Or.inr ⟨stem, hscope, hbelow⟩)

/-- Any other text grants itself. -/
theorem mem_grants_single {scope path : String} (hall : scope ≠ "**")
    (hscope : ∀ stem : String, scope.toList ≠ stem.toList ++ "/**".toList) :
    path ∈ Grants scope ↔ path = scope := by
  rw [mem_grants, write_scope_allows_path_iff]
  constructor
  · rintro (h | h | ⟨stem, hstem, -⟩)
    · exact absurd h hall
    · exact h.symm
    · exact absurd hstem (hscope stem)
  · exact fun h => Or.inr (Or.inl h.symm)

theorem not_below_empty {stem : String} (hne : stem ≠ "") : ¬ Below stem.toList "".toList := by
  rintro (h | ⟨rest, h⟩)
  · exact hne (String.ext h.symm)
  · have hlen := congrArg List.length h
    simp at hlen

/-- Only `**` grants the empty path. -/
theorem ScopeShape.of_empty {scope : String} (h : ScopeShape scope) (hempty : "" ∈ Grants scope) :
    scope = "**" := by
  cases h with
  | everything => rfl
  | tree scope stem hscope hne hplain =>
    exact absurd ((mem_grants_tree hscope).mp hempty) (not_below_empty hne)
  | single scope hall hscope hne =>
    exact absurd ((mem_grants_single hall hscope).mp hempty).symm hne

theorem ends_with_tree_iff {scope : String} :
    ends_with scope "/**" = true ↔ ∃ stem : String, scope.toList = stem.toList ++ "/**".toList := by
  rw [ends_with_iff]
  constructor
  · rintro ⟨front, hfront⟩
    exact ⟨String.ofList front, by rw [String.toList_ofList, hfront]⟩
  · rintro ⟨stem, hstem⟩
    exact ⟨stem.toList, hstem.symm⟩

/-- The comparison of two valid scopes, by the kind of the requested one. -/
theorem subset_of_valid {requested allowed : String} (hr : ScopeShape requested)
    (ha : ScopeShape allowed) :
    (if requested = "**" then allowed == "**"
      else match strip_suffix requested "/**" with
        | some stem =>
          (allowed == "**" || ends_with allowed "/**") && write_scope_allows_path allowed stem
        | none => write_scope_allows_path allowed requested) = true
      ↔ Grants requested ⊆ Grants allowed := by
  cases hr with
  | everything =>
    rw [if_pos rfl, beq_iff_eq]
    constructor
    · rintro rfl
      exact subset_rfl
    · exact fun hsub => ha.of_empty (hsub (mem_grants_everything ""))
  | tree requested stem hscope hne hplain =>
    have hall : requested ≠ "**" := by
      rintro rfl
      have hlen := congrArg List.length hscope
      simp at hlen
    rw [if_neg hall, strip_suffix_eq_some.mpr hscope]
    simp only [Bool.and_eq_true, Bool.or_eq_true, beq_iff_eq]
    have hstem : stem ∈ Grants requested := (mem_grants_tree hscope).mpr (Or.inl rfl)
    constructor
    · rintro ⟨hkind, hallows⟩ path hpath
      rcases hkind with rfl | hends
      · exact mem_grants_everything path
      · obtain ⟨outer, houter⟩ := ends_with_tree_iff.mp hends
        rw [mem_grants_tree houter]
        have houter_stem := (mem_grants_tree houter).mp (mem_grants.mpr hallows)
        exact houter_stem.trans ((mem_grants_tree hscope).mp hpath)
    · intro hsub
      refine ⟨?_, hsub hstem⟩
      cases ha with
      | everything => exact Or.inl rfl
      | tree _ outer houter _ _ => exact Or.inr (ends_with_tree_iff.mpr ⟨outer, houter⟩)
      | single _ hall' hscope' _ =>
        -- The tree grants two different paths, a single path only one.
        have hinner : String.ofList (stem.toList ++ ['/']) ∈ Grants requested :=
          (mem_grants_tree hscope).mpr (Or.inr ⟨[], String.toList_ofList⟩)
        have hsame := (mem_grants_single hall' hscope').mp (hsub hstem)
        have hother := (mem_grants_single hall' hscope').mp (hsub hinner)
        have hlen := congrArg (fun text => text.toList.length) (hother.trans hsame.symm)
        simp at hlen
  | single requested hall hscope hne =>
    have hnone : strip_suffix requested "/**" = none := by
      cases hstrip : strip_suffix requested "/**" with
      | none => rfl
      | some stem => exact absurd (strip_suffix_eq_some.mp hstrip) (hscope stem)
    rw [if_neg hall, hnone]
    constructor
    · intro hallows path hpath
      rw [(mem_grants_single hall hscope).mp hpath]
      exact hallows
    · exact fun hsub => hsub ((mem_grants_single hall hscope).mpr rfl)

theorem write_scope_is_subset_iff (requested allowed : String) :
    write_scope_is_subset requested allowed = true
      ↔ write_scope_is_valid requested = true ∧ write_scope_is_valid allowed = true
        ∧ Grants requested ⊆ Grants allowed := by
  unfold write_scope_is_subset
  by_cases hr : write_scope_is_valid requested = true
  · by_cases ha : write_scope_is_valid allowed = true
    · simp only [hr, ha, Bool.not_true, Bool.or_self, Bool.false_eq_true, if_false, true_and]
      exact subset_of_valid (.of_valid hr) (.of_valid ha)
    · simp [ha]
  · simp [hr]

/-- A path that tells a scope from every shorter text that does not grant all of it. -/
theorem ScopeShape.probe {scope : String} (h : ScopeShape scope) (n : Nat) :
    ∃ path ∈ Grants scope, ∀ allowed, ScopeShape allowed → allowed.toList.length ≤ n →
      path ∈ Grants allowed → Grants scope ⊆ Grants allowed := by
  -- Longer than the texts, and without a slash.
  have hlong : ∀ front : List Char, ∀ stem : List Char, stem.length ≤ n →
      front ++ List.replicate (n + 1) 'x' ≠ stem := by
    rintro front stem hlen rfl
    rw [List.length_append, List.length_replicate] at hlen
    omega
  have hslash : '/' ∉ List.replicate (n + 1) 'x' := by
    rw [List.mem_replicate]
    exact fun hc => absurd hc.2 (by decide)
  have hstem : ∀ {allowed stem : String}, allowed.toList = stem.toList ++ "/**".toList →
      allowed.toList.length ≤ n → stem.toList.length ≤ n := by
    intro allowed stem hallowed hlen
    rw [hallowed, List.length_append] at hlen
    omega
  cases h with
  | everything =>
    refine ⟨String.ofList (List.replicate (n + 1) 'x'), mem_grants_everything _, ?_⟩
    intro allowed ha hlen hpath
    cases ha with
    | everything => exact subset_rfl
    | tree _ stem hallowed _ _ =>
      have hbelow := (mem_grants_tree hallowed).mp hpath
      rw [String.toList_ofList] at hbelow
      rcases hbelow with heq | ⟨rest, heq⟩
      · exact absurd heq (hlong [] _ (hstem hallowed hlen))
      · exact absurd (heq ▸ List.mem_append_right _ List.mem_cons_self) hslash
    | single _ hall hscope _ =>
      have heq := (mem_grants_single hall hscope).mp hpath
      refine absurd ?_ (hlong [] _ hlen)
      rw [← heq, String.toList_ofList, List.nil_append]
  | tree scope inner hscope hne hplain =>
    refine ⟨String.ofList (inner.toList ++ '/' :: List.replicate (n + 1) 'x'),
      (mem_grants_tree hscope).mpr (Or.inr ⟨_, String.toList_ofList⟩), ?_⟩
    intro allowed ha hlen hpath
    have hfront : inner.toList ++ '/' :: List.replicate (n + 1) 'x'
        = (inner.toList ++ ['/']) ++ List.replicate (n + 1) 'x' := by
      rw [List.append_assoc, List.singleton_append]
    cases ha with
    | everything => exact fun path _ => mem_grants_everything path
    | tree _ stem hallowed _ _ =>
      have hbelow := (mem_grants_tree hallowed).mp hpath
      rw [String.toList_ofList] at hbelow
      -- Only what is above the inner stem reaches into the probe.
      have hinner : Below stem.toList inner.toList := by
        rcases hbelow with heq | ⟨rest, heq⟩
        · rw [hfront] at heq
          exact absurd heq (hlong _ _ (hstem hallowed hlen))
        · rw [List.append_eq_append_iff] at heq
          rcases heq with ⟨mid, hstem, hmid⟩ | ⟨mid, hinner, hmid⟩
          · rcases mid with _ | ⟨c, mid⟩
            · exact Or.inl (by rw [hstem, List.append_nil])
            · rw [List.cons_append, List.cons.injEq] at hmid
              exact absurd (hmid.2 ▸ List.mem_append_right _ List.mem_cons_self) hslash
          · rcases mid with _ | ⟨c, mid⟩
            · exact Or.inl (by rw [hinner, List.append_nil])
            · rw [List.cons_append, List.cons.injEq] at hmid
              exact Or.inr ⟨mid, by rw [hinner, ← hmid.1]⟩
      intro path hgranted
      exact (mem_grants_tree hallowed).mpr (hinner.trans ((mem_grants_tree hscope).mp hgranted))
    | single _ hall hsingle _ =>
      have heq := (mem_grants_single hall hsingle).mp hpath
      refine absurd ?_ (hlong (inner.toList ++ ['/']) _ hlen)
      rw [← heq, String.toList_ofList, hfront]
  | single scope hall hscope hne =>
    refine ⟨scope, (mem_grants_single hall hscope).mpr rfl, ?_⟩
    intro allowed _ _ hallowed path hpath
    rw [(mem_grants_single hall hscope).mp hpath]
    exact hallowed

/-- **A union of scopes covers a scope only through one of them.** -/
theorem grants_subset_of_union {scope : String} {scopes : List String}
    (hscope : write_scope_is_valid scope = true)
    (hscopes : ∀ allowed ∈ scopes, write_scope_is_valid allowed = true)
    (hcovered : ∀ path ∈ Grants scope, ∃ allowed ∈ scopes, path ∈ Grants allowed) :
    ∃ allowed ∈ scopes, Grants scope ⊆ Grants allowed := by
  obtain ⟨path, hpath, hprobe⟩ :=
    (ScopeShape.of_valid hscope).probe ((scopes.map fun text => text.toList.length).max?.getD 0)
  obtain ⟨allowed, hallowed, hgranted⟩ := hcovered path hpath
  have hlen : allowed.toList.length ≤ (scopes.map fun text => text.toList.length).max?.getD 0 :=
    List.le_max?_getD_of_mem (List.mem_map_of_mem hallowed)
  exact ⟨allowed, hallowed, hprobe allowed (.of_valid (hscopes allowed hallowed)) hlen hgranted⟩

/-- **`write_scope_is_subset` decides inclusion.** It accepts exactly the pairs of valid scopes
of which the first grants no path the second does not; so it is reflexive on valid scopes,
transitive, and along any chain of narrowings every path granted at the end was granted at
the start. -/
theorem write_scope_is_subset_decides :
    (∀ requested allowed, write_scope_is_subset requested allowed = true
      ↔ write_scope_is_valid requested = true ∧ write_scope_is_valid allowed = true
        ∧ ∀ path, write_scope_allows_path requested path = true →
          write_scope_allows_path allowed path = true)
    ∧ (∀ scope, write_scope_is_valid scope = true → write_scope_is_subset scope scope = true)
    ∧ (∀ a b c, write_scope_is_subset a b = true → write_scope_is_subset b c = true →
      write_scope_is_subset a c = true)
    ∧ ∀ first (chain : List String), List.IsChain (fun outer inner =>
        write_scope_is_subset inner outer = true) (first :: chain) →
      ∀ last ∈ chain, ∀ path, write_scope_allows_path last path = true →
        write_scope_allows_path first path = true := by
  have hiff := write_scope_is_subset_iff
  have htrans : ∀ a b c, write_scope_is_subset a b = true → write_scope_is_subset b c = true →
      write_scope_is_subset a c = true := by
    intro a b c hab hbc
    obtain ⟨ha, -, hsub⟩ := (hiff a b).mp hab
    obtain ⟨-, hc, hsub'⟩ := (hiff b c).mp hbc
    exact (hiff a c).mpr ⟨ha, hc, hsub.trans hsub'⟩
  refine ⟨hiff, fun scope h => (hiff scope scope).mpr ⟨h, h, subset_rfl⟩, htrans, ?_⟩
  intro first chain hchain
  induction chain generalizing first with
  | nil =>
    intro last hlast
    cases hlast
  | cons next chain ih =>
    rw [List.isChain_cons_cons] at hchain
    obtain ⟨hnext, hrest⟩ := hchain
    intro last hlast path hpath
    have hfirst := ((hiff next first).mp hnext).2.2
    rcases List.mem_cons.mp hlast with rfl | hlast
    · exact hfirst hpath
    · exact hfirst (ih next hrest last hlast path hpath)

example : write_scope_is_subset "src/handoffs/**" "src/**" = true
    ∧ write_scope_is_subset "src2/**" "src/**" = false := by decide

/-! ## The store's normal form -/

/-- The text of a finish scope as the store keeps it, without the `/**` of a tree. -/
def scope_path (value : String) : String :=
  (strip_suffix (trim value) "/**").getD (trim value)

/-- The texts on which the two grammars agree: no wildcard but the trailing `/**`, and no
white space in front of it. -/
def UsableScope (value : String) : Prop :=
  trim value = "**" ∨ (trim (scope_path value) = scope_path value
    ∧ '?' ∉ (scope_path value).toList ∧ '[' ∉ (scope_path value).toList
    ∧ ']' ∉ (scope_path value).toList)

instance (value : String) : Decidable (UsableScope value) :=
  inferInstanceAs (Decidable (_ ∨ _))

/-- What the store has checked about a scope it keeps. -/
structure KeptScope (value scope : String) : Prop where
  trimmed : scope = trim value
  length : byteLen scope ≤ 500
  printable : scope.toList.any is_control = false
  relative : scope = "**" ∨ (starts_with scope "/" = false ∧ starts_with scope "\\" = false
    ∧ contains scope "\\" = false ∧ contains scope ":" = false ∧ contains scope "//" = false
    ∧ scope_path value ≠ "" ∧ (scope_path value).toList.any (· == '*') = false
    ∧ (split (scope_path value) '/').all (fun component =>
        component != "" && component != "." && component != "..") = true)

theorem normalize_write_scope_ok {value scope : String}
    (h : Store.normalize_write_scope value = .ok scope) : KeptScope value scope := by
  unfold Store.normalize_write_scope Store.normalize_text Store.normalize_factory_text at h
  simp only [bind_eq_ok, ensure_eq_ok, pure_eq_ok] at h
  obtain ⟨text, ⟨_, -, _, hlength, _, hprintable, rfl⟩, h⟩ := h
  split at h
  · rename_i hall
    rw [pure_eq_ok] at h
    subst h
    exact ⟨rfl, hlength, hprintable, Or.inl hall⟩
  · simp only [bind_eq_ok, ensure_eq_ok, pure_eq_ok] at h
    obtain ⟨_, ⟨h1, h2, h3, h4, h5⟩, _, ⟨h6, h7, h8⟩, rfl⟩ := h
    exact ⟨rfl, hlength, hprintable, Or.inr ⟨h1, h2, h3, h4, h5, h6, h7, h8⟩⟩

section Prefixes

variable {path text pattern : String}

theorem starts_with_of_isPrefix (hstart : path.toList <+: text.toList)
    (h : starts_with text pattern = false) : starts_with path pattern = false := by
  rw [Bool.eq_false_iff] at h ⊢
  exact fun hp => h (starts_with_iff.mpr ((starts_with_iff.mp hp).trans hstart))

theorem contains_of_isPrefix (hstart : path.toList <+: text.toList)
    (h : contains text pattern = false) : contains path pattern = false := by
  rw [contains, decide_eq_false_iff_not] at h ⊢
  exact fun hp => h (hp.trans hstart.isInfix)

theorem byteLen_of_isPrefix (hstart : path.toList <+: text.toList) :
    byteLen path ≤ byteLen text := by
  obtain ⟨rest, hrest⟩ := hstart
  rw [byteLen, byteLen, ← hrest, List.map_append, List.sum_append]
  omega

theorem any_of_isPrefix {p : Char → Bool} (hstart : path.toList <+: text.toList)
    (h : text.toList.any p = false) : path.toList.any p = false := by
  rw [List.any_eq_false] at h ⊢
  exact fun c hc => h c (hstart.subset hc)

end Prefixes

theorem scope_path_prefix (value : String) :
    (scope_path value).toList <+: (trim value).toList := by
  unfold scope_path
  cases hstrip : strip_suffix (trim value) "/**" with
  | none => exact List.prefix_refl _
  | some stem => exact ⟨"/**".toList, (strip_suffix_eq_some.mp hstrip).symm⟩

/-- A scope the store keeps is valid exactly when the grammars agree on it. -/
theorem KeptScope.valid_iff {value scope : String} (h : KeptScope value scope) :
    write_scope_is_valid scope = true ↔ UsableScope value := by
  obtain ⟨rfl, hlength, hprintable, hrelative⟩ := h
  have hstart := scope_path_prefix value
  unfold write_scope_is_valid UsableScope
  by_cases hall : trim value = "**"
  · rw [if_pos hall]
    exact ⟨fun _ => Or.inl hall, fun _ => rfl⟩
  rw [if_neg hall]
  obtain ⟨h1, h2, h3, h4, h5, hne, hstar, hcomponents⟩ := hrelative.resolve_left hall
  have hlen : decide (byteLen (scope_path value) ≤ 500) = true :=
    decide_eq_true ((byteLen_of_isPrefix hstart).trans hlength)
  -- Everything but the white space and the other wildcards is already checked.
  have hvalid : repository_relative_path_is_valid (scope_path value) = true
      ↔ trim (scope_path value) = scope_path value := by
    unfold repository_relative_path_is_valid
    rw [hlen, starts_with_of_isPrefix hstart h1, starts_with_of_isPrefix hstart h2,
      contains_of_isPrefix hstart h3, contains_of_isPrefix hstart h4,
        contains_of_isPrefix hstart h5,
      any_of_isPrefix hstart hprintable, hcomponents]
    simp only [bne_iff_ne.mpr hne, Bool.not_false, Bool.true_and, Bool.and_true, beq_iff_eq]
    exact eq_comm
  have hglobs : (scope_path value).toList.any is_glob_character = false
      ↔ '?' ∉ (scope_path value).toList ∧ '[' ∉ (scope_path value).toList
        ∧ ']' ∉ (scope_path value).toList := by
    rw [List.any_eq_false] at hstar ⊢
    constructor
    · intro hno
      exact ⟨fun hc => hno _ hc rfl, fun hc => hno _ hc rfl, fun hc => hno _ hc rfl⟩
    · rintro ⟨hq, ho, hc⟩ c hmem hglob
      simp only [is_glob_character, Bool.or_eq_true, beq_iff_eq] at hglob
      rcases hglob with ((rfl | rfl) | rfl) | rfl
      · exact hstar _ hmem rfl
      · exact hq hmem
      · exact ho hmem
      · exact hc hmem
  have hpath : (strip_suffix (trim value) "/**").getD (trim value) = scope_path value := rfl
  simp only [hpath, Bool.and_eq_true, Bool.not_eq_true', hvalid, hglobs, hall, false_or]

/-! ## The scopes of an export -/

/-- The export refuses scopes as malformed exactly when one of them is. -/
theorem export_malformed_iff {changes : List (String × String)} {scopes : List String} :
    Runner.reject_out_of_scope_changes changes scopes = .error Runner.malformed_scope
      ↔ ∃ scope ∈ scopes, write_scope_is_valid scope = false := by
  unfold Runner.reject_out_of_scope_changes
  by_cases hne : scopes = []
  · rw [ensure_of_not (not_not.mpr hne), error_bind, hne]
    simp [Runner.malformed_scope]
  rw [ensure_of hne, ok_bind]
  by_cases hvalid : ∀ scope ∈ scopes, write_scope_is_valid scope = true
  · rw [ensure_of hvalid, ok_bind]
    have hright : ¬ ∃ scope ∈ scopes, write_scope_is_valid scope = false := by
      rintro ⟨scope, hscope, hfalse⟩
      rw [hvalid scope hscope] at hfalse
      cases hfalse
    simp only [hright, iff_false]
    -- The two messages start with different words.
    split
    · rename_i kind path _
      intro h
      have hhead := congrArg (fun text => text.toList.head?) (Except.error.inj h)
      simp [Runner.malformed_scope] at hhead
    · simp [pure, Except.pure]
  · rw [ensure_of_not hvalid, error_bind]
    refine ⟨fun _ => ?_, fun _ => rfl⟩
    by_contra hno
    refine hvalid fun scope hscope => ?_
    by_contra hfalse
    exact hno ⟨scope, hscope, Bool.eq_false_iff.mpr hfalse⟩

/-- **The two grammars of write scopes.** A scope the store keeps is valid for the domain, and
an export is not refused because of it, exactly when its text has no wildcard but the trailing
`/**` and no white space in front of that. -/
theorem normalized_scope_usable_iff (values : List String) (changes : List (String × String)) :
    (∀ value scope, Store.normalize_write_scope value = .ok scope →
      (write_scope_is_valid scope = true ↔ UsableScope value))
    ∧ ∀ scopes, values.mapM Store.normalize_write_scope = .ok scopes →
      (Runner.reject_out_of_scope_changes changes scopes ≠ .error Runner.malformed_scope
        ↔ ∀ value ∈ values, UsableScope value) := by
  refine ⟨fun value scope h => (normalize_write_scope_ok h).valid_iff, ?_⟩
  intro scopes h
  rw [ne_eq, export_malformed_iff]
  constructor
  · intro hno value hvalue
    obtain ⟨scope, hscope, hnorm⟩ := exists_of_mapM_eq_ok h hvalue
    rw [← (normalize_write_scope_ok hnorm).valid_iff]
    by_contra hfalse
    exact hno ⟨scope, hscope, Bool.eq_false_iff.mpr hfalse⟩
  · rintro husable ⟨scope, hscope, hfalse⟩
    obtain ⟨value, hvalue, hnorm⟩ := mem_of_mapM_eq_ok h hscope
    rw [(normalize_write_scope_ok hnorm).valid_iff.mpr (husable value hvalue)] at hfalse
    cases hfalse

set_option maxRecDepth 4000 in
/-- A bracket passes the store and fails the export. -/
theorem bracket_scope_malformed :
    Store.normalize_write_scope "src/[ab].rs" = .ok "src/[ab].rs"
      ∧ write_scope_is_valid "src/[ab].rs" = false
      ∧ Runner.reject_out_of_scope_changes [("M", "src/a.rs")] ["src/[ab].rs"]
        = .error Runner.malformed_scope := by
  refine ⟨by rfl, by decide, ?_⟩
  exact export_malformed_iff.mpr ⟨_, List.mem_singleton_self _, by decide⟩

end Crony
