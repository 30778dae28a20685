/-
Objectives under revised descriptions.

The objective of a task is its own part behind the description of the mission. A revision takes
the description it knows off the front and puts the new one there; what it takes for the task's
own part depends on the first description and the first objective only, and every later revision
finds exactly that part again.
-/
import Crony.Properties.Scopes
import Crony.Store.Revisions

set_option autoImplicit false

namespace Crony.Store

/-! ## Trimming -/

/-- Neither end of the list is white space. -/
structure Trimmed (cs : List Char) : Prop where
  head : ∀ c ∈ cs.head?, is_whitespace c = false
  last : ∀ c ∈ cs.getLast?, is_whitespace c = false

theorem dropWhile_of_head {cs : List Char} (h : ∀ c ∈ cs.head?, is_whitespace c = false) :
    cs.dropWhile is_whitespace = cs := by
  cases cs with
  | nil => rfl
  | cons c cs =>
    have hc : ¬ is_whitespace c = true := by simp [h c rfl]
    rw [List.dropWhile_cons_of_neg hc]

theorem head_dropWhile (cs : List Char) :
    ∀ c ∈ (cs.dropWhile is_whitespace).head?, is_whitespace c = false := by
  intro c hc
  have hne : cs.dropWhile is_whitespace ≠ [] := by
    intro hnil
    rw [hnil] at hc
    cases hc
  have hhead := List.head_dropWhile_not is_whitespace hne
  rw [List.head?_eq_some_head hne] at hc
  injection hc with hc
  rw [← hc]
  simpa using hhead

theorem Trimmed.trim {text : String} (h : Trimmed text.toList) : trim text = text := by
  rw [Crony.trim, dropWhile_of_head h.head,
    dropWhile_of_head (by rw [List.head?_reverse]; exact h.last),
    List.reverse_reverse, String.ofList_toList]

theorem trimmed_trim (text : String) : Trimmed (trim text).toList := by
  rw [trim, String.toList_ofList]
  constructor
  · intro c hc
    -- the front of a trimmed text is the front of what the first pass left
    obtain ⟨back, hback⟩ :=
      List.dropWhile_suffix (l := (text.toList.dropWhile is_whitespace).reverse) is_whitespace
    have hfront := congrArg List.reverse hback
    rw [List.reverse_append, List.reverse_reverse] at hfront
    apply head_dropWhile text.toList
    rw [← hfront, List.head?_append, Option.mem_def.mp hc]
    rfl
  · intro c hc
    rw [List.getLast?_reverse] at hc
    exact head_dropWhile _ c hc

/-- Without carriage returns there is nothing to rewrite. -/
theorem unix_newlines_of_not_mem {cs : List Char} (h : '\r' ∉ cs) : unix_newlines cs = cs := by
  induction cs with
  | nil => rfl
  | cons c cs ih =>
    have hc : c ≠ '\r' := fun hc => h (hc ▸ List.mem_cons_self)
    have hcs : '\r' ∉ cs := fun hcs => h (List.mem_cons_of_mem c hcs)
    rw [unix_newlines]
    · rw [ih hcs]
    · intro rest hr _
      exact hc hr
    · exact hc

/-! ## The task's own part -/

/-- A mission description as the store keeps it, and not empty. -/
structure IsDescription (d : String) : Prop where
  trimmed : trim d = d
  unix : '\r' ∉ d.toList
  nonempty : d ≠ ""

/-- The description as `compose_revised_task_objective` reads it. -/
theorem IsDescription.normalized {d : String} (h : IsDescription d) :
    trim (String.ofList (unix_newlines d.toList)) = d := by
  rw [unix_newlines_of_not_mem h.unix, String.ofList_toList]
  exact h.trimmed

/-- What is left of an objective when the description in front is taken off. -/
def task_objective (previous requested : String) : String :=
  if requested = previous then ""
  else ((strip_prefix_str requested previous).bind fun remainder =>
    strip_prefix_str remainder OBJECTIVE_SEPARATOR).getD requested

/-- A description in front of a task's own part. -/
def attach (description part : String) : String :=
  if part = "" then description
  else if byteLen description + byteLen OBJECTIVE_SEPARATOR + byteLen part ≤ 100000 then
    description ++ OBJECTIVE_SEPARATOR ++ part
  else description

/-- **The function takes the part and attaches it.** -/
theorem compose_eq {previous replacement : String} (hprevious : IsDescription previous)
    (hreplacement : IsDescription replacement) (requested : String) :
    compose_revised_task_objective previous replacement requested
      = attach replacement (task_objective previous (trim requested)) := by
  simp only [compose_revised_task_objective, hprevious.normalized, attach, task_objective,
    hprevious.nonempty, hreplacement.nonempty, ne_eq, not_false_eq_true, true_and, if_true,
      if_false]
  rfl

/-- **The three kinds of objectives**: the description alone, the description with a part of the
task behind the separator, and anything else, which is the task's own as a whole. -/
theorem task_objective_cases (previous requested : String) :
    (requested = previous ∧ task_objective previous requested = "")
      ∨ (requested = previous ++ OBJECTIVE_SEPARATOR ++ task_objective previous requested)
      ∨ (requested ≠ previous ∧ (∀ part, requested ≠ previous ++ OBJECTIVE_SEPARATOR ++ part)
        ∧ task_objective previous requested = requested) := by
  by_cases hsame : requested = previous
  · exact Or.inl ⟨hsame, by rw [task_objective, if_pos hsame]⟩
  · rw [task_objective, if_neg hsame]
    have hnone : ∀ part, requested = previous ++ OBJECTIVE_SEPARATOR ++ part →
        ((strip_prefix_str requested previous).bind fun remainder =>
          strip_prefix_str remainder OBJECTIVE_SEPARATOR) = some part := by
      intro part hpart
      have hstrip : strip_prefix_str requested previous = some (OBJECTIVE_SEPARATOR ++ part) := by
        rw [strip_prefix_eq_some, hpart, String.toList_append, String.toList_append,
          String.toList_append, List.append_assoc]
      rw [hstrip, Option.bind_some, strip_prefix_eq_some, String.toList_append]
    cases hbind : (strip_prefix_str requested previous).bind fun remainder =>
        strip_prefix_str remainder OBJECTIVE_SEPARATOR with
    | none =>
      refine Or.inr (Or.inr ⟨hsame, fun part hpart => ?_, rfl⟩)
      rw [hnone part hpart] at hbind
      cases hbind
    | some part =>
      obtain ⟨remainder, hremainder, hpart⟩ := Option.bind_eq_some_iff.mp hbind
      rw [strip_prefix_eq_some] at hremainder hpart
      refine Or.inr (Or.inl ?_)
      rw [Option.getD_some, ← String.toList_inj, hremainder, hpart, String.toList_append,
        String.toList_append, List.append_assoc]

/-- The task's own part ends like the objective: not in white space. -/
theorem task_objective_last (previous : String) {requested : String}
    (h : ∀ c ∈ requested.toList.getLast?, is_whitespace c = false) :
    ∀ c ∈ (task_objective previous requested).toList.getLast?, is_whitespace c = false := by
  intro c hc
  rcases task_objective_cases previous requested with ⟨-, hempty⟩ | hpart | ⟨-, -, hall⟩
  · rw [hempty] at hc
    cases hc
  · apply h
    rw [hpart, String.toList_append, List.getLast?_append, Option.mem_def.mp hc]
    rfl
  · rw [hall] at hc
    exact h c hc

/-- The objective that is composed if it is not too long. -/
def composed (description part : String) : String :=
  if part = "" then description else description ++ OBJECTIVE_SEPARATOR ++ part

theorem byteLen_append (a b : String) : byteLen (a ++ b) = byteLen a + byteLen b := by
  rw [byteLen, byteLen, byteLen, String.toList_append, List.map_append, List.sum_append]

/-- What is attached is found again. -/
theorem task_objective_attach {description part : String} (h : IsDescription description)
    (hlast : ∀ c ∈ part.toList.getLast?, is_whitespace c = false)
    (hfits : byteLen (composed description part) ≤ 100000) :
    task_objective description (trim (attach description part)) = part := by
  by_cases hpart : part = ""
  · rw [attach, if_pos hpart, h.trimmed, task_objective, if_pos rfl, hpart]
  · rw [composed, if_neg hpart, byteLen_append, byteLen_append] at hfits
    rw [attach, if_neg hpart, if_pos hfits]
    have hne : part.toList ≠ [] := fun hnil => hpart (String.toList_inj.mp hnil)
    have hdescription := trimmed_trim description
    rw [h.trimmed] at hdescription
    have hdescription_ne : description.toList ≠ [] :=
      fun hnil => h.nonempty (String.toList_inj.mp hnil)
    have htrimmed : Trimmed (description ++ OBJECTIVE_SEPARATOR ++ part).toList := by
      rw [String.toList_append, String.toList_append]
      constructor
      · intro c hc
        obtain ⟨d, ds, hds⟩ := List.exists_cons_of_ne_nil hdescription_ne
        apply hdescription.head
        rw [hds] at hc ⊢
        exact hc
      · intro c hc
        rw [List.getLast?_append_of_ne_nil _ hne] at hc
        exact hlast c hc
    rw [htrimmed.trim]
    rcases task_objective_cases description (description ++ OBJECTIVE_SEPARATOR ++ part) with
      ⟨hsame, -⟩ | hsame | ⟨-, hother, -⟩
    · have hlength := congrArg (fun text : String => text.toList.length) hsame
      simp only [String.toList_append, List.length_append] at hlength
      have hpos := List.length_pos_iff.mpr hne
      omega
    · have hlists := congrArg String.toList hsame
      rw [String.toList_append, String.toList_append, String.toList_append, String.toList_append]
        at hlists
      exact (String.toList_inj.mp (List.append_cancel_left hlists)).symm
    · exact absurd rfl (hother part)

/-! ## Chains of revisions -/

/-- One revision after another: each knows the description before it. -/
def revise_chain (previous objective : String) : List String → String
  | [] => objective
  | d :: rest => revise_chain d (compose_revised_task_objective previous d objective) rest

/-- No result of the chain is too long. -/
def Fits (previous objective : String) : List String → Prop
  | [] => True
  | d :: rest => byteLen (composed d (task_objective previous (trim objective))) ≤ 100000
      ∧ Fits d (compose_revised_task_objective previous d objective) rest

/-- By induction on the chain: every revision hands the same part on. -/
theorem revise_chain_eq {previous objective last : String} {ds : List String}
    (hprevious : IsDescription previous) (hds : ∀ d ∈ ds, IsDescription d)
    (hlast : IsDescription last) (hfits : Fits previous objective ds) :
    revise_chain previous objective (ds ++ [last])
      = attach last (task_objective previous (trim objective)) := by
  induction ds generalizing previous objective with
  | nil =>
    rw [List.nil_append, revise_chain, revise_chain]
    exact compose_eq hprevious hlast objective
  | cons d ds ih =>
    have hd := hds d List.mem_cons_self
    obtain ⟨hfit, hrest⟩ := hfits
    have hpart := task_objective_last previous (trimmed_trim objective).last
    rw [List.cons_append, revise_chain, ih hd (fun e he => hds e (List.mem_cons_of_mem d he)) hrest,
      compose_eq hprevious hd, task_objective_attach hd hpart hfit]

/-- Attaching the description again changes nothing, whether the part fitted or not. -/
theorem compose_attach {description part : String} (h : IsDescription description)
    (hlast : ∀ c ∈ part.toList.getLast?, is_whitespace c = false) :
    compose_revised_task_objective description description (attach description part)
      = attach description part := by
  rw [compose_eq h h]
  by_cases hfits : byteLen (composed description part) ≤ 100000
  · rw [task_objective_attach h hlast hfits]
  · have hdropped : attach description part = description := by
      rw [attach]
      split
      · rfl
      · rename_i hpart
        rw [composed, if_neg hpart, byteLen_append, byteLen_append] at hfits
        rw [if_neg hfits]
    rw [hdropped, h.trimmed, task_objective, if_pos rfl, attach, if_pos rfl]

/-- **Objectives do not accumulate descriptions.** A chain of revisions has the effect of its
last one; submitting the result again with the same description gives it back; and what stands
behind the last description is the task's own part, which depends on the first description and
objective only, has nothing of the descriptions between, and is found again. -/
theorem objectives_do_not_accumulate {previous objective last : String} {ds : List String}
    (hprevious : IsDescription previous) (hds : ∀ d ∈ ds, IsDescription d)
    (hlast : IsDescription last) (hfits : Fits previous objective ds) :
    revise_chain previous objective (ds ++ [last])
        = compose_revised_task_objective previous last objective
      ∧ compose_revised_task_objective last last (revise_chain previous objective (ds ++ [last]))
        = revise_chain previous objective (ds ++ [last])
      ∧ ∃ part, ((trim objective = previous ∧ part = "")
            ∨ trim objective = previous ++ OBJECTIVE_SEPARATOR ++ part
            ∨ (trim objective ≠ previous
              ∧ (∀ rest, trim objective ≠ previous ++ OBJECTIVE_SEPARATOR ++ rest)
              ∧ part = trim objective))
          ∧ (byteLen (composed last part) ≤ 100000 →
            revise_chain previous objective (ds ++ [last]) = composed last part
              ∧ task_objective last (trim (revise_chain previous objective (ds ++ [last])))
                = part) := by
  have hchain := revise_chain_eq hprevious hds hlast hfits
  have hpart := task_objective_last previous (trimmed_trim objective).last
  rw [hchain]
  refine ⟨(compose_eq hprevious hlast objective).symm, compose_attach hlast hpart,
    task_objective previous (trim objective), task_objective_cases previous (trim objective), ?_⟩
  intro hfit
  refine ⟨?_, task_objective_attach hlast hpart hfit⟩
  rw [composed, attach]
  split
  · rfl
  · rename_i hne
    rw [composed, if_neg hne, byteLen_append, byteLen_append] at hfit
    rw [if_pos hfit]

/-- Three descriptions, each a prefix of the next one, the last with the separator in it. -/
theorem objectives_do_not_accumulate_prefixes :
    revise_chain "a" "a\n\nTASK-SPECIFIC OBJECTIVE:\nx"
      (["ab"] ++ ["ab\n\nTASK-SPECIFIC OBJECTIVE:\nx"])
      = compose_revised_task_objective "a" "ab\n\nTASK-SPECIFIC OBJECTIVE:\nx"
          "a\n\nTASK-SPECIFIC OBJECTIVE:\nx" := by
  have ha : IsDescription "a" := ⟨by decide, by decide, by decide⟩
  have hab : ∀ d ∈ ["ab"], IsDescription d := by
    intro d hd
    rw [List.mem_singleton] at hd
    subst hd
    exact ⟨by decide, by decide, by decide⟩
  have hlast : IsDescription "ab\n\nTASK-SPECIFIC OBJECTIVE:\nx" :=
    ⟨by decide +kernel, by decide +kernel, by decide +kernel⟩
  have hfits : Fits "a" "a\n\nTASK-SPECIFIC OBJECTIVE:\nx" ["ab"] := ⟨by decide +kernel, trivial⟩
  exact (objectives_do_not_accumulate ha hab hlast hfits).1

end Crony.Store
