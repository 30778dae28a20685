/-
The resume lineage of a pull-request publication.

A publication speaks for the accepted run and the runs it resumes. `publication_resume_lineage`
reads the runs of the Factory mission with the run each one resumes, and follows these links
from the accepted run; a run listed twice, a link to a run that is not listed and a run that
comes back to itself all fail closed. That the loop ends whatever the links are is part of the
definition of `walk`.
-/
import Crony.Lib.Lineage
import Crony.Domain

set_option autoImplicit false

open Crony.Lib

namespace Crony.Store

/-- `publication_resume_lineage`. -/
def publication_resume_lineage (selected_run_id : Uuid) (resume_edges : List (Uuid × Option Uuid)) :
    Except String (Finset Uuid) :=
  let parents := collect resume_edges
  if parents.length ≠ resume_edges.length then
    .error "pull-request publication run lineage contains duplicate run identifiers"
  else
    walk parents "pull-request publication run lineage contains a resume cycle"
      (fun run_id => "pull-request publication run lineage references run " ++ uuid_text run_id
        ++ " outside the factory mission")
      ∅ (some selected_run_id)

/-- **The lineage is the resume chain.** For any list of runs with the run each resumes and
any accepted run, the lineage is `s` exactly when no run is listed twice and the links from
the accepted run lead through listed runs, none of them twice, to one that resumes nothing;
`s` is then the set of the runs on that chain. -/
theorem publication_resume_lineage_eq_ok (selected_run_id : Uuid)
    (resume_edges : List (Uuid × Option Uuid)) (s : Finset Uuid) :
    publication_resume_lineage selected_run_id resume_edges = .ok s ↔
      (resume_edges.map Prod.fst).Nodup
        ∧ ∃ chain, Path resume_edges selected_run_id chain ∧ chain.Nodup ∧ s = chain.toFinset := by
  unfold publication_resume_lineage
  by_cases hkeyed : Keyed Prod.fst resume_edges
  · have hlength := length_collect_eq_iff.mpr hkeyed
    rw [if_neg (not_not.mpr hlength), collect_eq_self hkeyed, walk_eq_ok hkeyed]
    constructor
    · rintro ⟨chain, hpath, hnodup, -, rfl⟩
      exact ⟨hkeyed, chain, hpath, hnodup, Finset.empty_union _⟩
    · rintro ⟨-, chain, hpath, hnodup, rfl⟩
      exact ⟨chain, hpath, hnodup, fun _ _ => Finset.notMem_empty _, (Finset.empty_union _).symm⟩
  · have hlength : (collect resume_edges).length ≠ resume_edges.length :=
      fun h => hkeyed (length_collect_eq_iff.mp h)
    rw [if_pos hlength]
    constructor
    · intro h
      cases h
    · rintro ⟨hnodup, -⟩
      exact absurd hnodup hkeyed

end Crony.Store
