/-
Volumes of files.

A volume holds files under paths, and a path is a list of keys; what the keys are is left open,
so that a file system that does not tell upper and lower case apart is a volume over folded
names. A directory is there because something lies in it: the directories of a volume are the
proper prefixes of the paths of its files. This file names nothing of the repository.
-/
import Mathlib.Data.List.Infix

set_option autoImplicit false

namespace Crony.Lib

variable {κ ν : Type} [DecidableEq κ]

/-- The files of a volume, every path at most once. -/
abbrev Volume (κ ν : Type) := List (List κ × ν)

/-- The content of the file at a path. -/
def Volume.read (v : Volume κ ν) (path : List κ) : Option ν := v.lookup path

/-- A file stands where the path needs a directory, or a directory where the path ends. -/
def Volume.blocked (v : Volume κ ν) (path : List κ) : Bool :=
  v.any fun file => file.1 != path && (file.1.isPrefixOf path || path.isPrefixOf file.1)

/-- Writing one file, with the directories above it; a file that is there is overwritten. -/
def Volume.write (v : Volume κ ν) (file : List κ × ν) : Option (Volume κ ν) :=
  if v.blocked file.1 then none else some (file :: v.filter fun other => other.1 != file.1)

/-- Writing several files, one after another. -/
def Volume.write_all (v : Volume κ ν) (files : List (List κ × ν)) : Option (Volume κ ν) :=
  files.foldlM Volume.write v

/-- Neither path is the other or a directory of it. -/
def Apart (p q : List κ) : Prop := ¬ p <+: q ∧ ¬ q <+: p

omit [DecidableEq κ] in
theorem Apart.ne {p q : List κ} (h : Apart p q) : p ≠ q := by
  rintro rfl
  exact h.1 (List.prefix_refl p)

theorem Volume.read_cons (v : Volume κ ν) (file : List κ × ν) (path : List κ) :
    Volume.read (file :: v) path = if path = file.1 then some file.2 else v.read path := by
  rw [Volume.read, Volume.read, List.lookup_cons]
  by_cases h : path = file.1
  · rw [if_pos h, beq_iff_eq.mpr h]
  · rw [if_neg h, beq_eq_false_iff_ne.mpr h]

/-- Dropping another path does not change what is read. By induction on the files. -/
theorem Volume.read_filter (v : Volume κ ν) {path other : List κ} (h : path ≠ other) :
    Volume.read (v.filter fun file => file.1 != other) path = v.read path := by
  induction v with
  | nil => rfl
  | cons file v ih =>
    rw [List.filter_cons, Volume.read_cons]
    by_cases hfile : file.1 = other
    · have hpath : path ≠ file.1 := by
        rw [hfile]
        exact h
      rw [if_neg (by simpa using hfile), ih, if_neg hpath]
    · rw [if_pos (by simpa using hfile), Volume.read_cons, ih]

/-- A file that lies apart from all others can be written; then it is read back, and every
other file is what it was. -/
theorem Volume.write_apart {v : Volume κ ν} {file : List κ × ν} (h : ∀ g ∈ v, Apart g.1 file.1) :
    ∃ v', v.write file = some v' ∧ v'.read file.1 = some file.2
      ∧ (∀ path, path ≠ file.1 → v'.read path = v.read path)
      ∧ ∀ g ∈ v', g = file ∨ g ∈ v := by
  have hfree : v.blocked file.1 = false := by
    rw [Volume.blocked, List.any_eq_false]
    intro g hg
    simp only [Bool.and_eq_true, Bool.or_eq_true, List.isPrefixOf_iff_prefix]
    rintro ⟨-, hupto | hupto⟩
    · exact (h g hg).1 hupto
    · exact (h g hg).2 hupto
  refine ⟨file :: v.filter fun other => other.1 != file.1, ?_, ?_, ?_, ?_⟩
  · rw [Volume.write, hfree]
    rfl
  · rw [Volume.read_cons, if_pos rfl]
  · intro path hpath
    rw [Volume.read_cons, if_neg hpath, Volume.read_filter v hpath]
  · intro g hg
    rcases List.mem_cons.mp hg with hg | hg
    · exact .inl hg
    · exact .inr (List.mem_of_mem_filter hg)

/-- **Files that lie apart are all written and all kept.** By induction on the files that are
still to be written; what is on the volume lies apart from them. -/
theorem Volume.write_all_apart {files : List (List κ × ν)} {v : Volume κ ν}
    (hfiles : files.Pairwise fun f g => Apart f.1 g.1) (hv : ∀ g ∈ v, ∀ f ∈ files, Apart g.1 f.1) :
    ∃ v', v.write_all files = some v' ∧ (∀ f ∈ files, v'.read f.1 = some f.2)
      ∧ ∀ path, (∀ f ∈ files, path ≠ f.1) → v'.read path = v.read path := by
  induction files generalizing v with
  | nil =>
    refine ⟨v, rfl, ?_, fun path _ => rfl⟩
    intro f hf
    cases hf
  | cons file files ih =>
    obtain ⟨hfile, hfiles⟩ := List.pairwise_cons.mp hfiles
    obtain ⟨u, hwrite, hread, hother, hmem⟩ :=
      Volume.write_apart fun g hg => hv g hg file List.mem_cons_self
    have hu : ∀ g ∈ u, ∀ f ∈ files, Apart g.1 f.1 := by
      intro g hg f hf
      rcases hmem g hg with rfl | hg
      · exact hfile f hf
      · exact hv g hg f (List.mem_cons_of_mem file hf)
    obtain ⟨v', hall, hreads, hkept⟩ := ih hfiles hu
    refine ⟨v', ?_, ?_, ?_⟩
    · rw [Volume.write_all, List.foldlM_cons, hwrite]
      exact hall
    · intro f hf
      rcases List.mem_cons.mp hf with rfl | hf
      · -- the later files leave the first one alone
        rw [hkept f.1 fun g hg => (hfile g hg).ne, hread]
      · exact hreads f hf
    · intro path hpath
      have hrest : ∀ f ∈ files, path ≠ f.1 := fun f hf => hpath f (List.mem_cons_of_mem file hf)
      rw [hkept path hrest, hother path (hpath file List.mem_cons_self)]

end Crony.Lib
