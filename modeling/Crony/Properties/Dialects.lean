/-
The two dialects of paths.

The server's dialect of typed source paths is narrower than what the runner exports: every path
of an accepted list is one the runner takes, is none of those it keeps back, and has the media
type the server expects. The paths of a list lie apart from each other even where upper and
lower case are not told apart, so the files can be laid out on any file system.
-/
import Crony.Lib.Volume
import Crony.Lib.Words
import Crony.Properties.Scopes
import Crony.Properties.TypedSource

set_option autoImplicit false

open Crony.Lib

namespace Crony

/-! ## Folding -/

@[simp] theorem toList_to_ascii_lowercase (text : String) :
    (to_ascii_lowercase text).toList = text.toList.map Char.toLower := by
  rw [to_ascii_lowercase, String.toList_ofList]

/-- Folding meets a character that is no letter only where it stands. -/
theorem toLower_eq_iff {c d : Char} (hd : d.toNat < 'A'.toNat) : c.toLower = d ↔ c = d := by
  delta Char.toLower
  split
  · rename_i hupper
    have hlow : 'A'.toNat ≤ c.toNat := UInt32.le_iff_toNat_le.mp hupper.1
    have hhigh : c.toNat ≤ 'Z'.toNat := UInt32.le_iff_toNat_le.mp hupper.2
    constructor
    · rintro rfl
      exfalso
      have hshift : (c.val + ('a'.val - 'A'.val)).toNat = c.toNat + 32 := by
        rw [UInt32.toNat_add, Nat.mod_eq_of_lt]
        · rfl
        · have hz : 'Z'.toNat = 90 := rfl
          have h32 : ('a'.val - 'A'.val).toNat = 32 := rfl
          have hc : c.val.toNat = c.toNat := rfl
          omega
      have hd' : (c.val + ('a'.val - 'A'.val)).toNat < 'A'.toNat := hd
      omega
    · rintro rfl
      omega
  · rfl

/-- The components of a folded path are the folded components. -/
theorem split_to_ascii_lowercase (path : String) :
    split (to_ascii_lowercase path) '/' = (split path '/').map to_ascii_lowercase := by
  rw [split, split, toList_to_ascii_lowercase, splitOn_map fun c => toLower_eq_iff (by decide)]
  rw [List.map_map, List.map_map]
  apply List.map_congr_left
  intro piece _
  rw [Function.comp, Function.comp, to_ascii_lowercase, String.toList_ofList]

/-- A folded text starts with a dot where the text does. -/
theorem starts_with_dot_fold (text : String) :
    starts_with (to_ascii_lowercase text) "." = starts_with text "." := by
  rw [starts_with, starts_with, toList_to_ascii_lowercase]
  cases text.toList with
  | nil => rfl
  | cons c cs =>
    have hc : ('.' == c.toLower) = ('.' == c) := by
      rw [Bool.eq_iff_iff, beq_iff_eq, beq_iff_eq, eq_comm, toLower_eq_iff (by decide), eq_comm]
    rw [List.map_cons]
    show (('.' == c.toLower) && _) = (('.' == c) && _)
    rw [hc]
    rfl

/-! ## What the runner keeps back -/

namespace Runner

/-- Every name the runner keeps back starts with a dot, or is a secret of the server's too. -/
theorem kept_back_names :
    (∀ name ∈ sensitive_directories, starts_with name "." = true)
      ∧ ∀ name ∈ sensitive_files, starts_with name "." = true ∨ Server.is_secret name = true := by
  decide +kernel

/-- Every suffix the runner keeps back is one of the server's. -/
theorem kept_back_suffixes {name suffix : String}
    (hsuffix : suffix ∈ [".pem", ".key", ".p12", ".pfx"])
    (h : Server.is_secret name = false) : ends_with name suffix = false := by
  rw [Server.is_secret] at h
  simp only [Bool.or_eq_false_iff, List.any_eq_false] at h
  have hmem : suffix ∈ [".pem", ".key", ".p12", ".pfx", ".p8", ".ppk", ".jks", ".keystore"] :=
    List.mem_append_left [".p8", ".ppk", ".jks", ".keystore"] hsuffix
  exact Bool.eq_false_of_not_eq_true (h.2 suffix hmem)

/-- A path whose folded names are visible and no secrets is not kept back. -/
theorem sensitive_path_of_names {path : String} (hslash : '\\' ∉ path.toList)
    (hvisible : ∀ name ∈ split (to_ascii_lowercase path) '/', starts_with name "." = false)
    (hsecret : ∀ name ∈ split (to_ascii_lowercase path) '/', Server.is_secret name = false) :
    sensitive_path path = false := by
  have hnormalized :
      String.ofList ((path.toList.map fun c => if c = '\\' then '/' else c).map Char.toLower)
      = to_ascii_lowercase path := by
    have hsame : path.toList.map (fun c => if c = '\\' then '/' else c) = path.toList := by
      refine (List.map_congr_left ?_).trans (List.map_id path.toList)
      intro c hc
      rw [if_neg (ne_of_mem_of_not_mem hc hslash), id]
    rw [hsame, to_ascii_lowercase]
  have hne : split (to_ascii_lowercase path) '/' ≠ [] := by
    rw [split, ne_eq, List.map_eq_nil_iff]
    exact List.splitOn_ne_nil _ _
  have hlast : (split (to_ascii_lowercase path) '/').getLastD (to_ascii_lowercase path)
      ∈ split (to_ascii_lowercase path) '/' := by
    rw [List.getLastD_eq_getLast?, List.getLast?_eq_some_getLast hne]
    exact List.getLast_mem hne
  have hfile := hvisible _ hlast
  have hfile_secret := hsecret _ hlast
  rw [sensitive_path]
  simp only [hnormalized, Bool.or_eq_false_iff, List.any_eq_false]
  refine ⟨⟨⟨⟨⟨⟨⟨?_, ?_⟩, ?_⟩, ?_⟩, ?_⟩, ?_⟩, ?_⟩, ?_⟩
  · -- a directory: its name would start with a dot
    intro name hname hmem
    have hdot := kept_back_names.1 name (of_decide_eq_true hmem)
    rw [hvisible name hname] at hdot
    cases hdot
  · -- a configuration: `.config` starts with a dot
    rintro ⟨parent, component⟩ hpair hmem
    have hparent : parent ∈ split (to_ascii_lowercase path) '/' := (List.of_mem_zip hpair).1
    rw [Bool.and_eq_true, beq_iff_eq] at hmem
    have hconfig : parent = ".config" := hmem.1
    have hdot := hvisible parent hparent
    rw [hconfig] at hdot
    revert hdot
    decide
  · -- a file `.env`
    apply Bool.eq_false_of_not_eq_true
    intro henv
    have hdot : starts_with
        ((split (to_ascii_lowercase path) '/').getLastD (to_ascii_lowercase path)) "."
        = true := starts_with_iff.mpr
      ((show ".".toList <+: ".env".toList by decide).trans (starts_with_iff.mp henv))
    rw [hfile] at hdot
    cases hdot
  · apply decide_eq_false
    intro hmem
    rcases kept_back_names.2 _ hmem with hdot | hsecret
    · rw [hfile] at hdot
      cases hdot
    · rw [hfile_secret] at hsecret
      cases hsecret
  all_goals exact kept_back_suffixes (by decide) hfile_secret

end Runner

namespace Server

/-- What the server asks of a component, folded. -/
theorem safe_component_fold {component : String} (h : safe_component component = true) :
    starts_with (to_ascii_lowercase component) "." = false
      ∧ is_secret (to_ascii_lowercase component) = false := by
  rw [safe_component] at h
  simp only [Bool.and_eq_true, Bool.not_eq_true', Bool.or_eq_false_iff] at h
  rw [starts_with_dot_fold]
  exact ⟨h.1.1.1.1, h.2⟩

theorem safe_path_valid {path : String} (h : safe_path path = true) :
    repository_relative_path_is_valid path = true := by
  rw [safe_path] at h
  simp only [Bool.and_eq_true] at h
  exact h.1.1.1

/-- **A safe path is one the runner exports.** -/
theorem safe_path_not_sensitive {path : String} (h : safe_path path = true) :
    Runner.sensitive_path path = false := by
  have hnames : ∀ name ∈ split (to_ascii_lowercase path) '/',
      starts_with name "." = false ∧ is_secret name = false := by
    intro name hname
    rw [split_to_ascii_lowercase] at hname
    obtain ⟨component, hcomponent, rfl⟩ := List.mem_map.mp hname
    exact safe_component_fold (safe_component_of_safe_path h hcomponent)
  have hslash : '\\' ∉ path.toList := by
    have hvalid := safe_path_valid h
    rw [repository_relative_path_is_valid] at hvalid
    simp only [Bool.and_eq_true, Bool.not_eq_true', contains, decide_eq_false_iff_not] at hvalid
    intro hmem
    exact hvalid.1.1.1.1.2 ((List.singleton_infix_iff _ _).mpr hmem)
  exact Runner.sensitive_path_of_names hslash (fun name hname => (hnames name hname).1)
    fun name hname => (hnames name hname).2

/-! ## Paths that lie apart -/

/-- Where a file comes to lie when upper and lower case are not told apart. -/
def folded_location (path : String) : List String := split (to_ascii_lowercase path) '/'

theorem lies_below_iff {folded other : String} :
    lies_below folded other = true ↔ ∃ rest, folded.toList = other.toList ++ '/' :: rest := by
  rw [lies_below, Option.any_eq_true]
  constructor
  · rintro ⟨rest, hrest, hslash⟩
    obtain ⟨tail, htail⟩ := starts_with_iff.mp hslash
    refine ⟨tail, ?_⟩
    rw [strip_prefix_eq_some.mp hrest, ← htail]
    rfl
  · rintro ⟨rest, hrest⟩
    have htext : (String.ofList ('/' :: rest)).toList = '/' :: rest := String.toList_ofList
    refine ⟨String.ofList ('/' :: rest), ?_, ?_⟩
    · rw [strip_prefix_eq_some, htext, hrest]
    · rw [starts_with_iff, htext]
      exact List.prefix_append ['/'] rest

/-- **Paths that do not collide lie apart**, as lists of folded names. -/
theorem apart_of_not_collide {p q : String} (h : ¬ Collide p q) :
    Apart (folded_location p) (folded_location q) := by
  have hupto : ∀ {a b : String}, split a '/' <+: split b '/' → b = a ∨ lies_below b a = true := by
    intro a b hab
    have hinj : Function.Injective String.ofList := fun x y hxy => by
      rw [← String.toList_ofList (l := x), hxy, String.toList_ofList]
    rw [split, split, List.prefix_map_iff_of_injective hinj, splitOn_prefix_iff] at hab
    rcases hab with hsame | hbelow
    · exact .inl (String.toList_inj.mp hsame)
    · exact .inr (lies_below_iff.mpr hbelow)
  rw [Collide, collides, Bool.or_eq_true, Bool.or_eq_true, beq_iff_eq, not_or, not_or] at h
  constructor
  · intro hpq
    rcases hupto hpq with hsame | hbelow
    · exact h.1.1 hsame.symm
    · exact h.2 hbelow
  · intro hqp
    rcases hupto hqp with hsame | hbelow
    · exact h.1.1 hsame
    · exact h.1.2 hbelow

/-- **Files of an accepted list are laid out without loss.** Written one after another, with
any contents, under folded names, every file is there in the end. -/
theorem laid_out {paths : List String} (h : checked_paths paths = .ok paths.toFinset)
    {contents : List Bytes} (hlength : contents.length = paths.length) :
    ∃ volume, Volume.write_all [] ((paths.map folded_location).zip contents) = some volume
      ∧ ∀ (i : Nat) (path : String) (content : Bytes), paths[i]? = some path →
        contents[i]? = some content → volume.read (folded_location path) = some content := by
  obtain ⟨-, -, hpairwise, -⟩ := checked_paths_ok_iff.mp h
  have hapart : ((paths.map folded_location).zip contents).Pairwise fun f g => Apart f.1 g.1 := by
    have hmap : ((paths.map folded_location).zip contents).map Prod.fst = paths.map
        folded_location :=
      List.map_fst_zip (by rw [List.length_map, hlength])
    have hlocations : (paths.map folded_location).Pairwise Apart := by
      rw [List.pairwise_map]
      exact hpairwise.imp fun hno => apart_of_not_collide fun hcollide => hno hcollide.symm
    rw [← hmap, List.pairwise_map] at hlocations
    exact hlocations
  obtain ⟨volume, hall, hread, -⟩ := Volume.write_all_apart hapart (v := []) (by simp)
  refine ⟨volume, hall, ?_⟩
  intro i path content hpath hcontent
  apply hread (folded_location path, content)
  apply List.mem_of_getElem? (i := i)
  rw [List.getElem?_zip_eq_some, List.getElem?_map, hpath]
  exact ⟨rfl, hcontent⟩

end Server

/-- **The dialects of paths agree.** Every path of a list the server accepts is one the runner
exports and does not keep back, and both sides give it the same media type. Two paths of the
list are different, and neither is a directory of the other, even under ASCII case folding; so
the files can be laid out where upper and lower case are not told apart. -/
theorem path_dialects_agree {paths : List String}
    (h : Server.validate_typed_source_paths paths = .ok ()) :
    (∀ p ∈ paths, Runner.validate_relative p = .ok () ∧ repository_relative_path_is_valid p = true
      ∧ Runner.sensitive_path p = false ∧ Server.text_media_type p = some
        (Runner.infer_media_type p))
    ∧ (∀ (i j : Nat) (p q : String), paths[i]? = some p → paths[j]? = some q → i ≠ j →
      to_ascii_lowercase p ≠ to_ascii_lowercase q
        ∧ ¬ ∃ rest, to_ascii_lowercase q = to_ascii_lowercase p ++ "/" ++ rest)
    ∧ ∀ contents : List Bytes, contents.length = paths.length →
      ∃ volume, Volume.write_all [] ((paths.map Server.folded_location).zip contents) = some volume
        ∧ ∀ (i : Nat) (path : String) (content : Bytes), paths[i]? = some path →
          contents[i]? = some content → volume.read (Server.folded_location path)
            = some content := by
  obtain ⟨-, hchecked, htext⟩ := validate_typed_source_paths_ok h
  obtain ⟨-, hsafe, hpairwise, -⟩ := Server.checked_paths_ok_iff.mp hchecked
  refine ⟨?_, ?_, fun contents hlength => Server.laid_out hchecked hlength⟩
  · intro p hp
    have hvalid := Server.safe_path_valid (hsafe p hp)
    obtain ⟨media_type, hmedia⟩ := Option.isSome_iff_exists.mp (htext p hp)
    refine ⟨ensure_of hvalid, hvalid, Server.safe_path_not_sensitive (hsafe p hp), ?_⟩
    rw [hmedia, Server.infer_media_type_eq (hsafe p hp) hmedia]
  · intro i j p q hp hq hij
    have hno : ¬ Server.Collide p q := by
      rw [List.pairwise_iff_getElem] at hpairwise
      obtain ⟨hi, rfl⟩ := List.getElem?_eq_some_iff.mp hp
      obtain ⟨hj, rfl⟩ := List.getElem?_eq_some_iff.mp hq
      rcases Nat.lt_or_gt_of_ne hij with hlt | hlt
      · exact fun hcollide => hpairwise i j hi hj hlt hcollide.symm
      · exact hpairwise j i hj hi hlt
    rw [Server.Collide, Server.collides, Bool.or_eq_true, Bool.or_eq_true, beq_iff_eq, not_or,
      not_or, Server.lies_below_iff, Server.lies_below_iff] at hno
    refine ⟨hno.1.1, ?_⟩
    rintro ⟨rest, hrest⟩
    refine hno.2 ⟨rest.toList, ?_⟩
    rw [hrest, String.toList_append, String.toList_append, List.append_assoc]
    rfl

set_option maxRecDepth 20000 in
/-- The theorem at two files, one beside the directory of the other. -/
theorem path_dialects_agree_pair :
    Server.validate_typed_source_paths ["docs/Guide.md", "docs.json"] = .ok ()
      ∧ Runner.sensitive_path "docs/Guide.md" = false
      ∧ Server.text_media_type "docs.json" = some (Runner.infer_media_type "docs.json") := by
  have h : Server.validate_typed_source_paths ["docs/Guide.md", "docs.json"] = .ok () := by
    decide +kernel
  have hagree := (path_dialects_agree h).1
  exact ⟨h, (hagree "docs/Guide.md" (by decide)).2.2.1, (hagree "docs.json" (by decide)).2.2.2⟩

end Crony
