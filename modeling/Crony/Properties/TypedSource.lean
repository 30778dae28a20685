/-
The transport of a typed source.

The runner writes a document about the files it exports, the server takes it apart; they are
separate programs. What is shown here is that they agree: a typed artifact set the runner
exports, as long as it stays within the decoder's limits, is decoded to the very files that
were exported, and whatever the decoder accepts consists of the declared files with the
declared digests and lengths.
-/
import Crony.Properties.SourceDialect

set_option autoImplicit false

open Crony.Lib

namespace Crony

/-! ## What the runner exports -/

namespace Runner

/-- The document behind an export. -/
def exported_document (crates : Crates) (git : Git) (spec : DeliverableSpec)
    (lease : WorkspaceLease)
    (report : Bytes) (preserve_head_commit : Option String) : Except String Json := do
  let changes ← changed_paths git
  let head_commit ←
    commit_deliverable git spec lease (crates.digest report) changes preserve_head_commit
  let patch ← git.diff
  let git_bundle ← bundle_deliverable git spec head_commit
  let archived ← archive_changes crates git changes (includes_content spec.form)
  return document crates spec.form lease head_commit (crates.digest report) patch git_bundle
    archived

variable {crates : Crates} {git : Git} {spec : DeliverableSpec} {lease : WorkspaceLease}
  {report : Bytes} {write_scope : List String} {preserve_head_commit : Option String}
  {exported : ExportedDeliverable}

/-- **What a typed artifact set consists of.** -/
theorem export_with_index_typed (hform : spec.form = .typed_artifact_set)
    (h : export_with_index crates git spec lease report write_scope preserve_head_commit
      = .ok exported) :
    ∃ changes patch archived v, changed_paths git = .ok changes
      ∧ reject_unsafe_changes git changes = .ok () ∧ git.diff = .ok patch
      ∧ archive_changes crates git changes true = .ok archived
      ∧ v = document crates .typed_artifact_set lease exported.head_commit
        exported.verification_sha256 patch none archived
      ∧ exported_document crates git spec lease report preserve_head_commit = .ok v
      ∧ exported.bytes = crates.to_vec_pretty v ∧ exported.base_commit = lease.base_commit
      ∧ exported.branch = lease.branch ∧ exported.verification_sha256 = crates.digest report
      ∧ exported.media_type = Server.TYPED_SOURCE_MEDIA_TYPE := by
  have hbundle (head_commit : Option String) :
      bundle_deliverable git spec head_commit = .ok none := by
    rw [bundle_deliverable, hform, if_neg (by decide)]
    rfl
  rw [export_with_index] at h
  simp only [bind_eq_ok, ensure_eq_ok, exists_const, pure_eq_ok, hbundle] at h
  obtain ⟨-, -, changes, hchanges, -, -, ⟨⟩, hsafe, head_commit, hhead, patch, hpatch,
    git_bundle, hnone, ⟨bytes, media_type⟩, hserialize, -, -, rfl⟩ := h
  cases hnone
  rw [serialize_deliverable, hform, if_neg (by decide)] at hserialize
  simp only [bind_eq_ok, pure_eq_ok, Prod.mk.injEq] at hserialize
  obtain ⟨archived, harchived, rfl, rfl⟩ := hserialize
  have hcontent : includes_content .typed_artifact_set = true := rfl
  refine ⟨changes, patch, archived, _, hchanges, hsafe, hpatch, harchived, rfl, ?_, rfl, rfl, rfl,
    rfl, rfl⟩
  rw [exported_document, hchanges, ok_bind, hhead, ok_bind, hpatch, ok_bind, hbundle, ok_bind,
    hform, harchived]
  rfl

/-- The changes are sorted by path. -/
theorem changed_paths_sorted {changes : List (String × String)}
    (h : changed_paths git = .ok changes) : changes.Pairwise fun a b => a.2 ≤ b.2 := by
  rw [changed_paths] at h
  simp only [bind_eq_ok, pure_eq_ok] at h
  obtain ⟨-, -, fields, -, rfl⟩ := h
  refine (sort_by_key_pairwise change_key fields).imp ?_
  intro a b hab
  rw [change_key, change_key, Prod.Lex.toLex_le_toLex] at hab
  rcases hab with hlt | ⟨heq, -⟩
  · exact le_of_lt hlt
  · exact le_of_eq heq

/-- A change that is not a deletion has a regular mode. -/
theorem reject_unsafe_changes_mode {changes : List (String × String)}
    (h : reject_unsafe_changes git changes = .ok ()) {change : String × String}
    (hchange : change ∈ changes) (hstatus : starts_with change.1 "D" = false) :
    ∃ mode, index_mode git change.2 = .ok mode ∧ (mode = "100644" ∨ mode = "100755") := by
  induction changes with
  | nil => cases hchange
  | cons c rest ih =>
    rw [reject_unsafe_changes] at h
    change (reject_unsafe_change git c >>= fun _ => rest.forM (reject_unsafe_change git)) = .ok ()
      at h
    rw [bind_eq_ok] at h
    obtain ⟨⟨⟩, hc, hrest⟩ := h
    rcases List.mem_cons.mp hchange with rfl | hmem
    · rw [reject_unsafe_change] at hc
      simp only [bind_eq_ok, ensure_eq_ok, exists_const, hstatus, Bool.false_eq_true, if_false]
        at hc
      obtain ⟨-, mode, hmode, -, -, hregular, -⟩ := hc
      exact ⟨mode, hmode, hregular⟩
    · exact ih hrest hmem

end Runner

/-! ## The limits of the decoder -/

section Transport

variable {crates : Crates} {git : Runner.Git}

/-- A change the decoder takes: a regular file of supported text within the size limit. -/
structure Portable (crates : Crates) (git : Runner.Git) (change : String × String) : Prop where
  status : change.1 ∈ ["A", "M", "T"]
  text : ∀ content, git.show_path change.2 = .ok content →
    content.length ≤ Server.MAX_TYPED_SOURCE_FILE_BYTES
      ∧ ∃ text, from_utf8 content = some text ∧ text.toList.any Server.is_unsupported = false
        ∧ (Server.text_media_type change.2 = some "application/json" → crates.is_json text = true)

/-- What a change costs of the prompt budget. -/
def prompt_cost (git : Runner.Git) (change : String × String) : Nat :=
  match git.show_path change.2 with
  | .ok content => content.length + byteLen change.2 + 64 + Server.FILE_FRAMING_BYTES
  | .error _ => 0

/-- **The decoder's limits**, on what the runner exports. -/
structure WithinLimits (crates : Crates) (git : Runner.Git)
    (exported : Runner.ExportedDeliverable) : Prop where
  paths : ∀ changes, Runner.changed_paths git = .ok changes →
    Server.validate_typed_source_paths (changes.map Prod.snd) = .ok ()
  portable : ∀ changes, Runner.changed_paths git = .ok changes →
    ∀ change ∈ changes, Portable crates git change
  prompt : ∀ changes, Runner.changed_paths git = .ok changes →
    (changes.map (prompt_cost git)).sum ≤ Server.MAX_TYPED_SOURCE_PROMPT_BYTES
  patch : ∀ patch, git.diff = .ok patch → patch.length ≤ Server.MAX_PATCH_BYTES
  base_commit : Server.valid_commit exported.base_commit = true
  head_commit : ∀ head ∈ exported.head_commit, Server.valid_commit head = true
  branch : Server.valid_branch exported.branch = true
  envelope : exported.bytes.length ≤ Server.MAX_TYPED_SOURCE_ENVELOPE_BYTES

/-- The caller expects this export: its identity, and exactly its files as the declared
ones. -/
structure Expects (crates : Crates) (git : Runner.Git) (exported : Runner.ExportedDeliverable)
    (expected : Server.ExpectedTypedSource) : Prop where
  base_commit : expected.base_commit = exported.base_commit
  verification_sha256 : expected.verification_sha256 = exported.verification_sha256
  declared_paths : ∀ changes, Runner.changed_paths git = .ok changes →
    expected.declared_paths.Perm (changes.map Prod.snd)
  changed_paths : ∀ changed ∈ expected.changed_paths, changed.Perm expected.declared_paths
  source : ∀ source ∈ expected.source, source =
    { form := .typed_artifact_set, sha256 := crates.digest exported.bytes
      media_type := exported.media_type, bytes := exported.bytes.length
      verification_sha256 := exported.verification_sha256, base_commit := exported.base_commit
      head_commit := exported.head_commit, branch := exported.branch }

/-! ## One file -/

/-- The document's account of a change, with the answers Git gave. -/
def Exported (crates : Crates) (git : Runner.Git) (change : String × String)
    (archived : Server.ArchivedChange) : Prop :=
  ∃ mode content, Runner.index_mode git change.2 = .ok mode ∧ git.show_path change.2 = .ok content
    ∧ archived = Server.exported_change crates change mode content

/-- The file a change is decoded to. -/
def Delivered (git : Runner.Git) (change : String × String) (file : Server.DependencySourceFile) :
    Prop :=
  file.path = change.2 ∧ git.show_path change.2 = .ok (as_bytes file.content)

theorem Portable.not_deleted {change : String × String} (h : Portable crates git change) :
    starts_with change.1 "D" = false := by
  have hstatus := h.status
  simp only [List.mem_cons, List.not_mem_nil, or_false] at hstatus
  rcases hstatus with hs | hs | hs
  · rw [hs]
    decide
  · rw [hs]
    decide
  · rw [hs]
    decide

/-- By induction on the changes: what was archived is read back. -/
theorem archived_read {changes : List (String × String)} {archived : List Runner.ArchivedChange}
    (hportable : ∀ change ∈ changes, Portable crates git change)
    (h : Runner.archive_changes crates git changes true = .ok archived) :
    ∃ read, (archived.map Runner.ArchivedChange.to_value).mapM Server.ArchivedChange.from_value
        = some read ∧ archived.length = changes.length
      ∧ List.Forall₂ (Exported crates git) changes read := by
  induction changes generalizing archived with
  | nil =>
    rw [Runner.archive_changes, List.mapM_nil, pure_eq_ok] at h
    subst h
    exact ⟨[], rfl, rfl, List.Forall₂.nil⟩
  | cons change rest ih =>
    rw [Runner.archive_changes, List.mapM_cons] at h
    simp only [bind_eq_ok, pure_eq_ok] at h
    obtain ⟨a, ha, as, has, rfl⟩ := h
    have hchange := hportable change List.mem_cons_self
    obtain ⟨read, hread, hlength, hrelated⟩ :=
      ih (fun c hc => hportable c (List.mem_cons_of_mem change hc)) has
    rw [Runner.archive_change] at ha
    simp only [hchange.not_deleted, Bool.false_eq_true, if_false, if_true, bind_eq_ok,
      pure_eq_ok] at ha
    obtain ⟨content, hcontent, mode, hmode, rfl⟩ := ha
    have hsmall : content.length < 2 ^ 64 := by
      have hle := (hchange.text content hcontent).1
      rw [Server.MAX_TYPED_SOURCE_FILE_BYTES] at hle
      omega
    refine ⟨Server.exported_change crates change mode content :: read, ?_, ?_, ?_⟩
    · have hone := Server.from_value_to_value crates change mode hsmall
      rw [Server.archived_change] at hone
      rw [List.map_cons, List.mapM_cons, hone, hread]
      rfl
    · rw [List.length_cons, List.length_cons, hlength]
    · exact List.Forall₂.cons ⟨mode, content, hmode, hcontent, rfl⟩ hrelated

/-- The metadata of a file passes, and takes its share of the prompt. -/
theorem check_changes_cons {change : String × String} {archived : Server.ArchivedChange}
    {rest : List Server.ArchivedChange} {n : Nat} (hportable : Portable crates git change)
    (hsafe : Server.safe_path change.2 = true)
    (htext : (Server.text_media_type change.2).isSome = true)
    (hmode : ∀ mode, Runner.index_mode git change.2 = .ok mode → mode = "100644" ∨ mode = "100755")
    (h : Exported crates git change archived)
    (hprompt : n + prompt_cost git change ≤ Server.MAX_TYPED_SOURCE_PROMPT_BYTES) :
    Server.check_changes (archived :: rest) n = Server.check_changes rest
      (n + prompt_cost git change) := by
  obtain ⟨mode, content, hm, hc, rfl⟩ := h
  obtain ⟨hlength, -⟩ := hportable.text content hc
  have hcost : prompt_cost git change
      = content.length + byteLen change.2 + 64 + Server.FILE_FRAMING_BYTES := by
    rw [prompt_cost, hc]
  obtain ⟨media_type, hmedia⟩ := Option.isSome_iff_exists.mp htext
  have hregular : mode ∈ ["100644", "100755"] := by
    simpa using hmode mode hm
  have hinfer : Server.text_media_type change.2 = some (Runner.infer_media_type change.2) := by
    rw [Server.infer_media_type_eq hsafe hmedia]
    exact hmedia
  have hbase64 : byteLen (base64_text content) = Server.encoded_len content.length :=
    base64_text_length content
  have hbound : byteLen (base64_text content)
      ≤ Server.encoded_len Server.MAX_TYPED_SOURCE_FILE_BYTES := by
    rw [hbase64]
    exact Server.encoded_len_mono hlength
  have hstatus : change.1 ∈ ["A", "M", "T"] ∧ mode ∈ ["100644", "100755"] :=
    ⟨hportable.status, hregular⟩
  have hlengths : content.length ≤ Server.MAX_TYPED_SOURCE_FILE_BYTES
      ∧ byteLen (base64_text content) ≤ Server.encoded_len Server.MAX_TYPED_SOURCE_FILE_BYTES :=
    ⟨hlength, hbound⟩
  rw [hcost] at hprompt ⊢
  refine Server.check_changes_of (c := Server.exported_change crates change mode content) hstatus
    ?_ (Server.valid_digest_digest crates content) hlengths hbase64 hprompt
  simp only [Server.exported_change]
  exact hinfer

/-- The content of a file is decoded to its text. -/
theorem decode_change_exported {change : String × String} {archived : Server.ArchivedChange}
    (hportable : Portable crates git change) (hsafe : Server.safe_path change.2 = true)
    (htext : (Server.text_media_type change.2).isSome = true)
    (h : Exported crates git change archived) :
    ∃ file, Server.decode_change crates archived = .ok file ∧ Delivered git change file := by
  obtain ⟨mode, content, -, hc, rfl⟩ := h
  obtain ⟨hlength, text, hutf8, hsupported, hjson⟩ := hportable.text content hc
  obtain ⟨media_type, hmedia⟩ := Option.isSome_iff_exists.mp htext
  have hvalid : Runner.infer_media_type change.2 = "application/json" →
      crates.is_json text = true := by
    intro hinfer
    rw [Server.infer_media_type_eq hsafe hmedia] at hinfer
    exact hjson (hinfer ▸ hmedia)
  have hdecoded := Server.decode_base64_text hlength
  refine ⟨{ path := change.2, sha256 := crates.digest content, content := text }, ?_, rfl, ?_⟩
  · refine Server.decode_change_of (c := Server.exported_change crates change mode content) hdecoded
      rfl rfl hutf8 hsupported ?_
    simp only [Server.exported_change]
    exact hvalid
  · rw [as_bytes_of_from_utf8 hutf8]
    exact hc

/-! ## All files -/

theorem exported_paths {changes : List (String × String)} {read : List Server.ArchivedChange}
    (h : List.Forall₂ (Exported crates git) changes read) :
    read.map Server.ArchivedChange.path = changes.map Prod.snd := by
  induction h with
  | nil => rfl
  | cons hone _ ih =>
    obtain ⟨mode, content, -, -, rfl⟩ := hone
    rw [List.map_cons, List.map_cons, ih, Server.exported_change]

/-- By induction on the changes: the metadata pass as long as the prompt lasts. -/
theorem check_changes_exported {changes : List (String × String)}
    {read : List Server.ArchivedChange}
    {n : Nat} (hportable : ∀ change ∈ changes, Portable crates git change)
    (hsafe : ∀ change ∈ changes, Server.safe_path change.2 = true)
    (htext : ∀ change ∈ changes, (Server.text_media_type change.2).isSome = true)
    (hmode : ∀ change ∈ changes, ∀ mode, Runner.index_mode git change.2 = .ok mode →
      mode = "100644" ∨ mode = "100755")
    (h : List.Forall₂ (Exported crates git) changes read)
    (hprompt : n + (changes.map (prompt_cost git)).sum ≤ Server.MAX_TYPED_SOURCE_PROMPT_BYTES) :
    Server.check_changes read n = .ok () := by
  induction h generalizing n with
  | nil => rfl
  | @cons change archived rest read hone _ ih =>
    rw [List.map_cons, List.sum_cons] at hprompt
    rw [check_changes_cons (hportable change List.mem_cons_self) (hsafe change List.mem_cons_self)
      (htext change List.mem_cons_self) (hmode change List.mem_cons_self) hone (by omega)]
    exact ih (fun c hc => hportable c (List.mem_cons_of_mem change hc))
      (fun c hc => hsafe c (List.mem_cons_of_mem change hc))
      (fun c hc => htext c (List.mem_cons_of_mem change hc))
      (fun c hc => hmode c (List.mem_cons_of_mem change hc)) (by omega)

/-- By induction on the changes: every file is delivered. -/
theorem decode_changes_exported {changes : List (String × String)}
    {read : List Server.ArchivedChange} (hportable : ∀ change ∈ changes, Portable crates git change)
    (hsafe : ∀ change ∈ changes, Server.safe_path change.2 = true)
    (htext : ∀ change ∈ changes, (Server.text_media_type change.2).isSome = true)
    (h : List.Forall₂ (Exported crates git) changes read) :
    ∃ files, read.mapM (Server.decode_change crates) = .ok files
      ∧ List.Forall₂ (Delivered git) changes files := by
  induction h with
  | nil => exact ⟨[], rfl, List.Forall₂.nil⟩
  | @cons change archived rest read hone _ ih =>
    obtain ⟨file, hfile, hdelivered⟩ := decode_change_exported
      (hportable change List.mem_cons_self) (hsafe change List.mem_cons_self)
      (htext change List.mem_cons_self) hone
    obtain ⟨files, hfiles, hrest⟩ := ih (fun c hc => hportable c (List.mem_cons_of_mem change hc))
      (fun c hc => hsafe c (List.mem_cons_of_mem change hc))
      (fun c hc => htext c (List.mem_cons_of_mem change hc))
    refine ⟨file :: files, ?_, List.Forall₂.cons hdelivered hrest⟩
    rw [List.mapM_cons, hfile, ok_bind, hfiles, ok_bind]
    rfl

theorem delivered_paths {changes : List (String × String)}
    {files : List Server.DependencySourceFile}
    (h : List.Forall₂ (Delivered git) changes files) :
    files.map Server.DependencySourceFile.path = changes.map Prod.snd := by
  induction h with
  | nil => rfl
  | cons hone _ ih => rw [List.map_cons, List.map_cons, ih, hone.1]

/-- What the dialect says about every path of an accepted list. -/
theorem validate_typed_source_paths_ok {paths : List String}
    (h : Server.validate_typed_source_paths paths = .ok ()) :
    paths ≠ [] ∧ Server.checked_paths paths = .ok paths.toFinset
      ∧ ∀ p ∈ paths, (Server.text_media_type p).isSome = true := by
  rw [Server.validate_typed_source_paths] at h
  simp only [bind_eq_ok, ensure_eq_ok, exists_const] at h
  obtain ⟨hne, validated, hchecked, htext⟩ := h
  obtain ⟨-, -, -, rfl⟩ := Server.checked_paths_ok_iff.mp hchecked
  exact ⟨hne, hchecked, fun p hp => htext p (List.mem_toFinset.mpr hp)⟩

/-- The dialect does not look at the order. -/
theorem validate_typed_source_paths_perm {paths paths' : List String} (hperm : paths.Perm paths')
    (h : Server.validate_typed_source_paths paths = .ok ()) :
    Server.validate_typed_source_paths paths' = .ok () := by
  obtain ⟨hne, hchecked, htext⟩ := validate_typed_source_paths_ok h
  have hne' : paths' ≠ [] := by
    rintro rfl
    exact hne hperm.eq_nil
  have htext' : ∀ p ∈ paths.toFinset, (Server.text_media_type p).isSome = true := by
    intro p hp
    exact htext p (List.mem_toFinset.mp hp)
  rw [Server.validate_typed_source_paths, ensure_of hne', ok_bind,
    Server.checked_paths_perm hperm hchecked, ok_bind, ensure_of htext']

/-! ## The round trip -/

variable {spec : DeliverableSpec} {lease : Runner.WorkspaceLease} {report : Bytes}
  {write_scope : List String} {preserve_head_commit : Option String}
  {exported : Runner.ExportedDeliverable} {expected : Server.ExpectedTypedSource}

/-- The caller's expectation passes. -/
theorem check_expectation_exported {changes : List (String × String)}
    (hlimits : WithinLimits crates git exported)
    (hexpects : Expects crates git exported expected)
    (hchanges : Runner.changed_paths git = .ok changes)
    (hdigest : Server.valid_digest exported.verification_sha256 = true) :
    Server.check_expectation exported.bytes expected = .ok (changes.map Prod.snd).toFinset := by
  have hdeclared := hexpects.declared_paths changes hchanges
  have hvalid := validate_typed_source_paths_perm hdeclared.symm (hlimits.paths changes hchanges)
  obtain ⟨-, hchecked, -⟩ := validate_typed_source_paths_ok hvalid
  have hidentity : Server.valid_commit expected.base_commit = true
      ∧ Server.valid_digest expected.verification_sha256 = true := by
    rw [hexpects.base_commit, hexpects.verification_sha256]
    exact ⟨hlimits.base_commit, hdigest⟩
  have hchanged : Server.check_changed_paths expected.changed_paths expected.declared_paths.toFinset
      = .ok () := by
    rcases hc : expected.changed_paths with _ | changed
    · rfl
    · have hperm := hexpects.changed_paths changed hc
      rw [Server.check_changed_paths, Server.checked_paths_perm hperm.symm hchecked, ok_bind,
        ensure_of rfl]
  rw [Server.check_expectation, ensure_of hlimits.envelope, ok_bind, ensure_of hidentity, ok_bind,
    hvalid, ok_bind]
  dsimp only
  rw [hchanged, ok_bind, List.toFinset_eq_of_perm _ _ hdeclared]
  rfl

/-- The document as the server reads it. -/
def read_document (crates : Crates) (lease : Runner.WorkspaceLease)
    (exported : Runner.ExportedDeliverable) (patch : Bytes) (read : List Server.ArchivedChange) :
    Server.ArtifactSet :=
  { schema_version := 1, form := "typed_artifact_set", base_commit := lease.base_commit
    head_commit := exported.head_commit, branch := lease.branch
    verification_sha256 := exported.verification_sha256, patch_sha256 := crates.digest patch
    patch_base64 := base64_text patch, changes := read }

theorem read_document_changes (patch : Bytes) (read : List Server.ArchivedChange) :
    (read_document crates lease exported patch read).changes = read := rfl

theorem read_document_patch (patch : Bytes) (read : List Server.ArchivedChange) :
    (read_document crates lease exported patch read).patch_base64 = base64_text patch := rfl

theorem read_document_digest (patch : Bytes) (read : List Server.ArchivedChange) :
    crates.digest patch = (read_document crates lease exported patch read).patch_sha256 := rfl

/-- The document's own fields pass. -/
theorem check_document_exported (hlimits : WithinLimits crates git exported)
    (hexpects : Expects crates git exported expected)
    (hbase : exported.base_commit = lease.base_commit)
    (hbranch : exported.branch = lease.branch) (patch : Bytes) (read : List Server.ArchivedChange) :
    Server.check_document (read_document crates lease exported patch read) expected = .ok () := by
  have hbase' : lease.base_commit = expected.base_commit := by
    rw [hexpects.base_commit, hbase]
  have hfields : (∀ head ∈ exported.head_commit, Server.valid_commit head = true)
      ∧ Server.valid_branch lease.branch = true
      ∧ Server.valid_digest (crates.digest patch) = true := by
    refine ⟨hlimits.head_commit, ?_, Server.valid_digest_digest crates patch⟩
    rw [← hbranch]
    exact hlimits.branch
  rw [Server.check_document, read_document]
  dsimp only
  rw [ensure_of ⟨rfl, rfl⟩, ok_bind, ensure_of hbase', ok_bind,
    ensure_of hexpects.verification_sha256.symm, ok_bind, ensure_of hfields]

/-- The source record passes. -/
theorem check_source_exported (hexpects : Expects crates git exported expected)
    (hbase : exported.base_commit = lease.base_commit) (hbranch : exported.branch = lease.branch)
    (hmedia : exported.media_type = Server.TYPED_SOURCE_MEDIA_TYPE) (patch : Bytes)
    (read : List Server.ArchivedChange) :
    Server.check_source crates exported.bytes (read_document crates lease exported patch read)
      expected.source = .ok () := by
  rcases hsource : expected.source with _ | source
  · rfl
  · have hrecord := hexpects.source source hsource
    subst hrecord
    rw [Server.check_source, Server.check_source_record, read_document]
    dsimp only
    rw [ensure_of ⟨rfl, hbase, rfl, hbranch, rfl⟩, ok_bind, ensure_of hmedia, ok_bind,
      ensure_of rfl, ok_bind, ensure_of rfl]

/-- **The round trip.** A typed artifact set within the limits is decoded to the exported
files: the same paths, in order, with the bytes Git showed. -/
theorem decode_typed_source_exported
    (hexport : Runner.export_with_index crates git spec lease report write_scope
    preserve_head_commit
      = .ok exported)
    (hform : spec.form = .typed_artifact_set) (hlimits : WithinLimits crates git exported)
    (hexpects : Expects crates git exported expected)
    (hjson : ∀ document, Runner.exported_document crates git spec lease report preserve_head_commit
      = .ok document → crates.from_slice (crates.to_vec_pretty document) = some document) :
    ∃ changes files, Runner.changed_paths git = .ok changes
      ∧ Server.decode_typed_source crates exported.bytes expected = .ok files
      ∧ List.Forall₂ (Delivered git) changes files
      ∧ files.Pairwise fun a b => a.path < b.path := by
  obtain ⟨changes, patch, archived, v, hchanges, hsafe, hpatch, harchived, hv, hdocument, hbytes,
    hbase, hbranch, hverification, hmedia⟩ := Runner.export_with_index_typed hform hexport
  have hportable := hlimits.portable changes hchanges
  obtain ⟨-, hchecked, htext⟩ := validate_typed_source_paths_ok (hlimits.paths changes hchanges)
  obtain ⟨hcount, hsafepaths, -, -⟩ := Server.checked_paths_ok_iff.mp hchecked
  have hsafe2 : ∀ change ∈ changes, Server.safe_path change.2 = true :=
    fun c hc => hsafepaths c.2 (List.mem_map_of_mem hc)
  have htext2 : ∀ change ∈ changes, (Server.text_media_type change.2).isSome = true :=
    fun c hc => htext c.2 (List.mem_map_of_mem hc)
  have hmode : ∀ change ∈ changes, ∀ mode, Runner.index_mode git change.2 = .ok mode →
      mode = "100644" ∨ mode = "100755" := by
    intro c hc mode hm
    obtain ⟨mode', hm', hregular⟩ :=
      Runner.reject_unsafe_changes_mode hsafe hc (hportable c hc).not_deleted
    rw [hm] at hm'
    cases hm'
    exact hregular
  obtain ⟨read, hread, hlength, hrelated⟩ := archived_read hportable harchived
  obtain ⟨files, hfiles, hdelivered⟩ := decode_changes_exported hportable hsafe2 htext2 hrelated
  have hdigest : Server.valid_digest exported.verification_sha256 = true := by
    rw [hverification]
    exact Server.valid_digest_digest crates report
  -- What the server reads.
  have hbounded : Server.bounded_changes (.arr (archived.map Runner.ArchivedChange.to_value))
      = some read := by
    have hroom : (archived.map Runner.ArchivedChange.to_value).length
        ≤ Server.MAX_TYPED_SOURCE_FILES := by
      rw [List.length_map, hlength]
      rw [List.length_map] at hcount
      exact hcount
    rw [Server.bounded_changes, if_pos hroom]
    exact hread
  have hset := Server.artifact_set_of_document crates lease exported.head_commit
    exported.verification_sha256 patch hbounded
  rw [← hv] at hset
  have henvelope : (crates.from_slice exported.bytes).bind Server.ArtifactSet.from_value
      = some (read_document crates lease exported patch read) := by
    rw [hbytes, hjson v hdocument, Option.bind_some]
    exact hset
  -- The files come out in the order of the changes, which is the sorted one.
  have hpaths := delivered_paths hdelivered
  have hsorted : files.Pairwise fun a b => a.path < b.path := by
    have hle : (changes.map Prod.snd).Pairwise (· ≤ ·) := by
      rw [List.pairwise_map]
      exact Runner.changed_paths_sorted hchanges
    have hnodup : (changes.map Prod.snd).Pairwise (· ≠ ·) := Server.checked_paths_nodup hchecked
    have hlt : (files.map Server.DependencySourceFile.path).Pairwise (· < ·) := by
      rw [hpaths]
      exact (hle.and hnodup).imp fun h => lt_of_le_of_ne h.1 h.2
    rwa [List.pairwise_map] at hlt
  refine ⟨changes, files, hchanges, ?_, hdelivered, hsorted⟩
  have hexpected := check_expectation_exported hlimits hexpects hchanges hdigest
  have hdoc := check_document_exported hlimits hexpects hbase hbranch patch read
  have hsource := check_source_exported hexpects hbase hbranch hmedia patch read
  have hactual : Server.checked_paths (read.map Server.ArchivedChange.path)
      = .ok (changes.map Prod.snd).toFinset := by
    rw [exported_paths hrelated]
    exact hchecked
  have hmetadata : Server.check_changes read 0 = .ok () :=
    check_changes_exported hportable hsafe2 htext2 hmode hrelated
      (by simpa using hlimits.prompt changes hchanges)
  have hpatch64 : Server.decode_base64 (base64_text patch) Server.MAX_PATCH_BYTES = .ok patch :=
    Server.decode_base64_text (hlimits.patch patch hpatch)
  rw [Server.decode_typed_source, hexpected, ok_bind, henvelope, context, ok_bind, hdoc, ok_bind,
    hsource, ok_bind, read_document_changes, hactual, ok_bind, ensure_of rfl, ok_bind, hmetadata,
    ok_bind, read_document_patch, hpatch64, ok_bind,
    ensure_of (read_document_digest patch read), ok_bind, hfiles, ok_bind,
    sort_by_key_eq_self hsorted]
  rfl

/-! ## What the decoder accepts -/

/-- The file is the content of the change, with the digest and length the change declares. -/
def Vouched (crates : Crates) (archived : Server.ArchivedChange)
    (file : Server.DependencySourceFile) :
    Prop :=
  file.path = archived.path ∧ file.sha256 = archived.sha256
    ∧ base64_bytes archived.content_base64 = some (as_bytes file.content)
    ∧ crates.digest (as_bytes file.content) = archived.sha256
    ∧ (as_bytes file.content).length = archived.bytes

theorem decode_change_ok {archived : Server.ArchivedChange} {file : Server.DependencySourceFile}
    (h : Server.decode_change crates archived = .ok file) : Vouched crates archived file := by
  rw [Server.decode_change] at h
  simp only [bind_eq_ok, ensure_eq_ok, exists_const, context_eq_ok, pure_eq_ok] at h
  obtain ⟨decoded, hdecoded, hlength, hdigest, content, hutf8, -, -, rfl⟩ := h
  rw [Server.decode_base64] at hdecoded
  simp only [bind_eq_ok, ensure_eq_ok, exists_const, context_eq_ok, pure_eq_ok] at hdecoded
  obtain ⟨-, bytes, hbytes, -, rfl⟩ := hdecoded
  have hcontent := as_bytes_of_from_utf8 hutf8
  refine ⟨rfl, rfl, ?_, ?_, ?_⟩
  · rw [hcontent]
    exact hbytes
  · rw [hcontent]
    exact hdigest
  · rw [hcontent]
    exact hlength

/-- By induction on the changes: every file is vouched for by its change. -/
theorem decode_changes_ok {read : List Server.ArchivedChange}
    {files : List Server.DependencySourceFile}
    (h : read.mapM (Server.decode_change crates) = .ok files) :
    List.Forall₂ (Vouched crates) read files := by
  induction read generalizing files with
  | nil =>
    rw [List.mapM_nil, pure_eq_ok] at h
    subst h
    exact List.Forall₂.nil
  | cons archived rest ih =>
    rw [List.mapM_cons] at h
    simp only [bind_eq_ok, pure_eq_ok] at h
    obtain ⟨file, hfile, files, hfiles, rfl⟩ := h
    exact List.Forall₂.cons (decode_change_ok hfile) (ih hfiles)

theorem vouched_paths {read : List Server.ArchivedChange} {files : List Server.DependencySourceFile}
    (h : List.Forall₂ (Vouched crates) read files) :
    files.map Server.DependencySourceFile.path = read.map Server.ArchivedChange.path := by
  induction h with
  | nil => rfl
  | cons hone _ ih => rw [List.map_cons, List.map_cons, ih, hone.1]

theorem vouched_mem {read : List Server.ArchivedChange} {files : List Server.DependencySourceFile}
    (h : List.Forall₂ (Vouched crates) read files) {file : Server.DependencySourceFile}
    (hfile : file ∈ files) : ∃ archived ∈ read, Vouched crates archived file := by
  induction h with
  | nil => cases hfile
  | cons hone _ ih =>
    rcases List.mem_cons.mp hfile with rfl | hmem
    · exact ⟨_, List.mem_cons_self, hone⟩
    · obtain ⟨archived, harchived, hvouched⟩ := ih hmem
      exact ⟨archived, List.mem_cons_of_mem _ harchived, hvouched⟩

/-- What the decoder returns: the declared paths, each once and in order, and for every file
a change of the document that declares its digest and length. -/
structure Faithful (crates : Crates) (bytes : Bytes) (expected : Server.ExpectedTypedSource)
    (files : List Server.DependencySourceFile) : Prop where
  declared : (files.map Server.DependencySourceFile.path).Perm expected.declared_paths
  sorted : files.Pairwise fun a b => a.path < b.path
  vouched : ∃ document, (crates.from_slice bytes).bind Server.ArtifactSet.from_value = some document
    ∧ ∀ file ∈ files, ∃ archived ∈ document.changes, Vouched crates archived file

/-- **Soundness.** Whatever the bytes, an accepted document yields the declared files. -/
theorem decode_typed_source_ok {bytes : Bytes} {files : List Server.DependencySourceFile}
    (h : Server.decode_typed_source crates bytes expected = .ok files) :
    Faithful crates bytes expected files := by
  rw [Server.decode_typed_source] at h
  simp only [bind_eq_ok, ensure_eq_ok, exists_const, context_eq_ok, pure_eq_ok] at h
  obtain ⟨declared, hexpected, document, hdocument, -, -, -, -, actual, hactual, rfl, -, -, patch,
    -, -, decoded, hdecoded, rfl⟩ := h
  rw [Server.check_expectation] at hexpected
  simp only [bind_eq_ok, ensure_eq_ok, exists_const, pure_eq_ok] at hexpected
  obtain ⟨-, -, ⟨⟩, hvalid, -, -, hset⟩ := hexpected
  obtain ⟨-, hchecked, -⟩ := validate_typed_source_paths_ok hvalid
  have hrelated := decode_changes_ok hdecoded
  have hpaths := vouched_paths hrelated
  have hperm := sort_by_key_perm Server.DependencySourceFile.path decoded
  -- The document's paths are distinct and form the declared set, so they are the declared list.
  have hsame : (document.changes.map Server.ArchivedChange.path).Perm expected.declared_paths := by
    refine (List.perm_ext_iff_of_nodup (Server.checked_paths_nodup hactual)
      (Server.checked_paths_nodup hchecked)).mpr fun p => ?_
    obtain ⟨-, -, -, hactual'⟩ := Server.checked_paths_ok_iff.mp hactual
    rw [← List.mem_toFinset, ← List.mem_toFinset, ← hactual', hset]
  have hdeclared : ((sort_by_key Server.DependencySourceFile.path decoded).map
      Server.DependencySourceFile.path).Perm expected.declared_paths := by
    refine (hperm.map _).trans ?_
    rw [hpaths]
    exact hsame
  refine ⟨hdeclared, ?_, document, hdocument, ?_⟩
  · have hnodup : (sort_by_key Server.DependencySourceFile.path decoded).Pairwise
        fun a b => a.path ≠ b.path := by
      rw [← List.pairwise_map (f := Server.DependencySourceFile.path) (R := (· ≠ ·))]
      exact hdeclared.nodup_iff.mpr (Server.checked_paths_nodup hchecked)
    exact ((sort_by_key_pairwise Server.DependencySourceFile.path decoded).and hnodup).imp
      fun h => lt_of_le_of_ne h.1 h.2
  · intro file hfile
    exact vouched_mem hrelated (mem_sort_by_key.mp hfile)

end Transport

/-- **The transport of a typed source.** A typed artifact set that the runner exports within
the decoder's limits, and that the caller expects, is decoded to exactly the exported files,
byte for byte and sorted by path; and whatever bytes the decoder accepts, it returns exactly
the declared paths, each once, with the bytes whose digest and length the document declares.
Of JSON the first part needs that the exported document is read as it was written. -/
theorem typed_source_transport (crates : Crates) (expected : Server.ExpectedTypedSource) :
    (∀ (git : Runner.Git) (spec : DeliverableSpec) (lease : Runner.WorkspaceLease) (report : Bytes)
        (write_scope : List String) (preserve_head_commit : Option String)
        (exported : Runner.ExportedDeliverable),
      Runner.export_with_index crates git spec lease report write_scope preserve_head_commit
        = .ok exported →
      spec.form = .typed_artifact_set → WithinLimits crates git exported →
      Expects crates git exported expected →
      (∀ document, Runner.exported_document crates git spec lease report preserve_head_commit
        = .ok document → crates.from_slice (crates.to_vec_pretty document) = some document) →
      ∃ changes files, Runner.changed_paths git = .ok changes
        ∧ Server.decode_typed_source crates exported.bytes expected = .ok files
        ∧ List.Forall₂ (Delivered git) changes files
        ∧ files.Pairwise fun a b => a.path < b.path)
    ∧ ∀ (bytes : Bytes) (files : List Server.DependencySourceFile),
      Server.decode_typed_source crates bytes expected = .ok files →
        Faithful crates bytes expected files :=
  ⟨fun _ _ _ _ _ _ _ hexport hform hlimits hexpects hjson =>
      decode_typed_source_exported hexport hform hlimits hexpects hjson,
    fun _ _ h => decode_typed_source_ok h⟩

/-! ## Two exported files -/

namespace Depot

def base_commit : String := "6162bb2ed44a1fe1c7ffc726dd9bedc799b398bd"

def notes : String := "Move with the arrow keys.\n"

def guide : String := "Press the space bar to jump.\n"

def notes_sha256 : String := "02ffeca15ca409e7ad8511bbe561f35ed341c06761b4619858c0cfec8e82d185"

def guide_sha256 : String := "585d418f2a4886672edf9dc963b626aa36dc86d01c6f74c80145e913adc819a2"

def notes_base64 : String := "TW92ZSB3aXRoIHRoZSBhcnJvdyBrZXlzLgo="

def guide_base64 : String := "UHJlc3MgdGhlIHNwYWNlIGJhciB0byBqdW1wLgo="

def patch : String := "diff --git a/notes.md b/notes.md\n"

def patch_sha256 : String := "346219884dc8086aa57b25079e4aed54e0455a1ab7d1ffa0fc10b3a1434e1245"

def patch_base64 : String := "ZGlmZiAtLWdpdCBhL25vdGVzLm1kIGIvbm90ZXMubWQK"

def report : String :=
  "\x7b\"passed\":true,\"summary\":\"all checks passed\",\"checks\":[],\"manual_gate\":null\x7d"

def report_sha256 : String := "f9be648bad7eb741727ca39849ef4803355750792f0a87345b0560df2b6d1dcb"

/-- A change of the exported document. -/
def change (path content_base64 sha256 : String) (bytes : Int) : Json :=
  .obj [("bytes", .int bytes), ("content_base64", .str content_base64),
    ("media_type", .str "text/plain"), ("mode", .str "100644"), ("path", .str path),
    ("sha256", .str sha256), ("status", .str "A")]

/-- The exported document. -/
def document : Json :=
  .obj [("base_commit", .str base_commit), ("branch", .str "crony/task-9"),
    ("changes", .arr [change "guide.md" guide_base64 guide_sha256 29,
      change "notes.md" notes_base64 notes_sha256 26]),
    ("form", .str "typed_artifact_set"), ("git_bundle_base64", .null), ("git_bundle_sha256", .null),
    ("head_commit", .null), ("patch_base64", .str patch_base64),
    ("patch_sha256", .str patch_sha256), ("schema_version", .int 1),
    ("verification_sha256", .str report_sha256)]

/-- A change as `serde_json` prints it. -/
def pretty_change (path content_base64 sha256 bytes : String) : String :=
  "    \x7b\n      \"bytes\": " ++ bytes ++ ",\n      \"content_base64\": \"" ++ content_base64
    ++ "\",\n      \"media_type\": \"text/plain\",\n      \"mode\": \"100644\",\n"
    ++ "      \"path\": \"" ++ path ++ "\",\n      \"sha256\": \"" ++ sha256
    ++ "\",\n      \"status\": \"A\"\n    \x7d"

/-- The document as `serde_json` prints it. -/
def pretty : String :=
  "\x7b\n  \"base_commit\": \"" ++ base_commit ++ "\",\n"
    ++ "  \"branch\": \"crony/task-9\",\n  \"changes\": [\n"
    ++ pretty_change "guide.md" guide_base64 guide_sha256 "29" ++ ",\n"
    ++ pretty_change "notes.md" notes_base64 notes_sha256 "26" ++ "\n  ],\n"
    ++ "  \"form\": \"typed_artifact_set\",\n  \"git_bundle_base64\": null,\n"
    ++ "  \"git_bundle_sha256\": null,\n  \"head_commit\": null,\n"
    ++ "  \"patch_base64\": \"" ++ patch_base64 ++ "\",\n"
    ++ "  \"patch_sha256\": \"" ++ patch_sha256 ++ "\",\n  \"schema_version\": 1,\n"
    ++ "  \"verification_sha256\": \"" ++ report_sha256 ++ "\"\n\x7d"

/-- SHA-256 on the four byte strings of the example. -/
def sha256 (bytes : Bytes) : Vector UInt8 32 :=
  if bytes = as_bytes notes then
    #v[2, 255, 236, 161, 92, 164, 9, 231, 173, 133, 17, 187, 229, 97, 243, 94, 211, 65, 192, 103,
      97, 180, 97, 152, 88, 192, 207, 236, 142, 130, 209, 133]
  else if bytes = as_bytes guide then
    #v[88, 93, 65, 143, 42, 72, 134, 103, 46, 223, 157, 201, 99, 182, 38, 170, 54, 220, 134, 208,
      28, 111, 116, 200, 1, 69, 233, 19, 173, 200, 25, 162]
  else if bytes = as_bytes patch then
    #v[52, 98, 25, 136, 77, 200, 8, 106, 165, 123, 37, 7, 158, 74, 237, 84, 224, 69, 90, 26, 183,
      209, 255, 160, 252, 16, 179, 161, 67, 78, 18, 69]
  else if bytes = as_bytes report then
    #v[249, 190, 100, 139, 173, 126, 183, 65, 114, 124, 163, 152, 73, 239, 72, 3, 53, 87, 80, 121,
      47, 10, 135, 52, 91, 5, 96, 223, 43, 109, 29, 203]
  else Vector.replicate 32 0

def crates : Crates :=
  { sha256
    to_vec_pretty := fun v => if v.beq document then as_bytes pretty else []
    from_slice := fun bytes => if bytes = as_bytes pretty then some document else none
    is_json := fun _ => false }

/-- The content of a file of the worktree. -/
def content (path : String) : String := if path = "guide.md" then guide else notes

/-- A worktree with two new files, which Git lists out of order. -/
def git : Runner.Git :=
  { name_status := .ok (as_bytes "A" ++ 0 :: as_bytes "notes.md"
      ++ 0 :: as_bytes "A" ++ 0 :: as_bytes "guide.md" ++ [0])
    ls_files := fun path =>
      .ok ("100644 5b7f05ca0a1e10cd9a5b8e0a5a6b1b6a5f9ec1a3 0\t" ++ path ++ "\n")
    show_path := fun path => .ok (as_bytes (content path))
    diff := .ok (as_bytes patch)
    physical := fun _ => .ok ()
    write_tree := .error "", tree_of := fun _ => .error "", head := .error ""
    commit_tree := fun _ _ => .error "", update_ref := fun _ _ => .error ""
    refresh := fun _ => .error "", create_git_bundle := fun _ => .error "" }

/-- The paths of the worktree, in order. -/
def paths : List String := ["guide.md", "notes.md"]

def spec : DeliverableSpec := { form := .typed_artifact_set, paths }

def lease : Runner.WorkspaceLease := { branch := "crony/task-9", base_commit }

def exported : Runner.ExportedDeliverable :=
  { bytes := as_bytes pretty, file_name := "ecorp-artifact-set.json"
    media_type := Server.TYPED_SOURCE_MEDIA_TYPE, form := .typed_artifact_set
    verification_sha256 := report_sha256, base_commit, head_commit := none
    branch := "crony/task-9", git_bundle_sha256 := none, publication_ready := false }

def expected : Server.ExpectedTypedSource :=
  { base_commit, verification_sha256 := report_sha256, declared_paths := paths }

/-- The changes, sorted by path. -/
def changes : List (String × String) := [("A", "guide.md"), ("A", "notes.md")]

def archived : List Runner.ArchivedChange :=
  [{ path := "guide.md", status := "A", mode := some "100644", sha256 := some guide_sha256
     bytes := some 29, media_type := some "text/plain", content_base64 := some guide_base64 },
    { path := "notes.md", status := "A", mode := some "100644", sha256 := some notes_sha256
      bytes := some 26, media_type := some "text/plain", content_base64 := some notes_base64 }]

/-- Both paths are valid and name plain text that may be published. -/
theorem paths_checked : ∀ path ∈ paths, repository_relative_path_is_valid path = true
    ∧ Runner.sensitive_path path = false
    ∧ Runner.infer_media_type path = "text/plain"
    ∧ Server.text_media_type path = some "text/plain" := by
  decide +kernel

set_option maxRecDepth 40000 in
/-- What the document says of the texts. -/
theorem texts_encoded :
    (crates.digest (as_bytes guide) = guide_sha256 ∧ base64_text (as_bytes guide) = guide_base64)
    ∧ (crates.digest (as_bytes notes) = notes_sha256 ∧ base64_text (as_bytes notes) = notes_base64)
    ∧ (crates.digest (as_bytes patch) = patch_sha256 ∧ base64_text (as_bytes patch) = patch_base64)
    ∧ crates.digest (as_bytes report) = report_sha256 := by
  decide +kernel

set_option maxRecDepth 40000 in
theorem changed_paths_git : Runner.changed_paths git = .ok changes := by
  have hfields : ((as_bytes "A" ++ 0 :: as_bytes "notes.md"
      ++ 0 :: as_bytes "A" ++ 0 :: as_bytes "guide.md" ++ [0] : Bytes).splitOn 0).filter
      (fun field => !field.isEmpty)
      = [as_bytes "A", as_bytes "notes.md", as_bytes "A", as_bytes "guide.md"] := by
    decide +kernel
  have hguide := (paths_checked "guide.md" (by decide)).1
  have hnotes := (paths_checked "notes.md" (by decide)).1
  -- Git lists the notes first; the export sorts by path
  have hsorted : sort_by_key Runner.change_key [("A", "notes.md"), ("A", "guide.md")]
      = changes := by decide +kernel
  rw [Runner.changed_paths, git, ok_bind, hfields, Runner.status_fields, from_utf8_as_bytes,
    context, ok_bind, from_utf8_as_bytes, context, ok_bind, Runner.validate_relative,
    ensure_of hnotes, ok_bind, Runner.status_fields, from_utf8_as_bytes, context, ok_bind,
    from_utf8_as_bytes, context, ok_bind, Runner.validate_relative, ensure_of hguide, ok_bind]
  exact congrArg Except.ok hsorted

theorem index_mode_git {path : String} (hpath : path ∈ paths) :
    Runner.index_mode git path = .ok "100644" := by
  rcases List.mem_pair.mp hpath with rfl | rfl
  · rfl
  · rfl

set_option maxRecDepth 40000 in
/-- A new file of the worktree, as it is archived. -/
theorem archive_change_git {path text digest base64 : String} {length : Nat}
    (hpath : path ∈ paths) (hshow : content path = text)
    (hdigest : crates.digest (as_bytes text) = digest) (hlength : (as_bytes text).length = length)
    (hmedia : Runner.infer_media_type path = "text/plain")
    (hbase64 : base64_text (as_bytes text) = base64) :
    Runner.archive_change crates git true ("A", path)
      = .ok { path, status := "A", mode := some "100644", sha256 := some digest
              bytes := some length, media_type := some "text/plain"
              content_base64 := some base64 } := by
  have hstatus : starts_with "A" "D" = false := rfl
  have hread : git.show_path path = .ok (as_bytes text) := by rw [← hshow]; rfl
  rw [Runner.archive_change]
  simp only [hstatus, Bool.false_eq_true, if_false, if_true, hread, index_mode_git hpath, ok_bind,
    hdigest, hlength, hmedia, hbase64]
  rfl

set_option maxRecDepth 40000 in
theorem archive_changes_git : Runner.archive_changes crates git changes true = .ok archived := by
  obtain ⟨hguide_text, hnotes_text, -⟩ := texts_encoded
  obtain ⟨-, -, hguide_media, -⟩ := paths_checked "guide.md" (by decide)
  obtain ⟨-, -, hnotes_media, -⟩ := paths_checked "notes.md" (by decide)
  have hguide := archive_change_git (by decide) (by decide : content "guide.md" = guide)
    hguide_text.1 (rfl : (as_bytes guide).length = 29) hguide_media hguide_text.2
  have hnotes := archive_change_git (by decide) (by decide : content "notes.md" = notes)
    hnotes_text.1 (rfl : (as_bytes notes).length = 26) hnotes_media hnotes_text.2
  rw [Runner.archive_changes, changes, List.mapM_cons, List.mapM_cons, List.mapM_nil, hguide,
    ok_bind, hnotes, ok_bind]
  rfl

theorem commit_git : Runner.commit_deliverable git spec lease (crates.digest (as_bytes report))
    changes none = .ok none := by
  rw [Runner.commit_deliverable, if_neg (by decide)]
  rfl

theorem bundle_git : Runner.bundle_deliverable git spec none = .ok none := by
  rw [Runner.bundle_deliverable, if_neg (by decide)]
  rfl

set_option maxRecDepth 40000 in
theorem pretty_document : crates.to_vec_pretty document = as_bytes pretty := by decide +kernel

theorem from_slice_pretty : crates.from_slice (as_bytes pretty) = some document := by
  rw [crates]
  dsimp only
  rw [if_pos rfl]

theorem document_git : Runner.document crates .typed_artifact_set lease none
    (crates.digest (as_bytes report)) (as_bytes patch) none archived = document := by
  obtain ⟨-, -, hpatch, hreport⟩ := texts_encoded
  rw [Runner.document, hpatch.1, hpatch.2, hreport]
  rfl

theorem exported_document_git :
    Runner.exported_document crates git spec lease (as_bytes report) none = .ok document := by
  have hdiff : git.diff = .ok (as_bytes patch) := rfl
  have hform : spec.form = .typed_artifact_set := rfl
  have hcontent : Runner.includes_content .typed_artifact_set = true := rfl
  rw [Runner.exported_document, changed_paths_git, ok_bind, commit_git, ok_bind, hdiff, ok_bind,
    bundle_git, ok_bind, hform, hcontent, archive_changes_git, ok_bind, document_git]
  rfl

set_option maxRecDepth 40000 in
theorem export_git :
    Runner.export_with_index crates git spec lease (as_bytes report) paths none = .ok exported := by
  have hdiff : git.diff = .ok (as_bytes patch) := rfl
  have hform : spec.form = .typed_artifact_set := rfl
  have hcontent : Runner.includes_content .typed_artifact_set = true := rfl
  have hpaths : spec.paths.forM Runner.validate_relative = .ok () :=
    bind_eq_ok.mpr ⟨(), ensure_of (paths_checked "guide.md" (by decide)).1,
      bind_eq_ok.mpr ⟨(), ensure_of (paths_checked "notes.md" (by decide)).1, rfl⟩⟩
  have hscope : Runner.reject_out_of_scope_changes changes paths = .ok () := rfl
  have hsafe : Runner.reject_unsafe_changes git changes = .ok () := by
    have hstatus : starts_with "A" "D" = false := rfl
    have hone : ∀ path ∈ paths, Runner.reject_unsafe_change git ("A", path) = .ok () := by
      intro path hpath
      rw [Runner.reject_unsafe_change]
      simp only [hstatus, Bool.false_eq_true, if_false, index_mode_git hpath, ok_bind]
      rw [ensure_of (paths_checked path hpath).2.1]
      rfl
    exact bind_eq_ok.mpr ⟨(), hone "guide.md" (by decide),
      bind_eq_ok.mpr ⟨(), hone "notes.md" (by decide), rfl⟩⟩
  have hbytes : as_bytes pretty ≠ [] ∧ (as_bytes pretty).length ≤ Runner.MAX_DELIVERABLE_BYTES := by
    decide +kernel
  have hserialize : Runner.serialize_deliverable crates git .typed_artifact_set lease none
      (crates.digest (as_bytes report)) (as_bytes patch) none changes
      = .ok (as_bytes pretty, "application/vnd.ecorp.deliverable+json") := by
    rw [Runner.serialize_deliverable, if_neg (by decide), hcontent, archive_changes_git, ok_bind,
      document_git, pretty_document]
    rfl
  -- the steps of the export, in the order it makes them
  rw [Runner.export_with_index, hpaths, ok_bind, changed_paths_git, ok_bind, hscope, ok_bind, hsafe,
    ok_bind]
  dsimp only
  rw [commit_git, ok_bind, hdiff, ok_bind, bundle_git, ok_bind, hform, hserialize, ok_bind]
  dsimp only
  rw [ensure_of hbytes.1, ok_bind, ensure_of hbytes.2, ok_bind, texts_encoded.2.2.2]
  rfl

set_option maxRecDepth 40000 in
theorem within_limits : WithinLimits crates git exported := by
  have honly {found : List (String × String)} (h : Runner.changed_paths git = .ok found) :
      found = changes := by
    rw [changed_paths_git] at h
    exact (Except.ok.inj h).symm
  refine ⟨?_, ?_, ?_, ?_, by decide +kernel, by decide, by decide +kernel, by decide +kernel⟩
  · intro found h
    obtain rfl := honly h
    -- neither path is the other in lower case, nor a directory of it
    have hapart : ¬ Server.Collide "notes.md" "guide.md" := by
      rw [Server.Collide, Bool.not_eq_true]
      decide +kernel
    have hchecked : Server.checked_paths paths = .ok paths.toFinset :=
      Server.checked_paths_ok_iff.mpr
        ⟨by decide, by decide +kernel, List.pairwise_pair.mpr hapart, rfl⟩
    have htext : ∀ path ∈ paths.toFinset, (Server.text_media_type path).isSome = true := by
      intro path hpath
      rw [(paths_checked path (List.mem_toFinset.mp hpath)).2.2.2]
      rfl
    exact bind_eq_ok.mpr ⟨(), ensure_of (by decide),
      bind_eq_ok.mpr ⟨_, hchecked, ensure_of htext⟩⟩
  · intro found h change hchange
    obtain rfl := honly h
    have hlimits : ∀ path ∈ paths,
        (as_bytes (content path)).length ≤ Server.MAX_TYPED_SOURCE_FILE_BYTES
          ∧ (content path).toList.any Server.is_unsupported = false := by
      decide +kernel
    have hone : ∀ path ∈ paths, Portable crates git ("A", path) := by
      intro path hpath
      have hplain : Server.text_media_type path ≠ some "application/json" := by
        rw [(paths_checked path hpath).2.2.2]
        decide
      obtain ⟨hlength, htext⟩ := hlimits path hpath
      refine ⟨List.mem_cons_self, ?_⟩
      intro bytes hbytes
      obtain rfl : as_bytes (content path) = bytes := Except.ok.inj hbytes
      exact ⟨hlength, content path, from_utf8_as_bytes _, htext, fun hjson => absurd hjson hplain⟩
    rcases List.mem_pair.mp hchange with rfl | rfl
    · exact hone "guide.md" (by decide)
    · exact hone "notes.md" (by decide)
  · intro found h
    obtain rfl := honly h
    decide +kernel
  · intro patch hpatch
    obtain rfl : as_bytes Depot.patch = patch := Except.ok.inj hpatch
    decide +kernel

theorem expects : Expects crates git exported expected := by
  refine ⟨rfl, rfl, ?_, nofun, nofun⟩
  intro changes h
  rw [changed_paths_git] at h
  cases h
  exact List.Perm.refl _

end Depot

/-- The theorem at two new Markdown files. -/
theorem typed_source_transport_notes :
    ∃ changes files, Runner.changed_paths Depot.git = .ok changes
      ∧ Server.decode_typed_source Depot.crates Depot.exported.bytes Depot.expected = .ok files
      ∧ List.Forall₂ (Delivered Depot.git) changes files
      ∧ files.Pairwise fun a b => a.path < b.path := by
  refine (typed_source_transport Depot.crates Depot.expected).1 Depot.git Depot.spec Depot.lease
    (as_bytes Depot.report) Depot.paths none Depot.exported Depot.export_git rfl
    Depot.within_limits Depot.expects ?_
  -- `serde_json` reads back what it printed
  intro document hdocument
  rw [Depot.exported_document_git] at hdocument
  cases hdocument
  rw [Depot.pretty_document]
  exact Depot.from_slice_pretty

end Crony
