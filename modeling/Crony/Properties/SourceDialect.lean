/-
The dialect of a typed source.

The server accepts a set of paths when they are safe, few, and do not collide; whether it does
depends only on the set. The media types the runner infers agree with the ones the server
expects on such paths, and the document the runner writes is the one the server reads, field by
field.
-/
import Mathlib.Data.List.TakeWhile
import Crony.Runner.Deliverable
import Crony.Server.DependencySource

set_option autoImplicit false

open Crony.Lib

namespace Crony

/-! ## Sets of paths -/

namespace Server

/-- Two paths of one set that collide. -/
def Collide (p q : String) : Prop := collides (to_ascii_lowercase p) (to_ascii_lowercase q) = true

theorem collides_comm (a b : String) : collides a b = collides b a := by
  have hbeq : (a == b) = (b == a) := Bool.beq_comm
  rw [collides, collides, hbeq, Bool.or_assoc, Bool.or_assoc, Bool.or_comm (lies_below a b)]

theorem Collide.symm {p q : String} (h : Collide p q) : Collide q p := by
  rw [Collide, collides_comm]
  exact h

theorem collide_self (p : String) : Collide p p := by
  simp [Collide, collides]

/-- What the loop accepts, after the paths `seen`. -/
theorem check_paths_ok_iff {rest seen : List String} {paths : Finset String}
    (hseen : seen.Nodup) (hcount : seen.length ≤ MAX_TYPED_SOURCE_FILES) :
    check_paths rest seen.toFinset (seen.map to_ascii_lowercase) = .ok paths
      ↔ seen.length + rest.length ≤ MAX_TYPED_SOURCE_FILES ∧ (∀ p ∈ rest, safe_path p = true)
        ∧ (∀ p ∈ seen, ∀ q ∈ rest, ¬ Collide q p) ∧ rest.Pairwise (fun p q => ¬ Collide q p)
        ∧ paths = (seen ++ rest).toFinset := by
  induction rest generalizing seen with
  | nil =>
    simp only [check_paths, pure_eq_ok, List.length_nil, Nat.add_zero, List.not_mem_nil,
      false_implies, implies_true, List.Pairwise.nil, List.append_nil, true_and]
    exact ⟨fun h => ⟨hcount, h.symm⟩, fun h => h.2.symm⟩
  | cons value rest ih =>
    have hcard : seen.toFinset.card = seen.length := List.toFinset_card_of_nodup hseen
    have hfree : ((seen.map to_ascii_lowercase).any (collides (to_ascii_lowercase value)) = false)
        ↔ ∀ p ∈ seen, ¬ Collide value p := by
      rw [List.any_eq_false]
      simp only [List.mem_map, forall_exists_index, and_imp, forall_apply_eq_imp_iff₂, Collide]
    have hinsert : insert value seen.toFinset = (seen ++ [value]).toFinset := by
      ext p
      simp only [Finset.mem_insert, List.mem_toFinset, List.mem_append, List.mem_singleton]
      exact or_comm
    have hmap : seen.map to_ascii_lowercase ++ [to_ascii_lowercase value]
        = (seen ++ [value]).map to_ascii_lowercase := by
      rw [List.map_append, List.map_singleton]
    -- A value that collides with none of the paths seen is new, so the invariant is kept.
    have hgrow (hnew : ∀ p ∈ seen, ¬ Collide value p) : (seen ++ [value]).Nodup := by
      rw [List.nodup_append]
      refine ⟨hseen, List.nodup_singleton value, ?_⟩
      rintro a ha b hb rfl
      rw [List.mem_singleton] at hb
      exact hnew a ha (hb ▸ collide_self a)
    rw [check_paths]
    simp only [bind_eq_ok, ensure_eq_ok, exists_const, hcard, hfree, hinsert, hmap]
    constructor
    · rintro ⟨hroom, hsafe, hnew, hrest⟩
      have hnodup := hgrow hnew
      have hlength : (seen ++ [value]).length ≤ MAX_TYPED_SOURCE_FILES := by
        rw [List.length_append, List.length_singleton]
        omega
      obtain ⟨h1, h2, h3, h4, h5⟩ := (ih hnodup hlength).mp hrest
      rw [List.length_append, List.length_singleton] at h1
      refine ⟨?_, ?_, ?_, ?_, ?_⟩
      · rw [List.length_cons]
        omega
      · intro p hp
        rcases List.mem_cons.mp hp with rfl | hp
        · exact hsafe
        · exact h2 p hp
      · intro p hp q hq
        rcases List.mem_cons.mp hq with rfl | hq
        · exact hnew p hp
        · exact h3 p (List.mem_append_left _ hp) q hq
      · rw [List.pairwise_cons]
        exact ⟨fun q hq => h3 value (List.mem_append_right _ List.mem_cons_self) q hq, h4⟩
      · rw [h5, List.append_assoc, List.singleton_append]
    · rintro ⟨h1, h2, h3, h4, h5⟩
      rw [List.length_cons] at h1
      have hnew : ∀ p ∈ seen, ¬ Collide value p := fun p hp => h3 p hp value List.mem_cons_self
      have hnodup := hgrow hnew
      have hlength : (seen ++ [value]).length ≤ MAX_TYPED_SOURCE_FILES := by
        rw [List.length_append, List.length_singleton]
        omega
      rw [List.pairwise_cons] at h4
      refine ⟨by omega, h2 value List.mem_cons_self, hnew, (ih hnodup hlength).mpr ?_⟩
      refine ⟨?_, fun p hp => h2 p (List.mem_cons_of_mem value hp), ?_, h4.2, ?_⟩
      · rw [List.length_append, List.length_singleton]
        omega
      · intro p hp q hq
        rcases List.mem_append.mp hp with hp | hp
        · exact h3 p hp q (List.mem_cons_of_mem value hq)
        · rw [List.mem_singleton] at hp
          exact hp ▸ h4.1 q hq
      · rw [h5, List.append_assoc, List.singleton_append]

/-- **What `checked_paths` accepts**: at most eight safe paths, no two of which collide. -/
theorem checked_paths_ok_iff {values : List String} {paths : Finset String} :
    checked_paths values = .ok paths
      ↔ values.length ≤ MAX_TYPED_SOURCE_FILES ∧ (∀ p ∈ values, safe_path p = true)
        ∧ values.Pairwise (fun p q => ¬ Collide q p) ∧ paths = values.toFinset := by
  have h := @check_paths_ok_iff values [] paths List.nodup_nil (Nat.zero_le _)
  rw [checked_paths]
  simpa using h

/-- The paths of an accepted set are distinct. -/
theorem checked_paths_nodup {values : List String} {paths : Finset String}
    (h : checked_paths values = .ok paths) : values.Nodup := by
  obtain ⟨-, -, hpairwise, -⟩ := checked_paths_ok_iff.mp h
  refine hpairwise.imp ?_
  rintro p q hno rfl
  exact hno (collide_self p)

/-- The order of the paths does not matter. -/
theorem checked_paths_perm {values values' : List String} (hperm : values.Perm values')
    {paths : Finset String} (h : checked_paths values = .ok paths) :
    checked_paths values' = .ok paths := by
  obtain ⟨hlength, hsafe, hpairwise, rfl⟩ := checked_paths_ok_iff.mp h
  refine checked_paths_ok_iff.mpr ⟨?_, ?_, ?_, ?_⟩
  · rw [← hperm.length_eq]
    exact hlength
  · exact fun p hp => hsafe p (hperm.mem_iff.mpr hp)
  · exact (hperm.pairwise_iff fun {p q} hpq hqp => hpq hqp.symm).mp hpairwise
  · exact List.toFinset_eq_of_perm _ _ hperm

/-! ## Media types -/

/-- A text whose last dot is its first character starts with a dot. -/
theorem starts_with_dot {text extension : String}
    (h : rsplit_once text '.' = some ("", extension)) :
    starts_with text "." = true := by
  rw [rsplit_once] at h
  simp only [Option.ite_none_right_eq_some, Option.some.injEq, Prod.mk.injEq] at h
  obtain ⟨hmem, hstem, -⟩ := h
  have hsplit := List.takeWhile_append_dropWhile (p := (· ≠ '.')) (l := text.toList.reverse)
  rcases hdrop : text.toList.reverse.dropWhile (· ≠ '.') with _ | ⟨c, rest⟩
  · rw [List.dropWhile_eq_nil_iff] at hdrop
    have hdot := hdrop '.' hmem
    simp at hdot
  · have hc : c = '.' := by
      have hhead := List.head?_dropWhile_not (· ≠ '.') text.toList.reverse
      rw [hdrop] at hhead
      simpa using hhead
    rw [hdrop, List.drop_one, List.tail_cons] at hstem
    have hrest : rest = [] := by
      have htext := congrArg String.toList hstem
      rw [String.toList_ofList] at htext
      simpa using htext
    subst hc hrest
    rw [hdrop] at hsplit
    have htext : text.toList = '.' :: (text.toList.reverse.takeWhile (· ≠ '.')).reverse := by
      have hrev := congrArg List.reverse hsplit
      rw [List.reverse_append, List.reverse_reverse] at hrev
      exact hrev.symm
    rw [starts_with, htext]
    rfl

theorem safe_component_of_safe_path {path component : String} (h : safe_path path = true)
    (hcomponent : component ∈ split path '/') : safe_component component = true := by
  rw [safe_path] at h
  simp only [Bool.and_eq_true, List.all_eq_true] at h
  exact h.2 component hcomponent

/-- The file name is the last component when that does not start with a dot. -/
theorem path_file_name_of {path name : String} (hlast : (split path '/').getLast? = some name)
    (hempty : name ≠ "") (hdot : starts_with name "." = false) :
    Runner.path_file_name path = some name := by
  obtain ⟨front, hfront⟩ := List.getLast?_eq_some_iff.mp hlast
  have hname : name ≠ "." ∧ name ≠ ".." := by
    constructor
    · rintro rfl
      exact absurd hdot (by decide)
    · rintro rfl
      exact absurd hdot (by decide)
  rw [Runner.path_file_name, hfront, List.reverse_append, List.reverse_singleton,
    List.singleton_append, List.find?_cons_of_pos (by simp [hempty, hname.1]), Option.filter_some,
    if_pos (by simp [hname.2])]

/-- **The media types agree.** What the decoder calls text, the exporter labels so. -/
theorem infer_media_type_eq {path media_type : String} (hsafe : safe_path path = true)
    (h : text_media_type path = some media_type) : Runner.infer_media_type path = media_type := by
  rw [text_media_type] at h
  rcases hsplit : rsplit_once ((split path '/').getLastD path) '.' with _ | ⟨stem, extension⟩
  · rw [hsplit] at h
    cases h
  · rw [hsplit] at h
    have hcomponents : split path '/' ≠ [] := by
      rw [split, ne_eq, List.map_eq_nil_iff]
      exact List.splitOn_ne_nil _ _
    have hlast : (split path '/').getLast? = some ((split path '/').getLastD path) := by
      rw [List.getLastD_eq_getLast?, List.getLast?_eq_some_getLast hcomponents, Option.getD_some]
    have hdot : starts_with ((split path '/').getLastD path) "." = false := by
      have hcomponent := safe_component_of_safe_path hsafe (List.mem_of_getLast? hlast)
      rw [Bool.eq_false_iff]
      intro hdot
      rw [safe_component, hdot] at hcomponent
      simp at hcomponent
    have hempty : (split path '/').getLastD path ≠ "" := by
      intro hempty
      rw [hempty] at hsplit
      cases hsplit
    have hstem : stem ≠ "" := by
      rintro rfl
      rw [starts_with_dot hsplit] at hdot
      cases hdot
    have hextension : Runner.path_extension path = some extension := by
      rw [Runner.path_extension, path_file_name_of hlast hempty hdot, Option.bind_eq_bind,
        Option.bind_some, hsplit]
      exact if_neg hstem
    rw [Runner.infer_media_type, hextension]
    simp only [Option.getD_some]
    simp only [Option.bind_eq_bind, Option.bind_some] at h
    by_cases hjson : to_ascii_lowercase extension = "json"
    · rw [if_pos hjson] at h ⊢
      exact Option.some.inj h
    · rw [if_neg hjson] at h ⊢
      by_cases htext : to_ascii_lowercase extension ∈ ["md", "txt", "rs", "ts", "tsx", "js", "mjs",
          "css", "html", "toml", "yaml", "yml"]
      · rw [if_pos htext] at h ⊢
        exact Option.some.inj h
      · rw [if_neg htext] at h
        cases h

/-! ## Digests and lengths -/

theorem valid_digest_digest (crates : Crates) (bytes : Bytes) :
    valid_digest (crates.digest bytes) = true := by
  have hlower : ∀ c ∈ hex_encode (crates.sha256 bytes).toList,
      ('0' ≤ c ∧ c ≤ '9') ∨ ('a' ≤ c ∧ c ≤ 'f') := fun _ => hex_encode_lower
  have hlength : (hex_encode (crates.sha256 bytes).toList).length = 64 := by
    rw [hex_encode_length, Vector.length_toList]
  have hascii : ∀ c ∈ hex_encode (crates.sha256 bytes).toList, c.toNat < 128 := by
    intro c hc
    rcases hlower c hc with ⟨-, hle⟩ | ⟨-, hle⟩
    · exact lt_of_le_of_lt (show c.toNat ≤ '9'.toNat from hle) (by decide)
    · exact lt_of_le_of_lt (show c.toNat ≤ 'f'.toNat from hle) (by decide)
  rw [valid_digest, Crates.digest, byteLen_ofList hascii, hlength, lowercase_hex,
    String.toList_ofList]
  simp only [beq_self_eq_true, Bool.true_and, List.all_eq_true, Bool.or_eq_true, Bool.and_eq_true,
    decide_eq_true_eq]
  exact hlower

theorem encoded_len_mono {m n : Nat} (h : m ≤ n) : encoded_len m ≤ encoded_len n := by
  rw [encoded_len, encoded_len]
  omega

/-- What fits is decoded. -/
theorem decode_base64_text {bytes : Bytes} {limit : Nat} (h : bytes.length ≤ limit) :
    decode_base64 (base64_text bytes) limit = .ok bytes := by
  have hlen : byteLen (base64_text bytes) ≤ encoded_len limit := by
    rw [base64_text_length]
    exact encoded_len_mono h
  rw [decode_base64, ensure_of hlen, ok_bind, base64_bytes_text]
  simp only [context, ok_bind]
  rw [ensure_of h]
  rfl

/-! ## The loops over the changes -/

/-- One round of the metadata loop. -/
theorem check_changes_of {c : ArchivedChange} {rest : List ArchivedChange} {n : Nat}
    (hstatus : c.status ∈ ["A", "M", "T"] ∧ c.mode ∈ ["100644", "100755"])
    (hmedia : text_media_type c.path = some c.media_type) (hdigest : valid_digest c.sha256 = true)
    (hlength : c.bytes ≤ MAX_TYPED_SOURCE_FILE_BYTES
      ∧ byteLen c.content_base64 ≤ encoded_len MAX_TYPED_SOURCE_FILE_BYTES)
    (hcount : byteLen c.content_base64 = encoded_len c.bytes)
    (hprompt : n + (c.bytes + byteLen c.path + 64 + FILE_FRAMING_BYTES)
      ≤ MAX_TYPED_SOURCE_PROMPT_BYTES) :
    check_changes (c :: rest) n
      = check_changes rest (n + (c.bytes + byteLen c.path + 64 + FILE_FRAMING_BYTES)) := by
  rw [check_changes, ensure_of hstatus, ok_bind, ensure_of hmedia, ok_bind, ensure_of hdigest,
    ok_bind, ensure_of hlength, ok_bind, ensure_of hcount, ok_bind]
  dsimp only
  rw [ensure_of hprompt, ok_bind]

/-- One file. -/
theorem decode_change_of {crates : Crates} {c : ArchivedChange} {decoded : Bytes} {content : String}
    (hdecoded : decode_base64 c.content_base64 MAX_TYPED_SOURCE_FILE_BYTES = .ok decoded)
    (hcount : decoded.length = c.bytes) (hdigest : crates.digest decoded = c.sha256)
    (hutf8 : from_utf8 decoded = some content)
    (hsupported : content.toList.any is_unsupported = false)
    (hjson : c.media_type = "application/json" → crates.is_json content = true) :
    decode_change crates c = .ok { path := c.path, sha256 := c.sha256, content } := by
  rw [decode_change, hdecoded, ok_bind, ensure_of hcount, ok_bind, ensure_of hdigest, ok_bind,
    hutf8, context, ok_bind, ensure_of hsupported, ok_bind, ensure_of hjson]
  rfl

/-! ## The document, written and read -/

/-- What the document says about a file that is not deleted. -/
def exported_change (crates : Crates) (change : String × String) (mode : String) (content : Bytes) :
    ArchivedChange :=
  { path := change.2, status := change.1, mode, sha256 := crates.digest content
    bytes := content.length, media_type := Runner.infer_media_type change.2
    content_base64 := base64_text content }

/-- The same as the runner has it. -/
def archived_change (crates : Crates) (change : String × String) (mode : String) (content : Bytes) :
    Runner.ArchivedChange :=
  { path := change.2, status := change.1, mode := some mode, sha256 := some (crates.digest content)
    bytes := some content.length, media_type := some (Runner.infer_media_type change.2)
    content_base64 := some (base64_text content) }

theorem as_u64_length {n : Nat} (h : n < 2 ^ 64) : Json.as_u64 (.int n) = some n := by
  rw [Json.as_u64, if_pos ⟨Int.natCast_nonneg n, by exact_mod_cast h⟩, Int.toNat_natCast]

/-- A change is read field by field. -/
theorem ArchivedChange.from_value_of {v n : Json} {fields : List (String × Json)} {bytes : Nat}
    {path status mode sha256 media_type content_base64 : String}
    (hfields : object_fields ["path", "status", "mode", "sha256", "bytes", "media_type",
      "content_base64"] v = some fields)
    (hpath : text_field fields "path" = some path)
    (hstatus : text_field fields "status" = some status)
    (hmode : text_field fields "mode" = some mode)
    (hsha256 : text_field fields "sha256" = some sha256)
    (hlookup : fields.lookup "bytes" = some n) (hbytes : n.as_u64 = some bytes)
    (hmedia : text_field fields "media_type" = some media_type)
    (hcontent : text_field fields "content_base64" = some content_base64) :
    ArchivedChange.from_value v
      = some { path, status, mode, sha256, bytes, media_type, content_base64 } := by
  rw [ArchivedChange.from_value, hfields]
  simp only [Option.bind_eq_bind, Option.bind_some, hpath, hstatus, hmode, hsha256, hlookup, hbytes,
    hmedia, hcontent, Option.pure_def]

/-- An envelope is read field by field. -/
theorem ArtifactSet.from_value_of {v version head bundle_sha256 bundle : Json}
    {fields : List (String × Json)} {head_commit : Option String}
    {form base_commit branch verification_sha256 patch_sha256 patch_base64 : String} {items : Json}
    {changes : List ArchivedChange}
    (hfields : object_fields ["schema_version", "form", "base_commit", "head_commit", "branch",
      "verification_sha256", "patch_sha256", "patch_base64", "git_bundle_sha256",
      "git_bundle_base64", "changes"] v = some fields)
    (hversion : fields.lookup "schema_version" = some version) (hone : version.as_u64 = some 1)
    (hform : text_field fields "form" = some form)
    (hbase : text_field fields "base_commit" = some base_commit)
    (hhead : fields.lookup "head_commit" = some head)
    (hnullable : required_nullable_string head = some head_commit)
    (hbranch : text_field fields "branch" = some branch)
    (hverification : text_field fields "verification_sha256" = some verification_sha256)
    (hpatch : text_field fields "patch_sha256" = some patch_sha256)
    (hpatch64 : text_field fields "patch_base64" = some patch_base64)
    (hbundle_sha256 : fields.lookup "git_bundle_sha256" = some bundle_sha256)
    (hnull_sha256 : unit_field bundle_sha256 = some ())
    (hbundle : fields.lookup "git_bundle_base64" = some bundle)
    (hnull : unit_field bundle = some ())
    (hitems : fields.lookup "changes" = some items)
    (hchanges : bounded_changes items = some changes) :
    ArtifactSet.from_value v
      = some
        { schema_version := 1, form, base_commit, head_commit, branch, verification_sha256
          patch_sha256, patch_base64, changes } := by
  have hsmall : (1 : Nat) < 2 ^ 32 := by decide
  rw [ArtifactSet.from_value, hfields]
  simp only [Option.bind_eq_bind, Option.bind_some, hversion, hone, hform, hbase, hhead, hnullable,
    hbranch, hverification, hpatch, hpatch64, hbundle_sha256, hnull_sha256, hbundle, hnull, hitems,
    hchanges, guard, hsmall, if_true, Option.pure_def]

/-- A change is read as it was written. -/
theorem from_value_to_value (crates : Crates) (change : String × String) (mode : String)
    {content : Bytes} (h : content.length < 2 ^ 64) :
    ArchivedChange.from_value (archived_change crates change mode content).to_value
      = some (exported_change crates change mode content) := by
  have hfields : object_fields ["path", "status", "mode", "sha256", "bytes", "media_type",
      "content_base64"] (archived_change crates change mode content).to_value
      = some [("bytes", .int content.length), ("content_base64", .str (base64_text content)),
        ("media_type", .str (Runner.infer_media_type change.2)), ("mode", .str mode),
        ("path", .str change.2), ("sha256", .str (crates.digest content)),
        ("status", .str change.1)] := by
    rw [Runner.ArchivedChange.to_value, object_fields]
    exact if_pos (by simp)
  exact ArchivedChange.from_value_of hfields rfl rfl rfl rfl rfl (as_u64_length h) rfl rfl

/-- The envelope is read as it was written, if its changes are. -/
theorem artifact_set_of_document (crates : Crates) (lease : Runner.WorkspaceLease)
    (head_commit : Option String) (verification_sha256 : String) (patch : Bytes)
    {archived : List Runner.ArchivedChange} {changes : List ArchivedChange}
    (h : bounded_changes (.arr (archived.map Runner.ArchivedChange.to_value)) = some changes) :
    ArtifactSet.from_value (Runner.document crates .typed_artifact_set lease head_commit
        verification_sha256 patch none archived)
      = some
        { schema_version := 1, form := "typed_artifact_set", base_commit := lease.base_commit
          head_commit, branch := lease.branch, verification_sha256
          patch_sha256 := crates.digest patch, patch_base64 := base64_text patch, changes } := by
  have hhead : required_nullable_string (Runner.nullable head_commit) = some head_commit := by
    cases head_commit <;> rfl
  have hfields : object_fields ["schema_version", "form", "base_commit", "head_commit", "branch",
      "verification_sha256", "patch_sha256", "patch_base64", "git_bundle_sha256",
      "git_bundle_base64", "changes"] (Runner.document crates .typed_artifact_set lease head_commit
        verification_sha256 patch none archived)
      = some [("base_commit", .str lease.base_commit), ("branch", .str lease.branch),
        ("changes", .arr (archived.map Runner.ArchivedChange.to_value)),
        ("form", .str "typed_artifact_set"), ("git_bundle_base64", .null),
        ("git_bundle_sha256", .null), ("head_commit", Runner.nullable head_commit),
        ("patch_base64", .str (base64_text patch)), ("patch_sha256", .str (crates.digest patch)),
        ("schema_version", .int 1), ("verification_sha256", .str verification_sha256)] := by
    rw [Runner.document, object_fields]
    exact if_pos (by simp)
  exact ArtifactSet.from_value_of hfields rfl rfl rfl rfl rfl hhead rfl rfl rfl rfl rfl rfl rfl rfl
    rfl h

end Server

end Crony
