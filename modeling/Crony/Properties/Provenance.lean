/-
The provenance message is unambiguous.

The message joins its fields with bars, and two of the fields may contain bars themselves: the
runner's identifier, which is any text, and the file name. What separates them is the object key
and the link, the only pieces between them that contain a slash besides the media type. If the
two identifiers had different numbers of pieces, the second record's key and link would stand
next to each other where the first record has pieces of which no two neighbours contain a slash.
-/
import Mathlib
import Crony.Lib.Framing
import Crony.Server.Artifacts

set_option autoImplicit false

open Crony.Lib

namespace Crony.Server

/-! ## Texts without a character -/

/-- The text does not contain the character. -/
def Lacks (c : Char) (text : String) : Prop := c ∉ text.toList

instance (c : Char) (text : String) : Decidable (Lacks c text) :=
  inferInstanceAs (Decidable (c ∉ text.toList))

theorem lacks_append {c : Char} {a b : String} (ha : Lacks c a) (hb : Lacks c b) :
    Lacks c (a ++ b) := by
  rw [Lacks, String.toList_append, List.mem_append]
  rintro (h | h)
  · exact ha h
  · exact hb h

/-- The digits of an identifier. -/
theorem mem_hexDigits {c : Char} {width n : Nat} (h : c ∈ hexDigits width n) :
    ∃ k, k < 16 ∧ c = Nat.digitChar k := by
  induction width generalizing n with
  | zero => cases h
  | succ width ih =>
    rw [hexDigits, List.mem_append, List.mem_singleton] at h
    rcases h with h | rfl
    · exact ih h
    · exact ⟨n % 16, Nat.mod_lt n (by decide), rfl⟩

theorem length_hexDigits (width n : Nat) : (hexDigits width n).length = width := by
  induction width generalizing n with
  | zero => rfl
  | succ width ih => rw [hexDigits, List.length_append, ih, List.length_singleton]

theorem digitChar_inj {a b : Nat} (ha : a < 16) (hb : b < 16)
    (h : Nat.digitChar a = Nat.digitChar b) : a = b := by
  have hall : ∀ a b : Fin 16, Nat.digitChar a = Nat.digitChar b → a = b := by decide
  have heq := hall ⟨a, ha⟩ ⟨b, hb⟩ h
  exact congrArg Fin.val heq

/-- The digits determine the number up to their count. -/
theorem hexDigits_inj {width a b : Nat} (h : hexDigits width a = hexDigits width b) :
    a % 16 ^ width = b % 16 ^ width := by
  induction width generalizing a b with
  | zero => simp [Nat.mod_one]
  | succ width ih =>
    rw [hexDigits, hexDigits] at h
    obtain ⟨hfront, hlast⟩ := List.append_inj' h rfl
    have hhigh := ih hfront
    have hlow : a % 16 = b % 16 :=
      digitChar_inj (Nat.mod_lt a (by decide)) (Nat.mod_lt b (by decide))
        (List.singleton_inj.mp hlast)
    rw [Nat.pow_succ', Nat.mod_mul, Nat.mod_mul, hhigh, hlow]

theorem toList_uuid_text (id : Uuid) :
    (uuid_text id).toList = (hexDigits 32 id).take 8 ++ '-' :: ((hexDigits 32 id).drop 8).take 4
      ++ '-' :: ((hexDigits 32 id).drop 12).take 4 ++ '-' :: ((hexDigits 32 id).drop 16).take 4
      ++ '-' :: (hexDigits 32 id).drop 20 :=
  String.toList_ofList

/-- The text of an identifier determines it. -/
theorem uuid_text_inj {a b : Uuid} (ha : a < 2 ^ 128) (hb : b < 2 ^ 128)
    (h : uuid_text a = uuid_text b) : a = b := by
  have hlist := congrArg String.toList h
  rw [toList_uuid_text, toList_uuid_text] at hlist
  have hla := length_hexDigits 32 a
  have hlb := length_hexDigits 32 b
  -- the groups have fixed widths, so they agree one by one, from the last to the first
  have hcut : ∀ {p q : List Char} {m n : List Char}, m.length = n.length →
      p ++ '-' :: m = q ++ '-' :: n → p = q ∧ m = n := by
    intro p q m n hlen heq
    obtain ⟨hp, hm⟩ := List.append_inj' heq (by simp [hlen])
    exact ⟨hp, (List.cons.inj hm).2⟩
  obtain ⟨hlist, h20⟩ := hcut (by simp [hla, hlb]) hlist
  obtain ⟨hlist, h16⟩ := hcut (by simp [hla, hlb]) hlist
  obtain ⟨hlist, h12⟩ := hcut (by simp [hla, hlb]) hlist
  obtain ⟨h0, h8⟩ := hcut (by simp [hla, hlb]) hlist
  have hdigits : hexDigits 32 a = hexDigits 32 b := by
    have hjoin : ∀ l : List Char, l = l.take 8 ++ (l.drop 8).take 4 ++ (l.drop 12).take 4
        ++ (l.drop 16).take 4 ++ l.drop 20 := by
      intro l
      rw [← List.take_add, ← List.take_add, ← List.take_add, List.take_append_drop]
    rw [hjoin (hexDigits 32 a), hjoin (hexDigits 32 b), h0, h8, h12, h16, h20]
  have hmod := hexDigits_inj hdigits
  have hpow : (16 : Nat) ^ 32 = 2 ^ 128 := by norm_num
  rwa [hpow, Nat.mod_eq_of_lt ha, Nat.mod_eq_of_lt hb] at hmod

/-- An identifier is written with digits and hyphens. -/
theorem uuid_text_lacks {c : Char} (hc : ∀ k : Fin 16, c ≠ Nat.digitChar k) (hdash : c ≠ '-')
    (id : Uuid) : Lacks c (uuid_text id) := by
  rw [Lacks, toList_uuid_text]
  have hdigits : c ∉ hexDigits 32 id := by
    intro hmem
    obtain ⟨k, hk, rfl⟩ := mem_hexDigits hmem
    exact hc ⟨k, hk⟩ rfl
  simp only [List.mem_append, List.mem_cons, not_or]
  have htake : ∀ n m, c ∉ ((hexDigits 32 id).drop n).take m := fun n m hmem =>
    hdigits (List.mem_of_mem_drop (List.mem_of_mem_take hmem))
  exact ⟨⟨⟨⟨fun hmem => hdigits (List.mem_of_mem_take hmem), hdash, htake 8 4⟩, hdash, htake 12 4⟩,
    hdash, htake 16 4⟩, hdash, fun hmem => hdigits (List.mem_of_mem_drop hmem)⟩

/-- A digest is written with lower-case hexadecimal digits. -/
theorem digest_lacks {c : Char} (h : ¬ (('0' ≤ c ∧ c ≤ '9') ∨ ('a' ≤ c ∧ c ≤ 'f')))
    (crates : Crates) (bytes : Bytes) : Lacks c (crates.digest bytes) := by
  rw [Lacks, Crates.digest, String.toList_ofList]
  exact fun hmem => h (hex_encode_lower hmem)

/-- A number is written with digits and a sign. -/
theorem toString_lacks {c : Char} (hc : c.isDigit = false) (hsign : c ≠ '-') (n : Int) :
    Lacks c (toString n) := by
  have hnat : ∀ m : Nat, c ∉ m.repr.toList := by
    intro m hmem
    rw [Nat.toList_repr] at hmem
    rw [Nat.isDigit_of_mem_toDigits (by decide) (by decide) hmem] at hc
    cases hc
  rw [Lacks, Int.toString_eq_repr, Int.repr_eq_if]
  split
  · exact hnat _
  · rw [String.toList_append, List.mem_append]
    rintro (hmem | hmem)
    · have hmem : c ∈ ['-'] := hmem
      exact hsign (List.mem_singleton.mp hmem)
    · exact hnat _ hmem

/-- Lower case adds no bar. -/
theorem to_ascii_lowercase_lacks {text : String} (h : Lacks '|' text) :
    Lacks '|' (to_ascii_lowercase text) := by
  rw [Lacks, to_ascii_lowercase, String.toList_ofList, List.mem_map]
  rintro ⟨c, hc, hlower⟩
  have hbar : c = '|' := by
    delta Char.toLower at hlower
    split at hlower
    · -- the letters it makes are no bars
      rename_i hupper
      have hval := congrArg Char.toNat hlower
      simp only [Char.toNat, UInt32.le_iff_toNat_le] at hval hupper
      have hbig : (c.val + ('a'.val - 'A'.val)).toNat = 124 := hval
      rw [UInt32.toNat_add] at hbig
      have hz : c.val.toNat ≤ 90 := hupper.2
      have hdiff : ('a'.val - 'A'.val).toNat = 32 := by decide
      omega
    · exact hlower
  exact h (hbar ▸ hc)

/-! ## Prepared records -/

/-- **What staging puts into a record.** The record of an identity: the parts the server chooses
are functions of the identity and the digest, and the parts it takes from the upload lack the
characters the checks exclude. -/
structure Prepared (crates : ArtifactCrates) (identity : ArtifactIdentity) (a : StoredArtifact) :
    Prop where
  id : a.id = identity.id
  corp_id : a.corp_id = identity.corp_id
  task_id : a.task_id = identity.task_id
  run_id : a.run_id = identity.run_id
  producer_agent_id : a.producer_agent_id = identity.agent_id
  verifier : a.verifier = ARTIFACT_VERIFIER
  object_key : a.object_key = "corps/" ++ uuid_text a.corp_id ++ "/sha256/"
    ++ String.ofList (a.sha256.toList.take 2) ++ "/" ++ a.sha256
  uri : a.uri = "/api/corps/" ++ uuid_text a.corp_id ++ "/artifacts/" ++ uuid_text a.id
  sha256 : ∃ bytes, a.sha256 = crates.digest bytes
  media_type : Lacks '|' a.media_type
  artifact_role : a.artifact_role ∈ ["provider_evidence", "source_deliverable"]
  file_name : Lacks '/' a.file_name

/-- A media type has no bar, where no essence has one. -/
theorem media_type_lacks {crates : ArtifactCrates} {declared media_type : String} {bytes : Bytes}
    (hessence : ∀ text essence, crates.essence text = some essence → Lacks '|' essence)
    (h : normalize_and_verify_media_type crates declared bytes = .ok media_type) :
    Lacks '|' media_type := by
  rw [normalize_and_verify_media_type] at h
  simp only [bind_eq_ok, context_eq_ok, pure_eq_ok] at h
  obtain ⟨essence, hparsed, _, -, rfl⟩ := h
  exact to_ascii_lowercase_lacks (hessence declared essence hparsed)

theorem valid_artifact_file_name_lacks {file_name : String}
    (h : valid_artifact_file_name file_name = true) : Lacks '/' file_name := by
  intro hmem
  simp only [valid_artifact_file_name, Bool.and_eq_true, Bool.not_eq_true', List.any_eq_false] at h
  exact h.1.2 '/' hmem rfl

/-- **Staging prepares.** -/
theorem prepare_staging_prepared {store : ArtifactStore} {crates : ArtifactCrates}
    {identity : ArtifactIdentity} {payload : Json} {retention_until : Instant}
    {retained_receipt : Option RetainedProviderReceiptGrant} {staged : StagedArtifact}
    (hessence : ∀ text essence, crates.essence text = some essence → Lacks '|' essence)
    (h : store.prepare_staging_with_receipt crates identity payload retention_until retained_receipt
      = .ok staged) :
    Prepared crates identity staged.artifact := by
  rw [ArtifactStore.prepare_staging_with_receipt] at h
  simp only [bind_eq_ok, ensure_eq_ok, context_eq_ok, pure_eq_ok] at h
  obtain ⟨_, -, bytes, -, sha, hsha, declared, -, media_type, hmedia, _, hrole, _, hname, metadata,
    -, _, -, rfl⟩ := h
  have hdigest : sha = crates.digest bytes := by
    rw [upload_sha256] at hsha
    simp only [bind_eq_ok, ensure_eq_ok, context_eq_ok, pure_eq_ok] at hsha
    obtain ⟨_, -, _, -, _, -, hsha⟩ := hsha
    exact hsha.symm
  exact ⟨rfl, rfl, rfl, rfl, rfl, rfl, rfl, rfl, ⟨bytes, hdigest⟩,
    media_type_lacks hessence hmedia, hrole, valid_artifact_file_name_lacks hname⟩

namespace Prepared

variable {crates : ArtifactCrates} {identity : ArtifactIdentity} {a : StoredArtifact}

theorem sha256_lacks (h : Prepared crates identity a) {c : Char}
    (hc : ¬ (('0' ≤ c ∧ c ≤ '9') ∨ ('a' ≤ c ∧ c ≤ 'f'))) : Lacks c a.sha256 := by
  obtain ⟨bytes, hbytes⟩ := h.sha256
  rw [hbytes]
  exact digest_lacks hc crates.toCrates bytes

theorem verifier_lacks (h : Prepared crates identity a) : Lacks '|' a.verifier := by
  rw [h.verifier]
  exact by decide

theorem uri_lacks (h : Prepared crates identity a) : Lacks '|' a.uri := by
  have huuid := uuid_text_lacks (c := '|') (by decide) (by decide)
  rw [h.uri]
  exact lacks_append (lacks_append (lacks_append (by decide) (huuid _)) (by decide)) (huuid _)

theorem object_key_lacks (h : Prepared crates identity a) : Lacks '|' a.object_key := by
  have huuid := uuid_text_lacks (c := '|') (by decide) (by decide)
  have hsha := h.sha256_lacks (c := '|') (by decide)
  have htwo : Lacks '|' (String.ofList (a.sha256.toList.take 2)) := by
    rw [Lacks, String.toList_ofList]
    exact fun hmem => hsha (List.mem_of_mem_take hmem)
  rw [h.object_key]
  exact lacks_append (lacks_append (lacks_append (lacks_append (lacks_append (by decide) (huuid _))
    (by decide)) htwo) (by decide)) hsha

theorem artifact_role_lacks (h : Prepared crates identity a) {c : Char}
    (hc : c = '|' ∨ c = '/') : Lacks c a.artifact_role := by
  have hrole := h.artifact_role
  simp only [List.mem_cons, List.not_mem_nil, or_false] at hrole
  rcases hc with rfl | rfl <;> rcases hrole with hrole | hrole <;> rw [hrole] <;> decide

/-- The key and the link contain slashes. -/
theorem object_key_slash (h : Prepared crates identity a) : '/' ∈ a.object_key.toList := by
  rw [h.object_key]
  simp [String.toList_append]

theorem uri_slash (h : Prepared crates identity a) : '/' ∈ a.uri.toList := by
  rw [h.uri]
  simp [String.toList_append]

end Prepared

/-! ## Pieces -/

/-- The pieces of a text between bars. -/
def pieces (text : String) : List (List Char) := text.toList.splitOn '|'

theorem pieces_of_lacks {text : String} (h : Lacks '|' text) : pieces text = [text.toList] :=
  splitOn_of_notMem h

theorem pieces_inj {a b : String} (h : pieces a = pieces b) : a = b :=
  String.toList_inj.mp (eq_of_splitOn_eq h)

theorem pieces_intercalate {parts : List String} (h : parts ≠ []) :
    pieces ("|".intercalate parts) = parts.flatMap pieces := by
  have hbar : "|".toList = ['|'] := rfl
  rw [pieces, String.toList_intercalate, hbar,
    splitOn_intercalate_eq_flatMap _ (by simpa using h), List.flatMap_map]
  rfl

/-- Pieces of a text without a character do not contain it. -/
theorem notMem_of_mem_pieces {c : Char} {text : String} (h : Lacks c text) {piece : List Char}
    (hpiece : piece ∈ pieces text) : c ∉ piece := by
  intro hc
  have hjoin : ['|'].intercalate (pieces text) = text.toList := List.intercalate_splitOn '|'
  apply h
  rw [← hjoin]
  exact mem_intercalate hpiece hc

/-- **The alignment.** Between two runs of pieces stand seven: the second and the third contain
a slash, the first `s`, and of the others only the fifth may; what follows has none. Then the
runs in front are equally long. -/
theorem front_length_le {front₁ front₂ back₁ back₂ : List (List Char)}
    {v₁ k₁ u₁ s₁ m₁ b₁ o₁ v₂ k₂ u₂ s₂ m₂ b₂ o₂ : List Char}
    (h : front₁ ++ [v₁, k₁, u₁, s₁, m₁, b₁, o₁] ++ back₁
      = front₂ ++ [v₂, k₂, u₂, s₂, m₂, b₂, o₂] ++ back₂)
    (hk₂ : '/' ∈ k₂) (hu₂ : '/' ∈ u₂) (hs₁ : '/' ∉ s₁) (hb₁ : '/' ∉ b₁) (ho₁ : '/' ∉ o₁)
    (hback₁ : ∀ piece ∈ back₁, '/' ∉ piece) :
    front₂.length ≤ front₁.length := by
  by_contra hlt
  have hat : ∀ i : Nat, (front₁ ++ [v₁, k₁, u₁, s₁, m₁, b₁, o₁] ++ back₁)[i]?
      = (front₂ ++ [v₂, k₂, u₂, s₂, m₂, b₂, o₂] ++ back₂)[i]? := fun i => by rw [h]
  -- behind the third piece of the first list only the fifth can have a slash
  have hfirst : ∀ (i : Nat) (piece : List Char), front₁.length + 3 ≤ i →
      (front₁ ++ [v₁, k₁, u₁, s₁, m₁, b₁, o₁] ++ back₁)[i]? = some piece → '/' ∈ piece →
      i = front₁.length + 4 := by
    intro i piece hi hget hslash
    rw [List.append_assoc, List.getElem?_append_right (by omega)] at hget
    obtain ⟨j, rfl⟩ : ∃ j, i = front₁.length + 3 + j := ⟨i - (front₁.length + 3), by omega⟩
    have hj : front₁.length + 3 + j - front₁.length = j + 3 := by omega
    rw [hj] at hget
    match j, hget with
    | 0, hget =>
      simp only [List.cons_append, List.getElem?_cons_succ, List.getElem?_cons_zero,
        Option.some.injEq] at hget
      exact absurd (hget ▸ hslash) hs₁
    | 1, _ => rfl
    | 2, hget =>
      simp only [List.cons_append, List.getElem?_cons_succ, List.getElem?_cons_zero,
        Option.some.injEq] at hget
      exact absurd (hget ▸ hslash) hb₁
    | 3, hget =>
      simp only [List.cons_append, List.getElem?_cons_succ, List.getElem?_cons_zero,
        Option.some.injEq] at hget
      exact absurd (hget ▸ hslash) ho₁
    | j + 4, hget =>
      simp only [List.cons_append, List.getElem?_cons_succ, List.nil_append] at hget
      exact absurd hslash (hback₁ piece (List.mem_of_getElem? hget))
  -- so the second list's key and link would both have to be there
  have hlink : (front₂ ++ [v₂, k₂, u₂, s₂, m₂, b₂, o₂] ++ back₂)[front₂.length + 2]? = some u₂ := by
    rw [List.append_assoc, List.getElem?_append_right (by omega)]
    simp
  have hkey : (front₂ ++ [v₂, k₂, u₂, s₂, m₂, b₂, o₂] ++ back₂)[front₂.length + 1]? = some k₂ := by
    rw [List.append_assoc, List.getElem?_append_right (by omega)]
    simp
  rw [← hat] at hlink hkey
  have hlink := hfirst _ _ (by omega) hlink hu₂
  have hkey := hfirst _ _ (by omega) hkey hk₂
  omega

/-! ## The pieces of a message -/

/-- The pieces in front: the format and the identifiers. -/
def heads (version : String) (a : StoredArtifact) : List (List Char) :=
  [version.toList, (uuid_text a.id).toList, (uuid_text a.corp_id).toList,
    (uuid_text a.task_id).toList, (uuid_text a.run_id).toList,
    (uuid_text a.producer_agent_id).toList]

theorem length_heads (version : String) (a : StoredArtifact) : (heads version a).length = 6 := rfl

/-- The record is written in the first format. -/
def IsFirst (a : StoredArtifact) : Prop :=
  a.artifact_role = "provider_evidence" ∧ a.file_name = "artifact.bin"
    ∧ a.metadata.beq (.obj []) = true

section

variable {crates : ArtifactCrates} {identity : ArtifactIdentity} {a : StoredArtifact}

theorem pieces_uuid_text (id : Uuid) : pieces (uuid_text id) = [(uuid_text id).toList] :=
  pieces_of_lacks (uuid_text_lacks (by decide) (by decide) id)

theorem pieces_toString (n : Int) : pieces (toString n) = [(toString n).toList] :=
  pieces_of_lacks (toString_lacks (by decide) (by decide) n)

theorem pieces_first (h : Prepared crates identity a) (hfirst : IsFirst a) :
    pieces (provenance_message crates a) = heads "v1" a ++ (pieces a.producer_runner_id
      ++ [a.verifier.toList, a.object_key.toList, a.uri.toList, a.sha256.toList,
        a.media_type.toList, (toString a.bytes).toList,
        (toString (timestamp_micros a.retention_until)).toList]) := by
  have hversion : pieces "v1" = ["v1".toList] := pieces_of_lacks (by decide)
  rw [IsFirst] at hfirst
  rw [provenance_message, if_pos hfirst, pieces_intercalate (List.cons_ne_nil _ _)]
  simp only [List.flatMap_cons, List.flatMap_nil, hversion, pieces_uuid_text, pieces_toString,
    pieces_of_lacks h.verifier_lacks, pieces_of_lacks h.object_key_lacks,
    pieces_of_lacks h.uri_lacks, pieces_of_lacks (h.sha256_lacks (c := '|') (by decide)),
    pieces_of_lacks h.media_type]
  rfl

theorem pieces_second (h : Prepared crates identity a) (hsecond : ¬ IsFirst a) :
    pieces (provenance_message crates a) = heads "v2" a ++ (pieces a.producer_runner_id
      ++ [a.verifier.toList, a.object_key.toList, a.uri.toList, a.sha256.toList,
        a.media_type.toList, (toString a.bytes).toList, a.artifact_role.toList]
      ++ pieces a.file_name ++ [(crates.digest (crates.to_vec a.metadata)).toList,
        (toString (timestamp_micros a.retention_until)).toList]) := by
  have hversion : pieces "v2" = ["v2".toList] := pieces_of_lacks (by decide)
  have hdigest : pieces (crates.digest (crates.to_vec a.metadata))
      = [(crates.digest (crates.to_vec a.metadata)).toList] :=
    pieces_of_lacks (digest_lacks (by decide) _ _)
  rw [IsFirst] at hsecond
  rw [provenance_message, if_neg hsecond, pieces_intercalate (List.cons_ne_nil _ _)]
  simp only [List.flatMap_cons, List.flatMap_nil, hversion, hdigest, pieces_uuid_text,
    pieces_toString, pieces_of_lacks h.verifier_lacks, pieces_of_lacks h.object_key_lacks,
    pieces_of_lacks h.uri_lacks, pieces_of_lacks (h.sha256_lacks (c := '|') (by decide)),
    pieces_of_lacks h.media_type, pieces_of_lacks (h.artifact_role_lacks (Or.inl rfl))]
  simp only [heads, List.append_assoc, List.cons_append, List.nil_append, List.append_nil]

end

/-! ## Agreement -/

/-- The records agree on every field the message covers. -/
structure Agree (a b : StoredArtifact) : Prop where
  id : a.id = b.id
  corp_id : a.corp_id = b.corp_id
  task_id : a.task_id = b.task_id
  run_id : a.run_id = b.run_id
  producer_agent_id : a.producer_agent_id = b.producer_agent_id
  producer_runner_id : a.producer_runner_id = b.producer_runner_id
  verifier : a.verifier = b.verifier
  object_key : a.object_key = b.object_key
  uri : a.uri = b.uri
  sha256 : a.sha256 = b.sha256
  media_type : a.media_type = b.media_type
  bytes : a.bytes = b.bytes
  artifact_role : a.artifact_role = b.artifact_role
  file_name : a.file_name = b.file_name
  metadata : a.metadata = b.metadata
  retention_until : timestamp_micros a.retention_until = timestamp_micros b.retention_until

/-- Only the empty object is equal to it. -/
theorem eq_of_beq_empty {v : Json} (h : v.beq (.obj []) = true) : v = .obj [] := by
  cases v with
  | obj fields =>
    cases fields with
    | nil => rfl
    | cons field fields => simp [Json.beq] at h
  | null | bool | int | float | str | arr => simp [Json.beq] at h

theorem toString_inj {m n : Int} (h : (toString m).toList = (toString n).toList) : m = n := by
  rw [String.toList_inj, Int.toString_eq_repr, Int.toString_eq_repr] at h
  exact Int.repr_inj.mp h

section

variable {crates : ArtifactCrates} {identity₁ identity₂ : ArtifactIdentity} {a b : StoredArtifact}

/-- Equal pieces in front are the same format and the same identifiers. -/
theorem heads_inj (ha : Prepared crates identity₁ a) (hb : Prepared crates identity₂ b)
    {version₁ version₂ : String} (h : heads version₁ a = heads version₂ b) :
    version₁ = version₂ ∧ a.id = b.id ∧ a.corp_id = b.corp_id ∧ a.task_id = b.task_id
      ∧ a.run_id = b.run_id ∧ a.producer_agent_id = b.producer_agent_id := by
  simp only [heads, List.cons.injEq, String.toList_inj, and_true] at h
  obtain ⟨hversion, hid, hcorp, htask, hrun, hagent⟩ := h
  refine ⟨hversion, uuid_text_inj ?_ ?_ hid, uuid_text_inj ?_ ?_ hcorp, uuid_text_inj ?_ ?_ htask,
    uuid_text_inj ?_ ?_ hrun, uuid_text_inj ?_ ?_ hagent⟩
  · exact ha.id ▸ identity₁.id_lt
  · exact hb.id ▸ identity₂.id_lt
  · exact ha.corp_id ▸ identity₁.corp_id_lt
  · exact hb.corp_id ▸ identity₂.corp_id_lt
  · exact ha.task_id ▸ identity₁.task_id_lt
  · exact hb.task_id ▸ identity₂.task_id_lt
  · exact ha.run_id ▸ identity₁.run_id_lt
  · exact hb.run_id ▸ identity₂.run_id_lt
  · exact ha.producer_agent_id ▸ identity₁.agent_id_lt
  · exact hb.producer_agent_id ▸ identity₂.agent_id_lt

/-- The numbers of pieces of the two runner identifiers agree. -/
theorem runner_pieces_le (ha : Prepared crates identity₁ a) (hb : Prepared crates identity₂ b)
    (h : pieces a.producer_runner_id ++ [a.verifier.toList, a.object_key.toList, a.uri.toList,
        a.sha256.toList, a.media_type.toList, (toString a.bytes).toList, a.artifact_role.toList]
        ++ pieces a.file_name
      = pieces b.producer_runner_id ++ [b.verifier.toList, b.object_key.toList, b.uri.toList,
        b.sha256.toList, b.media_type.toList, (toString b.bytes).toList, b.artifact_role.toList]
        ++ pieces b.file_name) :
    (pieces b.producer_runner_id).length ≤ (pieces a.producer_runner_id).length :=
  front_length_le h hb.object_key_slash hb.uri_slash (ha.sha256_lacks (by decide))
    (toString_lacks (by decide) (by decide) a.bytes) (ha.artifact_role_lacks (Or.inr rfl))
    fun _ hpiece => notMem_of_mem_pieces ha.file_name hpiece

/-- The first format is unambiguous. -/
theorem agree_first (ha : Prepared crates identity₁ a) (hb : Prepared crates identity₂ b)
    (hfa : IsFirst a) (hfb : IsFirst b)
    (h : provenance_message crates a = provenance_message crates b) : Agree a b := by
  have hpieces := congrArg pieces h
  rw [pieces_first ha hfa, pieces_first hb hfb] at hpieces
  obtain ⟨hheads, htail⟩ := List.append_inj hpieces (by rw [length_heads, length_heads])
  obtain ⟨hrunner, hrest⟩ :=
    List.append_inj' htail (by simp only [List.length_cons, List.length_nil])
  obtain ⟨-, hid, hcorp, htask, hrun, hagent⟩ := heads_inj ha hb hheads
  simp only [List.cons.injEq, String.toList_inj, and_true] at hrest
  obtain ⟨hverifier, hkey, huri, hsha, hmedia, hbytes, hmicros⟩ := hrest
  exact ⟨hid, hcorp, htask, hrun, hagent, pieces_inj hrunner, hverifier, hkey, huri, hsha, hmedia,
    toString_inj (congrArg String.toList hbytes), hfa.1.trans hfb.1.symm,
    hfa.2.1.trans hfb.2.1.symm, (eq_of_beq_empty hfa.2.2).trans (eq_of_beq_empty hfb.2.2).symm,
    toString_inj (congrArg String.toList hmicros)⟩

/-- The second format is unambiguous. -/
theorem agree_second (ha : Prepared crates identity₁ a) (hb : Prepared crates identity₂ b)
    (hsa : ¬ IsFirst a) (hsb : ¬ IsFirst b)
    (hsha256 : crates.sha256 (crates.to_vec a.metadata) = crates.sha256 (crates.to_vec b.metadata) →
      a.metadata = b.metadata)
    (h : provenance_message crates a = provenance_message crates b) : Agree a b := by
  have hpieces := congrArg pieces h
  rw [pieces_second ha hsa, pieces_second hb hsb] at hpieces
  obtain ⟨hheads, htail⟩ := List.append_inj hpieces (by rw [length_heads, length_heads])
  obtain ⟨hmiddle, hlast⟩ :=
    List.append_inj' htail (by simp only [List.length_cons, List.length_nil])
  -- the identifiers of the runners have the same number of pieces, so everything lines up
  have hfront : (pieces a.producer_runner_id).length = (pieces b.producer_runner_id).length :=
    Nat.le_antisymm (runner_pieces_le hb ha hmiddle.symm) (runner_pieces_le ha hb hmiddle)
  have hseven := List.append_inj hmiddle (by
    simp only [List.length_append, List.length_cons, List.length_nil, hfront])
  obtain ⟨hrunner, hrest⟩ := List.append_inj hseven.1 hfront
  obtain ⟨-, hid, hcorp, htask, hrun, hagent⟩ := heads_inj ha hb hheads
  simp only [List.cons.injEq, String.toList_inj, and_true] at hrest hlast
  obtain ⟨hverifier, hkey, huri, hsha, hmedia, hbytes, hrole⟩ := hrest
  obtain ⟨hdigest, hmicros⟩ := hlast
  have hvector : crates.sha256 (crates.to_vec a.metadata)
      = crates.sha256 (crates.to_vec b.metadata) := by
    rw [Crates.digest, Crates.digest, String.ofList_inj] at hdigest
    exact Vector.toList_inj.mp (hex_encode_inj hdigest)
  exact ⟨hid, hcorp, htask, hrun, hagent, pieces_inj hrunner, hverifier, hkey, huri, hsha, hmedia,
    toString_inj (congrArg String.toList hbytes), hrole, pieces_inj hseven.2, hsha256 hvector,
    toString_inj (congrArg String.toList hmicros)⟩

/-- **The message is unambiguous.** -/
theorem agree_of_message (ha : Prepared crates identity₁ a) (hb : Prepared crates identity₂ b)
    (hsha256 : crates.sha256 (crates.to_vec a.metadata) = crates.sha256 (crates.to_vec b.metadata) →
      a.metadata = b.metadata)
    (h : provenance_message crates a = provenance_message crates b) : Agree a b := by
  by_cases hfa : IsFirst a
  · by_cases hfb : IsFirst b
    · exact agree_first ha hb hfa hfb h
    · have hpieces := congrArg pieces h
      rw [pieces_first ha hfa, pieces_second hb hfb] at hpieces
      have hversion :=
        (heads_inj ha hb (List.append_inj hpieces (by rw [length_heads, length_heads])).1).1
      exact absurd hversion (by decide)
  · by_cases hfb : IsFirst b
    · have hpieces := congrArg pieces h
      rw [pieces_second ha hfa, pieces_first hb hfb] at hpieces
      have hversion :=
        (heads_inj ha hb (List.append_inj hpieces (by rw [length_heads, length_heads])).1).1
      exact absurd hversion (by decide)
    · exact agree_second ha hb hfa hfb hsha256 h

end

/-- **Provenance messages are unambiguous.** Two records that staging prepared, for the same or
for different uploads, and whose messages are equal, agree on every field the message covers. -/
theorem provenance_message_unambiguous
    {store₁ store₂ : ArtifactStore} {crates : ArtifactCrates}
    {identity₁ identity₂ : ArtifactIdentity} {payload₁ payload₂ : Json}
    {retention₁ retention₂ : Instant} {receipt₁ receipt₂ : Option RetainedProviderReceiptGrant}
    {staged₁ staged₂ : StagedArtifact}
    (hessence : ∀ text essence, crates.essence text = some essence → Lacks '|' essence)
    (hsha256 : crates.sha256 (crates.to_vec staged₁.artifact.metadata)
        = crates.sha256 (crates.to_vec staged₂.artifact.metadata) →
      staged₁.artifact.metadata = staged₂.artifact.metadata)
    (h₁ : store₁.prepare_staging_with_receipt crates identity₁ payload₁ retention₁ receipt₁
      = .ok staged₁)
    (h₂ : store₂.prepare_staging_with_receipt crates identity₂ payload₂ retention₂ receipt₂
      = .ok staged₂)
    (hmessage : provenance_message crates staged₁.artifact
      = provenance_message crates staged₂.artifact) :
    Agree staged₁.artifact staged₂.artifact :=
  agree_of_message (prepare_staging_prepared hessence h₁) (prepare_staging_prepared hessence h₂)
    hsha256 hmessage

/-! ## Two uploads of one byte -/

namespace Notes

/-- SHA-256 on the byte `A` and on the text of the empty object. -/
def sha256 (bytes : Bytes) : Vector UInt8 32 :=
  if bytes = as_bytes "A" then
    #v[85, 154, 234, 208, 130, 100, 213, 121, 93, 57, 9, 113, 140, 221, 5, 171, 212, 149, 114,
      232, 79, 229, 85, 144, 238, 243, 26, 136, 160, 143, 223, 253]
  else if bytes = as_bytes "\x7b\x7d" then
    #v[68, 19, 111, 163, 85, 179, 103, 138, 17, 70, 173, 22, 247, 232, 100, 158, 148, 251, 79,
      194, 31, 231, 126, 131, 16, 192, 96, 246, 28, 170, 255, 138]
  else Vector.replicate 32 0

def crates : ArtifactCrates :=
  { sha256
    to_vec_pretty := fun _ => []
    from_slice := fun _ => none
    is_json := fun _ => false
    essence := fun text => if text = "text/plain" then some "text/plain" else none
    to_vec := fun v => if v.beq (.obj []) then as_bytes "\x7b\x7d" else []
    hmac := fun _ _ => [141, 149, 67, 31, 73, 224, 61, 204, 101, 194, 66, 227, 237, 148, 220, 39,
      177, 156, 133, 125, 62, 8, 154, 40, 168, 58, 144, 169, 64, 137, 55, 101] }

def store : ArtifactStore := { signing_key := List.replicate 32 0x4C, max_bytes := 1048576 }

/-- The runner's identifier contains a bar. -/
def identity : ArtifactIdentity :=
  { id := 1, corp_id := 2, task_id := 3, run_id := 4, agent_id := 5, runner_id := "runner|1"
    id_lt := by decide, corp_id_lt := by decide, task_id_lt := by decide, run_id_lt := by decide
    agent_id_lt := by decide }

def digest : String := "559aead08264d5795d3909718cdd05abd49572e84fe55590eef31a88a08fdffd"

/-- An upload that declares the digest in the given spelling. -/
def payload (sha256 : String) : Json :=
  .obj [("bytes", .int 1), ("content_base64", .str "QQ=="), ("sha256", .str sha256),
    ("media_type", .str "text/plain"), ("file_name", .str "notes.md")]

def artifact (retention_until : Instant) : StoredArtifact :=
  { id := 1, corp_id := 2, task_id := 3, run_id := 4, producer_agent_id := 5
    producer_runner_id := "runner|1", verifier := ARTIFACT_VERIFIER
    object_key := "corps/" ++ uuid_text 2 ++ "/sha256/" ++ String.ofList (digest.toList.take 2)
      ++ "/" ++ digest
    uri := "/api/corps/" ++ uuid_text 2 ++ "/artifacts/" ++ uuid_text 1
    sha256 := digest, media_type := "text/plain", bytes := 1, artifact_role := "provider_evidence"
    file_name := "notes.md", metadata := .obj [], provenance_signature := "", retention_until }

def staged (retention_until : Instant) : StagedArtifact :=
  { artifact := { artifact retention_until with
      provenance_signature := store.sign crates (artifact retention_until) }
    staging_key := "staging/corps/" ++ uuid_text 2 ++ "/" ++ uuid_text 1
    bytes := [65] }

set_option maxRecDepth 20000 in
theorem prepare_staged (sha256 : String) (retention_until : Instant)
    (hsha : upload_sha256 crates (payload sha256) [65] = .ok digest) :
    store.prepare_staging_with_receipt crates identity (payload sha256) retention_until none
      = .ok (staged retention_until) := by
  have hbytes : upload_bytes store (payload sha256) = .ok [65] := by
    have hencoded : base64_bytes "QQ==" = some [65] := by decide +kernel
    have hlimit : byteLen "QQ==" ≤ maximum_encoded store.max_bytes := by decide +kernel
    have hlength : (payload sha256).text? "content_base64" = some "QQ==" := rfl
    have hcount : ((payload sha256).get? "bytes").bind Json.as_u64 = some 1 := rfl
    rw [upload_bytes, hcount, context, ok_bind, ensure_of (by decide), ok_bind, hlength, context,
      ok_bind, ensure_of hlimit, ok_bind, hencoded, context, ok_bind, ensure_of (by decide),
        ok_bind]
    rfl
  have hmedia : normalize_and_verify_media_type crates "text/plain" [65] = .ok "text/plain" := by
    decide +kernel
  have hname : valid_artifact_file_name "notes.md" = true := by decide +kernel
  have htype : (payload sha256).text? "media_type" = some "text/plain" := rfl
  have hrole : ((payload sha256).text? "artifact_role").getD "provider_evidence"
      = "provider_evidence" := rfl
  have hfile : ((payload sha256).text? "file_name").getD "artifact.bin" = "notes.md" := rfl
  have hreceipt : ((payload sha256).get? "retained_provider_receipt").isNone = true := rfl
  have hmetadata : upload_metadata crates identity (payload sha256) none [65] "text/plain"
      "provider_evidence" "notes.md" = .ok (.obj []) := rfl
  rw [ArtifactStore.prepare_staging_with_receipt, ensure_of (Or.inl hreceipt), ok_bind, hbytes,
    ok_bind, hsha, ok_bind, htype, context, ok_bind, hmedia, ok_bind]
  simp only [hrole, hfile]
  rw [ensure_of (by decide), ok_bind, ensure_of hname, ok_bind, hmetadata, ok_bind,
    ensure_of (by decide), ok_bind]
  rfl

/-- The retention of the second upload ends within the same microsecond, and its digest is
spelled with capitals. -/
theorem provenance_message_unambiguous_notes :
    Agree (staged 1000).artifact (staged 1999).artifact := by
  have hlower : upload_sha256 crates (payload digest) [65] = .ok digest := by decide +kernel
  have hupper : upload_sha256 crates (payload (to_ascii_uppercase digest)) [65] = .ok digest := by
    decide +kernel
  have hmicros : timestamp_micros 1000 = timestamp_micros 1999 := by decide
  refine provenance_message_unambiguous ?_ (fun _ => rfl)
    (prepare_staged digest 1000 hlower) (prepare_staged (to_ascii_uppercase digest) 1999 hupper) ?_
  · intro text essence h
    have h : (if text = "text/plain" then some "text/plain" else none) = some essence := h
    split at h
    · injection h with h
      rw [← h]
      decide
    · cases h
  · have hmessage : ∀ r, provenance_message crates (staged r).artifact
        = "|".intercalate ["v2", uuid_text 1, uuid_text 2, uuid_text 3, uuid_text 4, uuid_text 5,
          "runner|1", ARTIFACT_VERIFIER, (artifact 0).object_key, (artifact 0).uri, digest,
          "text/plain", toString (1 : Int), "provider_evidence", "notes.md",
          crates.digest (crates.to_vec (.obj [])), toString (timestamp_micros r)] := by
      intro r
      exact if_neg (by simp [staged, artifact])
    rw [hmessage, hmessage, hmicros]

end Notes

end Crony.Server
