/-
Failure reasons.

A reason is collapsed to its words with single spaces between them, replaced by the fallback when
there are none, and cut after 2000 bytes. The result is always a short line of text. It is not
always its own normal form: the cut can fall right behind a space, and the space stays; and a
fallback is returned as it is.
-/
import Crony.Lib.Words
import Crony.Text

set_option autoImplicit false

open Crony.Lib

namespace Crony

/-! ## Cutting a text after some bytes -/

/-- The bytes of a list of characters. -/
def utf8_bytes (cs : List Char) : Nat := (cs.map Char.utf8Size).sum

@[simp] theorem utf8_bytes_nil : utf8_bytes [] = 0 := rfl

@[simp] theorem utf8_bytes_cons (c : Char) (cs : List Char) :
    utf8_bytes (c :: cs) = c.utf8Size + utf8_bytes cs := rfl

theorem utf8_bytes_append (cs ds : List Char) :
    utf8_bytes (cs ++ ds) = utf8_bytes cs + utf8_bytes ds := by
  rw [utf8_bytes, List.map_append, List.sum_append]
  rfl

theorem byteLen_eq_bytes (text : String) : byteLen text = utf8_bytes text.toList := rfl

theorem takeBytes_upto (n : Nat) (cs : List Char) : takeBytes n cs <+: cs := by
  induction cs generalizing n with
  | nil => exact List.prefix_refl _
  | cons c cs ih =>
    rw [takeBytes]
    split
    · exact List.cons_prefix_cons.mpr ⟨rfl, ih _⟩
    · exact List.nil_prefix

theorem takeBytes_bytes_le (n : Nat) (cs : List Char) : utf8_bytes (takeBytes n cs) ≤ n := by
  induction cs generalizing n with
  | nil => exact Nat.zero_le n
  | cons c cs ih =>
    rw [takeBytes]
    split
    · have hrest := ih (n - c.utf8Size)
      rw [utf8_bytes_cons]
      omega
    · exact Nat.zero_le n

/-- **The cut is as late as it can be**: the next character does not fit. -/
theorem takeBytes_next {n : Nat} {cs rest : List Char} {c : Char}
    (h : cs = takeBytes n cs ++ c :: rest) : n < utf8_bytes (takeBytes n cs) + c.utf8Size := by
  induction cs generalizing n with
  | nil => cases h
  | cons d cs ih =>
    rw [takeBytes] at h ⊢
    by_cases hd : d.utf8Size ≤ n
    · rw [if_pos hd, List.cons_append, List.cons.injEq] at h
      rw [if_pos hd, utf8_bytes_cons]
      have hnext := ih h.2
      omega
    · rw [if_neg hd, List.nil_append, List.cons.injEq] at h
      rw [if_neg hd, utf8_bytes_nil, ← h.1]
      omega

theorem takeBytes_of_bytes_le {n : Nat} {cs : List Char} (h : utf8_bytes cs ≤ n) :
    takeBytes n cs = cs := by
  obtain ⟨rest, hrest⟩ := takeBytes_upto n cs
  cases rest with
  | nil =>
    rw [List.append_nil] at hrest
    exact hrest
  | cons c rest =>
    have hnext := takeBytes_next hrest.symm
    have htotal : utf8_bytes cs = utf8_bytes (takeBytes n cs) + (c.utf8Size + utf8_bytes rest) := by
      conv_lhs => rw [← hrest]
      rw [utf8_bytes_append, utf8_bytes_cons]
    omega

/-- Where a text can be cut it is cut. -/
theorem takeBytes_append {n : Nat} {front rest : List Char} {c : Char}
    (hfits : utf8_bytes front ≤ n)
    (hnext : n < utf8_bytes front + c.utf8Size) : takeBytes n (front ++ c :: rest) = front := by
  induction front generalizing n with
  | nil =>
    rw [List.nil_append, takeBytes, if_neg]
    rw [utf8_bytes_nil] at hnext
    omega
  | cons d front ih =>
    rw [utf8_bytes_cons] at hfits hnext
    rw [List.cons_append, takeBytes, if_pos (by omega), ih (by omega) (by omega)]

/-! ## Collapsing -/

/-- The text with its words one space apart; control characters count as white space. -/
def collapsed (text : String) : List Char :=
  [' '].intercalate (split_whitespace (text.toList.map fun c => if is_control c then ' ' else c))

theorem normalize_bounded_failure_reason_eq (reason fallback : String) :
    normalize_bounded_failure_reason reason fallback
      = String.ofList (takeBytes 2000
          (if collapsed reason = [] then fallback.toList else collapsed reason)) := by
  simp only [normalize_bounded_failure_reason, List.isEmpty_iff]
  rfl

theorem space_is_whitespace : is_whitespace ' ' = true := by decide

theorem space_not_control : is_control ' ' = false := by decide

/-- The words of the collapsed text; none has white space, and nothing is a control character. -/
theorem collapsed_words (text : String) : ∃ ws, (∀ w ∈ ws, IsWord is_whitespace w)
    ∧ (∀ c ∈ collapsed text, is_control c = false) ∧ collapsed text = [' '].intercalate ws := by
  have hspaced : ∀ c ∈ text.toList.map fun c => if is_control c then ' ' else c,
      is_control c = false := by
    intro c hc
    obtain ⟨d, -, rfl⟩ := List.mem_map.mp hc
    by_cases hd : is_control d = true
    · rw [if_pos hd]
      exact space_not_control
    · rw [if_neg hd]
      simpa using hd
  refine ⟨_, fun w hw => words_spec hw, ?_, rfl⟩
  intro c hc
  rcases mem_join hc with rfl | ⟨w, hw, hcw⟩
  · exact space_not_control
  · exact hspaced c (words_subset hw hcw)

/-- Without control characters nothing is replaced. -/
theorem collapsed_of_control_free {cs : List Char} (h : ∀ c ∈ cs, is_control c = false) :
    collapsed (String.ofList cs) = [' '].intercalate (words is_whitespace cs) := by
  have hmap : cs.map (fun c => if is_control c then ' ' else c) = cs := by
    conv_rhs => rw [← List.map_id cs]
    apply List.map_congr_left
    intro c hc
    rw [h c hc]
    rfl
  rw [collapsed, String.toList_ofList, hmap]
  rfl

/-- A joined text collapses to itself. -/
theorem collapsed_join {ws : List (List Char)} (h : ∀ w ∈ ws, IsWord is_whitespace w)
    (hcontrol : ∀ c ∈ [' '].intercalate ws, is_control c = false) :
    collapsed (String.ofList ([' '].intercalate ws)) = [' '].intercalate ws := by
  rw [collapsed_of_control_free hcontrol, words_join space_is_whitespace h]

/-- A space more at the end is dropped. -/
theorem collapsed_join_space {ws : List (List Char)} (h : ∀ w ∈ ws, IsWord is_whitespace w)
    (hcontrol : ∀ c ∈ [' '].intercalate ws ++ [' '], is_control c = false) :
    collapsed (String.ofList ([' '].intercalate ws ++ [' '])) = [' '].intercalate ws := by
  rw [collapsed_of_control_free hcontrol, words_append space_is_whitespace, words_nil,
    List.append_nil, words_join space_is_whitespace h]

/-- Collapsing makes a text no longer. -/
theorem length_collapsed_le (text : String) : (collapsed text).length ≤ text.toList.length := by
  have hle := length_join_words_le (p := is_whitespace) (s := ' ')
    (text.toList.map fun c => if is_control c then ' ' else c)
  rw [List.length_map] at hle
  exact hle

/-! ## The law -/

/-- The text is too long, and its first 2000 bytes, up to a whole character, end in a space. -/
def CutBehindSpace (text : List Char) : Prop :=
  ∃ front c rest, text = front ++ ' ' :: c :: rest ∧ utf8_bytes front + 1 ≤ 2000
    ∧ 2000 < utf8_bytes front + 1 + c.utf8Size

/-- **What `normalize_bounded_failure_reason` is for**: a short line of text, cut between two
characters and no earlier than necessary, that is its own normal form. -/
structure NormalReason (reason fallback : String) : Prop where
  nonempty : normalize_bounded_failure_reason reason fallback ≠ ""
  printable : (normalize_bounded_failure_reason reason fallback).toList.any is_control = false
  bounded : byteLen (normalize_bounded_failure_reason reason fallback) ≤ 2000
  boundary : ∃ rest, (if collapsed reason = [] then fallback.toList else collapsed reason)
      = (normalize_bounded_failure_reason reason fallback).toList ++ rest
    ∧ ∀ c ∈ rest.head?,
      2000 < byteLen (normalize_bounded_failure_reason reason fallback) + c.utf8Size
  idempotent : normalize_bounded_failure_reason (normalize_bounded_failure_reason reason fallback)
    fallback = normalize_bounded_failure_reason reason fallback

/-- The text that is cut. -/
def uncut (reason fallback : String) : List Char :=
  if collapsed reason = [] then fallback.toList else collapsed reason

theorem toList_normalize (reason fallback : String) :
    (normalize_bounded_failure_reason reason fallback).toList = takeBytes 2000
      (uncut reason fallback) := by
  rw [normalize_bounded_failure_reason_eq, String.toList_ofList]
  rfl

theorem uncut_printable {reason fallback : String} (h : fallback.toList.any is_control = false) :
    ∀ c ∈ uncut reason fallback, is_control c = false := by
  intro c hc
  rw [uncut] at hc
  split at hc
  · simpa using List.any_eq_false.mp h c hc
  · obtain ⟨ws, -, hcontrol, -⟩ := collapsed_words reason
    exact hcontrol c hc

theorem uncut_ne_nil {reason fallback : String} (h : fallback ≠ "") :
    uncut reason fallback ≠ [] := by
  rw [uncut]
  split
  · intro hnil
    exact h (String.toList_inj.mp hnil)
  · assumption

/-- One character always fits. -/
theorem takeBytes_ne_nil {cs : List Char} (h : cs ≠ []) : takeBytes 2000 cs ≠ [] := by
  obtain ⟨c, rest, rfl⟩ := List.exists_cons_of_ne_nil h
  have hc : c.utf8Size ≤ 4 := c.utf8Size_le_four
  rw [takeBytes, if_pos (by omega)]
  exact List.cons_ne_nil _ _

/-- When the normal form is its own normal form: the reason is not cut right behind a space; and
a fallback that is used has no words or is collapsed already. -/
def Stable (reason fallback : String) : Prop :=
  if collapsed reason = [] then collapsed fallback = [] ∨ collapsed fallback = fallback.toList
  else ¬ CutBehindSpace (collapsed reason)

/-- The fallback is returned as it is. -/
theorem idempotent_of_blank {reason fallback : String} (hblank : collapsed reason = [])
    (hbounded : byteLen fallback ≤ 2000) :
    normalize_bounded_failure_reason (normalize_bounded_failure_reason reason fallback) fallback
        = normalize_bounded_failure_reason reason fallback
      ↔ collapsed fallback = [] ∨ collapsed fallback = fallback.toList := by
  have hsame : normalize_bounded_failure_reason reason fallback = fallback := by
    rw [normalize_bounded_failure_reason_eq, if_pos hblank, takeBytes_of_bytes_le hbounded,
      String.ofList_toList]
  rw [hsame, ← String.toList_inj, toList_normalize, uncut]
  by_cases hnil : collapsed fallback = []
  · rw [if_pos hnil]
    exact ⟨fun _ => Or.inl hnil, fun _ => takeBytes_of_bytes_le hbounded⟩
  · rw [if_neg hnil]
    constructor
    · intro h
      have hlength := length_collapsed_le fallback
      obtain ⟨rest, hrest⟩ := takeBytes_upto 2000 (collapsed fallback)
      rw [h] at hrest
      have hempty : rest = [] := by
        rw [← hrest, List.length_append] at hlength
        exact List.length_eq_zero_iff.mp (by omega)
      rw [hempty, List.append_nil] at hrest
      exact Or.inr hrest.symm
    · intro h
      rcases h with h | h
      · exact absurd h hnil
      · rw [h]
        exact takeBytes_of_bytes_le hbounded

/-- The reason is cut between words, in a word, or behind a space. -/
theorem idempotent_of_words {reason fallback : String} (hwords : collapsed reason ≠ []) :
    normalize_bounded_failure_reason (normalize_bounded_failure_reason reason fallback) fallback
        = normalize_bounded_failure_reason reason fallback
      ↔ ¬ CutBehindSpace (collapsed reason) := by
  obtain ⟨ws, hws, hcontrol, hjoin⟩ := collapsed_words reason
  have hupto := takeBytes_upto 2000 (collapsed reason)
  have hfits := takeBytes_bytes_le 2000 (collapsed reason)
  have hnext : ∀ c rest, collapsed reason = takeBytes 2000 (collapsed reason) ++ c :: rest →
      2000 < utf8_bytes (takeBytes 2000 (collapsed reason)) + c.utf8Size :=
    fun c rest h => takeBytes_next h
  have hsome := takeBytes_ne_nil hwords
  have hclean : ∀ c ∈ takeBytes 2000 (collapsed reason), is_control c = false :=
    fun c hc => hcontrol c (hupto.subset hc)
  have hcut : ∀ front c rest, collapsed reason = front ++ ' ' :: c :: rest →
      utf8_bytes front + 1 ≤ 2000 → 2000 < utf8_bytes front + 1 + c.utf8Size →
      takeBytes 2000 (collapsed reason) = front ++ [' '] := by
    intro front c rest hc hle hlt
    have hbytes : utf8_bytes (front ++ [' ']) = utf8_bytes front + 1 :=
      utf8_bytes_append front [' ']
    have hassoc : front ++ ' ' :: c :: rest = (front ++ [' ']) ++ c :: rest := by
      rw [List.append_assoc]
      rfl
    rw [hc, hassoc]
    exact takeBytes_append (by omega) (by omega)
  rw [← String.toList_inj, toList_normalize, toList_normalize, normalize_bounded_failure_reason_eq,
    uncut, uncut, if_neg hwords]
  generalize takeBytes 2000 (collapsed reason) = q at hupto hfits hnext hsome hclean hcut ⊢
  rw [hjoin] at hupto
  obtain ⟨vs, hvs, rfl | ⟨hne, rfl⟩⟩ := join_prefix hws hupto
  · rw [collapsed_join hvs hclean, if_neg hsome, takeBytes_of_bytes_le hfits]
    refine ⟨fun _ => ?_, fun _ => rfl⟩
    rintro ⟨front, c, rest, hc, hle, hlt⟩
    have hlast := join_getLast hvs (s := ' ') (c := ' ') (by
      rw [hcut front c rest hc hle hlt, List.getLast?_append_of_ne_nil _ (by simp)]
      rfl)
    exact absurd space_is_whitespace (by rw [hlast]; decide)
  · rw [collapsed_join_space hvs hclean, if_neg (join_ne_nil hvs hne)]
    constructor
    · intro h
      have hle := (takeBytes_upto 2000 ([' '].intercalate vs)).length_le
      rw [h, List.length_append, List.length_singleton] at hle
      omega
    · intro h
      refine absurd ?_ h
      obtain ⟨rest, hrest⟩ := hupto
      cases rest with
      | nil =>
        have hlast := join_getLast hws (s := ' ') (c := ' ') (by
          rw [← hrest, List.append_nil, List.getLast?_append_of_ne_nil _ (by simp)]
          rfl)
        exact absurd space_is_whitespace (by rw [hlast]; decide)
      | cons c rest =>
        have hlate := hnext c rest (by rw [hjoin, hrest])
        rw [utf8_bytes_append] at hfits hlate
        refine ⟨[' '].intercalate vs, c, rest, ?_, hfits, hlate⟩
        rw [hjoin, ← hrest, List.append_assoc]
        rfl

/-- **Normalised failure reasons.** The result is always a short printable line, cut between two
characters and no earlier than necessary; and it is its own normal form exactly when the reason
is not cut right behind a space, and a fallback that is used has no words or is collapsed. -/
theorem normal_reason_iff {reason fallback : String} (hnonempty : fallback ≠ "")
    (hprintable : fallback.toList.any is_control = false) (hbounded : byteLen fallback ≤ 2000) :
    NormalReason reason fallback ↔ Stable reason fallback := by
  have hidempotent : normalize_bounded_failure_reason
        (normalize_bounded_failure_reason reason fallback) fallback
      = normalize_bounded_failure_reason reason fallback ↔ Stable reason fallback := by
    rw [Stable]
    by_cases hblank : collapsed reason = []
    · rw [if_pos hblank]
      exact idempotent_of_blank hblank hbounded
    · rw [if_neg hblank]
      exact idempotent_of_words hblank
  refine ⟨fun h => hidempotent.mp h.idempotent, fun h => ⟨?_, ?_, ?_, ?_, hidempotent.mpr h⟩⟩
  · intro hempty
    have hnil := toList_normalize reason fallback
    rw [hempty] at hnil
    exact takeBytes_ne_nil (uncut_ne_nil hnonempty) hnil.symm
  · rw [toList_normalize, List.any_eq_false]
    intro c hc
    rw [uncut_printable hprintable c ((takeBytes_upto 2000 _).subset hc)]
    decide
  · rw [byteLen_eq_bytes, toList_normalize]
    exact takeBytes_bytes_le 2000 _
  · rw [byteLen_eq_bytes, toList_normalize]
    obtain ⟨rest, hrest⟩ := takeBytes_upto 2000 (uncut reason fallback)
    refine ⟨rest, hrest.symm, ?_⟩
    intro c hc
    cases rest with
    | nil => cases hc
    | cons d rest =>
      injection hc with hc
      subst hc
      exact takeBytes_next hrest.symm

theorem normal_reason_blank : NormalReason " \r\n\t " "dispatch failed" :=
  (normal_reason_iff (by decide) (by decide) (by decide)).mpr (by
    have hblank : collapsed " \r\n\t " = [] := by decide
    rw [Stable, if_pos hblank]
    exact Or.inr (by decide))

/-- 1999 letters, a space, a letter: the cut leaves the space, and the next one drops it. -/
theorem normalize_not_idempotent :
    ∃ reason fallback : String, fallback ≠ "" ∧ fallback.toList.any is_control = false
      ∧ byteLen fallback ≤ 2000
      ∧ normalize_bounded_failure_reason (normalize_bounded_failure_reason reason fallback) fallback
        ≠ normalize_bounded_failure_reason reason fallback := by
  have hword : ∀ w ∈ [List.replicate 1999 'a', ['b']], IsWord is_whitespace w := by
    intro w hw
    rcases List.mem_cons.mp hw with rfl | hw
    · refine ⟨List.ne_nil_of_length_pos (by rw [List.length_replicate]; decide), fun c hc => ?_⟩
      rw [(List.mem_replicate.mp hc).2]
      decide
    · rw [List.mem_singleton] at hw
      subst hw
      exact ⟨List.cons_ne_nil _ _, fun c hc => by rw [List.mem_singleton.mp hc]; decide⟩
  have hbytes : utf8_bytes (List.replicate 1999 'a') = 1999 := by
    rw [utf8_bytes, List.map_replicate, List.sum_replicate_nat]
    rfl
  have hjoin : [' '].intercalate [List.replicate 1999 'a', ['b']]
      = List.replicate 1999 'a' ++ ' ' :: 'b' :: [] := by
    rw [join_cons (by simp), List.intercalate_singleton]
  have hcontrol : ∀ c ∈ [' '].intercalate [List.replicate 1999 'a', ['b']],
      is_control c = false := by
    intro c hc
    rw [hjoin, List.mem_append] at hc
    rcases hc with hc | hc
    · rw [(List.mem_replicate.mp hc).2]
      decide
    · rcases List.mem_cons.mp hc with rfl | hc
      · decide
      · rw [List.mem_singleton] at hc
        subst hc
        decide
  have hcollapsed := collapsed_join hword hcontrol
  refine ⟨String.ofList ([' '].intercalate [List.replicate 1999 'a', ['b']]), "dispatch failed",
    by decide, by decide, by decide, ?_⟩
  have hne : collapsed (String.ofList ([' '].intercalate [List.replicate 1999 'a', ['b']])) ≠
      [] := by
    rw [hcollapsed, hjoin]
    exact List.append_ne_nil_of_right_ne_nil _ (List.cons_ne_nil _ _)
  rw [Ne, idempotent_of_words hne, not_not, hcollapsed, hjoin]
  refine ⟨List.replicate 1999 'a', 'b', [], rfl, by rw [hbytes], ?_⟩
  rw [hbytes]
  decide

end Crony
