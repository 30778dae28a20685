/-
What a failed command makes the factory wait for.

The deadlines of the headers are what the wait is the latest of. Headers come from the preambles
of the output and from the lines of the diagnostics (`Says`, which reads them off the printed
text); more lines can only add signals and headers, and so can only make the wait later, unless
they report a secondary limit, which releases the window of the primary one.
-/
import Mathlib.Data.List.TakeWhile
import Crony.Cli.Failures
import Crony.Properties.Preambles
import Crony.Properties.Quota

set_option autoImplicit false

open Crony.Lib

namespace Crony.Cli

/-! ## Lines of diagnostics -/

/-- The headers of all lines. -/
def header_lines_of (stderr : Bytes) : List (String × String) :=
  (str_lines (from_utf8_lossy stderr)).filterMap stderr_header

/-- Space at the end does not survive trimming. -/
theorem trim_concat {cs : List Char} {c : Char} (hc : is_whitespace c = true) :
    trim (String.ofList (cs ++ [c])) = trim (String.ofList cs) := by
  rw [trim, trim, String.toList_ofList, String.toList_ofList]
  congr 2
  by_cases hall : ∀ d ∈ cs, is_whitespace d = true
  · have hall' : ∀ d ∈ cs ++ [c], is_whitespace d = true := by
      intro d hd
      rcases List.mem_append.mp hd with hd | hd
      · exact hall d hd
      · rw [List.mem_singleton] at hd
        exact hd ▸ hc
    rw [List.dropWhile_eq_nil_iff.mpr hall, List.dropWhile_eq_nil_iff.mpr hall']
  · have hdrop : (cs ++ [c]).dropWhile is_whitespace = cs.dropWhile is_whitespace ++ [c] := by
      rw [List.dropWhile_append, if_neg]
      rw [List.isEmpty_iff, List.dropWhile_eq_nil_iff]
      exact hall
    rw [hdrop, List.reverse_append, List.reverse_singleton, List.singleton_append,
      List.dropWhile_cons_of_pos hc]

/-- A return at the end of a line does not matter. -/
theorem stderr_header_return (cs : List Char) :
    stderr_header (String.ofList (cs ++ ['\r'])) = stderr_header (String.ofList cs) := by
  rw [stderr_header, stderr_header, split_once, split_once, String.toList_ofList,
    String.toList_ofList]
  by_cases hcolon : ':' ∈ cs
  · have hmem : ':' ∈ cs ++ ['\r'] := List.mem_append_left _ hcolon
    have hne : cs.dropWhile (· ≠ ':') ≠ [] := by
      rw [ne_eq, List.dropWhile_eq_nil_iff]
      intro hall
      exact absurd (hall ':' hcolon) (by decide)
    have htake : (cs ++ ['\r']).takeWhile (· ≠ ':') = cs.takeWhile (· ≠ ':') := by
      rw [List.takeWhile_append, if_neg]
      intro hlength
      apply hne
      have hsplit :=
        congrArg List.length (List.takeWhile_append_dropWhile (p := (· ≠ ':')) (l := cs))
      rw [List.length_append] at hsplit
      exact List.length_eq_zero_iff.mp (by omega)
    have hdrop : (cs ++ ['\r']).dropWhile (· ≠ ':') = cs.dropWhile (· ≠ ':') ++ ['\r'] := by
      rw [List.dropWhile_append, if_neg (by rw [List.isEmpty_iff]; exact hne)]
    have hone : 1 ≤ (cs.dropWhile (· ≠ ':')).length := List.length_pos_iff.mpr hne
    rw [if_pos hcolon, if_pos hmem, htake, hdrop, List.drop_append_of_le_length hone,
      Option.map_some, Option.map_some, trim_concat (by decide)]
  · have hmem : ':' ∉ cs ++ ['\r'] := by
      rw [List.mem_append, not_or]
      exact ⟨hcolon, by decide⟩
    rw [if_neg hcolon, if_neg hmem]

/-- The headers of the lines are those of the pieces between line feeds. -/
theorem header_lines_of_eq (stderr : Bytes) :
    header_lines_of stderr
      = ((lossy stderr).splitOn '\n').filterMap fun line => stderr_header (String.ofList line) := by
  obtain ⟨init, last, hpieces⟩ :=
    List.eq_nil_or_concat' ((lossy stderr).splitOn '\n') |>.resolve_left (List.splitOn_ne_nil _ _)
  have hinit : ∀ lines : List (List Char),
      (lines.map fun line => if line.getLast? = some '\r' then line.dropLast else line).filterMap
          (fun line => stderr_header (String.ofList line))
        = lines.filterMap fun line => stderr_header (String.ofList line) := by
    intro lines
    rw [List.filterMap_map]
    apply List.filterMap_congr
    intro line _
    rw [Function.comp]
    by_cases hreturn : line.getLast? = some '\r'
    · obtain ⟨front, rfl⟩ := List.getLast?_eq_some_iff.mp hreturn
      rw [if_pos hreturn, List.dropLast_concat, stderr_header_return]
    · rw [if_neg hreturn]
  have hlast : (if last = [] then [] else [last]).filterMap
      (fun line => stderr_header (String.ofList line))
      = [last].filterMap fun line => stderr_header (String.ofList line) := by
    by_cases hempty : last = []
    · subst hempty
      rfl
    · rw [if_neg hempty]
  rw [header_lines_of, str_lines, from_utf8_lossy, String.toList_ofList, hpieces,
    List.filterMap_map]
  simp only [List.getLastD_concat, List.dropLast_concat, List.filterMap_append]
  rw [← hinit init, ← hlast]
  rfl

/-- Within the bounds no line is left out. -/
theorem stderr_headers_eq {stderr : Bytes} (h : diagnostics_exceed stderr = false) :
    stderr_headers stderr = header_lines_of stderr := by
  rw [diagnostics_exceed, Bool.or_eq_false_iff, decide_eq_false_iff_not, decide_eq_false_iff_not]
    at h
  have hcount : (str_lines (from_utf8_lossy stderr)).length ≤ (stderr.splitOn 0x0A).length := by
    obtain ⟨init, last, hpieces⟩ :=
      List.eq_nil_or_concat' ((lossy stderr).splitOn '\n') |>.resolve_left (List.splitOn_ne_nil _ _)
    have hlength := congrArg List.length (splitOn_lossy stderr)
    rw [hpieces, List.length_map, List.length_append] at hlength
    rw [str_lines, from_utf8_lossy, String.toList_ofList, hpieces]
    simp only [List.getLastD_concat, List.dropLast_concat, List.length_map, List.length_append]
    rw [← hlength]
    split <;> simp
  rw [stderr_headers, header_lines_of, List.take_of_length_le (by omega)]

/-! ## More lines -/

/-- Diagnostics with further lines; the last line of the old ones may lack its end. -/
def MoreLines (stderr stderr' : Bytes) : Prop :=
  stderr' = stderr ∨ stderr = []
    ∨ ∃ front more, stderr' = front ++ 0x0A :: more ∧ (stderr = front ∨ stderr = front ++ [0x0A])

theorem splitOn_feed (front more : Bytes) :
    (front ++ 0x0A :: more).splitOn 0x0A = front.splitOn 0x0A ++ more.splitOn 0x0A :=
  List.splitOnP_append_cons front more (by decide)

/-- Diagnostics out of bounds stay so. -/
theorem MoreLines.exceed {stderr stderr' : Bytes} (h : MoreLines stderr stderr')
    (hexceed : diagnostics_exceed stderr = true) : diagnostics_exceed stderr' = true := by
  have hgrows : ∀ bytes bytes' : Bytes, bytes.length ≤ bytes'.length →
      (bytes.splitOn 0x0A).length ≤ (bytes'.splitOn 0x0A).length → diagnostics_exceed bytes = true →
      diagnostics_exceed bytes' = true := by
    intro bytes bytes' hlength hlines hbytes
    rw [diagnostics_exceed, Bool.or_eq_true, decide_eq_true_eq, decide_eq_true_eq] at hbytes ⊢
    omega
  rcases h with rfl | rfl | ⟨front, more, rfl, hfront⟩
  · exact hexceed
  · exact absurd hexceed (by decide +kernel)
  · have hone : 1 ≤ (more.splitOn 0x0A).length := List.length_pos_iff.mpr (List.splitOn_ne_nil _ _)
    have hfeed := congrArg List.length (splitOn_feed front more)
    rw [List.length_append] at hfeed
    rcases hfront with rfl | rfl
    · refine hgrows _ _ ?_ (by omega) hexceed
      rw [List.length_append, List.length_cons]
      omega
    · have hshort := congrArg List.length (splitOn_feed front [])
      have hnil : (([] : Bytes).splitOn 0x0A).length = 1 := rfl
      rw [List.length_append, hnil] at hshort
      refine hgrows _ _ ?_ (by omega) hexceed
      simp only [List.length_append, List.length_cons, List.length_nil]
      omega

/-- The headers of the old lines are among those of all lines. -/
theorem MoreLines.headers {stderr stderr' : Bytes} (h : MoreLines stderr stderr') :
    header_lines_of stderr ⊆ header_lines_of stderr' := by
  have hpieces : ∀ front more : Bytes, (lossy (front ++ 0x0A :: more)).splitOn '\n'
      = (lossy front).splitOn '\n' ++ (lossy more).splitOn '\n' := by
    intro front more
    rw [splitOn_lossy, splitOn_feed, List.map_append, ← splitOn_lossy, ← splitOn_lossy]
  rcases h with rfl | rfl | ⟨front, more, rfl, hfront⟩
  · exact List.Subset.refl _
  · intro header hheader
    rw [header_lines_of_eq, lossy_nil] at hheader
    cases hheader
  · rw [header_lines_of_eq, header_lines_of_eq, hpieces, List.filterMap_append]
    rcases hfront with rfl | rfl
    · exact List.subset_append_left _ _
    · rw [hpieces, List.filterMap_append]
      intro header hheader
      rcases List.mem_append.mp hheader with hheader | hheader
      · exact List.mem_append_left _ hheader
      · rw [lossy_nil] at hheader
        cases hheader

/-! ## Signals -/

/-- Every signal of the one is a signal of the other. -/
structure Signals.Le (a b : Signals) : Prop where
  primary : a.primary = true → b.primary = true
  secondary : a.secondary = true → b.secondary = true
  unavailable : a.unavailable = true → b.unavailable = true
  too_many : a.too_many = true → b.too_many = true
  forbidden : a.forbidden = true → b.forbidden = true

theorem Signals.Le.refl (a : Signals) : Signals.Le a a := ⟨id, id, id, id, id⟩

theorem Signals.Le.union {a a' b b' : Signals} (ha : a.Le a') (hb : b.Le b') :
    (a.union b).Le (a'.union b') := by
  have hor : ∀ {p p' q q' : Bool}, (p = true → p' = true) → (q = true → q' = true) →
      (p || q) = true → (p' || q') = true := by
    intro p p' q q' hp hq h
    rw [Bool.or_eq_true] at h ⊢
    exact h.imp hp hq
  exact ⟨hor ha.primary hb.primary, hor ha.secondary hb.secondary,
    hor ha.unavailable hb.unavailable, hor ha.too_many hb.too_many, hor ha.forbidden hb.forbidden⟩

theorem Signals.Le.text {a b : Signals} (h : a.Le b) (bytes : Bytes) :
    (a.text bytes).Le (b.text bytes) :=
  h.union (Signals.Le.refl _)

theorem error_signals_le {a b : Signals} (h : a.Le b) (error : Json) :
    (error_signals a error).Le (error_signals b error) := by
  rw [error_signals, error_signals]
  cases error.text? "message" with
  | none => exact h.union (Signals.Le.refl _)
  | some message => exact (h.union (Signals.Le.refl _)).text _

theorem envelope_signals_le {a b : Signals} (h : a.Le b) (value : Json) :
    (envelope_signals a value).Le (envelope_signals b value) := by
  have hfold : ∀ errors : List Json, ∀ {a b : Signals}, a.Le b →
      (errors.foldl error_signals a).Le (errors.foldl error_signals b) := by
    intro errors
    induction errors with
    | nil => exact fun h => h
    | cons error errors ih => exact fun h => ih (error_signals_le h error)
  rw [envelope_signals, envelope_signals]
  have herrors := hfold ((((value.get? "errors").bind Json.as_array).getD []).take 32) h
  cases value.get? "data" with
  | some data => exact herrors
  | none =>
    cases value.text? "message" with
    | none => exact herrors
    | some message => exact herrors.text _

/-- A status is still reported when the text goes on behind the end of a line. -/
theorem has_http_status_append {text : String} {code : String} {ext : List Char}
    (hcode : code.toList ≠ [] ∧ code.toList.getLast? ≠ some '\n')
    (hboundary : ext.head?.any Char.isDigit = false ∨ text.toList.getLast? = some '\n')
    (h : has_http_status text code = true) :
    has_http_status (String.ofList (text.toList ++ ext)) code = true := by
  rw [has_http_status, List.any_eq_true] at h ⊢
  obtain ⟨start, hstart, h⟩ := h
  refine ⟨start, hstart, ?_⟩
  rw [List.any_eq_true] at h ⊢
  obtain ⟨tail, htail, h⟩ := h
  rw [Bool.and_eq_true, List.isPrefixOf_iff_prefix, Bool.not_eq_true'] at h
  obtain ⟨⟨rest, hrest⟩, hnext⟩ := h
  have htail_suffix := (List.mem_tails _ _).mp htail
  refine ⟨tail ++ ext, ?_, ?_⟩
  · rw [List.mem_tails, String.toList_ofList]
    obtain ⟨before, hbefore⟩ := htail_suffix
    exact ⟨before, by rw [← List.append_assoc, hbefore]⟩
  · have hlength : start.toList.length + code.toList.length =
        (start.toList ++ code.toList).length :=
      List.length_append.symm
    rw [Bool.and_eq_true, List.isPrefixOf_iff_prefix, Bool.not_eq_true', ← hrest, List.append_assoc,
      hlength, List.drop_left]
    rw [← hrest, hlength, List.drop_left] at hnext
    refine ⟨List.prefix_append _ _, ?_⟩
    cases rest with
    | cons c rest => exact hnext
    | nil =>
      rcases hboundary with hext | hfeed
      · exact hext
      · exfalso
        -- the text would end with the last digit of the code
        rw [List.append_nil] at hrest
        rw [← hrest] at htail_suffix
        obtain ⟨before, hbefore⟩ := htail_suffix
        apply hcode.2
        rw [← hfeed, ← hbefore, List.getLast?_append_of_ne_nil _
          (List.append_ne_nil_of_right_ne_nil _ hcode.1), List.getLast?_append_of_ne_nil _ hcode.1]

theorem text_signals_append {text : String} {ext : List Char}
    (hboundary : ext.head?.any Char.isDigit = false ∨ text.toList.getLast? = some '\n') :
    (text_signals text).Le (text_signals (String.ofList (text.toList ++ ext))) := by
  have hmentions : ∀ patterns, mentions text patterns = true →
      mentions (String.ofList (text.toList ++ ext)) patterns = true := by
    intro patterns h
    rw [mentions, List.any_eq_true] at h ⊢
    obtain ⟨pattern, hpattern, h⟩ := h
    refine ⟨pattern, hpattern, ?_⟩
    rw [contains, decide_eq_true_eq] at h ⊢
    rw [String.toList_ofList]
    exact h.trans (List.prefix_append _ _).isInfix
  have hdigits : ("503".toList ≠ [] ∧ "503".toList.getLast? ≠ some '\n')
      ∧ ("429".toList ≠ [] ∧ "429".toList.getLast? ≠ some '\n')
      ∧ "403".toList ≠ [] ∧ "403".toList.getLast? ≠ some '\n' := by decide
  have hstatus : ∀ code : String, (code.toList ≠ [] ∧ code.toList.getLast? ≠ some '\n') →
      has_http_status text code = true → has_http_status (String.ofList (text.toList ++ ext)) code
        = true :=
    fun code hcode => has_http_status_append hcode hboundary
  generalize String.ofList (text.toList ++ ext) = text' at hmentions hstatus ⊢
  rw [text_signals, text_signals]
  constructor
  · exact hmentions _
  · exact hmentions _
  · intro h
    rw [Bool.or_eq_true] at h ⊢
    exact h.imp (hmentions _) (hstatus _ hdigits.1)
  · exact hstatus _ hdigits.2.1
  · exact hstatus _ hdigits.2.2

/-- Further lines add signals. -/
theorem MoreLines.text_signals {stderr stderr' : Bytes} (h : MoreLines stderr stderr') :
    (text_signals (to_ascii_lowercase (from_utf8_lossy stderr))).Le
      (text_signals (to_ascii_lowercase (from_utf8_lossy stderr'))) := by
  have hlower : ∀ cs : List Char, to_ascii_lowercase (String.ofList cs) = String.ofList
      (cs.map Char.toLower) := by
    intro cs
    rw [to_ascii_lowercase, String.toList_ofList]
  have hempty : ∀ text : String, (Cli.text_signals "").Le (Cli.text_signals text) := by
    intro text
    have hnone : Cli.text_signals "" = {} := by decide +kernel
    rw [hnone]
    exact ⟨nofun, nofun, nofun, nofun, nofun⟩
  rw [from_utf8_lossy, from_utf8_lossy, hlower, hlower]
  rcases h with rfl | rfl | ⟨front, more, rfl, rfl | rfl⟩
  · exact Signals.Le.refl _
  · rw [lossy_nil]
    exact hempty _
  · have happend := @text_signals_append (String.ofList ((lossy stderr).map Char.toLower))
      ('\n' :: (lossy more).map Char.toLower) (.inl rfl)
    rw [String.toList_ofList] at happend
    rw [lossy_append (by decide), List.map_append]
    exact happend
  · have hfront : lossy (front ++ [0x0A]) = lossy front ++ ['\n'] := by
      rw [lossy_append (by decide), lossy_nil]
      rfl
    have hmore : lossy (front ++ 0x0A :: more) = lossy front ++ ['\n'] ++ lossy more := by
      rw [lossy_append (by decide), List.append_assoc]
      rfl
    have happend := @text_signals_append (String.ofList ((lossy front ++ ['\n']).map Char.toLower))
      ((lossy more).map Char.toLower)
        (.inr (by rw [String.toList_ofList, List.map_append]; exact List.getLast?_concat))
    rw [String.toList_ofList, ← List.map_append] at happend
    rw [hfront, hmore]
    exact happend

theorem take_of_not_exceed {stderr : Bytes} (h : diagnostics_exceed stderr = false) :
    stderr.take MAX_DIAGNOSTIC_BYTES = stderr := by
  rw [diagnostics_exceed, Bool.or_eq_false_iff, decide_eq_false_iff_not, decide_eq_false_iff_not]
    at h
  exact List.take_of_length_le (by omega)

section

variable {parse_from_rfc2822 : String → Option DateTime} {from_slice : Bytes → Option Json}

theorem MoreLines.signals {stderr stderr' : Bytes} (h : MoreLines stderr stderr')
    (hbound : diagnostics_exceed stderr = false) (hbound' : diagnostics_exceed stderr' = false)
    (body : Bytes) :
    (output_signals from_slice body stderr).Le (output_signals from_slice body stderr') := by
  have htext : (Signals.text {} stderr).Le (Signals.text {} stderr') := by
    rw [Signals.text, Signals.text, take_of_not_exceed hbound, take_of_not_exceed hbound']
    exact (Signals.Le.refl _).union h.text_signals
  rw [output_signals, output_signals]
  split
  · cases from_slice body with
    | some value => exact envelope_signals_le htext value
    | none => exact htext.text body
  · exact htext

/-! ## Reasons -/

theorem reports_exhausted_mono {headers headers' : List (String × String)} (h : headers ⊆ headers')
    (hexhausted : reports_exhausted headers = true) : reports_exhausted headers' = true := by
  rw [reports_exhausted, List.any_eq_true] at hexhausted ⊢
  obtain ⟨header, hheader, hzero⟩ := hexhausted
  exact ⟨header, h hheader, hzero⟩

/-- **More evidence keeps a failure a failure**, and the primary window in force, unless it is
the evidence of a secondary limit. -/
theorem failure_reason_mono {a b : Signals} (h : a.Le b) {exhausted exhausted' : Bool}
    (hexhausted : exhausted = true → exhausted' = true)
    (hsecondary : b.secondary = true → a.secondary = true)
    {status : Option Nat} {reason : FactoryRetryReason}
    (hreason : failure_reason a exhausted status = some reason) :
    ∃ reason', failure_reason b exhausted' status = some reason'
      ∧ (uses_primary_reset reason exhausted = true →
        uses_primary_reset reason' exhausted' = true) := by
  have hgeneral : ∀ reason', failure_reason b exhausted' status = some reason' →
      (reason = .primary_rate_limit → reason' = .primary_rate_limit) → reason ≠ .graphql_quota →
      ∃ reason', failure_reason b exhausted' status = some reason'
        ∧ (uses_primary_reset reason exhausted = true →
          uses_primary_reset reason' exhausted' = true) := by
    intro reason' hreason' hprimary hquota
    refine ⟨reason', hreason', ?_⟩
    simp only [uses_primary_reset, Bool.or_eq_true, decide_eq_true_eq]
    rintro (hused | hused | hused)
    · exact .inl (hexhausted hused)
    · exact .inr (.inl (hprimary hused))
    · exact absurd hused hquota
  rw [failure_reason] at hreason
  -- the cases are those of the code, in its order; in each, more evidence leads here or further up
  by_cases ha : a.secondary = true
  · rw [if_pos ha] at hreason
    injection hreason with hreason
    subst hreason
    refine hgeneral .secondary_rate_limit ?_ nofun nofun
    rw [failure_reason, if_pos (h.secondary ha)]
  have hb : ¬ b.secondary = true := fun hb => ha (hsecondary hb)
  rw [if_neg ha] at hreason
  by_cases hprimary : a.primary = true ∨ (exhausted = true
      ∧ (status = some 403 ∨ status = some 429 ∨ a.forbidden = true ∨ a.too_many = true))
  · rw [if_pos hprimary] at hreason
    injection hreason with hreason
    subst hreason
    refine hgeneral .primary_rate_limit ?_ id nofun
    have hprimary' : b.primary = true ∨ (exhausted' = true
        ∧ (status = some 403 ∨ status = some 429 ∨ b.forbidden = true ∨ b.too_many = true)) :=
      hprimary.imp h.primary fun hspent => ⟨hexhausted hspent.1,
        hspent.2.imp_right (Or.imp_right (Or.imp h.forbidden h.too_many))⟩
    rw [failure_reason, if_neg hb, if_pos hprimary']
  rw [if_neg hprimary] at hreason
  -- whatever else it was, now it is that, or a limit
  have hother : ∀ {r : FactoryRetryReason}, r ≠ .primary_rate_limit → r ≠ .graphql_quota →
      reason = r →
      (b.too_many = true ∨ status = some 429) ∨ (b.unavailable = true ∨ status = some 503) →
      ∃ reason', failure_reason b exhausted' status = some reason'
        ∧ (uses_primary_reset reason exhausted = true →
          uses_primary_reset reason' exhausted' = true) := by
    intro r hr hquota hreason hevidence
    -- none of the branches above this one returns nothing
    have hsome : ∃ reason', failure_reason b exhausted' status = some reason' := by
      rw [failure_reason, if_neg hb]
      split
      · exact ⟨_, rfl⟩
      · split
        · exact ⟨_, rfl⟩
        · rename_i hno
          rw [if_pos (hevidence.resolve_left hno)]
          exact ⟨_, rfl⟩
    obtain ⟨reason', hreason'⟩ := hsome
    exact hgeneral reason' hreason' (fun hp => absurd (hreason.symm.trans hp) hr) (hreason ▸ hquota)
  by_cases hmany : a.too_many = true ∨ status = some 429
  · rw [if_pos hmany] at hreason
    injection hreason with hreason
    exact @hother .secondary_rate_limit nofun nofun hreason.symm (.inl (hmany.imp_left h.too_many))
  rw [if_neg hmany] at hreason
  by_cases hunavailable : a.unavailable = true ∨ status = some 503
  · rw [if_pos hunavailable] at hreason
    injection hreason with hreason
    exact @hother .github_unavailable nofun nofun hreason.symm
      (.inr (hunavailable.imp_left h.unavailable))
  · rw [if_neg hunavailable] at hreason
    cases hreason

/-! ## Deadlines -/

/-- A time that cannot be represented is the latest one. -/
theorem after_spec (now : DateTime) (seconds : Int) :
    after now seconds = MAX_UTC ∨ (after now seconds).val = now.val + TimeDelta.seconds
      seconds := by
  rw [after, try_seconds]
  -- both the number of seconds and the sum can fail to be represented
  by_cases hrange : -(i64_max / 1000) ≤ seconds ∧ seconds ≤ i64_max / 1000
  · rw [if_pos hrange, Option.bind_some, DateTime.checked_add_signed]
    by_cases hsum : MIN_UTC_NANOSECONDS ≤ now.val + TimeDelta.seconds seconds
        ∧ now.val + TimeDelta.seconds seconds ≤ MAX_UTC_NANOSECONDS
    · rw [dif_pos hsum]
      exact .inr rfl
    · rw [dif_neg hsum]
      exact .inl rfl
  · rw [if_neg hrange]
    exact .inl rfl

/-- The default wait is outstanding. -/
theorem outstanding_default (now : DateTime) :
    outstanding (after now BASE_BACKOFF_SECONDS) now = true := by
  rw [outstanding_iff]
  refine (after_spec now BASE_BACKOFF_SECONDS).imp_right fun hval => ?_
  show now.val < (after now BASE_BACKOFF_SECONDS).val
  rw [hval, BASE_BACKOFF_SECONDS, TimeDelta.seconds]
  omega

/-- The wait that some deadlines lead to. -/
def wait_until (found : List DateTime) (now : DateTime) : DateTime :=
  found.max?.getD (after now BASE_BACKOFF_SECONDS)

theorem le_wait_until {found : List DateTime} {now d : DateTime} (h : d ∈ found) :
    d ≤ wait_until found now := by
  rw [wait_until]
  cases hmax : found.max? with
  | none =>
    rw [List.max?_eq_none_iff] at hmax
    rw [hmax] at h
    cases h
  | some latest => exact (List.max?_eq_some_iff.mp hmax).2 d h

theorem outstanding_wait_until {found : List DateTime} {now : DateTime}
    (h : ∀ d ∈ found, outstanding d now = true) :
    outstanding (wait_until found now) now = true := by
  rw [wait_until]
  cases hmax : found.max? with
  | none => exact outstanding_default now
  | some latest => exact h latest (List.max?_eq_some_iff.mp hmax).1

/-- More deadlines make the wait no earlier, unless there was none. -/
theorem wait_until_mono {found found' : List DateTime} {now : DateTime} (h : found ⊆ found')
    (hne : found ≠ []) : wait_until found now ≤ wait_until found' now := by
  obtain ⟨latest, hmax⟩ := Option.ne_none_iff_exists'.mp (mt List.max?_eq_none_iff.mp hne)
  have hwait : wait_until found now = latest := by rw [wait_until, hmax, Option.getD_some]
  rw [hwait]
  exact le_wait_until (h (List.max?_eq_some_iff.mp hmax).1)

variable {headers headers' : List (String × String)} {used used' : Bool} {now d : DateTime}

theorem mem_deadlines :
    d ∈ deadlines parse_from_rfc2822 headers used now
      ↔ (∃ header ∈ headers,
        (used = true ∨ eq_ignore_ascii_case header.1 "x-ratelimit-reset" = false)
          ∧ retry_hint parse_from_rfc2822 header.1 header.2 now = some d)
            ∧ outstanding d now = true := by
  rw [deadlines, List.mem_filter, List.mem_filterMap]
  simp only [List.mem_filter, Bool.or_eq_true, Bool.not_eq_true', and_assoc]

theorem deadlines_mono (h : headers ⊆ headers') (hused : used = true → used' = true) :
    deadlines parse_from_rfc2822 headers used now ⊆ deadlines parse_from_rfc2822 headers' used'
      now := by
  intro d hd
  rw [mem_deadlines] at hd ⊢
  obtain ⟨⟨header, hheader, hbinds, hhint⟩, houtstanding⟩ := hd
  exact ⟨⟨header, h hheader, hbinds.imp_left hused, hhint⟩, houtstanding⟩

/-- Without deadlines no hint that binds is later than now. -/
theorem hint_le_now (hnone : deadlines parse_from_rfc2822 headers used now = [])
    {header : String × String} (hheader : header ∈ headers)
    (hbinds : used = true ∨ eq_ignore_ascii_case header.1 "x-ratelimit-reset" = false)
    (hhint : retry_hint parse_from_rfc2822 header.1 header.2 now = some d) : d ≤ now := by
  by_contra hlater
  have houtstanding : outstanding d now = true := outstanding_iff.mpr (.inr (lt_of_not_ge hlater))
  have hmem := mem_deadlines.mpr ⟨⟨header, hheader, hbinds, hhint⟩, houtstanding⟩
  rw [hnone] at hmem
  cases hmem

/-- **No hint that binds is later than the wait**, outstanding or not. -/
theorem hint_le_wait {header : String × String} (hheader : header ∈ headers)
    (hbinds : used = true ∨ eq_ignore_ascii_case header.1 "x-ratelimit-reset" = false)
    (hhint : retry_hint parse_from_rfc2822 header.1 header.2 now = some d) :
    d ≤ wait_until (deadlines parse_from_rfc2822 headers used now) now := by
  -- a hint that is not outstanding lies before now, and the wait does not
  by_cases houtstanding : outstanding d now = true
  · exact le_wait_until (mem_deadlines.mpr ⟨⟨header, hheader, hbinds, hhint⟩, houtstanding⟩)
  · have hwait : outstanding (wait_until (deadlines parse_from_rfc2822 headers used now) now) now
        = true :=
      outstanding_wait_until fun d hd => (mem_deadlines.mp hd).2
    rw [outstanding_iff, not_or, not_lt] at houtstanding
    rcases outstanding_iff.mp hwait with hmax | hlater
    · rw [hmax]
      exact d.le_max
    · exact houtstanding.2.trans (le_of_lt hlater)

/-- The two headers that carry deadlines are different. -/
theorem reset_of_retry_after {name : String} (h : eq_ignore_ascii_case name "retry-after" = true) :
    eq_ignore_ascii_case name "x-ratelimit-reset" = false := by
  rw [eq_ignore_ascii_case, beq_iff_eq] at h
  rw [eq_ignore_ascii_case, h]
  decide

/-- The time `seconds` from a start, or the latest one where that cannot be represented. -/
def At (d : DateTime) (start : Int) (seconds : Int) : Prop :=
  d = MAX_UTC ∨ d.val = start + TimeDelta.seconds seconds

theorem retry_hint_seconds {name value : String}
    (h : eq_ignore_ascii_case name "retry-after" = true)
    (hdecimal : is_decimal value = true) :
    ∃ d, retry_hint parse_from_rfc2822 name value now = some d ∧ At d now.val (decimal value) := by
  have hreset := reset_of_retry_after h
  have hno : ¬ (eq_ignore_ascii_case name "x-ratelimit-reset" = false
      ∧ eq_ignore_ascii_case name "retry-after" = false) := by
    rw [h]
    exact fun hboth => Bool.noConfusion hboth.2
  rw [retry_hint]
  rw [if_neg hno, if_pos hdecimal, parse_i64]
  -- more digits than an i64 holds are the latest time
  by_cases hfits : (decimal value : Int) ≤ i64_max
  · rw [if_pos hfits]
    simp only [hreset]
    exact ⟨_, rfl, after_spec now _⟩
  · rw [if_neg hfits]
    exact ⟨MAX_UTC, rfl, .inl rfl⟩

theorem retry_hint_date {name value : String} {date : DateTime}
    (h : eq_ignore_ascii_case name "retry-after" = true)
    (hdecimal : is_decimal value = false) (hlength : byteLen value ≤ 64)
    (hdate : parse_from_rfc2822 value = some date) :
    retry_hint parse_from_rfc2822 name value now = some date := by
  have hreset := reset_of_retry_after h
  rw [retry_hint]
  rw [h, hdecimal, hreset, if_neg nofun, if_neg nofun, if_pos ⟨rfl, hlength⟩, hdate]

theorem retry_hint_reset {name value : String}
    (h : eq_ignore_ascii_case name "x-ratelimit-reset" = true)
    (hdecimal : is_decimal value = true) :
    ∃ d, retry_hint parse_from_rfc2822 name value now = some d
      ∧ At d (TimeDelta.seconds (decimal value)) RESET_MARGIN_SECONDS := by
  have hno : ¬ (eq_ignore_ascii_case name "x-ratelimit-reset" = false
      ∧ eq_ignore_ascii_case name "retry-after" = false) := by
    rw [h]
    exact fun hboth => Bool.noConfusion hboth.1
  rw [retry_hint]
  rw [if_neg hno, if_pos hdecimal, parse_i64]
  -- the reset is read as a timestamp first, so it can fail to be one
  by_cases hfits : (decimal value : Int) ≤ i64_max
  · rw [if_pos hfits]
    simp only [h, if_true]
    refine ⟨_, rfl, ?_⟩
    rw [from_timestamp]
    by_cases hrange : MIN_UTC_NANOSECONDS ≤ TimeDelta.seconds (decimal value)
        ∧ TimeDelta.seconds (decimal value) ≤ MAX_UTC_NANOSECONDS
    · rw [dif_pos hrange, Option.map_some, Option.getD_some]
      exact after_spec ⟨TimeDelta.seconds (decimal value), hrange⟩ RESET_MARGIN_SECONDS
    · rw [dif_neg hrange]
      exact .inl rfl
  · rw [if_neg hfits]
    exact ⟨MAX_UTC, rfl, .inl rfl⟩

/-! ## The classification -/

/-- A header line of an output: in one of its preambles, or a line of the diagnostics. -/
inductive Says (p : Printout) (stderr : Bytes) : String → String → Prop
  | preamble (q : Preamble) (hq : q ∈ p.preambles) (header : Header)
      (hheader : header ∈ q.headers) :
    Says p stderr header.name (trim header.value)
  | diagnostics (key value : String) (hkey : ':' ∉ key.toList)
    (hline : key ++ ":" ++ value ∈ str_lines (from_utf8_lossy stderr)) :
    Says p stderr (trim key) (trim value)

/-- A remaining count of zero is reported. -/
def Spent (p : Printout) (stderr : Bytes) : Prop :=
  ∃ key value, Says p stderr key value ∧ eq_ignore_ascii_case key "x-ratelimit-remaining" = true
    ∧ parse_u64 value = some 0

/-- The headers the classification looks at. -/
def seen_headers (p : Printout) (stderr : Bytes) : List (String × String) :=
  p.preambles.flatMap Preamble.retained ++ header_lines_of stderr

/-- **Every header line that matters is looked at.** -/
theorem Says.seen {p : Printout} {stderr : Bytes} {key value : String} (h : Says p stderr key value)
    (hkey : is_retained key = true) : (key, value) ∈ seen_headers p stderr := by
  cases h with
  | preamble q hq header hheader =>
    refine List.mem_append_left _ (List.mem_flatMap.mpr ⟨q, hq, ?_⟩)
    refine List.mem_flatMap.mpr ⟨header, hheader, ?_⟩
    rw [retain_header, if_pos hkey]
    exact List.mem_singleton_self _
  | diagnostics key value hcolon hline =>
    refine List.mem_append_right _ (List.mem_filterMap.mpr ⟨_, hline, ?_⟩)
    rw [stderr_header, split_once_header value hcolon]
    rfl

theorem Spent.seen {p : Printout} {stderr : Bytes} (h : Spent p stderr) :
    reports_exhausted (seen_headers p stderr) = true := by
  obtain ⟨key, value, hsays, hkey, hzero⟩ := h
  have hretained : is_retained key = true := by
    rw [is_retained, List.any_eq_true]
    exact ⟨_, by decide, hkey⟩
  rw [reports_exhausted, List.any_eq_true]
  refine ⟨_, hsays.seen hretained, ?_⟩
  rw [hkey, hzero]
  rfl

/-- The same output with further header lines in its preambles. -/
structure Printout.More (p p' : Printout) : Prop where
  body : p'.body = p.body
  preambles : List.Forall₂ (fun q q' => ∃ more, q' = { q with headers := q.headers ++ more })
    p.preambles p'.preambles

/-- A preamble with further headers is longer. -/
theorem Preamble.text_more (q : Preamble) (more : List Header) :
    q.text.length ≤ ({ q with headers := q.headers ++ more } : Preamble).text.length
      ∧ q.lines ≤ ({ q with headers := q.headers ++ more } : Preamble).lines := by
  have hlast : ({ q with headers := q.headers ++ more } : Preamble).last_line = q.last_line := rfl
  constructor
  · rw [Preamble.length_text, Preamble.length_text, hlast]
    simp only [List.flatMap_append, List.length_append]
    omega
  · rw [Preamble.lines, Preamble.lines, List.length_append]
    omega

/-- With further header lines an output is longer, and shows more. By induction on the
preambles. -/
theorem Printout.More.grows {p p' : Printout} (h : p.More p') :
    (p'.Fits → p.Fits) ∧ p'.answer = p.answer
      ∧ p'.preambles.getLast?.map Preamble.status = p.preambles.getLast?.map Preamble.status
      ∧ p.preambles.flatMap Preamble.retained ⊆ p'.preambles.flatMap Preamble.retained := by
  have hsame : p.preambles.length = p'.preambles.length
      ∧ (p.preambles.flatMap Preamble.text).length ≤ (p'.preambles.flatMap Preamble.text).length
      ∧ (p.preambles.map Preamble.lines).sum ≤ (p'.preambles.map Preamble.lines).sum
      ∧ p'.preambles.map Preamble.status = p.preambles.map Preamble.status
      ∧ p.preambles.flatMap Preamble.retained ⊆ p'.preambles.flatMap Preamble.retained := by
    have hmore := h.preambles
    generalize p.preambles = qs at hmore ⊢
    generalize p'.preambles = qs' at hmore ⊢
    -- the two lists run in step: each preamble has the headers of the other in front
    induction hmore with
    | nil => exact ⟨rfl, Nat.le_refl _, Nat.le_refl _, rfl, List.Subset.refl _⟩
    | @cons q q' qs qs' hone hrest ih =>
      obtain ⟨more, rfl⟩ := hone
      obtain ⟨hlength, htext, hlines, hstatus, hretained⟩ := ih
      obtain ⟨hone_text, hone_lines⟩ := q.text_more more
      refine ⟨?_, ?_, ?_, ?_, ?_⟩
      · rw [List.length_cons, List.length_cons, hlength]
      · rw [List.flatMap_cons, List.flatMap_cons, List.length_append, List.length_append]
        omega
      · rw [List.map_cons, List.map_cons, List.sum_cons, List.sum_cons]
        omega
      · rw [List.map_cons, List.map_cons, hstatus]
      · rw [List.flatMap_cons, List.flatMap_cons]
        have hq : q.retained ⊆ ({ q with headers := q.headers ++ more } : Preamble).retained := by
          rw [Preamble.retained, Preamble.retained, List.flatMap_append]
          exact List.subset_append_left _ _
        exact List.append_subset.mpr ⟨List.Subset.trans hq (List.subset_append_left _ _),
          List.Subset.trans hretained (List.subset_append_right _ _)⟩
  obtain ⟨hlength, htext, hlines, hstatus, hretained⟩ := hsame
  refine ⟨fun hfits => ⟨?_, ?_, ?_⟩, ?_, ?_, hretained⟩
  · rw [hlength]
    exact hfits.blocks
  · exact htext.trans hfits.bytes
  · exact hlines.trans hfits.lines
  -- there are preambles in the one if there are in the other, so the body is trimmed alike
  · have hnil : p'.preambles = [] ↔ p.preambles = [] := by
      rw [← List.length_eq_zero_iff, ← List.length_eq_zero_iff, hlength]
    simp only [Printout.answer, hnil, h.body]
  · rw [← List.getLast?_map, ← List.getLast?_map, hstatus]

/-- A wait that is not the one for hidden deadlines. -/
theorem classify_response_eq {response : Response} {stderr : Bytes} {wait : GitHubWait}
    (h : classify_response parse_from_rfc2822 from_slice response stderr now = some wait) :
    ∃ exhausted, exhausted = reports_exhausted (response.headers ++ stderr_headers stderr)
      ∧ failure_reason (output_signals from_slice response.body stderr) exhausted response.status
        = some wait.reason
      ∧ wait.next_retry_at = wait_until
        (deadlines parse_from_rfc2822 (response.headers ++ stderr_headers stderr)
        (uses_primary_reset wait.reason exhausted) now) now := by
  rw [classify_response, Option.map_eq_some_iff] at h
  obtain ⟨reason, hreason, rfl⟩ := h
  exact ⟨_, rfl, hreason, rfl⟩

/-- What header lines demand of a deadline: to be no earlier than any of them. -/
structure Respects (parse_from_rfc2822 : String → Option DateTime)
    (printed : String → String → Prop)
    (primary : Prop) (now deadline : DateTime) : Prop where
  seconds : ∀ key value, printed key value → eq_ignore_ascii_case key "retry-after" = true →
    is_decimal value = true →
      deadline = MAX_UTC ∨ now.val + TimeDelta.seconds (decimal value) ≤ deadline.val
  date : ∀ key value date, printed key value → eq_ignore_ascii_case key "retry-after" = true →
    is_decimal value = false → byteLen value ≤ 64 → parse_from_rfc2822 value = some date →
      date ≤ deadline
  reset : primary → ∀ key value, printed key value →
    eq_ignore_ascii_case key "x-ratelimit-reset" = true → is_decimal value = true →
    deadline = MAX_UTC ∨
      TimeDelta.seconds (decimal value) + TimeDelta.seconds RESET_MARGIN_SECONDS ≤ deadline.val

/-- The latest time respects everything. -/
theorem respects_max {printed : String → String → Prop} {primary : Prop} :
    Respects parse_from_rfc2822 printed primary now MAX_UTC where
  seconds := fun _ _ _ _ _ => .inl rfl
  date := fun _ _ date _ _ _ _ _ => date.le_max
  reset := fun _ _ _ _ _ _ => .inl rfl

/-- A deadline after a time that was asked for. -/
theorem At.le {start seconds : Int} {deadline : DateTime} (h : At d start seconds)
    (hle : d ≤ deadline) :
    deadline = MAX_UTC ∨ start + TimeDelta.seconds seconds ≤ deadline.val := by
  rcases h with rfl | hval
  · exact .inl (le_antisymm deadline.le_max hle)
  · right
    rw [← hval]
    exact hle

/-- A deadline no hint that binds is later than respects the header lines that are looked at. -/
theorem respects_of_hints {printed : String → String → Prop} {primary : Prop} {deadline : DateTime}
    (hseen : ∀ key value, printed key value → is_retained key = true → (key, value) ∈ headers)
    (hprimary : primary → used = true)
    (hhints : ∀ header ∈ headers,
    (used = true ∨ eq_ignore_ascii_case header.1 "x-ratelimit-reset" = false) →
      ∀ d, retry_hint parse_from_rfc2822 header.1 header.2 now = some d → d ≤ deadline) :
    Respects parse_from_rfc2822 printed primary now deadline := by
  -- the headers that carry demands are among those the scan keeps
  have hretained : ∀ name key, eq_ignore_ascii_case name key = true →
      key ∈ ["retry-after", "x-ratelimit-reset", "x-ratelimit-remaining"] →
        is_retained name = true := by
    intro name key hname hkey
    rw [is_retained, List.any_eq_true]
    exact ⟨key, hkey, hname⟩
  refine ⟨?_, ?_, ?_⟩
  · intro key value hheader hkey hdecimal
    obtain ⟨d, hhint, hat⟩ := @retry_hint_seconds parse_from_rfc2822 now key value hkey hdecimal
    have hmem := hseen key value hheader (hretained _ _ hkey (by decide))
    exact hat.le (hhints _ hmem (.inr (reset_of_retry_after hkey)) d hhint)
  · intro key value date hheader hkey hdecimal hlength hdate
    have hmem := hseen key value hheader (hretained _ _ hkey (by decide))
    exact hhints _ hmem (.inr (reset_of_retry_after hkey)) date
      (retry_hint_date hkey hdecimal hlength hdate)
  · intro hbinds key value hheader hkey hdecimal
    obtain ⟨d, hhint, hat⟩ := @retry_hint_reset parse_from_rfc2822 now key value hkey hdecimal
    have hmem := hseen key value hheader (hretained _ _ hkey (by decide))
    exact hat.le (hhints _ hmem (.inl (hprimary hbinds)) d hhint)

/-- Where the classification of an output comes from. -/
theorem classify_failure_readable {stdout stderr : Bytes} {response : Response}
    (hbound : diagnostics_exceed stderr = false) (hsplit : split_headers stdout = .ok response) :
    classify_failure parse_from_rfc2822 from_slice stdout stderr now
      = classify_response parse_from_rfc2822 from_slice response stderr now := by
  rw [classify_failure, if_neg (by rw [hbound]; exact Bool.false_ne_true), hsplit]

theorem classify_failure_hidden {stdout stderr : Bytes}
    (h : diagnostics_exceed stderr = true ∨ ∃ e, split_headers stdout = .error e) :
    classify_failure parse_from_rfc2822 from_slice stdout stderr now = some hidden_wait := by
  rw [classify_failure]
  split
  · rfl
  · rename_i hbound
    obtain ⟨e, hsplit⟩ := h.resolve_left hbound
    rw [hsplit]

/-- An output that is no printout within the bounds cannot be read. -/
theorem split_headers_error {stdout : Bytes}
    (h : ¬ ∃ p : Printout, p.WellFormed ∧ p.Fits ∧ p.render = stdout) :
    ∃ e, split_headers stdout = .error e := by
  cases hsplit : split_headers stdout with
  | error e => exact ⟨e, rfl⟩
  | ok response => exact absurd (split_headers_printout hsplit) h

/-- The primary window binds when it is the reason, or reported to be spent. -/
theorem uses_primary_reset_of {p : Printout} {stderr : Bytes} {reason : FactoryRetryReason}
    (h : reason = .primary_rate_limit ∨ Spent p stderr) :
    uses_primary_reset reason (reports_exhausted (seen_headers p stderr)) = true := by
  rw [uses_primary_reset, Bool.or_eq_true, decide_eq_true_eq]
  rcases h with hprimary | hspent
  · exact .inr (.inl hprimary)
  · exact .inl hspent.seen

/-- What the classification sees of a printout. -/
def Printout.response (p : Printout) : Response where
  body := p.answer
  status := p.preambles.getLast?.map Preamble.status
  headers := p.preambles.flatMap Preamble.retained

/-- The classification of a printout: it is hidden, or it is that of all it shows. -/
theorem classify_failure_printout {p : Printout} (h : p.WellFormed) (stderr : Bytes) :
    classify_failure parse_from_rfc2822 from_slice p.render stderr now = some hidden_wait
      ∨ (diagnostics_exceed stderr = false
        ∧ classify_failure parse_from_rfc2822 from_slice p.render stderr now
          = classify_response parse_from_rfc2822 from_slice p.response stderr now) := by
  by_cases hhidden : diagnostics_exceed stderr = true ∨ ∃ e, split_headers p.render = .error e
  · exact .inl (classify_failure_hidden hhidden)
  · rw [not_or, Bool.not_eq_true] at hhidden
    obtain ⟨hbound, hok⟩ := hhidden
    cases hsplit : split_headers p.render with
    | error e => exact absurd ⟨e, hsplit⟩ hok
    | ok response =>
      have hresponse := p.split_headers h (p.fits h hsplit)
      exact .inr ⟨hbound, classify_failure_readable hbound hresponse⟩

/-- A wait respects the header lines of the output and the diagnostics. -/
theorem classify_failure_respects {p : Printout} {stderr : Bytes} {wait : GitHubWait}
    (h : p.WellFormed)
    (hwait : classify_failure parse_from_rfc2822 from_slice p.render stderr now = some wait) :
    Respects parse_from_rfc2822 (Says p stderr) (wait.reason = .primary_rate_limit ∨ Spent p stderr)
      now wait.next_retry_at := by
  rcases classify_failure_printout h stderr with hhidden | ⟨hbound, hseen⟩
  · rw [hhidden, Option.some_inj] at hwait
    rw [← hwait]
    exact respects_max
  · rw [hseen] at hwait
    obtain ⟨exhausted, rfl, -, hdeadline⟩ := classify_response_eq hwait
    rw [stderr_headers_eq hbound] at hdeadline
    rw [hdeadline]
    refine respects_of_hints (fun _ _ => Says.seen) uses_primary_reset_of ?_
    intro header hheader hbinds d hhint
    exact hint_le_wait hheader hbinds hhint

theorem classify_failure_outstanding {stdout stderr : Bytes} {wait : GitHubWait}
    (hwait : classify_failure parse_from_rfc2822 from_slice stdout stderr now = some wait) :
    outstanding wait.next_retry_at now = true := by
  by_cases hhidden : diagnostics_exceed stderr = true ∨ ∃ e, split_headers stdout = .error e
  · rw [classify_failure_hidden hhidden, Option.some_inj] at hwait
    rw [← hwait, outstanding_iff]
    exact .inl rfl
  · rw [not_or, Bool.not_eq_true] at hhidden
    obtain ⟨hbound, hok⟩ := hhidden
    cases hsplit : split_headers stdout with
    | error e => exact absurd ⟨e, hsplit⟩ hok
    | ok response =>
      rw [classify_failure_readable hbound hsplit] at hwait
      obtain ⟨exhausted, -, -, hdeadline⟩ := classify_response_eq hwait
      rw [hdeadline]
      exact outstanding_wait_until fun d hd => (mem_deadlines.mp hd).2

/-- Further headers and lines make a wait no earlier. -/
theorem classify_failure_mono {p p' : Printout} {stderr stderr' : Bytes} {wait : GitHubWait}
    (h : p.WellFormed) (h' : p'.WellFormed)
    (hwait : classify_failure parse_from_rfc2822 from_slice p.render stderr now = some wait)
    (hmore : p.More p') (hfits' : p'.Fits) (hlines : MoreLines stderr stderr')
    (hsecondary : (output_signals from_slice p.answer stderr').secondary = true →
      (output_signals from_slice p.answer stderr).secondary = true) :
    ∃ wait', classify_failure parse_from_rfc2822 from_slice p'.render stderr' now = some wait'
      ∧ (wait.next_retry_at ≤ wait'.next_retry_at
        ∨ (wait.next_retry_at = after now BASE_BACKOFF_SECONDS
          ∧ Respects parse_from_rfc2822 (Says p stderr)
            (wait.reason = .primary_rate_limit ∨ Spent p stderr) now now)) := by
  obtain ⟨hfits, hanswer, hstatus, hretained⟩ := hmore.grows
  by_cases hbound' : diagnostics_exceed stderr' = true
  · exact ⟨hidden_wait, classify_failure_hidden (.inl hbound'), .inl wait.next_retry_at.le_max⟩
  have hbound : ¬ diagnostics_exceed stderr = true := fun hbound => hbound' (hlines.exceed hbound)
  rw [Bool.not_eq_true] at hbound hbound'
  rw [classify_failure_readable hbound (p.split_headers h (hfits hfits'))] at hwait
  obtain ⟨exhausted, rfl, hreason, hdeadline⟩ := classify_response_eq hwait
  rw [stderr_headers_eq hbound] at hreason hdeadline
  -- all that was seen is still seen
  have hsubset : seen_headers p stderr ⊆ seen_headers p' stderr' :=
    List.append_subset.mpr ⟨List.Subset.trans hretained (List.subset_append_left _ _),
      List.Subset.trans hlines.headers (List.subset_append_right _ _)⟩
  obtain ⟨reason', hreason', hused⟩ := failure_reason_mono (hlines.signals hbound hbound' p.answer)
    (reports_exhausted_mono hsubset) hsecondary hreason
  refine ⟨{
    reason := reason'
    next_retry_at := wait_until (deadlines parse_from_rfc2822 (seen_headers p' stderr')
      (uses_primary_reset reason' (reports_exhausted (seen_headers p' stderr'))) now) now }, ?_, ?_⟩
  · rw [classify_failure_readable hbound' (p'.split_headers h' hfits'), classify_response,
      stderr_headers_eq hbound', hanswer, hstatus]
    have hseen : p'.preambles.flatMap Preamble.retained ++ header_lines_of stderr'
        = seen_headers p' stderr' := rfl
    simp only [hseen]
    rw [hreason']
    rfl
  -- without a deadline the wait was the default one, and no hint was later than now
  · by_cases hnone : deadlines parse_from_rfc2822 (seen_headers p stderr)
        (uses_primary_reset wait.reason (reports_exhausted (seen_headers p stderr))) now = []
    · refine .inr ⟨?_, ?_⟩
      · exact hdeadline.trans (congrArg (wait_until · now) hnone)
      · refine respects_of_hints (fun _ _ => Says.seen) uses_primary_reset_of ?_
        intro header hheader hbinds d hhint
        exact hint_le_now hnone hheader hbinds hhint
    · left
      rw [hdeadline]
      exact wait_until_mono (deadlines_mono hsubset hused) hnone

variable (parse_from_rfc2822 from_slice)

/-- **The classification of failures is conservative.** Whatever a command printed: where it is
no sequence of well-formed header blocks in front of a body, within the bounds, or where the
diagnostics are too long, the wait is the latest time. Every wait is outstanding, and no earlier
than any `Retry-After` of the header blocks and the diagnostics, nor, when the primary window is
the reason or spent, than its reset and the margin; a time that cannot be represented makes it
the latest one. Further headers and lines make it no earlier, unless no hint was later than now,
or they are the first to report a secondary limit. -/
theorem failure_classification_conservative (stdout stderr : Bytes) (now : DateTime) :
    ((MAX_DIAGNOSTIC_BYTES < stderr.length ∨ MAX_HEADER_LINES < (stderr.splitOn 0x0A).length
        ∨ ¬ ∃ p : Printout, p.WellFormed ∧ p.Fits ∧ p.render = stdout) →
      classify_failure parse_from_rfc2822 from_slice stdout stderr now
        = some { reason := .github_unavailable, next_retry_at := MAX_UTC })
    ∧ ∀ wait, classify_failure parse_from_rfc2822 from_slice stdout stderr now = some wait →
      outstanding wait.next_retry_at now = true
      ∧ ∀ p : Printout, p.WellFormed → p.render = stdout →
        Respects parse_from_rfc2822 (Says p stderr)
          (wait.reason = .primary_rate_limit ∨ Spent p stderr) now wait.next_retry_at
        ∧ ∀ p' stderr', p.More p' → p'.WellFormed → p'.Fits → MoreLines stderr stderr' →
          ((output_signals from_slice p.answer stderr').secondary = true →
            (output_signals from_slice p.answer stderr).secondary = true) →
          ∃ wait', classify_failure parse_from_rfc2822 from_slice p'.render stderr' now = some wait'
            ∧ (wait.next_retry_at ≤ wait'.next_retry_at
              ∨ (wait.next_retry_at = after now BASE_BACKOFF_SECONDS
                ∧ Respects parse_from_rfc2822 (Says p stderr)
                  (wait.reason = .primary_rate_limit ∨ Spent p stderr) now now)) := by
  constructor
  · rintro (hbytes | hlines | hunread)
    · refine classify_failure_hidden (.inl ?_)
      rw [diagnostics_exceed, Bool.or_eq_true, decide_eq_true_eq]
      exact .inl hbytes
    · refine classify_failure_hidden (.inl ?_)
      rw [diagnostics_exceed, Bool.or_eq_true, decide_eq_true_eq, decide_eq_true_eq]
      exact .inr hlines
    · exact classify_failure_hidden (.inr (split_headers_error hunread))
  · intro wait hwait
    refine ⟨classify_failure_outstanding hwait, ?_⟩
    rintro p h rfl
    refine ⟨classify_failure_respects h hwait, ?_⟩
    intro p' stderr' hmore h' hfits' hlines hsecondary
    exact classify_failure_mono h h' hwait hmore hfits' hlines hsecondary

end

namespace Console

/-- The sixth of September 2026, noon. -/
def now : DateTime := ⟨TimeDelta.seconds 1788696000, by decide⟩

def in_a_minute : DateTime := ⟨TimeDelta.seconds 1788696060, by decide⟩

def in_an_hour : DateTime := ⟨TimeDelta.seconds 1788699605, by decide⟩

def from_slice (bytes : Bytes) : Option Json :=
  if bytes = as_bytes "{}" then some (.obj []) else none

/-- A date with a comment, 65 bytes long. -/
def long_date : String := "Sun, 06 Sep 2026 13:00:05 +0000 (the service is being maintained)"

def parse_from_rfc2822 (text : String) : Option DateTime :=
  if text = long_date then some in_an_hour else none

def classify (stdout stderr : String) : Option GitHubWait :=
  classify_failure parse_from_rfc2822 from_slice (as_bytes stdout) (as_bytes stderr) now

end Console

set_option maxRecDepth 20000 in
/-- Three waits that are short: a reset that overflows, in a window that is not spent; a date of
more than 64 bytes; and a line that reports a secondary limit, after a primary one. -/
theorem failure_classification_shorter :
    Console.classify "HTTP/2.0 429 Too Many Requests\nX-RateLimit-Reset: 99999999999999999999\n\n{}"
      ""
        = some { reason := .secondary_rate_limit, next_retry_at := Console.in_a_minute }
      ∧ Console.parse_from_rfc2822 Console.long_date = some Console.in_an_hour
      ∧ Console.classify ("HTTP/2.0 429 Too Many Requests\nRetry-After: " ++ Console.long_date
        ++ "\n\n{}") ""
        = some { reason := .secondary_rate_limit, next_retry_at := Console.in_a_minute }
      ∧ Console.classify "{}" "API rate limit exceeded\nX-RateLimit-Reset: 1788699600\n"
        = some { reason := .primary_rate_limit, next_retry_at := Console.in_an_hour }
      ∧ Console.classify "{}"
          "API rate limit exceeded\nX-RateLimit-Reset: 1788699600\nnote: secondary rate limit\n"
        = some { reason := .secondary_rate_limit, next_retry_at := Console.in_a_minute } := by
  decide +kernel

end Crony.Cli
