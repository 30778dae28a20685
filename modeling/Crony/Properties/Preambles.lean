/-
HTTP preambles in front of a body.

What a header block is, is written down as the text it is printed as: white space, a status
line and header lines, each with its own line end, and an empty line (`Preamble`; a `Block` is one
as servers print them). The scan takes such blocks off exactly, line by line, and leaves the
body. Conversely, an input it accepts is a printout of such blocks in front of a body, within the
bounds (`split_headers_printout`). On any input it returns, with a suffix of the input or an error.
-/
import Mathlib.Data.List.TakeWhile
import Crony.Cli.Response

set_option autoImplicit false

open Crony.Lib

namespace Crony

theorem as_bytes_append (a b : String) : as_bytes (a ++ b) = as_bytes a ++ as_bytes b := by
  rw [as_bytes, as_bytes, as_bytes, String.toByteArray_append, ByteArray.data_append,
    Array.toList_append]

namespace Cli

/-! ## Well-formed blocks -/

/-- A line and how it ends. -/
structure Line where
  text : String
  crlf : Bool := false

/-- The line as it is printed. -/
def Line.render (line : Line) : Bytes :=
  as_bytes line.text ++ if line.crlf = true then [0x0D, 0x0A] else [0x0A]

/-- The text does not contain the end of the line. -/
structure Line.WellFormed (line : Line) : Prop where
  feed : 0x0A ∉ as_bytes line.text
  carriage : line.crlf = false → (as_bytes line.text).getLast? ≠ some 0x0D

structure Header where
  name : String
  value : String
  crlf : Bool := false

def Header.line (header : Header) : Line :=
  { text := header.name ++ ":" ++ header.value, crlf := header.crlf }

structure Header.WellFormed (header : Header) : Prop where
  name_ne : header.name ≠ ""
  colon : ':' ∉ header.name.toList
  line : header.line.WellFormed

/-- A header block; the reason carries the space before it. -/
structure Block where
  version : String
  status : Nat
  reason : String := ""
  status_crlf : Bool := false
  headers : List Header
  last_crlf : Bool := false

def Block.status_line (block : Block) : Line :=
  { text := block.version ++ " " ++ toString block.status ++ block.reason,
    crlf := block.status_crlf }

def Block.last_line (block : Block) : Line := { text := "", crlf := block.last_crlf }

/-- The block as it is printed. -/
def Block.render (block : Block) : Bytes :=
  block.status_line.render ++ block.headers.flatMap (fun header => header.line.render)
    ++ block.last_line.render

structure Block.WellFormed (block : Block) : Prop where
  version : block.version ∈ HTTP_VERSIONS
  status : 100 ≤ block.status ∧ block.status < 600
  reason : block.reason = "" ∨ starts_with block.reason " " = true
  status_line : block.status_line.WellFormed
  headers : ∀ header ∈ block.headers, header.WellFormed

/-- The number of lines of a block. -/
def Block.lines (block : Block) : Nat := block.headers.length + 2

/-- A header block in any shape that is read: white space in front of it, and a status line
whose first two words are the version and the code. -/
structure Preamble where
  before : Bytes := []
  status_line : Line
  status : Nat
  headers : List Header
  last_crlf : Bool := false

def Preamble.last_line (p : Preamble) : Line := { text := "", crlf := p.last_crlf }

/-- The lines of the preamble as they are printed. -/
def Preamble.text (p : Preamble) : Bytes :=
  p.status_line.render ++ p.headers.flatMap (fun header => header.line.render) ++ p.last_line.render

def Preamble.render (p : Preamble) : Bytes := p.before ++ p.text

/-- The number of lines of a preamble. -/
def Preamble.lines (p : Preamble) : Nat := p.headers.length + 2

/-- The status line is that of a response with this code: a version, three digits, and whatever
follows. -/
structure StatusLine (text : String) (status : Nat) : Prop where
  http : as_bytes "HTTP/" <+: as_bytes text
  words : ∃ version code others, split_ascii_whitespace text = version :: code :: others
    ∧ version ∈ HTTP_VERSIONS ∧ byteLen code = 3 ∧ code.toList.all Char.isDigit = true
    ∧ decimal code = status
  status : 100 ≤ status ∧ status < 600

structure Preamble.WellFormed (p : Preamble) : Prop where
  before : ∀ b ∈ p.before, is_ascii_blank b = true
  status : StatusLine p.status_line.text p.status
  status_line : p.status_line.WellFormed
  headers : ∀ header ∈ p.headers, header.WellFormed

/-- What the scan keeps of a preamble. -/
def Preamble.retained (p : Preamble) : List (String × String) :=
  p.headers.flatMap fun header => retain_header header.name header.value

/-- A block is a preamble with nothing in front of it. -/
def Block.preamble (block : Block) : Preamble where
  status_line := block.status_line
  status := block.status
  headers := block.headers
  last_crlf := block.last_crlf

/-! ## One line -/

variable {bytes lines : Nat} {more : Bytes}

/-- A line up to its feed, and the text after a return is stripped. -/
theorem Line.render_split {line : Line} (h : line.WellFormed) :
    ∃ front, line.render = front ++ [0x0A] ∧ 0x0A ∉ front
      ∧ strip_return front = as_bytes line.text := by
  by_cases hcrlf : line.crlf = true
  · refine ⟨as_bytes line.text ++ [0x0D], ?_, ?_, ?_⟩
    · rw [Line.render, if_pos hcrlf, List.append_assoc]
      rfl
    · rw [List.mem_append, not_or]
      exact ⟨h.feed, by decide⟩
    · rw [strip_return, List.getLast?_concat, if_pos rfl, List.dropLast_concat]
  · refine ⟨as_bytes line.text, ?_, h.feed, ?_⟩
    · rw [Line.render, if_neg hcrlf]
    · rw [strip_return, if_neg (h.carriage (Bool.eq_false_of_not_eq_true hcrlf))]

/-- **A well-formed line is read back.** -/
theorem header_line_render {line : Line} (h : line.WellFormed)
    (hbytes : bytes + line.render.length ≤ MAX_HEADER_BYTES) (hlines : lines < MAX_HEADER_LINES) :
    header_line { rest := line.render ++ more, bytes, lines }
      = .ok (line.text,
        { rest := more, bytes := bytes + line.render.length, lines := lines + 1 }) := by
  obtain ⟨front, hrender, hfeed, hstrip⟩ := Line.render_split h
  have hlength : line.render.length = front.length + 1 := by rw [hrender, List.length_append]; rfl
  -- the first feed within the part that may still be read is the one that ends the line
  have hstop : ((line.render ++ more).take (MAX_HEADER_BYTES - bytes)).findIdx? (· == 0x0A)
      = some front.length := by
    obtain ⟨k, hk⟩ : ∃ k, MAX_HEADER_BYTES - bytes - front.length = k + 1 :=
      ⟨MAX_HEADER_BYTES - bytes - front.length - 1, by omega⟩
    have hnone : front.findIdx? (· == 0x0A) = none := by
      rw [List.findIdx?_eq_none_iff]
      intro b hb
      rw [beq_eq_false_iff_ne]
      exact ne_of_mem_of_not_mem hb hfeed
    rw [hrender, List.append_assoc, List.take_append, List.take_of_length_le (by omega), hk,
      List.findIdx?_append, hnone, List.singleton_append, List.take_succ_cons, List.findIdx?_cons]
    simp
  have htake : (line.render ++ more).take front.length = front := by
    rw [hrender, List.append_assoc, List.take_left]
  have hdrop : (line.render ++ more).drop (front.length + 1) = more := by
    rw [← hlength, List.drop_left]
  rw [header_line]
  simp only [hstop, Option.filter_some, decide_eq_true hlines, if_true, htake, hstrip,
    from_utf8_as_bytes, context, ok_bind, hdrop, hlength]
  rfl

/-- A line that is read back keeps within the bounds. -/
theorem header_line_render_fits {line : Line} (h : line.WellFormed) {turn : String × Scan}
    (hturn : header_line { rest := line.render ++ more, bytes, lines } = .ok turn) :
    bytes + line.render.length ≤ MAX_HEADER_BYTES ∧ lines < MAX_HEADER_LINES := by
  obtain ⟨front, hrender, hfeed, -⟩ := Line.render_split h
  have hlength : line.render.length = front.length + 1 := by rw [hrender, List.length_append]; rfl
  simp only [header_line, bind_eq_ok, context_eq_ok] at hturn
  obtain ⟨stop, hstop, -⟩ := hturn
  rw [Option.filter_eq_some_iff, decide_eq_true_eq] at hstop
  refine ⟨?_, hstop.2⟩
  by_contra hexceeds
  -- the part that may still be read has no feed
  have htake : (line.render ++ more).take (MAX_HEADER_BYTES - bytes) <+: front := by
    rw [hrender, List.append_assoc, List.take_append_of_le_length (by omega)]
    exact List.take_prefix _ _
  obtain ⟨hlt, hfound, -⟩ := List.findIdx?_eq_some_iff_getElem.mp hstop.1
  have hmem := htake.subset (List.getElem_mem hlt)
  rw [beq_iff_eq] at hfound
  exact hfeed (hfound ▸ hmem)

/-- **A line that is read is a well-formed line of the input.** -/
theorem header_line_reads {scan tail : Scan} {text : String}
    (h : header_line scan = .ok (text, tail)) :
    ∃ line : Line, line.WellFormed ∧ line.text = text ∧ scan.rest = line.render ++ tail.rest := by
  simp only [header_line, bind_eq_ok, context_eq_ok, pure_eq_ok, Prod.mk.injEq] at h
  obtain ⟨stop, hstop, text', htext, rfl, rfl⟩ := h
  rw [Option.filter_eq_some_iff] at hstop
  obtain ⟨hlt, hfound, hbefore⟩ := List.findIdx?_eq_some_iff_getElem.mp hstop.1
  rw [List.length_take] at hlt
  have hstoplt : stop < scan.rest.length := by omega
  have hfeed : scan.rest[stop] = 0x0A := by
    rw [List.getElem_take, beq_iff_eq] at hfound
    exact hfound
  have hsplit : scan.rest = scan.rest.take stop ++ 0x0A :: scan.rest.drop (stop + 1) := by
    rw [← hfeed, ← List.drop_eq_getElem_cons hstoplt, List.take_append_drop]
  -- the feed that was found is the first one
  have hnofeed : 0x0A ∉ scan.rest.take stop := by
    intro hmem
    obtain ⟨i, hi, heq⟩ := List.getElem_of_mem hmem
    rw [List.length_take] at hi
    have hno := hbefore i (by omega)
    rw [List.getElem_take] at heq hno
    rw [heq] at hno
    exact hno rfl
  have hbytes := as_bytes_of_from_utf8 htext
  -- a return before the feed belongs to the line end
  by_cases hreturn : (scan.rest.take stop).getLast? = some 0x0D
  · obtain ⟨front, hfront⟩ := List.getLast?_eq_some_iff.mp hreturn
    rw [strip_return, if_pos hreturn, hfront, List.dropLast_concat] at hbytes
    refine ⟨{ text := text', crlf := true }, ⟨?_, fun h => absurd h.symm Bool.false_ne_true⟩, rfl,
      ?_⟩
    · rw [hbytes]
      intro hmem
      exact hnofeed (hfront ▸ List.mem_append_left _ hmem)
    · rw [Line.render, if_pos rfl, hbytes]
      rw [hfront, List.append_assoc] at hsplit
      rw [List.append_assoc]
      exact hsplit
  · rw [strip_return, if_neg hreturn] at hbytes
    refine ⟨{ text := text', crlf := false }, ⟨?_, fun _ => ?_⟩, rfl, ?_⟩
    · rw [hbytes]
      exact hnofeed
    · rw [hbytes]
      exact hreturn
    · rw [Line.render, if_neg Bool.false_ne_true, hbytes, List.append_assoc]
      exact hsplit

/-! ## The headers of a block -/

/-- Around a character a text is split at its first occurrence. -/
theorem split_once_eq_some {text name value : String}
    (h : split_once text ':' = some (name, value)) :
    text = name ++ ":" ++ value ∧ ':' ∉ name.toList := by
  rw [split_once] at h
  split at h
  · rename_i hmem
    simp only [Option.some.injEq, Prod.mk.injEq] at h
    obtain ⟨rfl, rfl⟩ := h
    have hne : text.toList.dropWhile (· ≠ ':') ≠ [] := by
      rw [ne_eq, List.dropWhile_eq_nil_iff]
      intro hall
      exact absurd (hall ':' hmem) (by decide)
    have hhead : (text.toList.dropWhile (· ≠ ':')).head hne = ':' := by
      have hnot := List.head_dropWhile_not (fun c => decide (c ≠ ':')) hne
      simpa using hnot
    have hrest : text.toList.dropWhile (· ≠ ':')
        = ':' :: (text.toList.dropWhile (· ≠ ':')).drop 1 := by
      rw [List.drop_one]
      conv_lhs => rw [← List.cons_head_tail hne, hhead]
    constructor
    · apply String.toList_injective
      simp only [String.toList_append, String.toList_ofList, List.append_assoc]
      conv_lhs => rw [← List.takeWhile_append_dropWhile (p := (· ≠ ':')) (l := text.toList), hrest]
      rfl
    · rw [String.toList_ofList]
      intro hmem
      have hother := List.mem_takeWhile_imp hmem
      simp at hother
  · cases h

theorem split_once_header {name : String} (value : String) (h : ':' ∉ name.toList) :
    split_once (name ++ ":" ++ value) ':' = some (name, value) := by
  have htext : (name ++ ":" ++ value).toList = name.toList ++ ':' :: value.toList := by
    rw [String.toList_append, String.toList_append, List.append_assoc]
    rfl
  have hall : ∀ c ∈ name.toList, decide (c ≠ ':') = true := by
    intro c hc
    exact decide_eq_true (ne_of_mem_of_not_mem hc h)
  have htake : (name.toList ++ ':' :: value.toList).takeWhile (· ≠ ':') = name.toList := by
    rw [List.takeWhile_append_of_pos hall]
    simp
  have hdrop : (name.toList ++ ':' :: value.toList).dropWhile (· ≠ ':') = ':' :: value.toList := by
    rw [List.dropWhile_append_of_pos hall]
    simp
  rw [split_once, htext, if_pos (by simp), htake, hdrop, List.drop_one, List.tail_cons,
    String.ofList_toList, String.ofList_toList]

/-- **The headers of a well-formed block are read back**, up to its empty line. By induction on
the headers. -/
theorem header_lines_render {hs : List Header} {last : Line}
    (hhs : ∀ header ∈ hs, header.WellFormed)
    (hlast : last.text = "") (hwell : last.WellFormed) {headers : List (String × String)}
    (hbytes : bytes + (hs.flatMap fun header => header.line.render).length + last.render.length
      ≤ MAX_HEADER_BYTES)
    (hlines : lines + hs.length + 1 ≤ MAX_HEADER_LINES) :
    header_lines
        { rest := hs.flatMap (fun header => header.line.render) ++ (last.render ++ more)
          bytes, lines }
        headers
      = .ok (headers ++ hs.flatMap (fun header => retain_header header.name header.value), {
          rest := more
          bytes := bytes + (hs.flatMap fun header => header.line.render).length + last.render.length
          lines := lines + hs.length + 1 }) := by
  induction hs generalizing bytes lines headers with
  | nil =>
    simp only [List.flatMap_nil, List.nil_append, List.length_nil, Nat.add_zero, List.append_nil]
      at hbytes hlines ⊢
    rw [header_lines_turn, header_line_render hwell hbytes (by omega), ok_bind, if_pos hlast]
  | cons header hs ih =>
    have hheader := hhs header List.mem_cons_self
    simp only [List.flatMap_cons, List.length_append, List.length_cons, List.append_assoc]
      at hbytes hlines ⊢
    -- a header line has a colon, so it does not end the block
    have hne : header.line.text ≠ "" := by
      intro hempty
      have hcolon := split_once_header header.value hheader.colon
      rw [Header.line] at hempty
      simp only at hempty
      rw [hempty] at hcolon
      cases hcolon
    have hsplit : (split_once header.line.text ':').filter (fun h => h.1 != "")
        = some (header.name, header.value) := by
      have hname : (header.name != "") = true := bne_iff_ne.mpr hheader.name_ne
      rw [Header.line, split_once_header header.value hheader.colon, Option.filter_some,
        if_pos hname]
    have hrest : ∀ h ∈ hs, h.WellFormed := fun h hmem => hhs h (List.mem_cons_of_mem header hmem)
    rw [header_lines_turn, header_line_render hheader.line (by omega) (by omega), ok_bind,
      if_neg hne, hsplit, context, ok_bind, ih hrest (by omega) (by omega)]
    simp only [Except.ok.injEq, Prod.mk.injEq, Scan.mk.injEq, List.append_assoc, true_and]
    omega

/-- Header lines that are read back keep within the bounds. By induction on the headers. -/
theorem header_lines_render_fits {hs : List Header} {last : Line}
    (hhs : ∀ header ∈ hs, header.WellFormed) (hwell : last.WellFormed)
    {headers : List (String × String)} {turn : List (String × String) × Scan}
    (hturn : header_lines
        { rest := hs.flatMap (fun header => header.line.render) ++ (last.render ++ more), bytes,
          lines }
        headers = .ok turn) :
    bytes + (hs.flatMap fun header => header.line.render).length + last.render.length
        ≤ MAX_HEADER_BYTES
      ∧ lines + hs.length + 1 ≤ MAX_HEADER_LINES := by
  induction hs generalizing bytes lines headers with
  | nil =>
    rw [header_lines_turn] at hturn
    obtain ⟨line, hline, -⟩ := bind_eq_ok.mp hturn
    obtain ⟨hbytes, hlines⟩ := header_line_render_fits hwell hline
    simp only [List.flatMap_nil, List.length_nil, Nat.add_zero]
    exact ⟨hbytes, hlines⟩
  | cons header hs ih =>
    have hheader := hhs header List.mem_cons_self
    have hrest : ∀ h ∈ hs, h.WellFormed := fun h hmem => hhs h (List.mem_cons_of_mem header hmem)
    rw [header_lines_turn, List.flatMap_cons, List.append_assoc] at hturn
    obtain ⟨line, hline, hturn⟩ := bind_eq_ok.mp hturn
    obtain ⟨hbytes, hlines⟩ := header_line_render_fits hheader.line hline
    rw [header_line_render hheader.line hbytes hlines, Except.ok.injEq] at hline
    subst hline
    have hne : header.line.text ≠ "" := by
      intro hempty
      have hcolon := split_once_header header.value hheader.colon
      have htext : header.name ++ ":" ++ header.value = "" := hempty
      rw [htext] at hcolon
      cases hcolon
    rw [if_neg hne] at hturn
    obtain ⟨pair, -, hturn⟩ := bind_eq_ok.mp hturn
    obtain ⟨hbytes, hlines⟩ := ih hrest hturn
    simp only [List.flatMap_cons, List.length_append, List.length_cons]
    omega

/-- **Header lines that are read are well-formed headers of the input.** By induction on what
is left. -/
theorem header_lines_reads {scan tail : Scan} {headers headers' : List (String × String)}
    (h : header_lines scan headers = .ok (headers', tail)) :
    ∃ (hs : List Header) (last : Line), (∀ header ∈ hs, header.WellFormed) ∧ last.text = ""
      ∧ last.WellFormed
      ∧ scan.rest = hs.flatMap (fun header => header.line.render)
        ++ (last.render ++ tail.rest) := by
  induction hn : scan.rest.length using Nat.strong_induction_on generalizing scan headers with
  | _ n ih =>
    rw [header_lines_turn] at h
    obtain ⟨⟨text, next⟩, hline, h⟩ := bind_eq_ok.mp h
    have hshorter := header_line_shorter hline
    obtain ⟨line, hwell, rfl, hrest⟩ := header_line_reads hline
    -- an empty line ends the block; any other is a header, and less is left
    by_cases hempty : line.text = ""
    · rw [if_pos hempty, Except.ok.injEq, Prod.mk.injEq] at h
      refine ⟨[], line, fun _ hmem => absurd hmem List.not_mem_nil, hempty, hwell, ?_⟩
      rw [← h.2]
      exact hrest
    · rw [if_neg hempty] at h
      obtain ⟨⟨name, value⟩, hsplit, h⟩ := bind_eq_ok.mp h
      rw [context_eq_ok, Option.filter_eq_some_iff] at hsplit
      obtain ⟨htext, hcolon⟩ := split_once_eq_some hsplit.1
      obtain ⟨hs, last, hhs, hlast, hlast_well, hnext⟩ := ih next.rest.length (by omega) h rfl
      have hheader : ({ name, value, crlf := line.crlf } : Header).line = line := by
        rw [Header.line, ← htext]
      refine ⟨{ name, value, crlf := line.crlf } :: hs, last, ?_, hlast, hlast_well, ?_⟩
      · intro header hmem
        rcases List.mem_cons.mp hmem with rfl | hmem
        · exact ⟨bne_iff_ne.mp hsplit.2, hcolon, hheader ▸ hwell⟩
        · exact hhs header hmem
      · rw [List.flatMap_cons, hheader, List.append_assoc, ← hnext]
        exact hrest

/-! ## The status line -/

/-- The versions and the codes of three digits are words. -/
theorem status_words :
    (∀ version ∈ HTTP_VERSIONS, version.toList ≠ [] ∧ ∀ c ∈ version.toList,
      is_ascii_whitespace c = false)
      ∧ ∀ code ∈ List.range 600, 100 ≤ code → parse_status (toString code) = some code
        ∧ (toString code).toList ≠ [] ∧ ∀ c ∈ (toString code).toList,
          is_ascii_whitespace c = false := by
  have hversions : ∀ version ∈ HTTP_VERSIONS, version.toList ≠ []
      ∧ (version.toList.all fun c => !is_ascii_whitespace c) = true := by
    decide +kernel
  have hdigits : ∀ a ∈ List.range 6, ∀ b ∈ List.range 10, ∀ c ∈ List.range 10, 1 ≤ a →
      parse_status (toString (100 * a + 10 * b + c)) = some (100 * a + 10 * b + c)
        ∧ (toString (100 * a + 10 * b + c)).toList ≠ []
        ∧ ((toString (100 * a + 10 * b + c)).toList.all fun d => !is_ascii_whitespace d)
          = true := by
    decide +kernel
  simp only [List.all_eq_true, Bool.not_eq_true'] at hversions hdigits
  refine ⟨hversions, fun code hcode hmin => ?_⟩
  have hmax := List.mem_range.mp hcode
  have hsplit : 100 * (code / 100) + 10 * (code / 10 % 10) + code % 10 = code := by omega
  have hthree := hdigits (code / 100) (List.mem_range.mpr (by omega)) (code / 10 % 10)
    (List.mem_range.mpr (by omega)) (code % 10) (List.mem_range.mpr (by omega)) (by omega)
  rw [hsplit] at hthree
  exact hthree

/-- A block starts with the line of a response. -/
theorem Block.WellFormed.status_words {block : Block} (h : block.WellFormed) :
    StatusLine block.status_line.text block.status := by
  obtain ⟨hversion_ne, hversion⟩ := Cli.status_words.1 block.version h.version
  obtain ⟨hparse, hcode_ne, hcode⟩ :=
    Cli.status_words.2 block.status (List.mem_range.mpr h.status.2) h.status.1
  have hversions : ∀ version ∈ HTTP_VERSIONS, as_bytes "HTTP/" <+: as_bytes version := by
    decide +kernel
  have htext : block.status_line.text.toList
      = block.version.toList ++ ' ' :: ((toString block.status).toList ++ block.reason.toList) := by
    rw [Block.status_line, String.toList_append, String.toList_append, String.toList_append,
      List.append_assoc, List.append_assoc]
    rfl
  -- the code is a word of its own: the reason is empty or starts with a space
  have hreason : ∃ others, words is_ascii_whitespace
      ((toString block.status).toList ++ block.reason.toList)
      = (toString block.status).toList :: others := by
    have hword := words_of_isWord ⟨hcode_ne, hcode⟩
    rcases h.reason with hempty | hspace
    · refine ⟨[], ?_⟩
      rw [hempty, String.toList_empty, List.append_nil, hword]
    · rw [starts_with, List.isPrefixOf_iff_prefix] at hspace
      obtain ⟨rest, hrest⟩ := hspace
      refine ⟨words is_ascii_whitespace rest, ?_⟩
      rw [← hrest]
      show words is_ascii_whitespace ((toString block.status).toList ++ ' ' :: rest) = _
      rw [words_append (by decide), hword]
      rfl
  obtain ⟨others, hothers⟩ := hreason
  have hwords : split_ascii_whitespace block.status_line.text
      = block.version :: toString block.status :: others.map String.ofList := by
    rw [split_ascii_whitespace, htext, words_append (by decide),
      words_of_isWord ⟨hversion_ne, hversion⟩, hothers, List.singleton_append, List.map_cons,
        List.map_cons, String.ofList_toList,
      String.ofList_toList]
  rw [parse_status] at hparse
  split at hparse
  · rename_i hdigits
    refine ⟨?_, ⟨_, _, _, hwords, h.version, hdigits.1.1, hdigits.1.2, Option.some.inj hparse⟩,
      h.status⟩
    rw [Block.status_line, as_bytes_append, as_bytes_append, as_bytes_append]
    simp only [List.append_assoc]
    exact (hversions block.version h.version).trans (List.prefix_append _ _)
  · cases hparse

/-- **The line of a response is read**, and only such a line. -/
theorem read_status_iff {text : String} {status : Nat}
    (hhttp : as_bytes "HTTP/" <+: as_bytes text) :
    read_status text = .ok status ↔ StatusLine text status := by
  constructor
  · intro h
    rw [read_status] at h
    obtain ⟨⟨⟩, hversion, h⟩ := bind_eq_ok.mp h
    obtain ⟨version, hfirst, hversion⟩ := ensure_eq_ok.mp hversion
    obtain ⟨code, hsecond, hparse⟩ := Option.bind_eq_some_iff.mp (context_eq_ok.mp h)
    rw [parse_status] at hparse
    split at hparse
    · rename_i hdigits
      obtain rfl := Option.some.inj hparse
      refine ⟨hhttp, ?_, hdigits.2⟩
      cases hwords : split_ascii_whitespace text with
      | nil =>
        rw [hwords] at hfirst
        cases hfirst
      | cons first others =>
        rw [hwords] at hfirst hsecond
        cases others with
        | nil => cases hsecond
        | cons second others =>
          obtain rfl := Option.some.inj hfirst
          obtain rfl := Option.some.inj hsecond
          exact ⟨_, _, _, rfl, hversion, hdigits.1.1, hdigits.1.2, rfl⟩
    · cases hparse
  · rintro ⟨-, ⟨version, code, others, hwords, hversion, hlength, hdigits, rfl⟩, hstatus⟩
    have hknown : ∃ version ∈ (split_ascii_whitespace text)[0]?, version ∈ HTTP_VERSIONS := by
      rw [hwords]
      exact ⟨version, rfl, hversion⟩
    have hcode : (split_ascii_whitespace text)[1]?.bind parse_status = some (decimal code) := by
      rw [hwords]
      show parse_status code = _
      rw [parse_status, if_pos ⟨⟨hlength, hdigits⟩, hstatus⟩]
    rw [read_status, ensure_of hknown, ok_bind, hcode]
    rfl

/-! ## Blocks -/

/-- Nothing is trimmed off a preamble. -/
theorem trim_ascii_start_of_http {bytes : Bytes} (h : as_bytes "HTTP/" <+: bytes) :
    trim_ascii_start bytes = bytes := by
  obtain ⟨rest, rfl⟩ := h
  have hbytes : as_bytes "HTTP/" = 0x48 :: [0x54, 0x54, 0x50, 0x2F] := by decide +kernel
  rw [trim_ascii_start, hbytes, List.cons_append, List.dropWhile_cons_of_neg (by decide)]

/-- White space is trimmed off. -/
theorem trim_ascii_start_append {blank rest : Bytes} (h : ∀ b ∈ blank, is_ascii_blank b = true) :
    trim_ascii_start (blank ++ rest) = trim_ascii_start rest := by
  rw [trim_ascii_start, trim_ascii_start, List.dropWhile_append_of_pos h]

theorem Preamble.last_well (p : Preamble) : p.last_line.WellFormed := by
  have hempty : as_bytes p.last_line.text = [] := rfl
  constructor
  · rw [hempty]
    exact List.not_mem_nil
  · intro _
    rw [hempty]
    exact nofun

/-- A preamble starts with the name of the protocol. -/
theorem Preamble.WellFormed.http {p : Preamble} (h : p.WellFormed) :
    as_bytes "HTTP/" <+: p.text := by
  rw [Preamble.text, Line.render]
  simp only [List.append_assoc]
  exact h.status.http.trans (List.prefix_append _ _)

theorem Preamble.length_text (p : Preamble) : p.text.length = p.status_line.render.length
    + (p.headers.flatMap fun header => header.line.render).length + p.last_line.render.length := by
  rw [Preamble.text, List.length_append, List.length_append]

/-- The pieces of a preamble in front of more. -/
theorem Preamble.text_append (p : Preamble) (more : Bytes) : p.text ++ more = p.status_line.render
    ++ (p.headers.flatMap (fun header => header.line.render) ++ (p.last_line.render ++ more)) := by
  rw [Preamble.text, List.append_assoc, List.append_assoc]

/-- **A well-formed preamble is taken off.** -/
theorem header_block_render {p : Preamble} (h : p.WellFormed) {response : Response}
    (hbytes : bytes + p.text.length ≤ MAX_HEADER_BYTES)
    (hlines : lines + p.lines ≤ MAX_HEADER_LINES) :
    header_block { rest := p.text ++ more, bytes, lines } response
      = .ok ({
          body := trim_ascii_start more, status := some p.status
          headers := response.headers ++ p.retained }, {
          rest := trim_ascii_start more
          bytes := bytes + p.text.length
          lines := lines + p.lines }) := by
  have hlength := p.length_text
  rw [Preamble.lines] at hlines ⊢
  rw [header_block, p.text_append, header_line_render h.status_line (by omega) (by omega), ok_bind]
  simp only [(read_status_iff h.status.http).mpr h.status, ok_bind]
  rw [header_lines_render h.headers rfl p.last_well (by omega) (by omega), ok_bind]
  simp only [pure, Except.pure, Except.ok.injEq, Prod.mk.injEq, Scan.mk.injEq, Preamble.retained,
    true_and]
  omega

/-- A preamble that is taken off keeps within the bounds. -/
theorem header_block_render_fits {p : Preamble} (h : p.WellFormed) {response : Response}
    {turn : Response × Scan}
    (hturn : header_block { rest := p.text ++ more, bytes, lines } response = .ok turn) :
    bytes + p.text.length ≤ MAX_HEADER_BYTES ∧ lines + p.lines ≤ MAX_HEADER_LINES := by
  have hlength := p.length_text
  rw [header_block, p.text_append] at hturn
  obtain ⟨line, hline, hturn⟩ := bind_eq_ok.mp hturn
  -- first the bound on the status line, then on the headers behind it
  obtain ⟨hbytes, hlines⟩ := header_line_render_fits h.status_line hline
  rw [header_line_render h.status_line hbytes hlines, Except.ok.injEq] at hline
  subst hline
  obtain ⟨code, -, hturn⟩ := bind_eq_ok.mp hturn
  obtain ⟨block, hblock, -⟩ := bind_eq_ok.mp hturn
  obtain ⟨hbytes, hlines⟩ := header_lines_render_fits h.headers p.last_well hblock
  rw [Preamble.lines]
  omega

/-- **A block that is taken off is a well-formed preamble.** -/
theorem header_block_reads {scan tail : Scan} {response response' : Response}
    (hhttp : as_bytes "HTTP/" <+: scan.rest)
    (h : header_block scan response = .ok (response', tail)) :
    ∃ (p : Preamble) (more : Bytes), p.WellFormed ∧ p.before = [] ∧ scan.rest = p.text ++ more
      ∧ tail.rest = trim_ascii_start more := by
  simp only [header_block, bind_eq_ok, pure_eq_ok, Prod.mk.injEq] at h
  obtain ⟨⟨text, next⟩, hline, code, hcode, ⟨headers, last⟩, hlines, -, rfl⟩ := h
  obtain ⟨line, hwell, rfl, hrest⟩ := header_line_reads hline
  obtain ⟨hs, empty, hhs, hempty, -, hnext⟩ := header_lines_reads hlines
  have hstart : as_bytes "HTTP/" <+: as_bytes line.text := by
    have hbytes : as_bytes "HTTP/" = [0x48, 0x54, 0x54, 0x50, 0x2F] := by decide +kernel
    rw [hrest, Line.render, List.append_assoc] at hhttp
    -- the name of the protocol has no line end, so it is in the text
    rcases List.prefix_or_prefix_of_prefix hhttp (List.prefix_append (as_bytes line.text) _)
      with h | h
    · exact h
    · obtain ⟨others, hothers⟩ := h
      cases others with
      | nil => exact ⟨[], by rw [← hothers, List.append_nil, List.append_nil]⟩
      | cons b others =>
        exfalso
        rw [← hothers, List.prefix_append_right_inj] at hhttp
        have hb : b = 0x0D ∨ b = 0x0A := by
          obtain ⟨behind, hbehind⟩ := hhttp
          by_cases hcrlf : line.crlf = true
          · rw [if_pos hcrlf] at hbehind
            exact .inl (List.cons.inj hbehind).1
          · rw [if_neg hcrlf] at hbehind
            exact .inr (List.cons.inj hbehind).1
        have hmem : b ∈ as_bytes "HTTP/" := hothers ▸ List.mem_append_right _ List.mem_cons_self
        rw [hbytes] at hmem
        rcases hb with rfl | rfl
        · exact absurd hmem (by decide)
        · exact absurd hmem (by decide)
  refine ⟨{ status_line := line, status := code, headers := hs, last_crlf := empty.crlf },
    last.rest,
    ⟨fun _ hb => absurd hb List.not_mem_nil, (read_status_iff hstart).mp hcode, hwell, hhs⟩, rfl,
      ?_, rfl⟩
  rw [Preamble.text_append, hrest]
  simp only at hnext
  rw [hnext, Preamble.last_line, ← hempty]

/-- **Well-formed preambles are taken off one after another.** By induction on the preambles;
the body the loop has seen last is what is left. -/
theorem split_blocks_render {ps : List Preamble} (h : ∀ p ∈ ps, p.WellFormed) {body : Bytes}
    (hbody : ¬ as_bytes "HTTP/" <+: trim_ascii_start body) {count : Nat} {response : Response}
    (hcount : count + ps.length ≤ MAX_HEADER_BLOCKS)
    (hbytes : bytes + (ps.flatMap Preamble.text).length ≤ MAX_HEADER_BYTES)
    (hlines : lines + (ps.map Preamble.lines).sum ≤ MAX_HEADER_LINES) :
    split_blocks { rest := trim_ascii_start (ps.flatMap Preamble.render ++ body), bytes, lines }
      count response
      = .ok {
        body := if ps = [] then response.body else trim_ascii_start body
        status := (ps.getLast?.map Preamble.status).or response.status
        headers := response.headers ++ ps.flatMap Preamble.retained } := by
  induction ps generalizing bytes lines count response with
  | nil =>
    rw [split_blocks_turn, List.flatMap_nil, List.nil_append,
      if_neg (by rw [List.isPrefixOf_iff_prefix]; exact hbody)]
    simp
  | cons p ps ih =>
    have hp := h p List.mem_cons_self
    have hhttp : as_bytes "HTTP/" <+: p.text ++ (ps.flatMap Preamble.render ++ body) :=
      hp.http.trans (List.prefix_append _ _)
    rw [List.length_cons] at hcount
    rw [List.flatMap_cons, List.length_append] at hbytes
    rw [List.map_cons, List.sum_cons] at hlines
    have hrest : ∀ q ∈ ps, q.WellFormed := fun q hq => h q (List.mem_cons_of_mem p hq)
    rw [List.flatMap_cons, Preamble.render, List.append_assoc, List.append_assoc,
      trim_ascii_start_append hp.before, trim_ascii_start_of_http hhttp, split_blocks_turn,
      if_pos (List.isPrefixOf_iff_prefix.mpr hhttp), if_neg (by omega),
      header_block_render hp (by omega) (by omega), ok_bind,
      ih hrest (by omega) (by omega) (by omega)]
    -- the last status is that of this preamble, or of a later one
    by_cases hnil : ps = []
    · subst hnil
      simp
    · obtain ⟨last, hlast⟩ := Option.ne_none_iff_exists'.mp (mt List.getLast?_eq_none_iff.mp hnil)
      rw [if_neg hnil, if_neg (List.cons_ne_nil p ps), List.getLast?_cons, hlast, List.flatMap_cons,
        List.append_assoc]
      simp

/-- Preambles that are taken off keep within the bounds. By induction on the preambles. -/
theorem split_blocks_render_fits {ps : List Preamble} (h : ∀ p ∈ ps, p.WellFormed) {body : Bytes}
    {count : Nat} {response response' : Response}
    (hsplit : split_blocks
      { rest := trim_ascii_start (ps.flatMap Preamble.render ++ body), bytes, lines }
      count response = .ok response') (hbytes : bytes ≤ MAX_HEADER_BYTES)
    (hlines : lines ≤ MAX_HEADER_LINES) (hcount : count ≤ MAX_HEADER_BLOCKS) :
    count + ps.length ≤ MAX_HEADER_BLOCKS
      ∧ bytes + (ps.flatMap Preamble.text).length ≤ MAX_HEADER_BYTES
      ∧ lines + (ps.map Preamble.lines).sum ≤ MAX_HEADER_LINES := by
  induction ps generalizing bytes lines count response with
  | nil => exact ⟨hcount, hbytes, hlines⟩
  | cons p ps ih =>
    have hp := h p List.mem_cons_self
    have hhttp : as_bytes "HTTP/" <+: p.text ++ (ps.flatMap Preamble.render ++ body) :=
      hp.http.trans (List.prefix_append _ _)
    have hrest : ∀ q ∈ ps, q.WellFormed := fun q hq => h q (List.mem_cons_of_mem p hq)
    rw [List.flatMap_cons, Preamble.render, List.append_assoc, List.append_assoc,
      trim_ascii_start_append hp.before, trim_ascii_start_of_http hhttp, split_blocks_turn,
      if_pos (List.isPrefixOf_iff_prefix.mpr hhttp)] at hsplit
    split at hsplit
    -- a ninth block is refused
    · cases hsplit
    · rename_i hmore
      obtain ⟨turn, hturn, hsplit⟩ := bind_eq_ok.mp hsplit
      obtain ⟨hbytes, hlines⟩ := header_block_render_fits hp hturn
      rw [header_block_render hp hbytes hlines, Except.ok.injEq] at hturn
      subst hturn
      obtain ⟨hcount, hbytes, hlines⟩ := ih hrest hsplit hbytes hlines (by omega)
      rw [List.length_cons, List.flatMap_cons, List.length_append, List.map_cons, List.sum_cons]
      omega

/-- **What is read is a sequence of well-formed preambles in front of a body.** By induction on
what is left. -/
theorem split_blocks_reads {input : Bytes} {count : Nat} {response response' : Response}
    (h : split_blocks { rest := trim_ascii_start input, bytes, lines } count response
    = .ok response') :
    ∃ (ps : List Preamble) (body : Bytes), (∀ p ∈ ps, p.WellFormed)
      ∧ ¬ as_bytes "HTTP/" <+: trim_ascii_start body ∧ input = ps.flatMap Preamble.render
        ++ body := by
  induction hn : input.length using Nat.strong_induction_on generalizing input bytes lines count
    response with
  | _ n ih =>
    rw [split_blocks_turn] at h
    split at h
    · rename_i hhttp
      rw [List.isPrefixOf_iff_prefix] at hhttp
      split at h
      · cases h
      · obtain ⟨⟨next, tail⟩, hblock, h⟩ := bind_eq_ok.mp h
        have hshorter := header_block_shorter hblock
        obtain ⟨p, more, hp, hbefore, hinput, htail⟩ := header_block_reads hhttp hblock
        obtain ⟨rest, bytes, lines⟩ := tail
        obtain rfl : rest = trim_ascii_start more := htail
        simp only at hinput
        have hblank : input.takeWhile is_ascii_blank ++ trim_ascii_start input = input :=
          List.takeWhile_append_dropWhile
        have hlt : more.length < n := by
          have hpositive : 0 < p.text.length := by
            rw [List.length_pos_iff]
            intro hempty
            have hprotocol := hp.http
            rw [hempty, List.prefix_nil] at hprotocol
            exact absurd hprotocol (by decide +kernel)
          have htotal := congrArg List.length hblank
          have htrimmed := congrArg List.length hinput
          rw [List.length_append] at htotal htrimmed
          omega
        obtain ⟨ps, body, hps, hbody, hmore⟩ := ih more.length hlt h rfl
        refine ⟨{ p with before := input.takeWhile is_ascii_blank } :: ps, body, ?_, hbody, ?_⟩
        · intro q hq
          rcases List.mem_cons.mp hq with rfl | hq
          · exact ⟨fun b hb => List.mem_takeWhile_imp hb, hp.status, hp.status_line, hp.headers⟩
          · exact hps q hq
        · have htext : ({ p with before := input.takeWhile is_ascii_blank } : Preamble).render
              = input.takeWhile is_ascii_blank ++ p.text := rfl
          rw [List.flatMap_cons, htext, List.append_assoc, List.append_assoc, ← hmore, ← hinput,
            hblank]
    · rename_i hhttp
      rw [List.isPrefixOf_iff_prefix] at hhttp
      exact ⟨[], input, fun _ hp => absurd hp List.not_mem_nil, hhttp, rfl⟩

/-! ## Any input -/

/-- How the scan can fail. -/
def SPLIT_ERRORS : List String :=
  ["GitHub response HTTP headers exceed bounds",
    "GitHub response HTTP headers are incomplete or exceed bounds",
    "invalid GitHub response HTTP header encoding", "invalid GitHub response HTTP status",
    "invalid GitHub response HTTP header"]

/-- The result satisfies a predicate, or is one of the errors of the scan. -/
def Yields {α : Type} (q : α → Prop) : Except String α → Prop
  | .ok a => q a
  | .error e => e ∈ SPLIT_ERRORS

theorem Yields.bind {α β : Type} {q : α → Prop} {r : β → Prop} {x : Except String α}
    {f : α → Except String β}
    (hx : Yields q x) (hf : ∀ a, q a → Yields r (f a)) : Yields r (x >>= f) := by
  cases x with
  | error e => exact hx
  | ok a => exact hf a hx

theorem Yields.context {α : Type} {q : α → Prop} {o : Option α} {e : String} (he : e ∈ SPLIT_ERRORS)
    (ho : ∀ a, o = some a → q a) : Yields q (context o e) := by
  cases o with
  | none => exact he
  | some a => exact ho a rfl

theorem Yields.ensure {p : Prop} [Decidable p] {e : String} (he : e ∈ SPLIT_ERRORS) :
    Yields (fun _ => True) (ensure p e) := by
  by_cases h : p
  · rw [ensure_of h]
    trivial
  · rw [ensure_of_not h]
    exact he

theorem header_line_yields (scan : Scan) :
    Yields (fun r => r.2.rest <:+ scan.rest) (header_line scan) := by
  rw [header_line]
  refine Yields.bind (Yields.context (q := fun _ => True) (by decide) fun _ _ => trivial)
    fun stop _ => ?_
  refine Yields.bind (Yields.context (q := fun _ => True) (by decide) fun _ _ => trivial)
    fun text _ => ?_
  exact List.drop_suffix (stop + 1) scan.rest

theorem header_lines_yields (scan : Scan) (headers : List (String × String)) :
    Yields (fun r => r.2.rest <:+ scan.rest) (header_lines scan headers) := by
  induction hn : scan.rest.length using Nat.strong_induction_on generalizing scan headers with
  | _ n ih =>
    rw [header_lines_turn]
    cases hline : header_line scan with
    | error e =>
      have hyields := header_line_yields scan
      rw [hline] at hyields
      exact hyields
    | ok turn =>
      have hsuffix := header_line_yields scan
      rw [hline] at hsuffix
      have hshorter : turn.2.rest.length < scan.rest.length := header_line_shorter hline
      rw [ok_bind]
      split
      · exact hsuffix
      · refine Yields.bind (Yields.context (q := fun _ => True) (by decide) fun _ _ => trivial)
          fun header _ => ?_
        have hrest := ih turn.2.rest.length (by omega) turn.2
            (headers ++ retain_header header.1 header.2) rfl
        revert hrest
        cases header_lines turn.2 (headers ++ retain_header header.1 header.2) with
        | error e => exact id
        | ok r => exact fun hr => hr.trans hsuffix

theorem header_block_yields (scan : Scan) (response : Response) :
    Yields (fun r => r.1.body = r.2.rest ∧ r.2.rest <:+ scan.rest)
      (header_block scan response) := by
  rw [header_block]
  refine (header_line_yields scan).bind fun line hline => ?_
  have hstatus : Yields (fun _ => True) (read_status line.1) := by
    rw [read_status]
    exact (Yields.ensure (by decide)).bind fun _ _ => Yields.context (by decide) fun _ _ => trivial
  refine hstatus.bind fun code _ => ?_
  refine (header_lines_yields line.2 response.headers).bind fun last hlast => ?_
  exact ⟨rfl, ((List.dropWhile_suffix is_ascii_blank).trans hlast).trans hline⟩

/-- **The scan returns on every input**: with a suffix of it, or with one of its errors. By
induction on what is left. -/
theorem split_blocks_yields (scan : Scan) (count : Nat) (response : Response) :
    Yields (fun r => r.body = response.body ∨ r.body <:+ scan.rest)
      (split_blocks scan count response) := by
  induction hn : scan.rest.length using Nat.strong_induction_on generalizing scan count
    response with
  | _ n ih =>
    rw [split_blocks_turn]
    split
    · split
      · show _ ∈ SPLIT_ERRORS
        decide
      · cases hblock : header_block scan response with
        | error e =>
          have hyields := header_block_yields scan response
          rw [hblock] at hyields
          exact hyields
        | ok turn =>
          have hyields := header_block_yields scan response
          rw [hblock] at hyields
          obtain ⟨hbody, hsuffix⟩ : turn.1.body = turn.2.rest ∧ turn.2.rest <:+ scan.rest := hyields
          -- a block that is taken off leaves less, so the hypothesis applies to the rest
          have hshorter : turn.2.rest.length < scan.rest.length := header_block_shorter hblock
          have hrest := ih turn.2.rest.length (by omega) turn.2 (count + 1) turn.1 rfl
          rw [ok_bind]
          revert hrest
          cases split_blocks turn.2 (count + 1) turn.1 with
          | error e => exact id
          | ok r =>
            rintro (hsame | hr)
            · exact .inr (hsame.trans hbody ▸ hsuffix)
            · exact .inr (hr.trans hsuffix)
    · exact .inl rfl

/-! ## The preamble in front of a body -/

/-- The headers that are kept, with their values trimmed. -/
theorem flatMap_retained (blocks : List Block) :
    (blocks.map Block.preamble).flatMap Preamble.retained
      = ((blocks.flatMap Block.headers).filter fun header => is_retained header.name).map
        fun header => (header.name, trim header.value) := by
  have hone : ∀ headers : List Header,
      headers.flatMap (fun header => retain_header header.name header.value)
      = (headers.filter fun header => is_retained header.name).map
        fun header => (header.name, trim header.value) := by
    intro headers
    induction headers with
    | nil => rfl
    | cons header headers ih =>
      rw [List.flatMap_cons, ih, List.filter_cons, retain_header]
      split <;> rfl
  induction blocks with
  | nil => rfl
  | cons block blocks ih =>
    rw [List.map_cons, List.flatMap_cons, List.flatMap_cons, List.filter_append, List.map_append,
      ih, Preamble.retained, hone]
    rfl

/-- What is no preamble is returned as it is. -/
theorem split_headers_plain {stdout : Bytes} (h : ¬ as_bytes "HTTP/" <+: trim_ascii_start stdout) :
    split_headers stdout = .ok { body := stdout } := by
  rw [split_headers, split_blocks_turn, if_neg (by rw [List.isPrefixOf_iff_prefix]; exact h)]

/-- What a command prints: preambles, and a body that does not look like another one. -/
structure Printout where
  preambles : List Preamble
  body : Bytes

def Printout.render (p : Printout) : Bytes := p.preambles.flatMap Preamble.render ++ p.body

structure Printout.WellFormed (p : Printout) : Prop where
  preambles : ∀ q ∈ p.preambles, q.WellFormed
  body : ¬ as_bytes "HTTP/" <+: trim_ascii_start p.body

/-- The bounds on the preambles; white space between them does not count. -/
structure Printout.Fits (p : Printout) : Prop where
  blocks : p.preambles.length ≤ MAX_HEADER_BLOCKS
  bytes : (p.preambles.flatMap Preamble.text).length ≤ MAX_HEADER_BYTES
  lines : (p.preambles.map Preamble.lines).sum ≤ MAX_HEADER_LINES

/-- The body as it is returned. -/
def Printout.answer (p : Printout) : Bytes :=
  if p.preambles = [] then p.body else trim_ascii_start p.body

/-- **A printout within the bounds is read.** -/
theorem Printout.split_headers {p : Printout} (h : p.WellFormed) (hfits : p.Fits) :
    split_headers p.render = .ok {
      body := p.answer
      status := p.preambles.getLast?.map Preamble.status
      headers := p.preambles.flatMap Preamble.retained } := by
  rw [Cli.split_headers, Printout.render, split_blocks_render h.preambles h.body
    (by rw [Nat.zero_add]; exact hfits.blocks) (by rw [Nat.zero_add]; exact hfits.bytes)
    (by rw [Nat.zero_add]; exact hfits.lines), Option.or_none, Printout.answer]
  by_cases hnil : p.preambles = []
  · rw [if_pos hnil, if_pos hnil, hnil]
    rfl
  · rw [if_neg hnil, if_neg hnil]
    rfl

/-- A printout that is read keeps within the bounds. -/
theorem Printout.fits {p : Printout} (h : p.WellFormed) {response : Response}
    (hsplit : Cli.split_headers p.render = .ok response) : p.Fits := by
  obtain ⟨hblocks, hbytes, hlines⟩ := split_blocks_render_fits h.preambles hsplit (Nat.zero_le _)
    (Nat.zero_le _) (Nat.zero_le _)
  rw [Nat.zero_add] at hblocks hbytes hlines
  exact ⟨hblocks, hbytes, hlines⟩

/-- **An output that is read is a printout within the bounds.** -/
theorem split_headers_printout {stdout : Bytes} {response : Response}
    (h : split_headers stdout = .ok response) :
    ∃ p : Printout, p.WellFormed ∧ p.Fits ∧ p.render = stdout := by
  obtain ⟨ps, body, hps, hbody, hstdout⟩ := split_blocks_reads h
  have hwell : (⟨ps, body⟩ : Printout).WellFormed := ⟨hps, hbody⟩
  have hrender : (⟨ps, body⟩ : Printout).render = stdout := hstdout.symm
  exact ⟨⟨ps, body⟩, hwell, Printout.fits hwell (hrender ▸ h), hrender⟩

theorem Block.WellFormed.preamble {block : Block} (h : block.WellFormed) :
    block.preamble.WellFormed :=
  ⟨fun _ hb => absurd hb List.not_mem_nil, h.status_words, h.status_line, h.headers⟩

/-- Blocks in front of a body. -/
theorem split_headers_render {blocks : List Block} {body : Bytes} {last : Block}
    (h : ∀ block ∈ blocks, block.WellFormed) (hlast : blocks.getLast? = some last)
    (hcount : blocks.length ≤ MAX_HEADER_BLOCKS)
    (hbytes : (blocks.flatMap Block.render).length ≤ MAX_HEADER_BYTES)
    (hlines : (blocks.map Block.lines).sum ≤ MAX_HEADER_LINES)
    (hbody : ¬ as_bytes "HTTP/" <+: trim_ascii_start body) :
    split_headers (blocks.flatMap Block.render ++ body) = .ok {
      body := trim_ascii_start body
      status := some last.status
      headers := (blocks.map Block.preamble).flatMap Preamble.retained } := by
  have hrender : (blocks.map Block.preamble).flatMap Preamble.render = blocks.flatMap
      Block.render :=
    List.flatMap_map _ _ _
  have htext : (blocks.map Block.preamble).flatMap Preamble.text = blocks.flatMap Block.render :=
    List.flatMap_map _ _ _
  have hcounted : (blocks.map Block.preamble).map Preamble.lines = blocks.map Block.lines :=
    List.map_map
  have hne : blocks.map Block.preamble ≠ [] := by
    intro hnil
    rw [List.map_eq_nil_iff.mp hnil] at hlast
    cases hlast
  have hwell : (⟨blocks.map Block.preamble, body⟩ : Printout).WellFormed := by
    refine ⟨fun q hq => ?_, hbody⟩
    obtain ⟨block, hblock, rfl⟩ := List.mem_map.mp hq
    exact (h block hblock).preamble
  have hfits : (⟨blocks.map Block.preamble, body⟩ : Printout).Fits := by
    refine ⟨?_, ?_, ?_⟩
    · rw [List.length_map]
      exact hcount
    · rw [htext]
      exact hbytes
    · rw [hcounted]
      exact hlines
  -- the blocks are a printout, and the one theorem about printouts applies
  have hsplit := Printout.split_headers hwell hfits
  rw [Printout.render, hrender, Printout.answer, if_neg hne, List.getLast?_map, hlast] at hsplit
  exact hsplit

/-- **Preambles are taken off exactly.** For one to eight well-formed blocks within the bounds,
in front of a body that does not look like another preamble, `json_body` returns the body and
`split_headers` the last status and, in order, the `retry-after`, `x-ratelimit-reset` and
`x-ratelimit-remaining` headers of all blocks. An input that does not start with a preamble is
returned as it is. On every input the scan ends, with a suffix of the input or an error. -/
theorem preambles_taken_off :
    (∀ (blocks : List Block) (body : Bytes) (last : Block), (∀ block ∈ blocks, block.WellFormed) →
      blocks.getLast? = some last → blocks.length ≤ MAX_HEADER_BLOCKS →
      (blocks.flatMap Block.render).length ≤ MAX_HEADER_BYTES →
      (blocks.map Block.lines).sum ≤ MAX_HEADER_LINES →
      ¬ as_bytes "HTTP/" <+: trim_ascii_start body →
      json_body (blocks.flatMap Block.render ++ body) = .ok (trim_ascii_start body)
        ∧ split_headers (blocks.flatMap Block.render ++ body) = .ok {
            body := trim_ascii_start body
            status := some last.status
            headers := ((blocks.flatMap Block.headers).filter fun header =>
              is_retained header.name).map
              fun header => (header.name, trim header.value) })
    ∧ (∀ stdout, ¬ as_bytes "HTTP/" <+: trim_ascii_start stdout →
      json_body stdout = .ok stdout ∧ split_headers stdout = .ok { body := stdout })
    ∧ ∀ stdout, (∃ response, split_headers stdout = .ok response ∧ response.body <:+ stdout)
      ∨ ∃ e ∈ SPLIT_ERRORS, split_headers stdout = .error e := by
  refine ⟨?_, ?_, ?_⟩
  · intro blocks body last h hlast hcount hbytes hlines hbody
    have hsplit := split_headers_render h hlast hcount hbytes hlines hbody
    refine ⟨?_, ?_⟩
    · rw [json_body, hsplit]
      rfl
    · rw [hsplit, flatMap_retained]
  · intro stdout h
    have hsplit := split_headers_plain h
    refine ⟨?_, hsplit⟩
    rw [json_body, hsplit]
    rfl
  · intro stdout
    have hyields := split_blocks_yields { rest := trim_ascii_start stdout } 0 { body := stdout }
    have hsuffix : trim_ascii_start stdout <:+ stdout := List.dropWhile_suffix is_ascii_blank
    cases hresult : split_headers stdout with
    | error e =>
      rw [split_headers] at hresult
      rw [hresult] at hyields
      exact .inr ⟨e, hyields, rfl⟩
    | ok response =>
      rw [split_headers] at hresult
      rw [hresult] at hyields
      refine .inl ⟨response, rfl, ?_⟩
      rcases hyields with hsame | hrest
      · exact hsame ▸ List.suffix_refl stdout
      · exact hrest.trans hsuffix

/-- A response with the size of the window, and its balance. -/
def balance_block : Block :=
  { version := "HTTP/2.0", status := 200, reason := " OK"
    headers := [{ name := "X-RateLimit-Limit", value := " 5000" },
      { name := "X-RateLimit-Remaining", value := " 12", crlf := true }] }

/-- A header of the window the scan does not keep. -/
theorem window_size_dropped :
    balance_block.WellFormed
      ∧ starts_with (to_ascii_lowercase "X-RateLimit-Limit") "x-ratelimit-" = true
      ∧ split_headers (balance_block.render ++ as_bytes "{}") = .ok {
          body := as_bytes "{}", status := some 200, headers :=
            [("X-RateLimit-Remaining", "12")] } := by
  refine ⟨⟨by decide, by decide, by decide, ⟨by decide +kernel, by decide +kernel⟩, ?_⟩,
    by decide +kernel, by decide +kernel⟩
  intro header hheader
  rcases List.mem_cons.mp hheader with rfl | hheader
  · exact ⟨by decide, by decide, by decide +kernel, by decide +kernel⟩
  · obtain rfl := List.mem_singleton.mp hheader
    exact ⟨by decide, by decide, by decide +kernel, by decide +kernel⟩

end Cli

end Crony
