/-
What a GitHub command prints: `split_headers` and `json_body` of `quota.rs`.

The tool prints the HTTP headers of every response it received, redirects and retries included,
before the body of the last one. The scan takes these blocks off one after another, under common
bounds on their bytes and lines, and keeps the status of the last block and the few headers that
say when to come back.
-/
import Crony.Cli.Project
import Crony.Encoding
import Crony.Lib.Guard
import Crony.Lib.Words

set_option autoImplicit false

open Crony.Lib

namespace Crony.Cli

def MAX_HEADER_BYTES : Nat := 64 * 1024
def MAX_HEADER_LINES : Nat := 256
def MAX_HEADER_BLOCKS : Nat := 8

/-! ## Text -/

/-- `u8::is_ascii_whitespace`. -/
def is_ascii_blank (b : UInt8) : Bool :=
  b == 0x20 || b == 0x09 || b == 0x0A || b == 0x0C || b == 0x0D

/-- `[u8]::trim_ascii_start`. -/
def trim_ascii_start (bytes : Bytes) : Bytes := bytes.dropWhile is_ascii_blank

/-- `char::is_ascii_whitespace`. -/
def is_ascii_whitespace (c : Char) : Bool :=
  c == ' ' || c == '\t' || c == '\n' || c == Char.ofNat 0x0C || c == '\r'

/-- `str::split_ascii_whitespace`. -/
def split_ascii_whitespace (text : String) : List String :=
  (words is_ascii_whitespace text.toList).map String.ofList

/-- `str::split_once`: the parts before and behind the first occurrence of a character. -/
def split_once (text : String) (c : Char) : Option (String × String) :=
  if c ∈ text.toList then
    some (String.ofList (text.toList.takeWhile (· ≠ c)),
      String.ofList ((text.toList.dropWhile (· ≠ c)).drop 1))
  else none

/-- The number a text of decimal digits stands for. -/
def decimal (text : String) : Nat := text.toList.foldl (fun n c => 10 * n + (c.toNat - '0'.toNat)) 0

/-! ## Lines -/

/-- The place of the scan: what is left, and the counters of bytes and lines. -/
structure Scan where
  rest : Bytes
  bytes : Nat := 0
  lines : Nat := 0
  deriving DecidableEq, Repr

/-- `line.strip_suffix(b"\r")`, or the line. -/
def strip_return (line : Bytes) : Bytes := if line.getLast? = some 0x0D then line.dropLast else line

/-- `header_line`. -/
def header_line (scan : Scan) : Except String (String × Scan) := do
  let available := MAX_HEADER_BYTES - scan.bytes
  let stop ← context
    (((scan.rest.take available).findIdx? (· == 0x0A)).filter fun _ =>
      decide (scan.lines < MAX_HEADER_LINES))
    "GitHub response HTTP headers are incomplete or exceed bounds"
  let text ← context (from_utf8 (strip_return (scan.rest.take stop)))
    "invalid GitHub response HTTP header encoding"
  return (text, {
    rest := scan.rest.drop (stop + 1), bytes := scan.bytes + (stop + 1), lines := scan.lines + 1 })

/-- A line takes at least its end off. -/
theorem header_line_shorter {scan tail : Scan} {line : String}
    (h : header_line scan = .ok (line, tail)) :
    tail.rest.length < scan.rest.length := by
  simp only [header_line, bind_eq_ok, context_eq_ok, pure_eq_ok, Prod.mk.injEq] at h
  obtain ⟨stop, hstop, _, -, -, rfl⟩ := h
  rw [Option.filter_eq_some_iff, List.findIdx?_eq_some_iff_getElem] at hstop
  obtain ⟨⟨hlt, -⟩, -⟩ := hstop
  rw [List.length_take] at hlt
  rw [List.length_drop]
  omega

/-! ## Blocks -/

/-- `Response`. -/
structure Response where
  body : Bytes
  status : Option Nat := none
  headers : List (String × String) := []
  deriving DecidableEq, Repr

/-- The protocol versions of a status line. -/
def HTTP_VERSIONS : List String :=
  ["HTTP/1.0", "HTTP/1.1", "HTTP/2", "HTTP/2.0", "HTTP/3", "HTTP/3.0"]

/-- The status code as a word of the status line. -/
def parse_status (code : String) : Option Nat :=
  if (byteLen code = 3 ∧ code.toList.all Char.isDigit = true) ∧ 100 ≤ decimal code
    ∧ decimal code < 600 then
    some (decimal code)
  else none

/-- The checks on a status line. -/
def read_status (status : String) : Except String Nat := do
  let words := split_ascii_whitespace status
  ensure (∃ version ∈ words[0]?, version ∈ HTTP_VERSIONS) "invalid GitHub response HTTP status"
  context (words[1]?.bind parse_status) "invalid GitHub response HTTP status"

/-- The headers the scan keeps. -/
def is_retained (name : String) : Bool :=
  ["retry-after", "x-ratelimit-reset", "x-ratelimit-remaining"].any fun key =>
    eq_ignore_ascii_case name key

/-- What is kept of a header. -/
def retain_header (name value : String) : List (String × String) :=
  if is_retained name = true then [(name, trim value)] else []

/-- The loop over the headers of a block, up to its empty line. -/
def header_lines (scan : Scan) (headers : List (String × String)) :
    Except String (List (String × String) × Scan) :=
  match _h : header_line scan with
  | .error e => .error e
  | .ok (line, tail) =>
    if line = "" then .ok (headers, tail)
    else do
      let (name, value) ← context ((split_once line ':').filter fun header => header.1 != "")
        "invalid GitHub response HTTP header"
      header_lines tail (headers ++ retain_header name value)
termination_by scan.rest.length
decreasing_by exact header_line_shorter _h

/-- One turn of the loop. -/
theorem header_lines_turn (scan : Scan) (headers : List (String × String)) :
    header_lines scan headers = header_line scan >>= fun turn =>
      if turn.1 = "" then .ok (headers, turn.2)
      else context ((split_once turn.1 ':').filter fun header => header.1 != "")
          "invalid GitHub response HTTP header" >>= fun header =>
        header_lines turn.2 (headers ++ retain_header header.1 header.2) := by
  rw [header_lines]
  cases header_line scan with
  | error e => rfl
  | ok turn => rfl

/-- By induction on what is left. -/
theorem header_lines_shorter {scan tail : Scan} {headers headers' : List (String × String)}
    (h : header_lines scan headers = .ok (headers', tail)) :
    tail.rest.length < scan.rest.length := by
  induction hn : scan.rest.length using Nat.strong_induction_on generalizing scan headers with
  | _ n ih =>
    rw [header_lines_turn] at h
    obtain ⟨⟨line, next⟩, hline, h⟩ := bind_eq_ok.mp h
    have hshorter := header_line_shorter hline
    by_cases hempty : line = ""
    · rw [if_pos hempty, Except.ok.injEq, Prod.mk.injEq] at h
      rw [← h.2, ← hn]
      exact hshorter
    · rw [if_neg hempty] at h
      obtain ⟨header, -, h⟩ := bind_eq_ok.mp h
      have hrest := ih next.rest.length (by omega) h rfl
      omega

/-- The loop body: one block. -/
def header_block (scan : Scan) (response : Response) : Except String (Response × Scan) := do
  let (status, tail) ← header_line scan
  let code ← read_status status
  let (headers, tail) ← header_lines tail response.headers
  let rest := trim_ascii_start tail.rest
  return ({ body := rest, status := some code, headers }, { tail with rest })

theorem header_block_shorter {scan tail : Scan} {response response' : Response}
    (h : header_block scan response = .ok (response', tail)) :
    tail.rest.length < scan.rest.length := by
  simp only [header_block, bind_eq_ok, pure_eq_ok, Prod.mk.injEq] at h
  obtain ⟨⟨status, next⟩, hline, code, -, ⟨headers, last⟩, hlines, -, rfl⟩ := h
  have htrim : (trim_ascii_start last.rest).length ≤ last.rest.length :=
    (List.dropWhile_suffix is_ascii_blank).length_le
  have hfirst := header_line_shorter hline
  have hlast := header_lines_shorter hlines
  simp only at hfirst hlast ⊢
  omega

/-- The loop over the blocks. -/
def split_blocks (scan : Scan) (blocks : Nat) (response : Response) : Except String Response :=
  if (as_bytes "HTTP/").isPrefixOf scan.rest = true then
    if MAX_HEADER_BLOCKS < blocks + 1 then .error "GitHub response HTTP headers exceed bounds"
    else
      match h : header_block scan response with
      | .error e => .error e
      | .ok (response, tail) => split_blocks tail (blocks + 1) response
  else .ok response
termination_by scan.rest.length
decreasing_by exact header_block_shorter h

/-- One turn of the loop. -/
theorem split_blocks_turn (scan : Scan) (blocks : Nat) (response : Response) :
    split_blocks scan blocks response
      = if (as_bytes "HTTP/").isPrefixOf scan.rest = true then
          if MAX_HEADER_BLOCKS < blocks + 1 then .error "GitHub response HTTP headers exceed bounds"
          else header_block scan response >>= fun turn => split_blocks turn.2 (blocks + 1) turn.1
        else .ok response := by
  rw [split_blocks]
  cases header_block scan response with
  | error e => rfl
  | ok turn => rfl

/-- `split_headers`. -/
def split_headers (stdout : Bytes) : Except String Response :=
  split_blocks { rest := trim_ascii_start stdout } 0 { body := stdout }

/-- `json_body`. -/
def json_body (stdout : Bytes) : Except String Bytes := do
  let response ← split_headers stdout
  return response.body

end Crony.Cli
