/-
The text operations of the standard library that the store's normalisers use: Rust
measures text in UTF-8 bytes, trims and splits at Unicode white space, and calls the
`Cc` category control characters. Texts are handled as lists of characters, which is
what `chars()` iterates over.
-/
import Mathlib.Algebra.Order.Ring.Int

set_option autoImplicit false

namespace Crony

/-- `char::is_whitespace`: the Unicode `White_Space` property. -/
def is_whitespace (c : Char) : Bool :=
  let n := c.toNat
  (0x09 ≤ n && n ≤ 0x0D) || n == 0x20 || n == 0x85 || n == 0xA0 || n == 0x1680
    || (0x2000 ≤ n && n ≤ 0x200A) || n == 0x2028 || n == 0x2029 || n == 0x202F
    || n == 0x205F || n == 0x3000

/-- `char::is_control`: the Unicode category `Cc`. -/
def is_control (c : Char) : Bool :=
  let n := c.toNat
  n ≤ 0x1F || (0x7F ≤ n && n ≤ 0x9F)

/-- `str::len`, in bytes. -/
def byteLen (text : String) : Nat := (text.toList.map Char.utf8Size).sum

/-- `str::trim`. -/
def trim (text : String) : String :=
  String.ofList (((text.toList.dropWhile is_whitespace).reverse.dropWhile is_whitespace).reverse)

/-- `str::split_whitespace`. -/
def split_whitespace (cs : List Char) : List (List Char) :=
  (cs.splitOnP is_whitespace).filter fun word => !word.isEmpty

/-- The longest run of leading characters of at most `n` bytes: `String::truncate` at
the last character boundary not after byte `n`. -/
def takeBytes : Nat → List Char → List Char
  | _, [] => []
  | n, c :: cs => if c.utf8Size ≤ n then c :: takeBytes (n - c.utf8Size) cs else []

/-- `normalize_bounded_failure_reason`. -/
def normalize_bounded_failure_reason (reason fallback : String) : String :=
  let spaced := reason.toList.map fun c => if is_control c then ' ' else c
  let normalized := [' '].intercalate (split_whitespace spaced)
  let normalized := if normalized.isEmpty then fallback.toList else normalized
  String.ofList (takeBytes 2000 normalized)

end Crony
