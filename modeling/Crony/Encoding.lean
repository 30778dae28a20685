/-
Bytes and texts, and the crates that turn one into the other.

A text is read as UTF-8. Base64 and hexadecimal are those of the library; SHA-256 and the JSON
reader and writer belong to the `sha2` and `serde_json` crates and are parameters. What
`from_slice` returns is the document as it is written, every field of every object in order, so
that a reader can see a field that occurs twice.
-/
import Crony.Contract
import Crony.Lib.Base64

set_option autoImplicit false

open Crony.Lib

namespace Crony

/-! ## Text -/

/-- `str::to_ascii_lowercase`. -/
def to_ascii_lowercase (text : String) : String := String.ofList (text.toList.map Char.toLower)

/-- `str::to_ascii_uppercase`. -/
def to_ascii_uppercase (text : String) : String := String.ofList (text.toList.map Char.toUpper)

/-- `str::is_ascii`. -/
def is_ascii (text : String) : Bool := text.toList.all fun c => decide (c.toNat < 128)

/-- `str::rsplit_once`: the parts before and behind the last occurrence of a character. -/
def rsplit_once (text : String) (c : Char) : Option (String × String) :=
  let reversed := text.toList.reverse
  if c ∈ reversed then
    some (String.ofList ((reversed.dropWhile (· ≠ c)).drop 1).reverse,
      String.ofList (reversed.takeWhile (· ≠ c)).reverse)
  else none

/-! ## UTF-8 -/

/-- `str::as_bytes`. -/
def as_bytes (text : String) : Bytes := text.toByteArray.data.toList

/-- `String::from_utf8`. -/
def from_utf8 (bytes : Bytes) : Option String := String.fromUTF8? ⟨bytes.toArray⟩

@[simp] theorem from_utf8_as_bytes (text : String) : from_utf8 (as_bytes text) = some text := by
  have harray : (⟨(as_bytes text).toArray⟩ : ByteArray) = text.toByteArray := by
    rw [as_bytes]
  rw [from_utf8, harray, String.fromUTF8?, dif_pos text.isValidUTF8]
  rfl

/-- A text consists of the bytes it was read from. -/
theorem as_bytes_of_from_utf8 {bytes : Bytes} {text : String} (h : from_utf8 bytes = some text) :
    as_bytes text = bytes := by
  rw [from_utf8, String.fromUTF8?] at h
  split at h
  · cases h
    rfl
  · cases h

/-! ## Crates -/

/-- The functions of `sha2` and `serde_json` that the runner and the server call. -/
structure Crates where
  /-- `Sha256::digest`. -/
  sha256 : Bytes → Vector UInt8 32
  /-- `serde_json::to_vec_pretty`. -/
  to_vec_pretty : Json → Bytes
  /-- `serde_json::from_slice`. -/
  from_slice : Bytes → Option Json
  /-- `serde_json::from_str::<IgnoredAny>` succeeds. -/
  is_json : String → Bool

/-- `hex::encode(Sha256::digest(bytes))`. -/
def Crates.digest (crates : Crates) (bytes : Bytes) : String :=
  String.ofList (hex_encode (crates.sha256 bytes).toList)

/-- `BASE64.encode`. -/
def base64_text (bytes : Bytes) : String := String.ofList (base64_encode bytes)

/-- `BASE64.decode`. -/
def base64_bytes (text : String) : Option Bytes := base64_decode text.toList

@[simp] theorem base64_bytes_text (bytes : Bytes) :
    base64_bytes (base64_text bytes) = some bytes := by
  rw [base64_bytes, base64_text, String.toList_ofList]
  exact base64_decode_encode bytes

/-- A text of ASCII characters is as many bytes long as it has characters. -/
theorem byteLen_ofList {cs : List Char} (h : ∀ c ∈ cs, c.toNat < 128) :
    byteLen (String.ofList cs) = cs.length := by
  rw [byteLen, String.toList_ofList]
  induction cs with
  | nil => rfl
  | cons c cs ih =>
    have hc : c.utf8Size = 1 := by
      have hlt : c.toNat < 128 := h c List.mem_cons_self
      exact Char.utf8Size_eq_one_iff.mpr (by
        rw [UInt32.le_iff_toNat_le]
        change c.toNat ≤ 127
        omega)
    rw [List.map_cons, List.sum_cons, hc, ih fun d hd => h d (List.mem_cons_of_mem c hd),
      List.length_cons, Nat.add_comm]

theorem base64_text_length (bytes : Bytes) :
    byteLen (base64_text bytes) = (bytes.length + 2) / 3 * 4 := by
  rw [base64_text, byteLen_ofList fun _ => base64_encode_ascii, base64_encode_length]

end Crony
