/-
Bytes as text: hexadecimal digits and base64.

Base64 writes three bytes as four characters; a last group of one or two bytes is padded.
The decoder here is the strict one: it accepts the padding only where the encoder puts it, and
only with zero bits behind the last byte. What the encoder writes, it reads back.
-/
import Mathlib.Data.List.Basic

set_option autoImplicit false

namespace Crony.Lib

/-- A string of bytes. -/
abbrev Bytes := List UInt8

/-! ## Hexadecimal -/

/-- The lower-case digit of a value below 16. -/
def hex_digit (n : Nat) : Char := ("0123456789abcdef".toList).getD n '0'

/-- Two digits for every byte, the high half first. -/
def hex_encode (bytes : Bytes) : List Char :=
  bytes.flatMap fun b => [hex_digit (b.toNat / 16), hex_digit (b.toNat % 16)]

theorem hex_encode_length (bytes : Bytes) : (hex_encode bytes).length = 2 * bytes.length := by
  induction bytes with
  | nil => rfl
  | cons b rest ih =>
    have hcons : hex_encode (b :: rest)
        = [hex_digit (b.toNat / 16), hex_digit (b.toNat % 16)] ++ hex_encode rest := rfl
    rw [hcons, List.length_append, ih]
    simp only [List.length_cons, List.length_nil]
    omega

theorem hex_digit_lower {n : Nat} (h : n < 16) :
    ('0' ≤ hex_digit n ∧ hex_digit n ≤ '9') ∨ ('a' ≤ hex_digit n ∧ hex_digit n ≤ 'f') := by
  have hall : ∀ k : Fin 16, ('0' ≤ hex_digit k ∧ hex_digit k ≤ '9')
      ∨ ('a' ≤ hex_digit k ∧ hex_digit k ≤ 'f') := by
    decide
  exact hall ⟨n, h⟩

/-- Every character is a lower-case hexadecimal digit. -/
theorem hex_encode_lower {bytes : Bytes} {c : Char} (hc : c ∈ hex_encode bytes) :
    ('0' ≤ c ∧ c ≤ '9') ∨ ('a' ≤ c ∧ c ≤ 'f') := by
  rw [hex_encode, List.mem_flatMap] at hc
  obtain ⟨b, -, hc⟩ := hc
  have hb : b.toNat < 256 := b.toNat_lt
  simp only [List.mem_cons, List.not_mem_nil, or_false] at hc
  rcases hc with rfl | rfl
  · exact hex_digit_lower (by omega)
  · exact hex_digit_lower (by omega)

theorem hex_digit_inj {m n : Nat} (hm : m < 16) (hn : n < 16) (h : hex_digit m = hex_digit n) :
    m = n := by
  have hall : ∀ a b : Fin 16, hex_digit a = hex_digit b → a = b := by decide
  exact congrArg Fin.val (hall ⟨m, hm⟩ ⟨n, hn⟩ h)

/-- The digits determine the bytes. -/
theorem hex_encode_inj {a b : Bytes} (h : hex_encode a = hex_encode b) : a = b := by
  induction a generalizing b with
  | nil =>
    have hlength := congrArg List.length h
    rw [hex_encode_length, hex_encode_length, List.length_nil] at hlength
    exact (List.length_eq_zero_iff.mp (by omega)).symm
  | cons x a ih =>
    cases b with
    | nil =>
      have hlength := congrArg List.length h
      rw [hex_encode_length, hex_encode_length, List.length_cons, List.length_nil] at hlength
      omega
    | cons y b =>
      have hx : x.toNat < 256 := x.toNat_lt
      have hy : y.toNat < 256 := y.toNat_lt
      have h : hex_digit (x.toNat / 16) :: hex_digit (x.toNat % 16) :: hex_encode a
          = hex_digit (y.toNat / 16) :: hex_digit (y.toNat % 16) :: hex_encode b := h
      injection h with hhigh h
      injection h with hlow hrest
      have hhigh := hex_digit_inj (by omega) (by omega) hhigh
      have hlow := hex_digit_inj (by omega) (by omega) hlow
      have hxy : x = y := UInt8.toNat_inj.mp (by omega)
      rw [hxy, ih hrest]

/-! ## Base64 -/

def base64_alphabet : List Char :=
  "ABCDEFGHIJKLMNOPQRSTUVWXYZabcdefghijklmnopqrstuvwxyz0123456789+/".toList

/-- The character of a value below 64. -/
def base64_digit (n : Nat) : Char := base64_alphabet.getD n 'A'

/-- The value of a character of the alphabet. -/
def base64_value (c : Char) : Option Nat := base64_alphabet.findIdx? fun d => d == c

/-- The characters of a string of bytes. -/
def base64_encode : Bytes → List Char
  | a :: b :: c :: rest =>
    base64_digit (a.toNat / 4) :: base64_digit (a.toNat % 4 * 16 + b.toNat / 16)
      :: base64_digit (b.toNat % 16 * 4 + c.toNat / 64) :: base64_digit (c.toNat % 64)
      :: base64_encode rest
  | [a, b] =>
    [base64_digit (a.toNat / 4), base64_digit (a.toNat % 4 * 16 + b.toNat / 16),
      base64_digit (b.toNat % 16 * 4), '=']
  | [a] => [base64_digit (a.toNat / 4), base64_digit (a.toNat % 4 * 16), '=', '=']
  | [] => []

/-- A last group that ends in padding: its bits behind the last byte are zero. -/
def base64_decode_last (a b c : Char) : Option Bytes :=
  match base64_value a, base64_value b, base64_value c with
  | some x, some y, some z =>
    if z % 4 = 0 then some [UInt8.ofNat (x * 4 + y / 16), UInt8.ofNat (y % 16 * 16 + z / 4)]
      else none
  | some x, some y, none =>
    if c = '=' ∧ y % 16 = 0 then some [UInt8.ofNat (x * 4 + y / 16)] else none
  | _, _, _ => none

/-- The strict decoder. -/
def base64_decode : List Char → Option Bytes
  | [] => some []
  | a :: b :: c :: d :: rest =>
    if d = '=' then (if rest = [] then base64_decode_last a b c else none)
    else
      match base64_value a, base64_value b, base64_value c, base64_value d, base64_decode rest with
      | some x, some y, some z, some w, some bytes =>
        some (UInt8.ofNat (x * 4 + y / 16) :: UInt8.ofNat (y % 16 * 16 + z / 4)
          :: UInt8.ofNat (z % 4 * 64 + w) :: bytes)
      | _, _, _, _, _ => none
  | _ => none

theorem base64_value_digit {n : Nat} (h : n < 64) : base64_value (base64_digit n) = some n := by
  have hall : ∀ k : Fin 64, base64_value (base64_digit k) = some k.val := by decide +kernel
  exact hall ⟨n, h⟩

theorem base64_digit_ne_pad {n : Nat} (h : n < 64) : base64_digit n ≠ '=' := by
  have hall : ∀ k : Fin 64, base64_digit k ≠ '=' := by decide +kernel
  exact hall ⟨n, h⟩

/-- **What is encoded is read back.** By induction on the groups of three bytes. -/
theorem base64_decode_encode (bytes : Bytes) :
    base64_decode (base64_encode bytes) = some bytes := by
  induction bytes using base64_encode.induct with
  | case1 a b c rest ih =>
    have ha : a.toNat < 256 := a.toNat_lt
    have hb : b.toNat < 256 := b.toNat_lt
    have hc : c.toNat < 256 := c.toNat_lt
    have hx : a.toNat / 4 < 64 := by omega
    have hy : a.toNat % 4 * 16 + b.toNat / 16 < 64 := by omega
    have hz : b.toNat % 16 * 4 + c.toNat / 64 < 64 := by omega
    have hw : c.toNat % 64 < 64 := by omega
    have h1 : a.toNat / 4 * 4 + (a.toNat % 4 * 16 + b.toNat / 16) / 16 = a.toNat := by omega
    have h2 : (a.toNat % 4 * 16 + b.toNat / 16) % 16 * 16
        + (b.toNat % 16 * 4 + c.toNat / 64) / 4 = b.toNat := by omega
    have h3 : (b.toNat % 16 * 4 + c.toNat / 64) % 4 * 64 + c.toNat % 64 = c.toNat := by omega
    rw [base64_encode, base64_decode, if_neg (base64_digit_ne_pad hw), base64_value_digit hx,
      base64_value_digit hy, base64_value_digit hz, base64_value_digit hw, ih]
    simp only [h1, h2, h3, UInt8.ofNat_toNat]
  | case2 a b =>
    have ha : a.toNat < 256 := a.toNat_lt
    have hb : b.toNat < 256 := b.toNat_lt
    have hx : a.toNat / 4 < 64 := by omega
    have hy : a.toNat % 4 * 16 + b.toNat / 16 < 64 := by omega
    have hz : b.toNat % 16 * 4 < 64 := by omega
    have h1 : a.toNat / 4 * 4 + (a.toNat % 4 * 16 + b.toNat / 16) / 16 = a.toNat := by omega
    have h2 : (a.toNat % 4 * 16 + b.toNat / 16) % 16 * 16 + b.toNat % 16 * 4 / 4 = b.toNat := by
      omega
    have hzero : b.toNat % 16 * 4 % 4 = 0 := by omega
    rw [base64_encode, base64_decode, if_pos rfl, if_pos rfl, base64_decode_last,
      base64_value_digit hx, base64_value_digit hy, base64_value_digit hz]
    simp only [hzero, if_true, h1, h2, UInt8.ofNat_toNat]
  | case3 a =>
    have ha : a.toNat < 256 := a.toNat_lt
    have hx : a.toNat / 4 < 64 := by omega
    have hy : a.toNat % 4 * 16 < 64 := by omega
    have h1 : a.toNat / 4 * 4 + a.toNat % 4 * 16 / 16 = a.toNat := by omega
    have hzero : a.toNat % 4 * 16 % 16 = 0 := by omega
    have hpad : base64_value '=' = none := by decide
    rw [base64_encode, base64_decode, if_pos rfl, if_pos rfl, base64_decode_last,
      base64_value_digit hx, base64_value_digit hy, hpad]
    simp only [hzero, and_self, if_true, h1, UInt8.ofNat_toNat]
  | case4 => rfl

/-- Four characters for every group of at most three bytes. -/
theorem base64_encode_length (bytes : Bytes) :
    (base64_encode bytes).length = (bytes.length + 2) / 3 * 4 := by
  induction bytes using base64_encode.induct with
  | case1 a b c rest ih =>
    rw [base64_encode]
    simp only [List.length_cons, ih]
    omega
  | case2 a b =>
    rw [base64_encode]
    simp only [List.length_cons, List.length_nil, Nat.zero_add, Nat.reduceAdd, Nat.reduceDiv,
      Nat.reduceMul]
  | case3 a =>
    rw [base64_encode]
    simp only [List.length_cons, List.length_nil, Nat.zero_add, Nat.reduceAdd, Nat.reduceDiv,
      Nat.reduceMul]
  | case4 => rfl

theorem base64_digit_ascii {n : Nat} (h : n < 64) : (base64_digit n).toNat < 128 := by
  have hall : ∀ k : Fin 64, (base64_digit k).toNat < 128 := by decide +kernel
  exact hall ⟨n, h⟩

/-- Every character is ASCII. -/
theorem base64_encode_ascii {bytes : Bytes} {c : Char} (hc : c ∈ base64_encode bytes) :
    c.toNat < 128 := by
  have hpad : '='.toNat < 128 := by decide
  induction bytes using base64_encode.induct with
  | case1 x y z rest ih =>
    have hx : x.toNat < 256 := x.toNat_lt
    have hy : y.toNat < 256 := y.toNat_lt
    have hz : z.toNat < 256 := z.toNat_lt
    rw [base64_encode] at hc
    simp only [List.mem_cons] at hc
    rcases hc with rfl | rfl | rfl | rfl | hc
    · exact base64_digit_ascii (by omega)
    · exact base64_digit_ascii (by omega)
    · exact base64_digit_ascii (by omega)
    · exact base64_digit_ascii (by omega)
    · exact ih hc
  | case2 x y =>
    have hx : x.toNat < 256 := x.toNat_lt
    have hy : y.toNat < 256 := y.toNat_lt
    rw [base64_encode] at hc
    simp only [List.mem_cons, List.not_mem_nil, or_false] at hc
    rcases hc with rfl | rfl | rfl | rfl
    · exact base64_digit_ascii (by omega)
    · exact base64_digit_ascii (by omega)
    · exact base64_digit_ascii (by omega)
    · exact hpad
  | case3 x =>
    have hx : x.toNat < 256 := x.toNat_lt
    rw [base64_encode] at hc
    simp only [List.mem_cons, List.not_mem_nil, or_false] at hc
    rcases hc with rfl | rfl | rfl | rfl
    · exact base64_digit_ascii (by omega)
    · exact base64_digit_ascii (by omega)
    · exact hpad
    · exact hpad
  | case4 => cases hc

end Crony.Lib
