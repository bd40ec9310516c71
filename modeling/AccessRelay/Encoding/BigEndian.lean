import Mathlib.Tactic

/-!
# Fixed-width big-endian words

`encode width value` writes the low `width` bytes of a natural number, most significant byte
first, and `decode` reads a byte string back. `decode_encode` and `encode_decode` say that the
two are inverse on values below `256 ^ width` and on strings of exactly `width` bytes.
-/

namespace AccessRelay.Encoding

/-- A byte string. -/
abbrev Bytes := List UInt8

/-- Membership in lists of byte strings is decided with this one. -/
instance instLawfulBEqBytes : LawfulBEq Bytes := List.instLawfulBEq

theorem one_byte_ne_nil (byte : UInt8) : ([byte] : Bytes) ≠ [] := List.cons_ne_nil byte []

/-- The bytes of an ASCII literal. -/
def ascii (text : String) : Bytes :=
  text.toList.map fun c => UInt8.ofNat c.toNat

namespace BigEndian

/-- The `width` low bytes of `value`, most significant first. -/
def encode : Nat → Nat → Bytes
  | 0, _ => []
  | width + 1, value => UInt8.ofNat (value / 256 ^ width) :: encode width value

/-- The number a byte string denotes, most significant byte first. -/
def decode : Bytes → Nat
  | [] => 0
  | byte :: rest => byte.toNat * 256 ^ rest.length + decode rest

@[simp] theorem length_encode (width value : Nat) : (encode width value).length = width := by
  induction width with
  | zero => rfl
  | succ width ih => simp [encode, ih]

/-- A string of `n` bytes denotes a number below `256 ^ n`. -/
theorem decode_lt (bytes : Bytes) : decode bytes < 256 ^ bytes.length := by
  induction bytes with
  | nil => simp [decode]
  | cons byte rest ih =>
      have hbyte : byte.toNat + 1 ≤ 256 := byte.toNat_lt
      calc decode (byte :: rest)
          < byte.toNat * 256 ^ rest.length + 256 ^ rest.length := by
            simpa [decode] using ih
        _ = (byte.toNat + 1) * 256 ^ rest.length := by ring
        _ ≤ 256 * 256 ^ rest.length := Nat.mul_le_mul_right _ hbyte
        _ = 256 ^ (byte :: rest).length := by simp [pow_succ, mul_comm]

/-- Encoding keeps the value modulo the width. -/
theorem decode_encode_mod (width value : Nat) :
    decode (encode width value) = value % 256 ^ width := by
  induction width with
  | zero => simp [encode, decode, Nat.mod_one]
  | succ width ih =>
      have hsplit : value % 256 ^ (width + 1) =
          value % 256 ^ width + 256 ^ width * (value / 256 ^ width % 256) := by
        rw [pow_succ, Nat.mod_mul]
      simp only [encode, decode, length_encode, ih, hsplit, UInt8.toNat_ofNat']
      ring

/-- A value that fits is read back unchanged. -/
theorem decode_encode {width value : Nat} (h : value < 256 ^ width) :
    decode (encode width value) = value := by
  rw [decode_encode_mod, Nat.mod_eq_of_lt h]

/-- Only the low bytes of a number matter to its encoding. -/
theorem encode_add_mul (width high low : Nat) :
    encode width (high * 256 ^ width + low) = encode width low := by
  induction width generalizing high with
  | zero => rfl
  | succ width ih =>
      have hsplit : high * 256 ^ (width + 1) + low = (high * 256) * 256 ^ width + low := by ring
      have hdiv : ((high * 256) * 256 ^ width + low) / 256 ^ width =
          high * 256 + low / 256 ^ width := by
        rw [Nat.add_comm, Nat.add_mul_div_right _ _ (by positivity), Nat.add_comm]
      rw [hsplit]
      simp only [encode, ih, hdiv]
      congr 1
      apply UInt8.toNat_inj.mp
      simp [UInt8.toNat_ofNat']

/-- A string of `width` bytes is the encoding of the number it denotes. -/
theorem encode_decode (bytes : Bytes) : encode bytes.length (decode bytes) = bytes := by
  induction bytes with
  | nil => rfl
  | cons byte rest ih =>
      have hlt := decode_lt rest
      have hdiv : (byte.toNat * 256 ^ rest.length + decode rest) / 256 ^ rest.length =
          byte.toNat := by
        rw [Nat.add_comm, Nat.add_mul_div_right _ _ (by positivity), Nat.div_eq_of_lt hlt,
          Nat.zero_add]
      simp only [List.length_cons, encode, decode, hdiv, encode_add_mul, ih]
      simp

end BigEndian

end AccessRelay.Encoding
