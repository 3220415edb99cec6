-- SUMMARY: Variable-length base-128 numbers: the encoding, its length by range, and the bit-level facts a byte-wise decoder needs.
import Mathlib.Data.Nat.Log
import Mathlib.Tactic.Ring

/-!
# Base-128 numbers

A natural number as a string of bytes, least significant group of seven bits
first. Every byte but the last carries the continuation bit `0x80`.
-/

namespace Base128

/-- The shortest base-128 form of `n`. -/
def encode (n : Nat) : List UInt8 :=
  if n < 128 then [UInt8.ofNat n] else UInt8.ofNat (n % 128 + 128) :: encode (n / 128)
termination_by n
decreasing_by omega

/-- The byte that ends a number. -/
theorem encode_of_lt {n : Nat} (h : n < 128) : encode n = [UInt8.ofNat n] := by
  rw [encode, if_pos h]

/-- A larger number starts with a continued byte, its lowest group. -/
theorem encode_of_le {n : Nat} (h : 128 ≤ n) :
    encode n = UInt8.ofNat (n % 128 + 128) :: encode (n / 128) := by
  rw [encode, if_neg (by omega)]

theorem encode_ne_nil (n : Nat) : encode n ≠ [] := by
  rw [encode]; split <;> simp

/-! ## Length -/

theorem length_encode_le {k n : Nat} (h : n < 128 ^ (k + 1)) : (encode n).length ≤ k + 1 := by
  induction k generalizing n with
  | zero => rw [encode_of_lt (by simpa using h)]; simp
  | succ k ih =>
      by_cases hn : n < 128
      · rw [encode_of_lt hn]; simp
      · rw [encode_of_le (by omega), List.length_cons]
        have hdiv : n / 128 < 128 ^ (k + 1) := by
          rw [Nat.div_lt_iff_lt_mul (by omega)]
          rwa [← pow_succ]
        have := ih hdiv
        omega

/-! ## Single bytes

The decoder reads the group with `b &&& 127` and the continuation bit with
`b &&& 0x80`. -/

theorem toNat_and_127 (b : UInt8) : (b &&& 127).toNat = b.toNat % 128 := by
  rw [UInt8.toNat_and]
  exact Nat.and_two_pow_sub_one_eq_mod b.toNat 7

theorem and_0x80_eq_zero_iff (b : UInt8) : b &&& 0x80 = 0 ↔ b.toNat < 128 := by
  have h : ∀ i : Fin 256, UInt8.ofNat i.val &&& 0x80 = 0 ↔ i.val < 128 := by decide +kernel
  simpa using h ⟨b.toNat, b.toNat_lt⟩

theorem last_toNat {n : Nat} (h : n < 128) : (UInt8.ofNat n).toNat = n := by
  rw [UInt8.toNat_ofNat']
  omega

theorem continued_toNat (n : Nat) : (UInt8.ofNat (n % 128 + 128)).toNat = n % 128 + 128 := by
  rw [UInt8.toNat_ofNat']
  omega

end Base128
