import Mathlib.Data.Int.Basic

/-!
# Machine integers

The conversions of C to its integers of 32 and 64 bits, and where they change nothing.
-/

namespace MachineInt

def int32 (x : ℤ) : ℤ := x.bmod (4294967296)

def int64 (x : ℤ) : ℤ := x.bmod (18446744073709551616)

def uint64 (x : ℤ) : ℤ := x % 18446744073709551616

lemma int32_of_bounds {x : ℤ} (h : -2147483648 ≤ x) (h' : x < 2147483648) : int32 x = x := by
  unfold int32
  rw [Int.bmod_eq_of_le] <;> omega

lemma int64_of_bounds {x : ℤ} (h : -9223372036854775808 ≤ x) (h' : x < 9223372036854775808) :
    int64 x = x := by
  unfold int64
  rw [Int.bmod_eq_of_le] <;> omega

lemma uint64_of_bounds {x : ℤ} (h : 0 ≤ x) (h' : x < 18446744073709551616) : uint64 x = x :=
  Int.emod_eq_of_lt h h'

lemma uint64_lt (x : ℤ) : uint64 x < 18446744073709551616 := by
  unfold uint64
  omega

end MachineInt
