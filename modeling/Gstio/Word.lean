import Mathlib.Tactic.Positivity
import Mathlib.Tactic.Zify

/-!
# Gstio.Word — the fixed-width integers of `resource_limits.cpp`

`uint32_t`, `uint64_t` and `uint128_t` are `Fin (2^w)`, whose `+`, `-`, `*` wrap exactly as the C++
unsigned operators do.  `int64_t` is `I64`, an integer that carries its range.  Every implicit or
explicit C++ conversion between them is one of two functions: `toUnsigned w` (reduction modulo
`2^w`) and `I64.ofInt` (two's complement).  Signed overflow, undefined in ISO C++, is modelled as
the two's complement wrap-around the compiled code performs.
-/

namespace Gstio

/-- `uint32_t`. -/
abbrev U32 := Fin (2 ^ 32)
/-- `uint64_t`. -/
abbrev U64 := Fin (2 ^ 64)
/-- `uint128_t`. -/
abbrev U128 := Fin (2 ^ 128)

/-- Conversion of an integer value to a `w`-bit unsigned type: reduction modulo `2^w`. -/
def toUnsigned (w : Nat) (x : Int) : Fin (2 ^ w) :=
  ⟨(x % 2 ^ w).toNat, by
    have h : (0 : Int) < 2 ^ w := by positivity
    have h1 := Int.emod_lt_of_pos x h
    have h2 := Int.emod_nonneg x h.ne'
    zify [h2]
    rw [Int.toNat_of_nonneg h2]; exact_mod_cast h1⟩

/-- `UINT64_MAX`. -/
def U64.max : U64 := ⟨2 ^ 64 - 1, by decide⟩

@[simp] theorem U64.max_val : U64.max.val = 2 ^ 64 - 1 := rfl

@[simp] theorem toUnsigned_val (w : Nat) (x : Int) : (toUnsigned w x).val = (x % 2 ^ w).toNat :=
  rfl

/-- A conversion that the target type can represent keeps the value. -/
theorem toUnsigned_val_of_lt {w : Nat} {x : Int} (h0 : 0 ≤ x) (h : x < 2 ^ w) :
    (toUnsigned w x).val = x.toNat := by
  rw [toUnsigned_val, Int.emod_eq_of_lt h0 h]

/-- `int64_t`. -/
structure I64 where
  val : Int
  ge : -2 ^ 63 ≤ val
  lt : val < 2 ^ 63
deriving DecidableEq, Repr

/-- Conversion of an integer value to `int64_t`, and the result of every `int64_t` operation:
two's complement wrap-around. -/
def I64.ofInt (x : Int) : I64 := ⟨(x + 2 ^ 63) % 2 ^ 64 - 2 ^ 63, by omega, by omega⟩

instance : OfNat I64 n := ⟨I64.ofInt n⟩
instance : Neg I64 := ⟨fun a => I64.ofInt (-a.val)⟩

@[simp] theorem I64.ofInt_val (x : Int) : (I64.ofInt x).val = (x + 2 ^ 63) % 2 ^ 64 - 2 ^ 63 :=
  rfl

@[simp] theorem I64.neg_val (a : I64) : (-a).val = (-a.val + 2 ^ 63) % 2 ^ 64 - 2 ^ 63 := rfl

/-- A non-negative `int64_t` converts to `uint64_t` without change. -/
theorem toUnsigned_I64_of_nonneg {a : I64} (h : 0 ≤ a.val) : ((toUnsigned 64 a.val).val : Int) = a.val := by
  have := a.lt
  rw [toUnsigned_val_of_lt h (by omega)]; omega

end Gstio
