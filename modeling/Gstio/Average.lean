import Gstio.Objects
import Mathlib.Data.Nat.ModEq

/-!
# Gstio.Average — the arithmetic helpers of the missing private header

`resource_limits.cpp` calls four helpers declared in `resource_limits_private.hpp`, which is not
among the sources: the moving-average accumulator's `add` and `average`, multiplication by a
`ratio`, `integer_divide_ceil` and `downgrade_cast<int64_t>`.  Each is modelled from the spec
(§4.1, §4.2, §4.3, §9).  Overflow "must be detected" (§4.1): the accumulator raises on any
128-bit overflow, and on a zero window, instead of wrapping.  `Ema.add_valueEx_le` bounds what one `add` can raise `value_ex` by,
whatever the ordinal.
-/

namespace Gstio

/-- The exception a detected overflow of the accumulator raises. -/
def Ema.overflow : Err := ⟨.rateLimitingStateInconsistent, "moving average out of 128-bit range"⟩

/-- `value_ex` decayed from `last_ordinal` to `ordinal` over a window of `w` ordinals. -/
def Ema.decayed (e : Ema) (ordinal : U64) (w : Nat) : Nat :=
  if e.lastOrdinal < ordinal then e.valueEx.val * (w - (ordinal.val - e.lastOrdinal.val)) / w
  else e.valueEx.val

/-- Modelled from the spec: `exponential_moving_average_accumulator::add(units, ordinal, window)`
(§4.1).  A later ordinal decays `value_ex` by `(W - Δ) / W` (to zero once `Δ ≥ W`); then
`units * RATE_PRECISION / W` is added, and the ordinal and the sample are stored. -/
def Ema.add (precision : Nat) (e : Ema) (units : U64) (ordinal : U64) (window : U32) :
    Except Err Ema := do
  let w := window.val
  if w = 0 then throw Ema.overflow
  if e.lastOrdinal < ordinal ∧ 2 ^ 128 ≤ e.valueEx.val * (w - (ordinal.val - e.lastOrdinal.val))
    then throw Ema.overflow
  if 2 ^ 128 ≤ units.val * precision then throw Ema.overflow
  if h : e.decayed ordinal w + units.val * precision / w < 2 ^ 128 then
    pure { lastOrdinal := ordinal, valueEx := ⟨_, h⟩, consumed := units }
  else throw Ema.overflow

/-- What a successful `add` did: the three guards held and the fields are as §4.1 says. -/
theorem Ema.add_eq_ok {P : Nat} {e e' : Ema} {units ordinal : U64} {window : U32}
    (h : e.add P units ordinal window = .ok e') :
    0 < window.val ∧ units.val * P < 2 ^ 128 ∧ e'.lastOrdinal = ordinal ∧ e'.consumed = units ∧
      e'.valueEx.val = e.decayed ordinal window.val + units.val * P / window.val := by
  simp only [Ema.add, bind, Except.bind, pure, Except.pure] at h
  split at h; · cases h
  split at h; · cases h
  split at h; · cases h
  split at h
  · cases h; exact ⟨by omega, by omega, rfl, rfl, rfl⟩
  · cases h

/-- Every exception `add` raises is the overflow. -/
theorem Ema.add_eq_error {P : Nat} {e : Ema} {units ordinal : U64} {window : U32} {err : Err}
    (h : e.add P units ordinal window = .error err) : err = Ema.overflow := by
  simp only [Ema.add, bind, Except.bind, pure, Except.pure] at h
  split at h; · cases h; rfl
  split at h; · cases h; rfl
  split at h; · cases h; rfl
  split at h
  · cases h
  · cases h; rfl

theorem Ema.decayed_le (e : Ema) (ordinal : U64) (w : Nat) : e.decayed ordinal w ≤ e.valueEx.val := by
  unfold Ema.decayed
  split
  · exact Nat.div_le_of_le_mul (Nat.mul_comm w _ ▸ Nat.mul_le_mul_left _ (Nat.sub_le _ _))
  · exact le_rfl

/-- One `add` raises `value_ex` by at most its contribution `units * RATE_PRECISION / W`,
whatever the ordinal. -/
theorem Ema.add_valueEx_le {P : Nat} {e e' : Ema} {units ordinal : U64} {window : U32}
    (h : e.add P units ordinal window = .ok e') :
    e'.valueEx.val ≤ e.valueEx.val + units.val * P / window.val := by
  have := Ema.add_eq_ok h
  have := e.decayed_le ordinal window.val
  omega

/-- Modelled from the spec: `average()`, `value_ex / RATE_PRECISION` rounded down (§4.1). -/
def Ema.average (precision : Nat) (e : Ema) : Nat := e.valueEx.val / precision

/-- Modelled from the spec: `operator*(value, ratio)`, `(x * numerator) / denominator` with a
128-bit intermediate (§4.2, §9). -/
def Ratio.mul (x : U64) (r : Ratio) : U128 :=
  ⟨x.val * r.numerator.val / r.denominator.val,
    lt_of_le_of_lt (Nat.div_le_self _ _) (by
      have := x.isLt; have := r.numerator.isLt
      calc x.val * r.numerator.val < 2 ^ 64 * 2 ^ 64 := Nat.mul_lt_mul'' ‹_› ‹_›
        _ = 2 ^ 128 := by rw [← Nat.pow_add])⟩

/-- Modelled from the spec: `integer_divide_ceil`, division rounded up (§4.3). -/
def integerDivideCeil (num den : U128) : U128 := num / den + if num % den = 0 then 0 else 1

/-- Modelled from the spec: `downgrade_cast<int64_t>` of a `uint128_t`; a value that does not fit
is a fatal invariant violation (§4.3). -/
def downgradeCast (v : U128) : Except Err I64 :=
  if h : v.val < 2 ^ 63 then .ok ⟨v.val, by omega, by exact_mod_cast h⟩
  else .error ⟨.rateLimitingStateInconsistent, "downgrade_cast of a value out of int64_t range"⟩

theorem downgradeCast_eq_ok {v : U128} {r : I64} (h : downgradeCast v = .ok r) :
    r.val = v.val ∧ v.val < 2 ^ 63 := by
  unfold downgradeCast at h
  split at h
  · cases h; exact ⟨rfl, ‹_›⟩
  · cases h

end Gstio
