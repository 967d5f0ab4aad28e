import Gstio.Average

/-!
# Gstio.Elastic — the elastic limit controller

`update_elastic_limit` scales the current virtual limit by the contract or expand ratio and clamps
the result with `std::min(std::max(result, max), max * max_multiplier)`.  The upper bound is a
`uint64_t` product, so it wraps, and `std::min` is applied last: the result never exceeds the
wrapped bound, and it is at least `max` only when `max` is below that bound.  `validate()` checks
only the denominators and `periods` (its comment defers "stricter checks for sensible values"),
so a zero multiplier passes it.
-/

namespace Gstio

/-- `update_elastic_limit`. -/
def updateElasticLimit (currentLimit averageUsage : U64) (params : ElasticLimitParameters) : U64 :=
  let result :=
    if params.target < averageUsage then toUnsigned 64 (Ratio.mul currentLimit params.contractRate).val
    else toUnsigned 64 (Ratio.mul currentLimit params.expandRate).val
  min (max result params.max) (params.max * toUnsigned 64 params.maxMultiplier.val)

/-- `elastic_limit_parameters::validate`. -/
def ElasticLimitParameters.validate (p : ElasticLimitParameters) : Except Err Unit := do
  gstAssert (0 < p.periods.val) .resourceLimitException
    "elastic limit parameter 'periods' cannot be zero"
  gstAssert (0 < p.contractRate.denominator.val) .resourceLimitException
    "elastic limit parameter 'contract_rate' is not a well-defined ratio"
  gstAssert (0 < p.expandRate.denominator.val) .resourceLimitException
    "elastic limit parameter 'expand_rate' is not a well-defined ratio"

/-- The `uint64_t` upper bound `max * max_multiplier` of the clamp. -/
theorem clampBound_val (p : ElasticLimitParameters) :
    (p.max * toUnsigned 64 p.maxMultiplier.val).val = p.max.val * p.maxMultiplier.val % 2 ^ 64 := by
  rw [Fin.val_mul, toUnsigned_val_of_lt (by omega) (by have := p.maxMultiplier.isLt; omega)]
  simp

theorem updateElasticLimit_le (c a : U64) (p : ElasticLimitParameters) :
    (updateElasticLimit c a p).val ≤ p.max.val * p.maxMultiplier.val % 2 ^ 64 :=
  clampBound_val p ▸ Fin.le_def.mp (min_le_right _ _)

theorem max_le_updateElasticLimit (c a : U64) (p : ElasticLimitParameters)
    (h : p.max.val ≤ p.max.val * p.maxMultiplier.val % 2 ^ 64) :
    p.max.val ≤ (updateElasticLimit c a p).val :=
  Fin.le_def.mp (le_min (le_max_right _ _) (Fin.le_def.mpr (clampBound_val p ▸ h)))

end Gstio
