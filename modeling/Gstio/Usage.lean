import Gstio.Manager

/-!
# Gstio.Usage — usage accounting, block boundaries and the accessors

The per-account and per-block usage paths of `resource_limits.cpp`: `update_account_usage`,
`add_transaction_usage`, `process_block_usage`, and the read-only accessors.

The stake-weighted share is computed twice in the source, by the enforcement check of
`add_transaction_usage` (usage rounded down) and by `get_account_{cpu,net}_limit_ex` (usage
rounded up); both use `maxUserUseInWindow`.  `Resource.cpu` and `Resource.net` hold what the two
halves of each path read.
-/

namespace Gstio

variable (d : Decl)

/-- What the CPU or the NET half of a path reads, and the exception its check raises. -/
structure Resource where
  weight : LimitsRow → I64
  totalWeight : StateRow → U64
  virtualLimit : StateRow → U64
  params : ConfigRow → ElasticLimitParameters
  window : ConfigRow → U32
  average : UsageRow → Ema
  exceeded : Err

/-- The CPU fields. -/
def Resource.cpu : Resource :=
  ⟨LimitsRow.cpuWeight, StateRow.totalCpuWeight, StateRow.virtualCpuLimit,
    ConfigRow.cpuLimitParameters, ConfigRow.accountCpuUsageAverageWindow, UsageRow.cpuUsage,
    ⟨.txCpuUsageExceeded,
      "authorizing account '${n}' has insufficient cpu resources for this transaction"⟩⟩

/-- The NET fields. -/
def Resource.net : Resource :=
  ⟨LimitsRow.netWeight, StateRow.totalNetWeight, StateRow.virtualNetLimit,
    ConfigRow.netLimitParameters, ConfigRow.accountNetUsageAverageWindow, UsageRow.netUsage,
    ⟨.txNetUsageExceeded,
      "authorizing account '${n}' has insufficient net resources for this transaction"⟩⟩

/-- `max_user_use_in_window`: `limit * window * weight / total_weight` in `uint128_t`. -/
def maxUserUseInWindow (limit : U64) (window : U32) (weight : I64) (total : U64) : U128 :=
  toUnsigned 128 limit.val * toUnsigned 128 window.val * toUnsigned 128 weight.val /
    toUnsigned 128 total.val

/-- The usage of the window, `value_ex * window / RATE_PRECISION` in `uint128_t`, rounded down. -/
def usedInWindow (valueEx : U128) (window : U32) : U128 :=
  valueEx * toUnsigned 128 window.val / toUnsigned 128 d.rateLimitingPrecision.val

/-- The per-account check of `add_transaction_usage` for one resource: an account with a
non-negative weight, while the total weight is positive, may not use more than its share. -/
def checkShare (R : Resource) (state : StateRow) (config : ConfigRow) (limits : LimitsRow)
    (average : Ema) : ChainM Unit :=
  if 0 ≤ (R.weight limits).val ∧ 0 < (R.totalWeight state).val then
    gstAssert (usedInWindow d average.valueEx (R.window config) ≤
        maxUserUseInWindow (R.virtualLimit state) (R.window config) (R.weight limits)
          (R.totalWeight state))
      R.exceeded.kind R.exceeded.msg
  else pure ()

/-- One iteration of the loop of `add_transaction_usage`, for the authorizer `a`. -/
def addAccountTransactionUsage (state : StateRow) (config : ConfigRow) (cpuUsage netUsage : U64)
    (timeSlot : U32) (a : Name) : ChainM Unit := do
  let usage ← usageRef.getRow a
  let limits ← getAccountLimits a
  let netAverage ← fromExcept (usage.netUsage.add d.rateLimitingPrecision.val netUsage
    timeSlot.toU64 config.accountNetUsageAverageWindow)
  let cpuAverage ← fromExcept (usage.cpuUsage.add d.rateLimitingPrecision.val cpuUsage
    timeSlot.toU64 config.accountCpuUsageAverageWindow)
  usageRef.modifyRow a fun bu => { bu with netUsage := netAverage, cpuUsage := cpuAverage }
  checkShare d Resource.cpu state config limits cpuAverage
  checkShare d Resource.net state config limits netAverage

/-- `add_transaction_usage`. -/
def addTransactionUsage (accounts : List Name) (cpuUsage netUsage : U64) (timeSlot : U32) :
    ChainM Unit := do
  let state ← getState
  let config ← getConfig
  accounts.forM (addAccountTransactionUsage d state config cpuUsage netUsage timeSlot)
  modifyState fun rls => { rls with
    pendingCpuUsage := rls.pendingCpuUsage + cpuUsage
    pendingNetUsage := rls.pendingNetUsage + netUsage }
  let state ← getState
  gstAssert (state.pendingCpuUsage ≤ config.cpuLimitParameters.max) .blockResourceExhausted
    "Block has insufficient cpu resources"
  gstAssert (state.pendingNetUsage ≤ config.netLimitParameters.max) .blockResourceExhausted
    "Block has insufficient net resources"

/-- One iteration of the loop of `update_account_usage`: age both averages without usage. -/
def ageAccountUsage (config : ConfigRow) (timeSlot : U32) (a : Name) : ChainM Unit := do
  let usage ← usageRef.getRow a
  let netAverage ← fromExcept (usage.netUsage.add d.rateLimitingPrecision.val 0 timeSlot.toU64
    config.accountNetUsageAverageWindow)
  let cpuAverage ← fromExcept (usage.cpuUsage.add d.rateLimitingPrecision.val 0 timeSlot.toU64
    config.accountCpuUsageAverageWindow)
  usageRef.modifyRow a fun bu => { bu with netUsage := netAverage, cpuUsage := cpuAverage }

/-- `update_account_usage`. -/
def updateAccountUsage (accounts : List Name) (timeSlot : U32) : ChainM Unit := do
  let config ← getConfig
  accounts.forM (ageAccountUsage d config timeSlot)

/-- The body of `process_block_usage`'s `modify`: fold each pending usage into its block average,
update the virtual limit from the new average (`update_virtual_{cpu,net}_limit`), and zero the
pending usage. -/
def blockUsageUpdate (config : ConfigRow) (state : StateRow) (blockNum : U32) :
    Except Err StateRow := do
  let P := d.rateLimitingPrecision.val
  let cpuAverage ← state.averageBlockCpuUsage.add P state.pendingCpuUsage blockNum.toU64
    config.cpuLimitParameters.periods
  let netAverage ← state.averageBlockNetUsage.add P state.pendingNetUsage blockNum.toU64
    config.netLimitParameters.periods
  pure { state with
    averageBlockCpuUsage := cpuAverage
    virtualCpuLimit := updateElasticLimit state.virtualCpuLimit
      (toUnsigned 64 (cpuAverage.average P)) config.cpuLimitParameters
    pendingCpuUsage := 0
    averageBlockNetUsage := netAverage
    virtualNetLimit := updateElasticLimit state.virtualNetLimit
      (toUnsigned 64 (netAverage.average P)) config.netLimitParameters
    pendingNetUsage := 0 }

/-- `process_block_usage`. -/
def processBlockUsage (blockNum : U32) : ChainM Unit := do
  let s ← getState
  let config ← getConfig
  let state ← fromExcept (blockUsageUpdate d config s blockNum)
  modifyState fun _ => state

/-! ### Accessors -/

/-- `get_virtual_block_cpu_limit`. -/
def getVirtualBlockCpuLimit : ChainM U64 := do return (← getState).virtualCpuLimit

/-- `get_virtual_block_net_limit`. -/
def getVirtualBlockNetLimit : ChainM U64 := do return (← getState).virtualNetLimit

/-- `get_block_cpu_limit`. -/
def getBlockCpuLimit : ChainM U64 := do
  let state ← getState
  let config ← getConfig
  return config.cpuLimitParameters.max - state.pendingCpuUsage

/-- `get_block_net_limit`. -/
def getBlockNetLimit : ChainM U64 := do
  let state ← getState
  let config ← getConfig
  return config.netLimitParameters.max - state.pendingNetUsage

/-- `account_resource_limit`. -/
structure AccountResourceLimit where
  used : I64
  available : I64
  max : I64
deriving DecidableEq, Repr

/-- The arithmetic of `get_account_{cpu,net}_limit_ex` on the rows it has read: the share of
the window the account may use, what its average has used (rounded up), and what is left, each
cast to `int64_t`. -/
def accountLimitEx (R : Resource) (state : StateRow) (usage : UsageRow) (config : ConfigRow)
    (limits : LimitsRow) (elastic : Bool) : Except Err AccountResourceLimit := do
  if (R.weight limits).val < 0 ∨ (R.totalWeight state).val = 0 then return ⟨-1, -1, -1⟩
  let maxUse := maxUserUseInWindow (if elastic then R.virtualLimit state else (R.params config).max)
    (R.window config) (R.weight limits) (R.totalWeight state)
  let used := integerDivideCeil ((R.average usage).valueEx * toUnsigned 128 (R.window config).val)
    (toUnsigned 128 d.rateLimitingPrecision.val)
  let available ← if maxUse ≤ used then pure 0 else downgradeCast (maxUse - used)
  let used ← downgradeCast used
  let max ← downgradeCast maxUse
  return ⟨used, available, max⟩

/-- `get_account_{cpu,net}_limit_ex` for one resource. -/
def getAccountLimitEx (R : Resource) (name : Name) (elastic : Bool) :
    ChainM AccountResourceLimit := do
  let state ← getState
  let usage ← usageRef.getRow name
  let config ← getConfig
  let limits ← getAccountLimits name
  fromExcept (accountLimitEx d R state usage config limits elastic)

/-- `get_account_cpu_limit_ex`. -/
def getAccountCpuLimitEx (name : Name) (elastic : Bool) : ChainM AccountResourceLimit :=
  getAccountLimitEx d Resource.cpu name elastic

/-- `get_account_net_limit_ex`. -/
def getAccountNetLimitEx (name : Name) (elastic : Bool) : ChainM AccountResourceLimit :=
  getAccountLimitEx d Resource.net name elastic

/-- `get_account_cpu_limit`. -/
def getAccountCpuLimit (name : Name) (elastic : Bool) : ChainM I64 := do
  return (← getAccountCpuLimitEx d name elastic).available

/-- `get_account_net_limit`. -/
def getAccountNetLimit (name : Name) (elastic : Bool) : ChainM I64 := do
  return (← getAccountNetLimitEx d name elastic).available

/-- `get_account_ram_usage`. -/
def getAccountRamUsage (name : Name) : ChainM I64 := do
  return I64.ofInt (← usageRef.getRow name).ramUsage.val

/-- `get_account_limits2`: the gas left, `gst_bytes - gst_usage` computed in `uint64_t` and read as
`int64_t`, with negative values and a missing row reported as 0. -/
def getAccountLimits2 (account : Name) : ChainM I64 := do
  match ← gstRef.findRow (toLex (true, account)) with
  | some limits =>
    let ramBytes := I64.ofInt (toUnsigned 64 limits.gstBytes.val - limits.gstUsage).val
    return if ramBytes.val < 0 then 0 else ramBytes
  | none => return 0

end Gstio
