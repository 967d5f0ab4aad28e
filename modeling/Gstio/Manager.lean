import Gstio.Store

/-!
# Gstio.Manager — `resource_limits_manager`

Every member function of `resource_limits.cpp` that reads or writes the six tables, as a `ChainM`
call, statement by statement.  `d : Decl` supplies what the missing headers declare.  The CPU and
NET halves of `add_transaction_usage` and `get_account_{cpu,net}_limit_ex` are one definition
over a `Resource`, applied to `cpu` and to `net`.

`process_account_limit_updates` runs its `while` loop inside `_db.modify(state, ...)`; its model
is `limitUpdatesLoop`, on the limits table and the state row, by well-founded recursion on the
number of rows (each iteration removes one).
-/

namespace Gstio

variable (d : Decl)

/-- Modelled from the spec: the committed `resource_usage_object` of a new account has empty
averages and no RAM usage (§3.1, §8 scenario 3). -/
def UsageRow.initial (a : Name) : UsageRow := ⟨a, {}, {}, 0⟩

/-- Modelled from the spec: the committed `resource_limits_object` `initialize_account` creates
sets only the owner, so its limits are the declared defaults (unlimited in the spec, §3.1). -/
def LimitsRow.initial (a : Name) : LimitsRow :=
  { owner := a, pending := false, ramBytes := d.ramBytesDefault, netWeight := d.netWeightDefault,
    cpuWeight := d.cpuWeightDefault }

/-- Modelled from the spec: a `resource_limits_state_object` starts with empty averages and zero
counters (§3.2: the totals are sums over accounts, and there are none at genesis). -/
def StateRow.initial : StateRow := ⟨{}, {}, 0, 0, 0, 0, 0, 0, 0⟩

/-- A `time_slot` or `block_num` passed as an accumulator ordinal. -/
def U32.toU64 (x : U32) : U64 := toUnsigned 64 x.val

/-! ### Database setup and account creation -/

/-- `initialize_database`. -/
def initializeDatabase : ChainM Unit := fun db =>
  let config := d.configDefault
  .ok () { db with
    config := db.config ++ [config]
    state := db.state ++ [{ StateRow.initial with
      virtualCpuLimit := config.cpuLimitParameters.max
      virtualNetLimit := config.netLimitParameters.max }] }

/-- `initialize_account`. -/
def initializeAccount (account : Name) : ChainM Unit := do
  limitsRef.createRow (LimitsRow.initial d account)
  usageRef.createRow (UsageRow.initial account)

/-- `set_block_parameters`. -/
def setBlockParameters (cpuLimitParameters netLimitParameters : ElasticLimitParameters) :
    ChainM Unit := do
  fromExcept cpuLimitParameters.validate
  fromExcept netLimitParameters.validate
  let _ ← getConfig
  modifyConfig fun c =>
    { c with cpuLimitParameters := cpuLimitParameters, netLimitParameters := netLimitParameters }

/-! ### Limits -/

/-- `get_account_limits`: the pending row if there is one, else the committed row. -/
def getAccountLimits (account : Name) : ChainM LimitsRow := do
  match ← limitsRef.findRow (toLex (true, account)) with
  | some pendingBuo => pure pendingBuo
  | none => limitsRef.getRow (toLex (false, account))

/-- The pending row `set_account_limits` edits: found, or copied from the committed row. -/
def findOrCreatePendingLimits (account : Name) : ChainM LimitsRow := do
  match ← limitsRef.findRow (toLex (true, account)) with
  | some pendingLimits => pure pendingLimits
  | none =>
    let limits ← limitsRef.getRow (toLex (false, account))
    let pendingLimits : LimitsRow :=
      { owner := limits.owner, ramBytes := limits.ramBytes, netWeight := limits.netWeight,
        cpuWeight := limits.cpuWeight, pending := true }
    limitsRef.createRow pendingLimits
    pure pendingLimits

/-- `set_account_limits`: returns `decreased_limit`. -/
def setAccountLimits (account : Name) (ramBytes netWeight cpuWeight : I64) : ChainM Bool := do
  let limits ← findOrCreatePendingLimits account
  let decreasedLimit :=
    decide (0 ≤ ramBytes.val) && decide (limits.ramBytes.val < 0 ∨ ramBytes.val < limits.ramBytes.val)
  limitsRef.modifyRow limits.key fun pendingLimits =>
    { pendingLimits with ramBytes := ramBytes, netWeight := netWeight, cpuWeight := cpuWeight }
  pure decreasedLimit

/-- The first half of `update_state_and_value` (in `process_account_limit_updates`): take a
positive old `value` out of `total`, checking for underflow. -/
def revertValue (total : U64) (value : I64) (which : String) : Except Err U64 :=
  if 0 < value.val then do
    gstAssert (toUnsigned 64 value.val ≤ total) .rateLimitingStateInconsistent
      ("underflow when reverting old value to " ++ which)
    pure (total - toUnsigned 64 value.val)
  else pure total

/-- The second half of `update_state_and_value`: put a positive `pending_value` into `total`,
checking for overflow. -/
def applyValue (total : U64) (pendingValue : I64) (which : String) : Except Err U64 :=
  if 0 < pendingValue.val then do
    gstAssert (toUnsigned 64 pendingValue.val ≤ U64.max - total) .rateLimitingStateInconsistent
      ("overflow when applying new value to " ++ which)
    pure (total + toUnsigned 64 pendingValue.val)
  else pure total

/-- `update_state_and_value`: the new `total`. -/
def updateStateAndValue (total : U64) (value pendingValue : I64) (which : String) :
    Except Err U64 := do
  applyValue (← revertValue total value which) pendingValue which

/-- The committed row overwritten with the values of the pending row `itr`. -/
def LimitsRow.commit (itr rlo : LimitsRow) : LimitsRow :=
  { rlo with ramBytes := itr.ramBytes, cpuWeight := itr.cpuWeight, netWeight := itr.netWeight }

/-- The three `update_state_and_value` calls of one iteration, on the state row `rso`. -/
def commitTotals (rso : StateRow) (actualEntry itr : LimitsRow) : Except Err StateRow := do
  let ram ← updateStateAndValue rso.totalRamBytes actualEntry.ramBytes itr.ramBytes "ram_bytes"
  let cpu ← updateStateAndValue rso.totalCpuWeight actualEntry.cpuWeight itr.cpuWeight "cpu_weight"
  let net ← updateStateAndValue rso.totalNetWeight actualEntry.netWeight itr.netWeight "net_weight"
  pure { rso with totalRamBytes := ram, totalCpuWeight := cpu, totalNetWeight := net }

/-- The table after one iteration: the committed row of `itr.owner` takes the pending values and
the pending row `itr` is removed. -/
def commitRow (t : Table LimitsRow.key) (itr : LimitsRow) : Table LimitsRow.key :=
  (t.modify (toLex (false, itr.owner)) (LimitsRow.commit itr) fun _ => rfl).remove itr.key

theorem commitRow_length_lt {t : Table LimitsRow.key} {itr : LimitsRow}
    (h : t.lowerBound (toLex (true, 0)) = some itr) (hp : itr.pending = true) :
    (commitRow t itr).rows.length < t.rows.length := by
  have hmem : itr ∈ (t.modify (toLex (false, itr.owner)) (LimitsRow.commit itr) fun _ => rfl).rows :=
    Table.mem_modify_of_ne (Table.mem_of_lowerBound h) (by simp [LimitsRow.key, hp])
  exact (Table.length_remove_lt hmem).trans_eq (Table.length_modify _ _ _ _)

/-- The `while` loop of `process_account_limit_updates` on the limits table and the state row
`rso` it modifies: while `lower_bound((true))` is a pending row, fold it into its committed row
and into the totals, and remove it. -/
def limitUpdatesLoop (t : Table LimitsRow.key) (rso : StateRow) :
    Except Err (Table LimitsRow.key × StateRow) :=
  if t.rows.isEmpty then .ok (t, rso) else
  match _hlb : t.lowerBound (toLex (true, 0)) with
  | none => .ok (t, rso)
  | some itr =>
    if _hp : itr.pending = true then
      match t.find (toLex (false, itr.owner)) with
      | none => .error Err.unknownKey
      | some actualEntry => do
        let rso ← commitTotals rso actualEntry itr
        limitUpdatesLoop (commitRow t itr) rso
    else .ok (t, rso)
termination_by t.rows.length
decreasing_by exact commitRow_length_lt _hlb _hp

/-- `process_account_limit_updates`.  An exception out of the loop is raised from the state's
`modify`; the model leaves the store as the call found it, which is what the caller's rollback
restores. -/
def processAccountLimitUpdates : ChainM Unit := fun db =>
  match db.state with
  | [] => .error Err.unknownKey db
  | state :: rest =>
    match limitUpdatesLoop db.limits state with
    | .ok (t, rso) => .ok () { db with limits := t, state := rso :: rest }
    | .error e => .error e db

/-! ### Gas -/

/-- `is_activation`. -/
def isActivation : ChainM Bool := do
  match ← activationRef.findRow (toLex (true, gstio)) with
  | none => pure false
  | some activationGst => pure activationGst.isActivation

/-- `set_gas_limits`. -/
def setGasLimits (flag : Bool) : ChainM Unit := do
  match ← activationRef.findRow (toLex (true, gstio)) with
  | none => activationRef.createRow { owner := gstio, pending := true, isActivation := true }
  | some _ => activationRef.modifyRow (toLex (true, gstio)) fun gas => { gas with isActivation := flag }

/-- The pending gas row `set_gst_limits` edits: found, or created with the new `gst_bytes`. -/
def findOrCreatePendingGst (account : Name) (gstBytes : I64) : ChainM GstRow := do
  match ← gstRef.findRow (toLex (true, account)) with
  | some pendingLimits => pure pendingLimits
  | none =>
    let pendingLimits : GstRow :=
      { owner := account, gstBytes := gstBytes, pending := true, gstUsage := d.gstUsageDefault }
    gstRef.createRow pendingLimits
    pure pendingLimits

/-- `set_gst_limits`: returns `decreased_limit`. -/
def setGstLimits (account : Name) (gstBytes : I64) : ChainM Bool := do
  let limits ← findOrCreatePendingGst d account gstBytes
  if gstBytes.val < limits.gstBytes.val then
    gstAssert (limits.gstUsage ≤ toUnsigned 64 gstBytes.val) .gstioAssertMessageException
      "用户 ${account} gas不足; 当前剩余 ${needs} gas 已用 ${available} gas"
  let decreasedLimit :=
    decide (0 ≤ gstBytes.val) && decide (limits.gstBytes.val < 0 ∨ gstBytes.val < limits.gstBytes.val)
  gstRef.modifyRow limits.key fun pendingLimits => { pendingLimits with gstBytes := gstBytes }
  pure decreasedLimit

/-- The saturating update of `gst_usage` in `add_pending_ram_usage`: the test reads the usage as
`int64_t` and adds the delta in `int64_t`. -/
def GstRow.addRamDelta (ramDelta : I64) (limits : GstRow) : GstRow :=
  if (I64.ofInt ((I64.ofInt limits.gstUsage.val).val + ramDelta.val)).val < 0 then
    { limits with gstUsage := 0 }
  else { limits with gstUsage := limits.gstUsage + toUnsigned 64 ramDelta.val }

theorem GstRow.key_addRamDelta (ramDelta : I64) (limits : GstRow) :
    (limits.addRamDelta ramDelta).key = limits.key := by
  unfold addRamDelta; split <;> rfl

/-- The gas block of `add_pending_ram_usage`: while gas is active, the account's pending gas row
takes the delta, saturating at zero, and a missing row is created from the delta. -/
def addPendingGstUsage (account : Name) (ramDelta : I64) : ChainM Unit := do
  if ← isActivation then
    match ← gstRef.findRow (toLex (true, account)) with
    | some _ =>
      gstRef.modifyRow (toLex (true, account)) (GstRow.addRamDelta ramDelta)
        (GstRow.key_addRamDelta ramDelta)
    | none =>
      gstRef.createRow
        { owner := account, gstBytes := 0, pending := true,
          gstUsage := if ramDelta.val < 0 then 0 else toUnsigned 64 ramDelta.val }

/-- `add_pending_ram_usage`. -/
def addPendingRamUsage (account : Name) (ramDelta : I64) : ChainM Unit := do
  if ramDelta.val = 0 then return
  let usage ← usageRef.getRow account
  gstAssert (ramDelta.val ≤ 0 ∨ toUnsigned 64 ramDelta.val ≤ U64.max - usage.ramUsage)
    .transactionException "Ram usage delta would overflow UINT64_MAX"
  gstAssert (0 ≤ ramDelta.val ∨ toUnsigned 64 (-ramDelta).val ≤ usage.ramUsage)
    .transactionException "Ram usage delta would underflow UINT64_MAX"
  usageRef.modifyRow account fun u => { u with ramUsage := u.ramUsage + toUnsigned 64 ramDelta.val }
  addPendingGstUsage account ramDelta

/-- `verify_account_ram_usage`. -/
def verifyAccountRamUsage (account : Name) : ChainM Unit := do
  let limits ← getAccountLimits account
  let usage ← usageRef.getRow account
  if 0 ≤ limits.ramBytes.val then
    gstAssert (usage.ramUsage ≤ toUnsigned 64 limits.ramBytes.val) .ramUsageExceeded
      "account ${account} has insufficient ram; needs ${needs} bytes has ${available} bytes"
  if ← isActivation then
    match ← gstRef.findRow (toLex (true, account)) with
    | some pendingLimits =>
      if 0 ≤ pendingLimits.gstBytes.val ∧ pendingLimits.owner ≠ gstioGas ∧
          pendingLimits.owner ≠ gstio then
        gstAssert (pendingLimits.gstUsage ≤ toUnsigned 64 pendingLimits.gstBytes.val)
          .gstioAssertMessageException
          "account ${account} has insufficient gas; needs ${needs} gas has ${available} gas"
    | none =>
      gstAssert (gstioGas = account) .gstioAssertMessageException "用户${account}请兑换gas再进行此操作"

/-- `verify_account_gst_usage`: the toll of 100 bytes. -/
def verifyAccountGstUsage (account : Name) : ChainM Unit := do
  match ← gstRef.findRow (toLex (true, account)) with
  | none => throw ⟨.gstioAssertMessageException, "用户${account}请兑换gas再进行此操作"⟩
  | some pendingLimits =>
    if 0 ≤ pendingLimits.gstBytes.val then
      gstAssert (pendingLimits.gstUsage + 100 ≤ toUnsigned 64 pendingLimits.gstBytes.val)
        .gstioAssertMessageException "用户 ${account} gas不足; 需要 ${needs} gas 剩余 ${available} gas"
      gstRef.modifyRow (toLex (true, account)) fun limits => { limits with gstUsage := limits.gstUsage + 100 }

end Gstio
