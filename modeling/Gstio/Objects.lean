import Gstio.Word
import Gstio.Table
import Mathlib.Data.Prod.Lex

/-!
# Gstio.Objects — the six resource tables and the manager's exceptions

`resource_limits_private.hpp`, which declares the row types and the moving-average accumulator,
is not among the sources.  The row fields follow the spec (§3.1) and the code's uses of them; the
defaults the code relies on without setting them are the parameters collected in `Decl`.

* `LimitsRow`, `GstRow`, `ActivationRow` are keyed by `(pending, owner)`, `UsageRow` by `owner`;
  each keyed table is a `Table` over its `by_owner` index.
* The singleton tables (`resource_limits_state_object`, `resource_limits_config_object`) are
  lists: `_db.get<T>()` reads the first row.
* `Err` is an exception type of the code together with its message.
-/

namespace Gstio

/-- `account_name`: the 64-bit value of a name.  Only order and equality are used. -/
abbrev Name := Nat

/-- The value of the name `gstio`. -/
def gstio : Name := 7364205626425081856

/-- The value of the name `gstio.gas`. -/
def gstioGas : Name := 7364205632980779008

/-- `ratio`. -/
structure Ratio where
  numerator : U64
  denominator : U64
deriving DecidableEq, Repr

/-- `elastic_limit_parameters`. -/
structure ElasticLimitParameters where
  target : U64
  max : U64
  periods : U32
  maxMultiplier : U32
  contractRate : Ratio
  expandRate : Ratio
deriving DecidableEq, Repr

/-- Modelled from the spec: `exponential_moving_average_accumulator`, declared in the missing
`resource_limits_private.hpp`, has the fields of §3.1 and starts at zero. -/
structure Ema where
  lastOrdinal : U64 := 0
  valueEx : U128 := 0
  consumed : U64 := 0
deriving DecidableEq, Repr

/-- `resource_limits_object`. -/
structure LimitsRow where
  owner : Name
  pending : Bool
  ramBytes : I64
  netWeight : I64
  cpuWeight : I64
deriving DecidableEq, Repr

/-- The `by_owner` key of `resource_limits_object`. -/
def LimitsRow.key (r : LimitsRow) : Bool ×ₗ Name := toLex (r.pending, r.owner)

/-- `resource_usage_object`. -/
structure UsageRow where
  owner : Name
  netUsage : Ema
  cpuUsage : Ema
  ramUsage : U64
deriving DecidableEq, Repr

/-- `resource_gst_object`. -/
structure GstRow where
  owner : Name
  pending : Bool
  gstBytes : I64
  gstUsage : U64
deriving DecidableEq, Repr

/-- The `by_owner` key of `resource_gst_object`. -/
def GstRow.key (r : GstRow) : Bool ×ₗ Name := toLex (r.pending, r.owner)

/-- `resource_activation_gst_object`. -/
structure ActivationRow where
  owner : Name
  pending : Bool
  isActivation : Bool
deriving DecidableEq, Repr

/-- The `by_owner` key of `resource_activation_gst_object`. -/
def ActivationRow.key (r : ActivationRow) : Bool ×ₗ Name := toLex (r.pending, r.owner)

/-- `resource_limits_state_object`. -/
structure StateRow where
  averageBlockNetUsage : Ema
  averageBlockCpuUsage : Ema
  pendingNetUsage : U64
  pendingCpuUsage : U64
  totalNetWeight : U64
  totalCpuWeight : U64
  totalRamBytes : U64
  virtualNetLimit : U64
  virtualCpuLimit : U64
deriving DecidableEq, Repr

/-- `resource_limits_config_object`. -/
structure ConfigRow where
  cpuLimitParameters : ElasticLimitParameters
  netLimitParameters : ElasticLimitParameters
  accountCpuUsageAverageWindow : U32
  accountNetUsageAverageWindow : U32
deriving DecidableEq, Repr

/-- What the missing headers declare and the manager reads: `config::rate_limiting_precision`
(positive by the `static_assert` of `resource_limits.cpp`) and the defaults of the fields that
the creating code leaves unset. -/
structure Decl where
  rateLimitingPrecision : U64
  rateLimitingPrecision_pos : 0 < rateLimitingPrecision.val
  ramBytesDefault : I64
  netWeightDefault : I64
  cpuWeightDefault : I64
  gstUsageDefault : U64
  configDefault : ConfigRow

/-- The six tables of `resource_index_set`, in its order. -/
structure Db where
  limits : Table LimitsRow.key
  usage : Table UsageRow.owner
  gst : Table GstRow.key
  activation : Table ActivationRow.key
  state : List StateRow
  config : List ConfigRow

/-- The store before `initialize_database`. -/
def Db.empty : Db := ⟨.empty, .empty, .empty, .empty, [], []⟩

/-- The exception types the manager raises, and the two chainbase raises itself. -/
inductive ErrKind
  | resourceLimitException
  | rateLimitingStateInconsistent
  | txCpuUsageExceeded
  | txNetUsageExceeded
  | blockResourceExhausted
  | transactionException
  | ramUsageExceeded
  | gstioAssertMessageException
  /-- `get` of a row that does not exist. -/
  | outOfRange
  /-- `create` of a row whose key is taken. -/
  | uniquenessViolation
deriving DecidableEq, Repr

/-- An exception: its type and its message. -/
structure Err where
  kind : ErrKind
  msg : String
deriving DecidableEq, Repr

/-- `GST_ASSERT(c, kind, msg)`. -/
def gstAssert {m : Type → Type} [Monad m] [MonadExceptOf Err m] (c : Prop) [Decidable c]
    (kind : ErrKind) (msg : String) : m Unit :=
  if c then pure () else throwThe Err ⟨kind, msg⟩

end Gstio
