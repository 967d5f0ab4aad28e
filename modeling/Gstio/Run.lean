import Gstio.Usage

/-!
# Gstio.Run — runs of the manager

A chain calls the manager serially (§5).  `Op` lists the calls that write the store; a run starts
with `initialize_database` on the empty store and applies calls one after another.  A call that
raises is rolled back by the caller, so the store a run reaches is the one left by its successful
calls: `Reachable`.  `runOps` is the same, as a function of the list of calls.
-/

namespace Gstio

/-- The calls that write the store. -/
inductive Op
  | initializeAccount (account : Name)
  | setBlockParameters (cpuLimitParameters netLimitParameters : ElasticLimitParameters)
  | updateAccountUsage (accounts : List Name) (timeSlot : U32)
  | addTransactionUsage (accounts : List Name) (cpuUsage netUsage : U64) (timeSlot : U32)
  | addPendingRamUsage (account : Name) (ramDelta : I64)
  | verifyAccountGstUsage (account : Name)
  | setAccountLimits (account : Name) (ramBytes netWeight cpuWeight : I64)
  | setGstLimits (account : Name) (gstBytes : I64)
  | setGasLimits (flag : Bool)
  | processAccountLimitUpdates
  | processBlockUsage (blockNum : U32)

variable (d : Decl)

/-- The manager call an `Op` stands for. -/
def Op.exec : Op → ChainM Unit
  | .initializeAccount a => Gstio.initializeAccount d a
  | .setBlockParameters cpu net => Gstio.setBlockParameters cpu net
  | .updateAccountUsage accounts t => Gstio.updateAccountUsage d accounts t
  | .addTransactionUsage accounts cpu net t => Gstio.addTransactionUsage d accounts cpu net t
  | .addPendingRamUsage a δ => Gstio.addPendingRamUsage a δ
  | .verifyAccountGstUsage a => Gstio.verifyAccountGstUsage a
  | .setAccountLimits a r n c => Gstio.setAccountLimits a r n c >>= fun _ => pure ()
  | .setGstLimits a b => Gstio.setGstLimits d a b >>= fun _ => pure ()
  | .setGasLimits flag => Gstio.setGasLimits flag
  | .processAccountLimitUpdates => Gstio.processAccountLimitUpdates
  | .processBlockUsage n => Gstio.processBlockUsage d n

/-- The store after `initialize_database` on the empty store. -/
def Db.init : Db :=
  { Db.empty with
    config := [d.configDefault]
    state := [{ StateRow.initial with
      virtualCpuLimit := d.configDefault.cpuLimitParameters.max
      virtualNetLimit := d.configDefault.netLimitParameters.max }] }

theorem initializeDatabase_empty : initializeDatabase d Db.empty = .ok () (Db.init d) := rfl

/-- The stores a chain reaches: `initialize_database`, then any successful calls. -/
inductive Reachable : Db → Prop
  | init : Reachable (Db.init d)
  | step {db db' : Db} (op : Op) : Reachable db → op.exec d db = .ok () db' → Reachable db'

/-- The store after a call, a failed call being rolled back. -/
def Op.apply (op : Op) (db : Db) : Db :=
  match op.exec d db with
  | .ok _ db' => db'
  | .error _ _ => db

/-- The store after a list of calls. -/
def runOps (ops : List Op) (db : Db) : Db := ops.foldl (fun db op => op.apply d db) db

theorem Reachable.apply {db : Db} (h : Reachable d db) (op : Op) : Reachable d (op.apply d db) := by
  unfold Op.apply
  split
  · exact .step op h ‹_›
  · exact h

theorem Reachable.runOps {db : Db} (h : Reachable d db) (ops : List Op) :
    Reachable d (Gstio.runOps d ops db) := by
  induction ops generalizing db with
  | nil => exact h
  | cons op ops ih => exact ih (h.apply d op)

/-- A declaration to run the model on: precision `10^6`, unlimited default weights, no initial
gas usage, and sample block parameters. -/
def Decl.sample : Decl where
  rateLimitingPrecision := 1000000
  rateLimitingPrecision_pos := by decide
  ramBytesDefault := -1
  netWeightDefault := -1
  cpuWeightDefault := -1
  gstUsageDefault := 0
  configDefault :=
    { cpuLimitParameters := ⟨40000, 200000, 120, 1000, ⟨99, 100⟩, ⟨1000, 999⟩⟩
      netLimitParameters := ⟨104857, 1048576, 120, 1000, ⟨99, 100⟩, ⟨1000, 999⟩⟩
      accountCpuUsageAverageWindow := 172800
      accountNetUsageAverageWindow := 172800 }

end Gstio
