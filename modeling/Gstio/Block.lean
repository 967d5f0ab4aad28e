import Gstio.Gas

/-!
# Gstio.Block — the block's pending usage and its virtual limits

`add_transaction_usage` adds the transaction's usage to `pending_{cpu,net}_usage` in `uint64_t`
and then checks the sum against the block maximum; `process_block_usage` folds the pending usage
into the block averages and moves each virtual limit by `update_elastic_limit`.

* `pendingCpuUsage_wraps_sample` — the addition wraps, so a usage of `2^64 - 1` on top of a
  pending 5 passes the block check and leaves 4 pending;
* `blockLimits_runOps` — from `initialize_database` or a successful `process_block_usage`, every
  run that does not call `set_block_parameters` keeps the pending usage within the block maxima;
  `set_block_parameters` alone can break it, and `get_block_cpu_limit` then wraps;
* `updateElasticLimit_wraps` — `update_elastic_limit` stays at most the `uint64_t` product
  `max * max_multiplier`, and reaches `max` exactly when `max` is at most that wrapped product;
  `validate()` admits `max = 2^63`, `max_multiplier = 2`, where the product wraps to 0 and both
  virtual limits become 0 after a block, and a zero multiplier, where the interval
  `[max, max * max_multiplier]` is empty (`updateElasticLimit_zero_multiplier_sample`).
-/

namespace Gstio

variable (d : Decl)

/-! ### The block's pending usage -/

/-- The pending usage of the block wraps: after a transaction of CPU usage 5, one of CPU usage
`2^64 - 1`, with no authorizer to check, passes the block check, and 4 is pending. -/
theorem pendingCpuUsage_wraps_sample :
    ChainM.exception (addTransactionUsage Decl.sample [] U64.max 0 0)
        (runOps Decl.sample [.addTransactionUsage [] 5 0 0] (Db.init Decl.sample)) = none ∧
      (runOps Decl.sample [.addTransactionUsage [] 5 0 0, .addTransactionUsage [] U64.max 0 0]
        (Db.init Decl.sample)).state.head?.map (fun s => s.pendingCpuUsage.val) = some 4 := by
  decide

/-- What a successful `add_transaction_usage` did: the loop over the authorizers, from the state
and config rows it read, then the pending usage moved by the transaction and found within the
block maximum. -/
theorem addTransactionUsage_eq_ok {db db' : Db} {accounts : List Name} {cpu net : U64} {t : U32}
    (h : addTransactionUsage d accounts cpu net t db = .ok () db') :
    ∃ s c db1, db.state.head? = some s ∧ db.config.head? = some c ∧
      accounts.forM (addAccountTransactionUsage d s c cpu net t) db = .ok () db1 ∧
      db' = { db1 with state := db1.state.modifyHead fun rls => { rls with
        pendingCpuUsage := rls.pendingCpuUsage + cpu, pendingNetUsage := rls.pendingNetUsage + net } } ∧
      ∃ s', db'.state.head? = some s' ∧ s'.pendingCpuUsage ≤ c.cpuLimitParameters.max ∧
        s'.pendingNetUsage ≤ c.netLimitParameters.max := by
  simp only [addTransactionUsage, bind_eq_ok, getState_eq_ok, getConfig_eq_ok, gstAssert_apply,
    modifyState_apply] at h
  obtain ⟨s, _, ⟨hs, rfl⟩, c, _, ⟨hc, rfl⟩, _, db1, hfor, _, _, ⟨⟩, s', _, ⟨hs', rfl⟩, _, _, h1, h2⟩ := h
  split at h1 <;> cases h1
  split at h2 <;> cases h2
  exact ⟨s, c, db1, hs, hc, hfor, rfl, s', hs', ‹_›, ‹_›⟩

theorem config_usage (db : Db) (t : Table UsageRow.owner) : (usageRef.write db t).config = db.config :=
  rfl

theorem state_usage (db : Db) (t : Table UsageRow.owner) : (usageRef.write db t).state = db.state :=
  rfl

theorem getBlockCpuLimit_apply {db : Db} {s : StateRow} {c : ConfigRow} (hs : db.state.head? = some s)
    (hc : db.config.head? = some c) :
    getBlockCpuLimit db = .ok (c.cpuLimitParameters.max - s.pendingCpuUsage) db := by
  unfold getBlockCpuLimit
  rw [bind_apply_ok (getState_eq_ok.mpr ⟨hs, rfl⟩), bind_apply_ok (getConfig_eq_ok.mpr ⟨hc, rfl⟩)]
  rfl

theorem getBlockNetLimit_apply {db : Db} {s : StateRow} {c : ConfigRow} (hs : db.state.head? = some s)
    (hc : db.config.head? = some c) :
    getBlockNetLimit db = .ok (c.netLimitParameters.max - s.pendingNetUsage) db := by
  unfold getBlockNetLimit
  rw [bind_apply_ok (getState_eq_ok.mpr ⟨hs, rfl⟩), bind_apply_ok (getConfig_eq_ok.mpr ⟨hc, rfl⟩)]
  rfl

/-! ### The virtual limits -/

/-- Parameters that `validate()` accepts: target and max `2^63`, multiplier 2, so that the bound
`max * max_multiplier = 2^64` wraps to 0 in `uint64_t`. -/
def wrapMultiplierParameters : ElasticLimitParameters :=
  ⟨9223372036854775808, 9223372036854775808, 1, 2, ⟨1, 1⟩, ⟨1, 1⟩⟩

/-- **The clamp of `update_elastic_limit` wraps.**  `std::min(std::max(result, max),
max * max_multiplier)` takes its upper bound as a `uint64_t` product and applies it last: for every
parameter set and input the result is at most that product modulo `2^64`, and it is at least `max`
exactly when `max` is at most the wrapped product.  `validate()` accepts `max = 2^63` with
`max_multiplier = 2`, whose product wraps to 0: there `update_elastic_limit` returns 0 for every
current limit and average, and after one block under these parameters both virtual limits are 0,
below `max`. -/
theorem updateElasticLimit_wraps :
    (∀ (p : ElasticLimitParameters) c a,
      (updateElasticLimit c a p).val ≤ p.max.val * p.maxMultiplier.val % 2 ^ 64 ∧
        (p.max.val ≤ (updateElasticLimit c a p).val ↔ p.max.val ≤ p.max.val * p.maxMultiplier.val % 2 ^ 64)) ∧
      wrapMultiplierParameters.validate = .ok () ∧
      wrapMultiplierParameters.max.val * wrapMultiplierParameters.maxMultiplier.val = 2 ^ 64 ∧
      (∀ c a, updateElasticLimit c a wrapMultiplierParameters = 0) ∧
      (runOps Decl.sample [.setBlockParameters wrapMultiplierParameters wrapMultiplierParameters,
        .processBlockUsage 1] (Db.init Decl.sample)).state.head?.map
          (fun s => (s.virtualCpuLimit.val, s.virtualNetLimit.val)) = some (0, 0) := by
  have hwrap : wrapMultiplierParameters.max.val * wrapMultiplierParameters.maxMultiplier.val % 2 ^ 64 = 0 :=
    by decide
  exact ⟨fun p c a => ⟨updateElasticLimit_le c a p, fun h => h.trans (updateElasticLimit_le c a p),
    max_le_updateElasticLimit c a p⟩, rfl, rfl,
    fun c a => Fin.ext (Nat.le_zero.mp (hwrap ▸ updateElasticLimit_le c a _)), by decide⟩

/-- Parameters that `validate()` accepts, with a zero multiplier. -/
def zeroMultiplierParameters : ElasticLimitParameters := ⟨1000, 1000, 1, 0, ⟨1, 1⟩, ⟨1, 1⟩⟩

/-- A zero multiplier makes the bound 0 with no wrap, so the interval `[max, max * max_multiplier]`
is empty: `update_elastic_limit` returns 0, below `max`, and after a block the virtual CPU limit of a
chain running with these parameters is 0. -/
theorem updateElasticLimit_zero_multiplier_sample :
    zeroMultiplierParameters.validate = .ok () ∧ updateElasticLimit 1000 0 zeroMultiplierParameters = 0 ∧
    (runOps Decl.sample [.setBlockParameters zeroMultiplierParameters zeroMultiplierParameters,
      .processBlockUsage 1] (Db.init Decl.sample)).state.head?.map (fun s => s.virtualCpuLimit.val) =
      some 0 :=
  ⟨rfl, by decide, by decide⟩

/-! ### The block budget over runs -/

/-- The block budget: the state and config rows exist, and the pending usage of the block is
within the block maxima of the config row. -/
def BlockWithin (db : Db) : Prop :=
  ∃ s c, db.state.head? = some s ∧ db.config.head? = some c ∧
    s.pendingCpuUsage.val ≤ c.cpuLimitParameters.max.val ∧ s.pendingNetUsage.val ≤ c.netLimitParameters.max.val

/-- What `BlockWithin` reads: the pending usage of the state row, and the config rows. -/
def blockView (db : Db) : Option (U64 × U64) × List ConfigRow :=
  (db.state.head?.map fun s => (s.pendingCpuUsage, s.pendingNetUsage), db.config)

/-- `set_block_parameters`, the one call that writes the block maxima. -/
def Op.isSetBlockParameters : Op → Bool
  | .setBlockParameters _ _ => true
  | _ => false

theorem BlockWithin.of_view {db db' : Db} (h : BlockWithin db) (hv : blockView db' = blockView db) :
    BlockWithin db' := by
  obtain ⟨s, c, hs, hc, hcpu, hnet⟩ := h
  obtain ⟨hp, hcfg⟩ := Prod.mk.inj hv
  rw [hs, Option.map_some'] at hp
  obtain ⟨s', hs', he⟩ := Option.map_eq_some'.mp hp
  obtain ⟨h1, h2⟩ := Prod.mk.inj he
  exact ⟨s', c, hs', hcfg ▸ hc, h1 ▸ hcpu, h2 ▸ hnet⟩

theorem BlockWithin.of_keeps {α : Type} {x : ChainM α} {r : α} {db db' : Db} (h : BlockWithin db)
    (hx : Keeps blockView x) (hrun : x db = .ok r db') : BlockWithin db' :=
  h.of_view (hx _ _ _ hrun)

theorem blockView_limits (db : Db) (t : Table LimitsRow.key) : blockView (limitsRef.write db t) = blockView db :=
  rfl

theorem blockView_usage (db : Db) (t : Table UsageRow.owner) : blockView (usageRef.write db t) = blockView db :=
  rfl

theorem blockView_gst (db : Db) (t : Table GstRow.key) : blockView (gstRef.write db t) = blockView db := rfl

theorem blockView_activation (db : Db) (t : Table ActivationRow.key) :
    blockView (activationRef.write db t) = blockView db := rfl

/-- `process_account_limit_updates` writes only the totals of the state row. -/
theorem processAccountLimitUpdates_blockView : Keeps blockView processAccountLimitUpdates := by
  intro db _ db' hrun
  obtain ⟨s, rest, t, rso, hs, hc, rfl⟩ := processAccountLimitUpdates_eq_ok hrun
  have hp := (commitAll_ok_inv
    (fun _ rso => (rso.pendingCpuUsage, rso.pendingNetUsage) = (s.pendingCpuUsage, s.pendingNetUsage))
    (fun _ _ _ _ _ _ hp _ _ hc => by obtain ⟨_, _, _, -, -, -, rfl⟩ := commitTotals_eq_ok hc; exact hp)
    _ _ _ rfl rfl hc).1
  simp only [blockView, hs, List.head?_cons, Option.map_some', hp]

theorem addTransactionUsage_blockWithin {db db' : Db} {accounts : List Name} {cpu net : U64} {t : U32}
    (h : addTransactionUsage d accounts cpu net t db = .ok () db') : BlockWithin db' := by
  obtain ⟨_, c, db1, -, hc, hfor, rfl, s, hs, hcpu, hnet⟩ := addTransactionUsage_eq_ok d h
  have hcfg : db1.config = db.config :=
    forM_addAccountTransactionUsage_keeps d (usageRows_of_write config_usage) _ _ _ hfor
  rw [← hcfg] at hc
  exact ⟨s, c, hs, hc, hcpu, hnet⟩

theorem blockUsageUpdate_pending {c : ConfigRow} {s s' : StateRow} {n : U32}
    (h : blockUsageUpdate d c s n = .ok s') : s'.pendingCpuUsage = 0 ∧ s'.pendingNetUsage = 0 := by
  obtain ⟨_, -, h⟩ := except_bind_eq_ok.mp h
  obtain ⟨_, -, h⟩ := except_bind_eq_ok.mp h
  cases h
  exact ⟨rfl, rfl⟩

/-- `process_block_usage` sets the pending usage to zero. -/
theorem processBlockUsage_blockWithin {db db' : Db} {n : U32} (h : processBlockUsage d n db = .ok () db') :
    BlockWithin db' := by
  simp only [processBlockUsage, bind_eq_ok, getState_eq_ok, getConfig_eq_ok, fromExcept_eq_ok] at h
  obtain ⟨s, _, ⟨hs, rfl⟩, c, _, ⟨hc, rfl⟩, s', _, ⟨h3, rfl⟩, h⟩ := h
  cases h
  obtain ⟨h1, h2⟩ := blockUsageUpdate_pending d h3
  exact ⟨s', c, by simp [List.head?_modifyHead, hs], hc, by simp [h1], by simp [h2]⟩

/-- **Step lemma.** Every successful call but `set_block_parameters` keeps the block budget. -/
theorem BlockWithin.step {db db' : Db} (h : BlockWithin db) :
    ∀ op : Op, op.isSetBlockParameters = false → op.exec d db = .ok () db' → BlockWithin db'
  | .initializeAccount a, _, hrun => h.of_keeps (initializeAccount_keeps d blockView_limits blockView_usage a) hrun
  | .setAccountLimits a r n c, _, hrun =>
    h.of_keeps (.bind (setAccountLimits_keeps blockView_limits a r n c) fun _ => .pure _) hrun
  | .processAccountLimitUpdates, _, hrun => h.of_keeps processAccountLimitUpdates_blockView hrun
  | .setBlockParameters .., hb, _ => by cases hb
  | .updateAccountUsage accounts t, _, hrun =>
    h.of_keeps (updateAccountUsage_keeps d (usageRows_of_write blockView_usage) accounts t) hrun
  | .addTransactionUsage .., _, hrun => addTransactionUsage_blockWithin d hrun
  | .addPendingRamUsage a δ, _, hrun =>
    h.of_keeps (addPendingRamUsage_keeps (usageRows_of_write blockView_usage) blockView_gst a δ) hrun
  | .verifyAccountGstUsage a, _, hrun => h.of_keeps (verifyAccountGstUsage_keeps blockView_gst a) hrun
  | .setGstLimits a b, _, hrun => h.of_keeps (.bind (setGstLimits_keeps d blockView_gst a b) fun _ => .pure _) hrun
  | .setGasLimits flag, _, hrun => h.of_keeps (setGasLimits_keeps blockView_activation flag) hrun
  | .processBlockUsage _, _, hrun => processBlockUsage_blockWithin d hrun

/-- **Run lemma.** -/
theorem BlockWithin.runOps {db : Db} (h : BlockWithin db) {ops : List Op}
    (hops : ∀ op ∈ ops, op.isSetBlockParameters = false) : BlockWithin (Gstio.runOps d ops db) := by
  induction ops generalizing db with
  | nil => exact h
  | cons op ops ih =>
    refine ih ?_ fun o ho => hops o (.tail _ ho)
    show BlockWithin (op.apply d db)
    unfold Op.apply; split
    · exact h.step d op (hops op (.head _)) ‹_›
    · exact h

/-- **The block budget over runs.**  The pending usage is within the block maxima in the store
`initialize_database` leaves and after every successful `process_block_usage`.  From such a store,
every run of calls that does not call `set_block_parameters` keeps it there, so
`get_block_{cpu,net}_limit()` return `max - pending` without wrapping. -/
theorem blockLimits_runOps :
    BlockWithin (Db.init d) ∧ (∀ db db' n, processBlockUsage d n db = .ok () db' → BlockWithin db') ∧
      ∀ db, BlockWithin db → ∀ ops : List Op, (∀ op ∈ ops, op.isSetBlockParameters = false) →
        ∃ s c, (runOps d ops db).state.head? = some s ∧ (runOps d ops db).config.head? = some c ∧
          s.pendingCpuUsage.val ≤ c.cpuLimitParameters.max.val ∧
          s.pendingNetUsage.val ≤ c.netLimitParameters.max.val ∧
          (ChainM.value getBlockCpuLimit (runOps d ops db)).map Fin.val =
            some (c.cpuLimitParameters.max.val - s.pendingCpuUsage.val) ∧
          (ChainM.value getBlockNetLimit (runOps d ops db)).map Fin.val =
            some (c.netLimitParameters.max.val - s.pendingNetUsage.val) := by
  refine ⟨⟨_, _, rfl, rfl, Nat.zero_le _, Nat.zero_le _⟩, fun _ _ _ => processBlockUsage_blockWithin d,
    fun db h ops hops => ?_⟩
  obtain ⟨s, c, hs, hc, hcpu, hnet⟩ := h.runOps d hops
  refine ⟨s, c, hs, hc, hcpu, hnet, ?_, ?_⟩
  · rw [ChainM.value, getBlockCpuLimit_apply hs hc, Option.map_some', Fin.sub_val_of_le hcpu]
  · rw [ChainM.value, getBlockNetLimit_apply hs hc, Option.map_some', Fin.sub_val_of_le hnet]

theorem blockLimits_runOps_sample :
    BlockWithin (Db.init Decl.sample) ∧
      (∀ op ∈ [.initializeAccount 1, .addTransactionUsage [] 5 0 0, .processBlockUsage 1,
        .addTransactionUsage [] 7 3 2], Op.isSetBlockParameters op = false) ∧
      ∃ s c, (runOps Decl.sample [.initializeAccount 1, .addTransactionUsage [] 5 0 0, .processBlockUsage 1,
          .addTransactionUsage [] 7 3 2] (Db.init Decl.sample)).state.head? = some s ∧
        (runOps Decl.sample [.initializeAccount 1, .addTransactionUsage [] 5 0 0, .processBlockUsage 1,
          .addTransactionUsage [] 7 3 2] (Db.init Decl.sample)).config.head? = some c ∧
        s.pendingCpuUsage.val ≤ c.cpuLimitParameters.max.val ∧
        s.pendingNetUsage.val ≤ c.netLimitParameters.max.val ∧
        (ChainM.value getBlockCpuLimit (runOps Decl.sample [.initializeAccount 1, .addTransactionUsage [] 5 0 0,
          .processBlockUsage 1, .addTransactionUsage [] 7 3 2] (Db.init Decl.sample))).map Fin.val =
          some (c.cpuLimitParameters.max.val - s.pendingCpuUsage.val) ∧
        (ChainM.value getBlockNetLimit (runOps Decl.sample [.initializeAccount 1, .addTransactionUsage [] 5 0 0,
          .processBlockUsage 1, .addTransactionUsage [] 7 3 2] (Db.init Decl.sample))).map Fin.val =
          some (c.netLimitParameters.max.val - s.pendingNetUsage.val) :=
  have h := blockLimits_runOps Decl.sample
  have hops : ∀ op ∈ [.initializeAccount 1, .addTransactionUsage [] 5 0 0, .processBlockUsage 1,
      .addTransactionUsage [] 7 3 2], Op.isSetBlockParameters op = false := by simp [Op.isSetBlockParameters]
  ⟨h.1, hops, h.2.2 _ h.1 _ hops⟩

/-- Block parameters with a maximum of 1, which `validate()` accepts. -/
def lowMaxParameters : ElasticLimitParameters := ⟨1, 1, 1, 1, ⟨1, 1⟩, ⟨1, 1⟩⟩

/-- `set_block_parameters` does not look at the pending usage: lowering the CPU maximum to 1 after
a transaction of CPU usage 5 makes `get_block_cpu_limit()` wrap to `2^64 - 4`. -/
example : lowMaxParameters.validate = .ok () ∧
    (ChainM.value getBlockCpuLimit (runOps Decl.sample [.addTransactionUsage [] 5 0 0,
      .setBlockParameters lowMaxParameters lowMaxParameters] (Db.init Decl.sample))).map Fin.val =
      some (2 ^ 64 - 4) :=
  ⟨rfl, by decide⟩

end Gstio
