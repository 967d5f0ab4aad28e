import Gstio.Limits

/-!
# Gstio.Gas — RAM usage and the gas tables

`add_pending_ram_usage` moves an account's `ram_usage` by a signed delta, with one check against
`UINT64_MAX` and one against zero, and then, while gas is active, moves the account's pending
`gst_usage` by the same delta, saturating at zero.

* `addPendingRamUsage_spec` — the call succeeds exactly when the new usage fits in `[0, 2^64)`,
  writes exactly that usage, touches no other account's usage, and on failure leaves the store
  as it was;
* `gstUsage_wraps_sample` — the saturation test adds in `int64_t`, so a usage of `2^63 - 1`
  plus one wraps negative and the usage is reset to zero;
* `isActivation_runOps` — over any run, `is_activation()` is the flag of a three-state machine
  driven by the `set_gas_limits` calls alone: the first creates the activation row with
  `is_activation = true`, whatever its flag (`setGasLimits_false_activates`), and each later one
  writes its flag.
-/

namespace Gstio

variable {db db' : Db} {a : Name} {δ : I64}

/-! ### Reading the activation flag -/

theorem isActivation_apply (db : Db) :
    isActivation db =
      .ok (((db.activation.find (toLex (true, gstio))).map ActivationRow.isActivation).getD false) db := by
  unfold isActivation
  rw [bind_apply_ok (TableRef.findRow_apply _ _ _), activationRef_read]
  cases db.activation.find (toLex (true, gstio)) <;> rfl

/-! ### The gas block -/

/-- The gas block never raises and leaves the usage table alone. -/
theorem addPendingGstUsage_ok (a : Name) (δ : I64) (db : Db) :
    ∃ db', addPendingGstUsage a δ db = .ok () db' ∧ db'.usage = db.usage := by
  unfold addPendingGstUsage
  rw [bind_apply_ok (isActivation_apply db)]
  split
  · rw [bind_apply_ok (TableRef.findRow_apply _ _ _), gstRef_read]
    cases hf : db.gst.find (toLex (true, a)) with
    | some _ => exact ⟨_, rfl, rfl⟩
    | none =>
      refine ⟨_, gstRef.createRow_eq_ok.mpr ⟨_, (Option.some_get (Table.create_isSome ?_)).symm, rfl⟩, rfl⟩
      exact hf
  · exact ⟨_, rfl, rfl⟩

/-! ### `add_pending_ram_usage` -/

/-- The check against `UINT64_MAX` holds exactly when the new usage does not pass it. -/
theorem ramOverflowCheck_iff (u : U64) (δ : I64) :
    (δ.val ≤ 0 ∨ toUnsigned 64 δ.val ≤ U64.max - u) ↔ (u.val : Int) + δ.val ≤ 2 ^ 64 - 1 := by
  have := δ.lt; have := u.isLt
  rw [Fin.le_def, Fin.sub_val_of_le (Fin.le_def.mpr (by simp only [U64.max_val]; omega)), U64.max_val,
    toUnsigned_val]
  omega

/-- The check against zero holds exactly when the new usage is not negative, `INT64_MIN`
included: its negation wraps to itself, whose `uint64_t` value is `2^63`. -/
theorem ramUnderflowCheck_iff (u : U64) (δ : I64) :
    (0 ≤ δ.val ∨ toUnsigned 64 (-δ).val ≤ u) ↔ 0 ≤ (u.val : Int) + δ.val := by
  have := δ.lt; have := δ.ge
  rw [Fin.le_def, toUnsigned_val, I64.neg_val]
  omega

/-- The new usage, when it fits, is the exact sum. -/
theorem ramUsage_add_val {u : U64} (h0 : 0 ≤ (u.val : Int) + δ.val)
    (h1 : (u.val : Int) + δ.val ≤ 2 ^ 64 - 1) : ((u + toUnsigned 64 δ.val).val : Int) = u.val + δ.val := by
  rw [Fin.val_add, toUnsigned_val]
  omega

/-- `add_pending_ram_usage` with a non-zero delta on an account with a usage row: the two checks,
then the usage write, then the gas block. -/
theorem addPendingRamUsage_apply {row : UsageRow} (hδ : δ.val ≠ 0) (hrow : db.usage.find a = some row) :
    addPendingRamUsage a δ db =
      if δ.val ≤ 0 ∨ toUnsigned 64 δ.val ≤ U64.max - row.ramUsage then
        if 0 ≤ δ.val ∨ toUnsigned 64 (-δ).val ≤ row.ramUsage then
          addPendingGstUsage a δ { db with usage := (db.usage.modify a
            fun u => { u with ramUsage := u.ramUsage + toUnsigned 64 δ.val }) }
        else .error ⟨.transactionException, "Ram usage delta would underflow UINT64_MAX"⟩ db
      else .error ⟨.transactionException, "Ram usage delta would overflow UINT64_MAX"⟩ db := by
  unfold addPendingRamUsage
  rw [if_neg hδ, bind_apply_ok (pure_apply ())]
  dsimp only
  rw [bind_apply_ok (usageRef.getRow_eq_ok.mpr ⟨hrow, rfl⟩), gstAssert_bind_apply, gstAssert_bind_apply]
  rfl

/-- **`add_pending_ram_usage`.**  On an account whose usage row holds `u`, the call with delta `d`
(`INT64_MIN` included) succeeds exactly when `0 ≤ u + d ≤ 2^64 - 1`; then the row holds exactly
`u + d` and no other account's usage row changes; and a failed call leaves the whole store,
the gas rows included, as it was. -/
theorem addPendingRamUsage_spec {row : UsageRow} (hrow : db.usage.find a = some row) (δ : I64) :
    ((∃ db', addPendingRamUsage a δ db = .ok () db') ↔
        0 ≤ (row.ramUsage.val : Int) + δ.val ∧ (row.ramUsage.val : Int) + δ.val ≤ 2 ^ 64 - 1) ∧
      (∀ db', addPendingRamUsage a δ db = .ok () db' →
        (∃ u, db'.usage.find a = some { row with ramUsage := u } ∧
          (u.val : Int) = row.ramUsage.val + δ.val) ∧
        ∀ b, b ≠ a → db'.usage.find b = db.usage.find b) ∧
      (∀ e db', addPendingRamUsage a δ db = .error e db' → db' = db) := by
  have hu := row.ramUsage.isLt
  by_cases hδ : δ.val = 0
  · have hrun : addPendingRamUsage a δ db = .ok () db := by
      unfold addPendingRamUsage; rw [if_pos hδ]; rfl
    refine ⟨⟨fun _ => by omega, fun _ => ⟨db, hrun⟩⟩, fun db' h => ?_, fun e db' h => ?_⟩
    · rw [hrun] at h; cases h
      exact ⟨⟨row.ramUsage, hrow, by omega⟩, fun _ _ => rfl⟩
    · rw [hrun] at h; cases h
  rw [addPendingRamUsage_apply hδ hrow]
  by_cases h1 : (row.ramUsage.val : Int) + δ.val ≤ 2 ^ 64 - 1
  · by_cases h0 : 0 ≤ (row.ramUsage.val : Int) + δ.val
    · rw [if_pos ((ramOverflowCheck_iff _ _).mpr h1), if_pos ((ramUnderflowCheck_iff _ _).mpr h0)]
      obtain ⟨db', hrun, husage⟩ := addPendingGstUsage_ok a δ
        { db with usage := (db.usage.modify a
          fun u => { u with ramUsage := u.ramUsage + toUnsigned 64 δ.val }) }
      refine ⟨⟨fun _ => ⟨h0, h1⟩, fun _ => ⟨db', hrun⟩⟩, fun db'' h => ?_, fun e db'' h => ?_⟩
      · rw [hrun] at h; cases h
        rw [husage]
        refine ⟨⟨_, by simp [Table.find_modify, hrow], ramUsage_add_val h0 h1⟩, fun b hb => ?_⟩
        simp [Table.find_modify, Ne.symm hb]
      · rw [hrun] at h; cases h
    · rw [if_pos ((ramOverflowCheck_iff _ _).mpr h1), if_neg (mt (ramUnderflowCheck_iff _ _).mp h0)]
      exact ⟨⟨fun ⟨_, h⟩ => (by cases h), fun h => absurd h.1 h0⟩, fun _ h => (by cases h),
        fun _ _ h => (by cases h; rfl)⟩
  · rw [if_neg (mt (ramOverflowCheck_iff _ _).mp h1)]
    exact ⟨⟨fun ⟨_, h⟩ => (by cases h), fun h => absurd h.2 h1⟩, fun _ h => (by cases h),
      fun _ _ h => (by cases h; rfl)⟩

theorem addPendingRamUsage_spec_sample :
    (runOps Decl.sample [.initializeAccount 1] (Db.init Decl.sample)).usage.find 1 = some (UsageRow.initial 1) ∧
      ((∃ db', addPendingRamUsage 1 100 (runOps Decl.sample [.initializeAccount 1] (Db.init Decl.sample)) =
          .ok () db') ↔
        0 ≤ ((UsageRow.initial 1).ramUsage.val : Int) + (100 : I64).val ∧
          ((UsageRow.initial 1).ramUsage.val : Int) + (100 : I64).val ≤ 2 ^ 64 - 1) ∧
      (∀ db', addPendingRamUsage 1 100 (runOps Decl.sample [.initializeAccount 1] (Db.init Decl.sample)) =
          .ok () db' →
        (∃ u, db'.usage.find 1 = some { UsageRow.initial 1 with ramUsage := u } ∧
          (u.val : Int) = (UsageRow.initial 1).ramUsage.val + (100 : I64).val) ∧
        ∀ b, b ≠ 1 → db'.usage.find b =
          (runOps Decl.sample [.initializeAccount 1] (Db.init Decl.sample)).usage.find b) ∧
      (∀ e db', addPendingRamUsage 1 100 (runOps Decl.sample [.initializeAccount 1] (Db.init Decl.sample)) =
          .error e db' → db' = runOps Decl.sample [.initializeAccount 1] (Db.init Decl.sample)) :=
  have hrow : (runOps Decl.sample [.initializeAccount 1] (Db.init Decl.sample)).usage.find 1 =
      some (UsageRow.initial 1) := by decide
  ⟨hrow, addPendingRamUsage_spec hrow 100⟩

/-! ### The saturating gas update -/

/-- An account with a gas usage of `2^63 - 1`, gas being active. -/
def gstUsageNearWrap : List Op :=
  [.initializeAccount 1, .setGasLimits true, .addPendingRamUsage 1 (I64.ofInt (2 ^ 63 - 1))]

/-- `add_pending_ram_usage(a, 1)` on a gas usage of `2^63 - 1` succeeds and resets the usage to 0:
the test `(int64_t)gst_usage + ram_delta < 0` wraps to `INT64_MIN`, where the saturating update
`max(g + d, 0)` gives `2^63`. -/
theorem gstUsage_wraps_sample :
    ((runOps Decl.sample gstUsageNearWrap (Db.init Decl.sample)).gst.find (toLex (true, 1))).map
        (fun r => r.gstUsage.val) = some (2 ^ 63 - 1) ∧
      ChainM.exception (addPendingRamUsage 1 1) (runOps Decl.sample gstUsageNearWrap (Db.init Decl.sample)) =
        none ∧
      ((runOps Decl.sample (gstUsageNearWrap ++ [.addPendingRamUsage 1 1]) (Db.init Decl.sample)).gst.find
        (toLex (true, 1))).map (fun r => r.gstUsage.val) = some 0 := by
  decide

/-! ### The activation flag -/

/-- The flag of the activation row of `gstio`; `none` while there is no row. -/
def activationFlag (db : Db) : Option Bool :=
  (db.activation.find (toLex (true, gstio))).map ActivationRow.isActivation

/-- What one call does to `activationFlag`: `set_gas_limits` creates the row with `true` when there
is none and writes its flag when there is one; no other call touches the row. -/
def activationStep (b : Option Bool) : Op → Option Bool
  | .setGasLimits flag =>
    match b with
    | none => some true
    | some _ => some flag
  | _ => b

theorem isActivation_value (db : Db) :
    ChainM.value isActivation db = some ((activationFlag db).getD false) := by
  rw [ChainM.value, isActivation_apply]; rfl

/-- `set_gas_limits` never raises, and moves the flag as `activationStep` says. -/
theorem setGasLimits_activationFlag (flag : Bool) (db : Db) :
    ∃ db', setGasLimits flag db = .ok () db' ∧
      activationFlag db' = activationStep (activationFlag db) (.setGasLimits flag) := by
  unfold setGasLimits activationFlag
  rw [bind_apply_ok (TableRef.findRow_apply _ _ _), activationRef_read]
  cases h : db.activation.find (toLex (true, gstio)) with
  | none =>
    obtain ⟨t, ht⟩ := Option.isSome_iff_exists.mp
      (Table.create_isSome (show db.activation.find (ActivationRow.key ⟨gstio, true, true⟩) = none from h))
    refine ⟨_, activationRef.createRow_eq_ok.mpr ⟨t, ht, rfl⟩, ?_⟩
    simp [Table.find_create ht, ActivationRow.key, activationStep]
  | some r => exact ⟨_, rfl, by simp [Table.find_modify, h, activationStep]⟩

theorem activation_limits (db : Db) (t : Table LimitsRow.key) :
    (limitsRef.write db t).activation = db.activation := rfl

theorem activation_usage (db : Db) (t : Table UsageRow.owner) :
    (usageRef.write db t).activation = db.activation := rfl

theorem activation_gst (db : Db) (t : Table GstRow.key) : (gstRef.write db t).activation = db.activation :=
  rfl

theorem activation_config (db : Db) (c : List ConfigRow) : { db with config := c }.activation = db.activation :=
  rfl

theorem activation_modifyState (db : Db) (g : StateRow → StateRow)
    (_ : ∀ s, db.state.head? = some s → (g s).totals = s.totals) :
    { db with state := db.state.modifyHead g }.activation = db.activation := rfl

section Runs

variable (d : Decl)

theorem activationFlag_of_keeps (op : Op) (hx : Keeps Db.activation (op.exec d)) (db : Db) :
    activationFlag (op.apply d db) = activationFlag db := by
  unfold Op.apply
  split
  · next db' h => unfold activationFlag; rw [hx db _ db' h]
  · rfl

/-- **Step lemma.**  Every call, rolled back when it fails, moves the flag as `activationStep` says. -/
theorem activationFlag_apply : ∀ (op : Op) (db : Db),
    activationFlag (op.apply d db) = activationStep (activationFlag db) op
  | .setGasLimits flag, db => by
    obtain ⟨db', hrun, h⟩ := setGasLimits_activationFlag flag db
    rw [← h, Op.apply, show Op.exec d (.setGasLimits flag) db = .ok () db' from hrun]
  | .initializeAccount a, db => activationFlag_of_keeps d (.initializeAccount a)
    (initializeAccount_keeps d activation_limits activation_usage a) db
  | .setAccountLimits a r n c, db => activationFlag_of_keeps d (.setAccountLimits a r n c)
    (.bind (setAccountLimits_keeps activation_limits a r n c) fun _ => .pure _) db
  | .processAccountLimitUpdates, db => activationFlag_of_keeps d .processAccountLimitUpdates
    (fun _ _ _ h => by obtain ⟨_, _, _, _, -, -, rfl⟩ := processAccountLimitUpdates_eq_ok h; rfl) db
  | .setBlockParameters cpu net, db => activationFlag_of_keeps d (.setBlockParameters cpu net)
    (setBlockParameters_keeps (configHead_of_write activation_config) cpu net) db
  | .updateAccountUsage accounts ts, db => activationFlag_of_keeps d (.updateAccountUsage accounts ts)
    (updateAccountUsage_keeps d (usageRows_of_write activation_usage) accounts ts) db
  | .addTransactionUsage accounts cpu net ts, db =>
    activationFlag_of_keeps d (.addTransactionUsage accounts cpu net ts)
      (addTransactionUsage_keeps d (usageRows_of_write activation_usage) activation_modifyState accounts cpu net
        ts) db
  | .addPendingRamUsage a δ, db => activationFlag_of_keeps d (.addPendingRamUsage a δ)
    (addPendingRamUsage_keeps (usageRows_of_write activation_usage) activation_gst a δ) db
  | .verifyAccountGstUsage a, db => activationFlag_of_keeps d (.verifyAccountGstUsage a)
    (verifyAccountGstUsage_keeps activation_gst a) db
  | .setGstLimits a b, db => activationFlag_of_keeps d (.setGstLimits a b)
    (.bind (setGstLimits_keeps d activation_gst a b) fun _ => .pure _) db
  | .processBlockUsage n, db => activationFlag_of_keeps d (.processBlockUsage n)
    (processBlockUsage_keeps d activation_modifyState n) db

/-- **Run lemma.** -/
theorem activationFlag_runOps (ops : List Op) (db : Db) :
    activationFlag (runOps d ops db) = ops.foldl activationStep (activationFlag db) := by
  induction ops generalizing db with
  | nil => rfl
  | cons op ops ih => exact (ih (op.apply d db)).trans (by rw [activationFlag_apply]; rfl)

/-- **The activation flag over runs.**  After any run from `initialize_database`, failed calls
rolled back, `is_activation()` returns the flag `activationStep` computes from the calls alone:
`false` before the first `set_gas_limits`, `true` after it whatever its flag, then the flag of
each later `set_gas_limits`; no other call changes it. -/
theorem isActivation_runOps (ops : List Op) :
    ChainM.value isActivation (runOps d ops (Db.init d)) =
      some ((ops.foldl activationStep none).getD false) := by
  rw [isActivation_value, activationFlag_runOps]
  rfl

/-- From `initialize_database`, `set_gas_limits(false)` turns gas on. -/
theorem setGasLimits_false_activates :
    ChainM.value isActivation (Db.init d) = some false ∧
      ChainM.value isActivation (runOps d [.setGasLimits false] (Db.init d)) = some true := by
  refine ⟨rfl, ?_⟩
  rw [isActivation_value, activationFlag_runOps]
  rfl

end Runs

end Gstio
