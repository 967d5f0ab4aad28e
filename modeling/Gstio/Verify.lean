import Gstio.Share
import Mathlib.Data.ENat.Lattice
import Mathlib.Order.CompletePartialOrder

/-!
# Gstio.Verify — the `decreased_limit` flag of the two setters

`set_account_limits` and `set_gst_limits` return `decreased_limit`, and the header tells callers
it is `true` when the new limit is more restrictive: a caller re-runs `verify_account_ram_usage`
only then.  A signed limit is read as a bound in `ℕ∞`, a negative limit being `⊤` (unlimited).

* `decreasedLimit_eq` — the flag both setters compute is "new bound `<` old bound";
* `verifyAccountRamUsage_passes` — `verify_account_ram_usage` passes exactly when the resolved
  RAM limit bounds the usage and the gas block holds (`GasVerified`);
* `setAccountLimits_spec`, `setGstLimits_spec` — what each setter changes, seen through the
  accessors `verify_account_ram_usage` reads;
* `decreasedLimit_sound` — from any store on which an account passes, a setter that returns
  `false` leaves it passing, and each setter returns `false` exactly when its new limit is no
  tighter than the one it resolved.
-/

namespace Gstio

/-! ### Limits as bounds -/

/-- A signed limit as a bound: a negative `int64_t` limit is unlimited. -/
def I64.bound (x : I64) : ℕ∞ := if x.val < 0 then ⊤ else (x.val.toNat : ℕ∞)

theorem I64.bound_of_nonneg {x : I64} (h : 0 ≤ x.val) : x.bound = (x.val.toNat : ℕ∞) := by
  rw [I64.bound, if_neg (not_lt.mpr h)]

theorem I64.bound_of_neg {x : I64} (h : x.val < 0) : x.bound = ⊤ := by
  rw [I64.bound, if_pos h]

/-- The test both setters make is "the new limit is tighter than the old one". -/
theorem decreasedLimit_eq (new old : I64) :
    (decide (0 ≤ new.val) && decide (old.val < 0 ∨ new.val < old.val)) =
      decide (new.bound < old.bound) := by
  rcases lt_or_le new.val 0 with hn | hn <;> rcases lt_or_le old.val 0 with ho | ho
  · simp [I64.bound_of_neg hn, I64.bound_of_neg ho, hn]
  · simp [I64.bound_of_neg hn, hn]
  · simp [I64.bound_of_nonneg hn, I64.bound_of_neg ho, hn, ho]
  · simp [I64.bound_of_nonneg hn, I64.bound_of_nonneg ho, hn, not_lt.mpr ho]

theorem le_toUnsigned_iff {u : U64} {x : I64} (h : 0 ≤ x.val) :
    u ≤ toUnsigned 64 x.val ↔ (u.val : ℕ∞) ≤ x.bound := by
  have := x.lt
  rw [I64.bound_of_nonneg h, ENat.coe_le_coe, Fin.le_def, toUnsigned_val_of_lt h (by omega)]

/-- The usage check of `verify_account_ram_usage`, skipped for an unlimited account, is "the
usage is within the bound". -/
theorem ramCheck_iff (u : U64) (x : I64) :
    (0 ≤ x.val → u ≤ toUnsigned 64 x.val) ↔ (u.val : ℕ∞) ≤ x.bound := by
  rcases lt_or_le x.val 0 with h | h
  · simp [I64.bound_of_neg h, not_le.mpr h]
  · simp only [h, true_implies, le_toUnsigned_iff h]

/-! ### What `verify_account_ram_usage` checks -/

/-- The gas block of `verify_account_ram_usage`: while gas is active, the account's pending gas
row is within its bound unless it belongs to `gstio.gas` or `gstio`, and an account without one
passes only if it is `gstio.gas`. -/
def GasVerified (a : Name) (db : Db) : Prop :=
  (activationFlag db).getD false = true →
    match db.gst.find (toLex (true, a)) with
    | some p => p.owner ≠ gstioGas → p.owner ≠ gstio → (p.gstUsage.val : ℕ∞) ≤ p.gstBytes.bound
    | none => gstioGas = a

theorem GasVerified.congr {a : Name} {db db' : Db} (hg : db'.gst = db.gst)
    (ha : db'.activation = db.activation) : GasVerified a db' ↔ GasVerified a db := by
  unfold GasVerified activationFlag; rw [hg, ha]

variable {db db' : Db} {a : Name}

/-- **`verify_account_ram_usage` passes** exactly when the account has limits and a usage row,
its resolved RAM limit bounds its usage, and the gas block holds. -/
theorem verifyAccountRamUsage_passes :
    ChainM.exception (verifyAccountRamUsage a) db = none ↔
      (∃ l u, getAccountLimits a db = .ok l db ∧ db.usage.find a = some u ∧
        (u.ramUsage.val : ℕ∞) ≤ l.ramBytes.bound) ∧ GasVerified a db := by
  unfold verifyAccountRamUsage
  rcases hl : getAccountLimits a db with ⟨l, db1⟩ | ⟨e, db1⟩
  · have h1 : db1 = db := (getAccountLimits_keeps a : Keeps id (getAccountLimits a)) db l db1 hl
    subst db1
    rw [ChainM.exception_bind_ok hl]
    rcases hu : db.usage.find a with _ | u
    · rw [ChainM.exception_bind_error (show usageRef.getRow a db = .error Err.unknownKey db by
        simp [TableRef.getRow, hu])]
      simp
    rw [ChainM.exception_bind_ok (usageRef.getRow_eq_ok.mpr ⟨hu, rfl⟩)]
    dsimp only
    rw [ChainM.exception_check_then, ramCheck_iff]
    refine and_congr ⟨fun h => ⟨l, u, rfl, rfl, h⟩, fun ⟨_, _, h1, h2, h⟩ => by cases h1; cases h2; exact h⟩ ?_
    rw [ChainM.exception_bind_ok (isActivation_apply db), GasVerified, activationFlag]
    split
    · next hact =>
      rw [ChainM.exception_bind_ok (TableRef.findRow_apply _ _ _), gstRef_read, hact]
      rcases db.gst.find (toLex (true, a)) with _ | p
      · simp
      dsimp only
      rw [← ramCheck_iff]
      split
      · next hc => simp [hc.1, hc.2.1, hc.2.2]
      · next hc => simpa using fun h1 h2 h3 => absurd ⟨h3, h1, h2⟩ hc
    · next hact => simp [hact]
  · rw [ChainM.exception_bind_error hl]; simp

/-! ### The setters -/

theorem getAccountLimits_pending {p : LimitsRow} (h : db.limits.find (toLex (true, a)) = some p) :
    getAccountLimits a db = .ok p db := by
  unfold getAccountLimits
  rw [bind_apply_ok (TableRef.findRow_apply _ _ _), limitsRef_read, h]; rfl

/-- `set_account_limits` leaves the account's resolved row with the new limits, touches no table
`verify_account_ram_usage` reads besides the limits, and flags the new RAM limit against the
resolved one. -/
theorem setAccountLimits_spec {r n c : I64} {dec : Bool} (h : setAccountLimits a r n c db = .ok dec db') :
    ∃ l, getAccountLimits a db = .ok l db ∧
      getAccountLimits a db' = .ok { l with pending := true, ramBytes := r, netWeight := n, cpuWeight := c } db' ∧
      db'.usage = db.usage ∧ db'.gst = db.gst ∧ db'.activation = db.activation ∧
      dec = decide (r.bound < l.ramBytes.bound) := by
  obtain ⟨l, db1, h1, rfl, rfl⟩ := setAccountLimits_eq_ok h
  rcases findOrCreatePendingLimits_eq_ok h1 with ⟨hl, rfl⟩ | ⟨hnp, c', t, hc, rfl, ht, rfl⟩
  · refine ⟨l, getAccountLimits_pending hl, getAccountLimits_pending ?_, rfl, rfl, rfl, decreasedLimit_eq _ _⟩
    have hp := (pending_of_key (Table.find_eq_some_iff.mp hl).2).1
    rw [Table.find_modify, if_pos rfl, hl]
    cases l; cases hp; rfl
  · refine ⟨c', getAccountLimits_committed hnp hc, getAccountLimits_pending ?_, rfl, rfl, rfl,
      decreasedLimit_eq _ _⟩
    have howner := (pending_of_key (Table.find_eq_some_iff.mp hc).2).2
    rw [Table.find_modify, if_pos rfl, Table.find_create ht, if_pos (by simp [LimitsRow.key, howner])]
    rfl

/-- `find_or_create_pending_limits` of `set_gst_limits` either finds the pending gas row, or
creates one with the new `gst_bytes`. -/
theorem findOrCreatePendingGst_eq_ok (d : Decl) {b : I64} {p : GstRow} {db1 : Db}
    (h : findOrCreatePendingGst d a b db = .ok p db1) :
    (db.gst.find (toLex (true, a)) = some p ∧ db1 = db) ∨
      (db.gst.find (toLex (true, a)) = none ∧
        p = { owner := a, pending := true, gstBytes := b, gstUsage := d.gstUsageDefault } ∧
        ∃ t, db.gst.create p = some t ∧ db1 = gstRef.write db t) := by
  obtain ⟨r, _, h1, h2⟩ := bind_eq_ok.mp h
  rw [TableRef.findRow_apply] at h1
  cases h1
  rcases hr : db.gst.find (toLex (true, a)) with _ | q <;> simp only [gstRef_read, hr] at h2
  · obtain ⟨_, _, h3, h4⟩ := bind_eq_ok.mp h2
    obtain ⟨t, ht, rfl⟩ := gstRef.createRow_eq_ok.mp h3
    cases h4
    exact .inr ⟨rfl, rfl, t, ht, rfl⟩
  · cases h2; exact .inl ⟨rfl, rfl⟩

/-- `set_gst_limits` resolves the pending gas row (found, or created with the new limit), checks a
lowered limit against the usage, writes the new limit into the row, touches no other table, and
flags the new limit against the resolved one. -/
theorem setGstLimits_spec (d : Decl) {b : I64} {dec : Bool} (h : setGstLimits d a b db = .ok dec db') :
    ∃ p, (db.gst.find (toLex (true, a)) = some p ∨ db.gst.find (toLex (true, a)) = none ∧
        p = { owner := a, pending := true, gstBytes := b, gstUsage := d.gstUsageDefault }) ∧
      (b.val < p.gstBytes.val → p.gstUsage ≤ toUnsigned 64 b.val) ∧
      db'.gst.find (toLex (true, a)) = some { p with gstBytes := b } ∧
      db'.limits = db.limits ∧ db'.usage = db.usage ∧ db'.activation = db.activation ∧
      dec = decide (b.bound < p.gstBytes.bound) := by
  obtain ⟨p, db1, h1, h2⟩ := bind_eq_ok.mp h
  obtain ⟨hchk, h3⟩ := check_then_eq_ok.mp h2
  obtain ⟨_, _, h4, h5⟩ := bind_eq_ok.mp h3
  rw [TableRef.modifyRow_apply] at h4
  cases h4; cases h5
  rcases findOrCreatePendingGst_eq_ok d h1 with ⟨hp, rfl⟩ | ⟨hnone, rfl, t, ht, rfl⟩
  · refine ⟨p, .inl hp, hchk, ?_, rfl, rfl, rfl, decreasedLimit_eq _ _⟩
    rw [gstRef_write, (Table.find_eq_some_iff.mp hp).2, Table.find_modify, if_pos rfl, gstRef_read, hp]; rfl
  · refine ⟨_, .inr ⟨hnone, rfl⟩, hchk, ?_, rfl, rfl, rfl, decreasedLimit_eq _ _⟩
    simp [Table.find_modify, Table.find_create ht, GstRow.key]

/-- A `set_gst_limits` that returns `false` keeps the gas block passing: a found row's limit did
not tighten, and a created row can only be `gstio.gas`'s, which the block exempts. -/
theorem GasVerified.setGstLimits (d : Decl) {b : I64} (hv : GasVerified a db)
    (h : setGstLimits d a b db = .ok false db') : GasVerified a db' := by
  obtain ⟨p, hp, -, hfind, -, -, hact, hdec⟩ := setGstLimits_spec d h
  have hle : p.gstBytes.bound ≤ b.bound := not_lt.mp (of_decide_eq_false hdec.symm)
  intro hon
  have hv' := hv (by rwa [activationFlag, ← hact])
  rw [hfind]
  rcases hp with hp | ⟨hnone, rfl⟩
  · rw [hp] at hv'
    exact fun h1 h2 => (hv' h1 h2).trans hle
  · rw [hnone] at hv'
    exact fun h1 => absurd hv'.symm h1

/-! ### Soundness of the flag -/

/-- **The `decreased_limit` flag is sound for callers that re-verify only on `true`.**  From any
store on which `verify_account_ram_usage(a)` passes, a `set_account_limits(a, …)` or a
`set_gst_limits(a, b)` that returns `false` leaves it passing.  Each setter returns `false`
exactly when its new limit is no tighter than the one it resolved: `get_account_limits(a)` for
the account limits, the pending gas row for the gas limit (`b` itself for a row it creates). -/
theorem decreasedLimit_sound (d : Decl) (db : Db) (a : Name) :
    (ChainM.exception (verifyAccountRamUsage a) db = none →
      (∀ r n c db', setAccountLimits a r n c db = .ok false db' →
        ChainM.exception (verifyAccountRamUsage a) db' = none) ∧
      ∀ b db', setGstLimits d a b db = .ok false db' →
        ChainM.exception (verifyAccountRamUsage a) db' = none) ∧
    (∀ r n c dec db', setAccountLimits a r n c db = .ok dec db' →
      ∃ l, getAccountLimits a db = .ok l db ∧ (dec = false ↔ l.ramBytes.bound ≤ r.bound)) ∧
    ∀ b dec db', setGstLimits d a b db = .ok dec db' →
      (dec = false ↔ (((db.gst.find (toLex (true, a))).map GstRow.gstBytes).getD b).bound ≤ b.bound) := by
  refine ⟨fun hv => ?_, fun r n c dec db' h => ?_, fun b dec db' h => ?_⟩
  · obtain ⟨⟨l, u, hl, hu, hru⟩, hgas⟩ := verifyAccountRamUsage_passes.mp hv
    refine ⟨fun r n c db' h => ?_, fun b db' h => ?_⟩
    · obtain ⟨l0, hl0, hl', hus, hg, ha, hdec⟩ := setAccountLimits_spec h
      cases hl0.symm.trans hl
      exact verifyAccountRamUsage_passes.mpr ⟨⟨_, u, hl', hus ▸ hu,
        hru.trans (not_lt.mp (of_decide_eq_false hdec.symm))⟩, (GasVerified.congr hg ha).mpr hgas⟩
    · obtain ⟨-, -, -, -, hlim, hus, -, -⟩ := setGstLimits_spec d h
      exact verifyAccountRamUsage_passes.mpr
        ⟨⟨l, u, getAccountLimits_of_limits hl hlim, hus ▸ hu, hru⟩, hgas.setGstLimits d h⟩
  · obtain ⟨l, hl, -, -, -, -, rfl⟩ := setAccountLimits_spec h
    exact ⟨l, hl, by simp⟩
  · obtain ⟨p, hp, -, -, -, -, -, rfl⟩ := setGstLimits_spec d h
    rcases hp with hp | ⟨hp, rfl⟩ <;> simp [hp]

/-- Account `1` with 500 gas bytes, gas being active. -/
def gasAccount : List Op := [.initializeAccount 1, .setGasLimits true, .setGstLimits 1 500]

theorem decreasedLimit_sound_sample :
    ChainM.exception (verifyAccountRamUsage 1) (runOps Decl.sample gasAccount (Db.init Decl.sample)) = none ∧
      ∃ db', setGstLimits Decl.sample 1 600 (runOps Decl.sample gasAccount (Db.init Decl.sample)) =
          .ok false db' ∧ ChainM.exception (verifyAccountRamUsage 1) db' = none := by
  have hv : ChainM.exception (verifyAccountRamUsage 1)
      (runOps Decl.sample gasAccount (Db.init Decl.sample)) = none := by decide
  exact ⟨hv, _, rfl, ((decreasedLimit_sound Decl.sample _ 1).1 hv).2 600 _ rfl⟩

end Gstio
