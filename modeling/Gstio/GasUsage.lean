import Gstio.Verify

/-!
# Gstio.GasUsage — the gas rows over runs

`resource_gst_object` holds an account's gas limit `gst_bytes` (`int64_t`) and its usage
`gst_usage` (`uint64_t`).  Three calls write it: `add_pending_ram_usage` moves the usage by the
RAM delta while gas is active, resetting it to zero when the sum, taken in `int64_t`, is negative;
`verify_account_gst_usage` charges a fee of 100 against the limit, in `uint64_t`; `set_gst_limits`
creates the row with the declared default usage and writes the limit.  `get_account_limits2` reads
what is left.

* `Reachable.gasRowsWf` — in every reachable store, when the declared default usage is below
  `2^63`, every gas row is its owner's pending row and its usage is below `2^63`; so the
  `int64_t` reading of the usage is exact and the fee never wraps;
* `addPendingRamUsage_gas` — from such a store, the gas block moves `a`'s usage `g` to `g + δ`
  when that lies in `[0, 2^63)` and to `0` otherwise: below zero by design, past `INT64_MAX`
  because the test adds in `int64_t`;
* `verifyAccountGstUsage_charges` — from such a store, the fee is charged exactly when the row
  exists and is unlimited or has room for 100 more units, and then it is exactly 100;
* `getAccountLimits2_gasLeft` — the reader `get_account_limits2` reports the gas left, cut at 0,
  and agrees with the fee check, for limited accounts only: an unlimited account reads as 0.
-/

namespace Gstio

/-! ### One gas row -/

/-- A gas row as every reachable store holds it: its owner's pending row, with a usage that
`int64_t` can hold. -/
def GstRow.Wf (p : GstRow) : Prop := p.pending = true ∧ p.gstUsage.val < 2 ^ 63

/-- The usage update of the gas block, in unbounded arithmetic, for a usage that `int64_t` holds:
`g + δ` when that lies in `[0, 2^63)`, else `0`. -/
theorem GstRow.addRamDelta_usage {p : GstRow} (hp : p.gstUsage.val < 2 ^ 63) (δ : I64) :
    ((p.addRamDelta δ).gstUsage.val : Int) =
      if 0 ≤ p.gstUsage.val + δ.val ∧ p.gstUsage.val + δ.val < 2 ^ 63 then p.gstUsage.val + δ.val else 0 := by
  have := δ.lt; have := δ.ge
  unfold GstRow.addRamDelta
  split <;> split <;> simp only [I64.ofInt_val, Fin.val_add, toUnsigned_val, Fin.val_zero] at * <;> omega

theorem GstRow.Wf.addRamDelta {p : GstRow} (hp : p.Wf) (δ : I64) : (p.addRamDelta δ).Wf := by
  refine ⟨by unfold GstRow.addRamDelta; split <;> exact hp.1, ?_⟩
  have := GstRow.addRamDelta_usage hp.2 δ
  split at this <;> omega

/-- Every gas row of the store is well formed. -/
def GasRowsWf (db : Db) : Prop := ∀ p ∈ db.gst.rows, p.Wf

/-! ### The calls that write the gas rows -/

variable {db db' : Db} {a : Name} {δ : I64}

/-- The gas block of `add_pending_ram_usage`: with gas off it changes nothing; with gas on it moves
the usage of `a`'s pending gas row, or creates the row with limit 0 and usage `max(δ, 0)`. -/
theorem addPendingGstUsage_eq_ok (h : addPendingGstUsage a δ db = .ok () db') :
    ((activationFlag db).getD false = false ∧ db' = db) ∨
      ((activationFlag db).getD false = true ∧
        ((∃ p, db.gst.find (toLex (true, a)) = some p ∧
            db' = { db with gst := db.gst.modify (toLex (true, a)) (GstRow.addRamDelta δ) (GstRow.key_addRamDelta δ) }) ∨
          (db.gst.find (toLex (true, a)) = none ∧ ∃ t, db.gst.create
            { owner := a, gstBytes := 0, pending := true, gstUsage := if δ.val < 0 then 0 else toUnsigned 64 δ.val } =
              some t ∧ db' = { db with gst := t }))) := by
  unfold addPendingGstUsage at h
  rw [bind_apply_ok (isActivation_apply db)] at h
  split at h
  · next hon =>
    refine .inr ⟨hon, ?_⟩
    rw [bind_apply_ok (TableRef.findRow_apply _ _ _), gstRef_read] at h
    cases hf : db.gst.find (toLex (true, a)) with
    | some p => rw [hf] at h; cases h; exact .inl ⟨p, rfl, rfl⟩
    | none =>
      rw [hf] at h
      obtain ⟨t, ht, rfl⟩ := gstRef.createRow_eq_ok.mp h
      exact .inr ⟨rfl, t, ht, rfl⟩
  · next hoff => cases h; exact .inl ⟨by simpa using hoff, rfl⟩

/-- `add_pending_ram_usage` with a zero delta returns at once; otherwise, when it succeeds, it has
run its gas block on the store with the new usage table. -/
theorem addPendingRamUsage_gasBlock (h : addPendingRamUsage a δ db = .ok () db') :
    (δ.val = 0 ∧ db' = db) ∨ (δ.val ≠ 0 ∧ ∃ u, addPendingGstUsage a δ { db with usage := u } = .ok () db') := by
  unfold addPendingRamUsage at h
  split at h
  · next h0 => cases h; exact .inl ⟨h0, rfl⟩
  · next h0 =>
    refine .inr ⟨h0, ?_⟩
    obtain ⟨_, _, h1, h2⟩ := bind_eq_ok.mp h
    cases h1
    obtain ⟨_, _, h3, h4⟩ := bind_eq_ok.mp h2
    obtain ⟨-, rfl⟩ := usageRef.getRow_eq_ok.mp h3
    obtain ⟨_, _, h5, h6⟩ := bind_eq_ok.mp h4
    rw [gstAssert_apply] at h5; split at h5 <;> cases h5
    obtain ⟨_, _, h7, h8⟩ := bind_eq_ok.mp h6
    rw [gstAssert_apply] at h7; split at h7 <;> cases h7
    obtain ⟨_, _, h9, h10⟩ := bind_eq_ok.mp h8
    rw [TableRef.modifyRow_apply] at h9
    cases h9
    exact ⟨_, h10⟩

/-- `verify_account_gst_usage` needs `a`'s pending gas row; it leaves an unlimited row alone, and
adds 100 to a limited row's usage after checking, in `uint64_t`, that the sum is within the limit. -/
theorem verifyAccountGstUsage_eq_ok (h : verifyAccountGstUsage a db = .ok () db') :
    ∃ p, db.gst.find (toLex (true, a)) = some p ∧
      ((p.gstBytes.val < 0 ∧ db' = db) ∨
        (0 ≤ p.gstBytes.val ∧ p.gstUsage + 100 ≤ toUnsigned 64 p.gstBytes.val ∧
          db' = { db with gst := db.gst.modify (toLex (true, a)) fun l => { l with gstUsage := l.gstUsage + 100 } })) := by
  unfold verifyAccountGstUsage at h
  rw [bind_apply_ok (TableRef.findRow_apply _ _ _), gstRef_read] at h
  cases hf : db.gst.find (toLex (true, a)) with
  | none => rw [hf] at h; cases h
  | some p =>
    rw [hf] at h
    refine ⟨p, rfl, ?_⟩
    dsimp only at h
    split at h
    · next hb =>
      obtain ⟨_, _, h1, h2⟩ := bind_eq_ok.mp h
      rw [gstAssert_apply] at h1
      split at h1
      · cases h1; cases h2; exact .inr ⟨hb, ‹_›, rfl⟩
      · cases h1
    · next hb => cases h; exact .inl ⟨not_le.mp hb, rfl⟩

/-! ### The invariant over runs -/

section Runs

variable (d : Decl)

theorem gst_limits (db : Db) (t : Table LimitsRow.key) : (limitsRef.write db t).gst = db.gst := rfl

theorem gst_usage (db : Db) (t : Table UsageRow.owner) : (usageRef.write db t).gst = db.gst := rfl

theorem gst_activation (db : Db) (t : Table ActivationRow.key) : (activationRef.write db t).gst = db.gst := rfl

theorem gst_config (db : Db) (c : List ConfigRow) : { db with config := c }.gst = db.gst := rfl

theorem gst_modifyState (db : Db) (g : StateRow → StateRow)
    (_ : ∀ s, db.state.head? = some s → (g s).totals = s.totals) :
    { db with state := db.state.modifyHead g }.gst = db.gst := rfl

theorem GasRowsWf.of_keeps {α : Type} {x : ChainM α} {r : α} (h : GasRowsWf db) (hx : Keeps Db.gst x)
    (hrun : x db = .ok r db') : GasRowsWf db' := by
  unfold GasRowsWf; rw [hx _ _ _ hrun]; exact h

theorem GasRowsWf.addPendingRamUsage (h : GasRowsWf db) (hrun : addPendingRamUsage a δ db = .ok () db') :
    GasRowsWf db' := by
  rcases addPendingRamUsage_gasBlock hrun with ⟨-, rfl⟩ | ⟨-, u, hgas⟩
  · exact h
  rcases addPendingGstUsage_eq_ok hgas with ⟨-, rfl⟩ | ⟨-, ⟨p, -, rfl⟩ | ⟨-, t, ht, rfl⟩⟩
  · exact h
  · exact Table.forall_mem_modify (GstRow.key_addRamDelta δ) h fun x hx _ => (h x hx).addRamDelta δ
  · refine Table.forall_mem_create ht h ⟨rfl, ?_⟩
    have := δ.lt
    dsimp only; split
    · exact Nat.two_pow_pos _
    · rw [toUnsigned_val]; omega

theorem GasRowsWf.verifyAccountGstUsage (h : GasRowsWf db) (hrun : verifyAccountGstUsage a db = .ok () db') :
    GasRowsWf db' := by
  obtain ⟨p, hp, ⟨-, rfl⟩ | ⟨hb, hchk, rfl⟩⟩ := verifyAccountGstUsage_eq_ok hrun
  · exact h
  refine Table.forall_mem_modify (by intro; rfl) h fun x hx hk => ⟨(h x hx).1, ?_⟩
  obtain rfl : x = p := Option.some.inj ((hk ▸ Table.find_of_mem hx).symm.trans hp)
  have := (h x hx).2; have := x.gstBytes.lt
  rw [Fin.le_def, Fin.val_add, toUnsigned_val] at hchk
  show (x.gstUsage + 100).val < 2 ^ 63
  rw [Fin.val_add]; omega

theorem GasRowsWf.setGstLimits (hd : d.gstUsageDefault.val < 2 ^ 63) (h : GasRowsWf db) {b : I64} {dec : Bool}
    (hrun : setGstLimits d a b db = .ok dec db') : GasRowsWf db' := by
  obtain ⟨p, db1, h1, h2⟩ := bind_eq_ok.mp hrun
  obtain ⟨-, h3⟩ := check_then_eq_ok.mp h2
  obtain ⟨_, _, h4, h5⟩ := bind_eq_ok.mp h3
  rw [TableRef.modifyRow_apply] at h4
  cases h4; cases h5
  have h1wf : GasRowsWf db1 := by
    rcases findOrCreatePendingGst_eq_ok d h1 with ⟨-, rfl⟩ | ⟨-, rfl, t, ht, rfl⟩
    · exact h
    · exact Table.forall_mem_create ht h ⟨rfl, hd⟩
  exact Table.forall_mem_modify (by intro; rfl) h1wf fun x hx _ => h1wf x hx

/-- **Step lemma.** Every successful call keeps every gas row well formed. -/
theorem GasRowsWf.step (hd : d.gstUsageDefault.val < 2 ^ 63) (h : GasRowsWf db) :
    ∀ op : Op, op.exec d db = .ok () db' → GasRowsWf db'
  | .initializeAccount a, hrun => h.of_keeps (initializeAccount_keeps d gst_limits gst_usage a) hrun
  | .setAccountLimits a r n c, hrun =>
    h.of_keeps (.bind (setAccountLimits_keeps gst_limits a r n c) fun _ => .pure _) hrun
  | .processAccountLimitUpdates, hrun => h.of_keeps
    (fun _ _ _ h => by obtain ⟨_, _, _, _, -, -, rfl⟩ := processAccountLimitUpdates_eq_ok h; rfl) hrun
  | .setBlockParameters cpu net, hrun => h.of_keeps (setBlockParameters_keeps (configHead_of_write gst_config) cpu net) hrun
  | .updateAccountUsage accounts t, hrun =>
    h.of_keeps (updateAccountUsage_keeps d (usageRows_of_write gst_usage) accounts t) hrun
  | .addTransactionUsage accounts cpu net t, hrun =>
    h.of_keeps (addTransactionUsage_keeps d (usageRows_of_write gst_usage) gst_modifyState accounts cpu net t) hrun
  | .addPendingRamUsage _ _, hrun => h.addPendingRamUsage hrun
  | .verifyAccountGstUsage _, hrun => h.verifyAccountGstUsage hrun
  | .setGstLimits _ _, hrun => by
    obtain ⟨_, _, h1, h2⟩ := bind_eq_ok.mp hrun
    cases h2
    exact h.setGstLimits d hd h1
  | .setGasLimits flag, hrun => h.of_keeps (setGasLimits_keeps gst_activation flag) hrun
  | .processBlockUsage n, hrun => h.of_keeps (processBlockUsage_keeps d gst_modifyState n) hrun

/-- **Run lemma.** -/
theorem Reachable.gasRowsWf (hd : d.gstUsageDefault.val < 2 ^ 63) (h : Reachable d db) : GasRowsWf db := by
  induction h with
  | init => exact fun p hp => absurd hp (List.not_mem_nil p)
  | step op _ hrun ih => exact ih.step d hd op hrun

end Runs

/-! ### The gas block and the fee, from a reachable store -/

theorem GstRow.addRamDelta_eq (p : GstRow) (δ : I64) :
    p.addRamDelta δ = { p with gstUsage := (p.addRamDelta δ).gstUsage } := by
  unfold GstRow.addRamDelta; split <;> rfl

/-- **The gas block saturates at both ends.**  From every reachable store (the declared default
usage below `2^63`), a successful `add_pending_ram_usage(a, δ)` changes no gas row but `a`'s pending
one, and that one only while gas is active and `δ ≠ 0`.  A row with usage `g` then holds `g + δ`
when `0 ≤ g + δ < 2^63`, and `0` otherwise: below zero by design, past `INT64_MAX` because the test
adds in `int64_t`.  A missing row is created with limit 0 and usage `max(δ, 0)`. -/
theorem addPendingRamUsage_gas (d : Decl) (hd : d.gstUsageDefault.val < 2 ^ 63) (hdb : Reachable d db)
    (hrun : addPendingRamUsage a δ db = .ok () db') :
    (∀ k, k ≠ toLex (true, a) → db'.gst.find k = db.gst.find k) ∧
      ((activationFlag db).getD false = false ∨ δ.val = 0 → db'.gst = db.gst) ∧
      ((activationFlag db).getD false = true → δ.val ≠ 0 →
        (∀ p, db.gst.find (toLex (true, a)) = some p → ∃ u,
          db'.gst.find (toLex (true, a)) = some { p with gstUsage := u } ∧
          (u.val : Int) = if 0 ≤ p.gstUsage.val + δ.val ∧ p.gstUsage.val + δ.val < 2 ^ 63 then
            p.gstUsage.val + δ.val else 0) ∧
        (db.gst.find (toLex (true, a)) = none → ∃ u,
          db'.gst.find (toLex (true, a)) = some { owner := a, pending := true, gstBytes := 0, gstUsage := u } ∧
          (u.val : Int) = max δ.val 0)) := by
  have hwf := hdb.gasRowsWf d hd
  rcases addPendingRamUsage_gasBlock hrun with ⟨h0, rfl⟩ | ⟨h0, u, hgas⟩
  · exact ⟨fun _ _ => rfl, fun _ => rfl, fun _ h => absurd h0 h⟩
  rcases addPendingGstUsage_eq_ok hgas with ⟨hoff, rfl⟩ | ⟨hon, hrow⟩
  · exact ⟨fun _ _ => rfl, fun _ => rfl, fun hon => absurd (hoff.symm.trans hon) Bool.false_ne_true⟩
  have hon : (activationFlag db).getD false = true := hon
  have hact : ¬ ((activationFlag db).getD false = false ∨ δ.val = 0) := by
    rintro (h | h)
    exacts [Bool.false_ne_true (h.symm.trans hon), h0 h]
  rcases hrow with ⟨p, hp, rfl⟩ | ⟨hnone, t, ht, rfl⟩
  · refine ⟨fun k hk => ?_, fun h => absurd h hact,
      fun _ _ => ⟨fun p' hp' => ?_, fun hn => absurd (hn.symm.trans hp) nofun⟩⟩
    · simp only [Table.find_modify, if_neg (Ne.symm hk)]
    · cases hp.symm.trans hp'
      refine ⟨_, ?_, GstRow.addRamDelta_usage (hwf p (Table.find_eq_some_iff.mp hp).1).2 δ⟩
      simp only [Table.find_modify, if_pos, hp, Option.map_some']
      exact congrArg some (GstRow.addRamDelta_eq p δ)
  · refine ⟨fun k hk => ?_, fun h => absurd h hact,
      fun _ _ => ⟨fun p' hp' => absurd (hnone.symm.trans hp') nofun, fun _ => ?_⟩⟩
    · rw [Table.find_create ht]; exact if_neg (Ne.symm hk)
    · refine ⟨_, by rw [Table.find_create ht]; exact if_pos rfl, ?_⟩
      have := δ.lt
      split
      · rw [Fin.val_zero]; omega
      · rw [toUnsigned_val]; omega

theorem addPendingRamUsage_gas_sample :
    Decl.sample.gstUsageDefault.val < 2 ^ 63 ∧ Reachable Decl.sample (runOps Decl.sample gasAccount (Db.init Decl.sample)) ∧
      ∃ db', addPendingRamUsage 1 100 (runOps Decl.sample gasAccount (Db.init Decl.sample)) = .ok () db' ∧
        (∀ k, k ≠ toLex (true, 1) → db'.gst.find k = (runOps Decl.sample gasAccount (Db.init Decl.sample)).gst.find k) ∧
        ((activationFlag (runOps Decl.sample gasAccount (Db.init Decl.sample))).getD false = false ∨ (100 : I64).val = 0 →
          db'.gst = (runOps Decl.sample gasAccount (Db.init Decl.sample)).gst) ∧
        ((activationFlag (runOps Decl.sample gasAccount (Db.init Decl.sample))).getD false = true → (100 : I64).val ≠ 0 →
          (∀ p, (runOps Decl.sample gasAccount (Db.init Decl.sample)).gst.find (toLex (true, 1)) = some p → ∃ u,
            db'.gst.find (toLex (true, 1)) = some { p with gstUsage := u } ∧
            (u.val : Int) = if 0 ≤ p.gstUsage.val + (100 : I64).val ∧ p.gstUsage.val + (100 : I64).val < 2 ^ 63 then
              p.gstUsage.val + (100 : I64).val else 0) ∧
          ((runOps Decl.sample gasAccount (Db.init Decl.sample)).gst.find (toLex (true, 1)) = none → ∃ u,
            db'.gst.find (toLex (true, 1)) = some { owner := 1, pending := true, gstBytes := 0, gstUsage := u } ∧
            (u.val : Int) = max (100 : I64).val 0)) :=
  ⟨by decide, (Reachable.init).runOps _ _, _, rfl,
    addPendingRamUsage_gas Decl.sample (by decide) ((Reachable.init).runOps _ _) rfl⟩

/-- The fee check `gst_bytes >= gst_usage + 100`, with a limit that is not negative and a usage
that `int64_t` holds: the `uint64_t` sum does not wrap, so the check is the unbounded one. -/
theorem feeCheck_iff {p : GstRow} (hu : p.gstUsage.val < 2 ^ 63) (hb : 0 ≤ p.gstBytes.val) :
    p.gstUsage + 100 ≤ toUnsigned 64 p.gstBytes.val ↔ (p.gstUsage.val : Int) + 100 ≤ p.gstBytes.val := by
  have := p.gstBytes.lt
  rw [Fin.le_def, Fin.val_add, toUnsigned_val_of_lt hb (by omega)]
  show (p.gstUsage.val + 100) % 2 ^ 64 ≤ _ ↔ _
  omega

/-- **The gas fee is charged exactly.**  In every reachable store (the declared default usage below
`2^63`) every gas row is its owner's pending row, with a usage below `2^63`.  From such a store
`verify_account_gst_usage(a)`, which does not look at `is_activation()`, succeeds exactly when `a`
has a pending gas row whose limit is negative (unlimited) or at least its usage plus 100.  It then
adds exactly 100 to a limited row's usage, which stays within the limit, leaves an unlimited row as
it was, and changes no other row. -/
theorem verifyAccountGstUsage_charges (d : Decl) (hd : d.gstUsageDefault.val < 2 ^ 63) (hdb : Reachable d db)
    (a : Name) :
    GasRowsWf db ∧
      ((∃ db', verifyAccountGstUsage a db = .ok () db') ↔
        ∃ p, db.gst.find (toLex (true, a)) = some p ∧ (0 ≤ p.gstBytes.val → (p.gstUsage.val : Int) + 100 ≤ p.gstBytes.val)) ∧
      ∀ db', verifyAccountGstUsage a db = .ok () db' →
        ∃ p u, db.gst.find (toLex (true, a)) = some p ∧ db' = { db with gst := db'.gst } ∧
          db'.gst.find (toLex (true, a)) = some { p with gstUsage := u } ∧
          (∀ k, k ≠ toLex (true, a) → db'.gst.find k = db.gst.find k) ∧
          (u.val = if 0 ≤ p.gstBytes.val then p.gstUsage.val + 100 else p.gstUsage.val) ∧
          (0 ≤ p.gstBytes.val → (u.val : Int) ≤ p.gstBytes.val) := by
  have hwf := hdb.gasRowsWf d hd
  have hu : ∀ {p}, db.gst.find (toLex (true, a)) = some p → p.gstUsage.val < 2 ^ 63 := fun hp =>
    (hwf _ (Table.find_eq_some_iff.mp hp).1).2
  refine ⟨hwf, ⟨fun ⟨db', h⟩ => ?_, fun ⟨p, hp, hroom⟩ => ?_⟩, fun db' h => ?_⟩
  · obtain ⟨p, hp, ⟨hb, -⟩ | ⟨hb, hchk, -⟩⟩ := verifyAccountGstUsage_eq_ok h
    · exact ⟨p, hp, fun h => absurd h (not_le.mpr hb)⟩
    · exact ⟨p, hp, fun _ => (feeCheck_iff (hu hp) hb).mp hchk⟩
  · unfold verifyAccountGstUsage
    rw [bind_apply_ok (TableRef.findRow_apply _ _ _), gstRef_read, hp]
    dsimp only
    split
    · next hb => rw [gstAssert_bind_apply, if_pos ((feeCheck_iff (hu hp) hb).mpr (hroom hb))]; exact ⟨_, rfl⟩
    · exact ⟨_, rfl⟩
  · obtain ⟨p, hp, ⟨hb, rfl⟩ | ⟨hb, hchk, rfl⟩⟩ := verifyAccountGstUsage_eq_ok h
    · exact ⟨p, p.gstUsage, hp, rfl, hp, fun _ _ => rfl, by rw [if_neg (not_le.mpr hb)],
        fun h => absurd h (not_le.mpr hb)⟩
    · have hroom := (feeCheck_iff (hu hp) hb).mp hchk
      have hval : (p.gstUsage + 100).val = p.gstUsage.val + 100 := by
        have := hu hp
        rw [Fin.val_add]; show (p.gstUsage.val + 100) % 2 ^ 64 = _; omega
      refine ⟨p, p.gstUsage + 100, hp, rfl, ?_, fun k hk => ?_, by rw [if_pos hb, hval], fun _ => by
        rw [hval]; push_cast; exact hroom⟩
      · simp only [Table.find_modify, if_pos, hp, Option.map_some']
      · simp only [Table.find_modify, if_neg (Ne.symm hk)]

theorem verifyAccountGstUsage_charges_sample :
    Decl.sample.gstUsageDefault.val < 2 ^ 63 ∧ Reachable Decl.sample (runOps Decl.sample gasAccount (Db.init Decl.sample)) ∧
      GasRowsWf (runOps Decl.sample gasAccount (Db.init Decl.sample)) ∧
      ((∃ db', verifyAccountGstUsage 1 (runOps Decl.sample gasAccount (Db.init Decl.sample)) = .ok () db') ↔
        ∃ p, (runOps Decl.sample gasAccount (Db.init Decl.sample)).gst.find (toLex (true, 1)) = some p ∧
          (0 ≤ p.gstBytes.val → (p.gstUsage.val : Int) + 100 ≤ p.gstBytes.val)) ∧
      ∀ db', verifyAccountGstUsage 1 (runOps Decl.sample gasAccount (Db.init Decl.sample)) = .ok () db' →
        ∃ p u, (runOps Decl.sample gasAccount (Db.init Decl.sample)).gst.find (toLex (true, 1)) = some p ∧
          db' = { runOps Decl.sample gasAccount (Db.init Decl.sample) with gst := db'.gst } ∧
          db'.gst.find (toLex (true, 1)) = some { p with gstUsage := u } ∧
          (∀ k, k ≠ toLex (true, 1) → db'.gst.find k = (runOps Decl.sample gasAccount (Db.init Decl.sample)).gst.find k) ∧
          (u.val = if 0 ≤ p.gstBytes.val then p.gstUsage.val + 100 else p.gstUsage.val) ∧
          (0 ≤ p.gstBytes.val → (u.val : Int) ≤ p.gstBytes.val) :=
  ⟨by decide, (Reachable.init).runOps _ _,
    verifyAccountGstUsage_charges Decl.sample (by decide) ((Reachable.init).runOps _ _) 1⟩

/-! ### The gas reader -/

/-- The arithmetic of `get_account_limits2` on a row whose usage `int64_t` holds: `gst_bytes -
gst_usage` in `uint64_t`, read back as `int64_t`, negative values reported as 0.  For a limit that is
not negative this is the gas left, cut at 0; for a negative limit the `uint64_t` difference is read
as the negative `b - g`, unless that is below `INT64_MIN`, where it wraps to a positive value. -/
theorem gasLeft_val {p : GstRow} (hu : p.gstUsage.val < 2 ^ 63) :
    (if (I64.ofInt (toUnsigned 64 p.gstBytes.val - p.gstUsage).val).val < 0 then 0
      else I64.ofInt (toUnsigned 64 p.gstBytes.val - p.gstUsage).val : I64).val =
      if 0 ≤ p.gstBytes.val then max (p.gstBytes.val - p.gstUsage.val) 0
      else if p.gstBytes.val - p.gstUsage.val < -2 ^ 63 then p.gstBytes.val - p.gstUsage.val + 2 ^ 64 else 0 := by
  have := p.gstBytes.lt; have := p.gstBytes.ge
  have hsub : ((toUnsigned 64 p.gstBytes.val - p.gstUsage).val : Int) =
      (p.gstBytes.val - p.gstUsage.val) % 2 ^ 64 := by
    rw [Fin.sub_def]
    show (((2 ^ 64 - p.gstUsage.val + (p.gstBytes.val % 2 ^ 64).toNat) % 2 ^ 64 : Nat) : Int) = _
    omega
  have hsigned : (I64.ofInt (toUnsigned 64 p.gstBytes.val - p.gstUsage).val).val =
      if p.gstBytes.val - p.gstUsage.val < -2 ^ 63 then p.gstBytes.val - p.gstUsage.val + 2 ^ 64
      else p.gstBytes.val - p.gstUsage.val := by
    rw [I64.ofInt_val, hsub]; split <;> omega
  have h0 : (0 : I64).val = 0 := rfl
  rw [apply_ite I64.val, h0, hsigned]
  split_ifs <;> omega

/-- **The gas reader agrees with the fee check on limited accounts only.**  From every reachable
store (the declared default usage below `2^63`), `get_account_limits2(a)` raises nothing, changes
nothing, and returns 0 when `a` has no pending gas row.  With a limit `b ≥ 0` and a usage `g` it
returns `max(b - g, 0)`, and `verify_account_gst_usage(a)` succeeds exactly when that is at least
100.  With a negative limit, which the fee check treats as unlimited, it returns 0, or
`b - g + 2^64` when `b - g` is below `INT64_MIN`. -/
theorem getAccountLimits2_gasLeft (d : Decl) (hd : d.gstUsageDefault.val < 2 ^ 63) (hdb : Reachable d db)
    (a : Name) :
    ∃ v, getAccountLimits2 a db = .ok v db ∧
      (db.gst.find (toLex (true, a)) = none → v.val = 0) ∧
      ∀ p, db.gst.find (toLex (true, a)) = some p →
        (0 ≤ p.gstBytes.val → v.val = max (p.gstBytes.val - p.gstUsage.val) 0 ∧
          ((∃ db', verifyAccountGstUsage a db = .ok () db') ↔ 100 ≤ v.val)) ∧
        (p.gstBytes.val < 0 → v.val =
          if p.gstBytes.val - p.gstUsage.val < -2 ^ 63 then p.gstBytes.val - p.gstUsage.val + 2 ^ 64 else 0) := by
  obtain ⟨-, hcharge, -⟩ := verifyAccountGstUsage_charges d hd hdb a
  unfold getAccountLimits2
  rw [bind_apply_ok (TableRef.findRow_apply _ _ _), gstRef_read]
  cases hp : db.gst.find (toLex (true, a)) with
  | none => exact ⟨0, rfl, fun _ => rfl, fun _ h => nomatch h⟩
  | some p =>
    have hv := gasLeft_val (hdb.gasRowsWf d hd p (Table.find_eq_some_iff.mp hp).1).2
    refine ⟨_, rfl, nofun, fun p' hp' => ?_⟩
    cases Option.some.inj hp'
    refine ⟨fun hb => ?_, fun hb => by rw [hv, if_neg (not_le.mpr hb)]⟩
    rw [hv, if_pos hb, hcharge]
    refine ⟨rfl, ⟨fun ⟨p', hp', hroom⟩ => ?_, fun h => ⟨p, hp, fun _ => ?_⟩⟩⟩
    · cases hp.symm.trans hp'; have := hroom hb; omega
    · omega

theorem getAccountLimits2_gasLeft_sample :
    Decl.sample.gstUsageDefault.val < 2 ^ 63 ∧ Reachable Decl.sample (runOps Decl.sample gasAccount (Db.init Decl.sample)) ∧
      ∃ v, getAccountLimits2 1 (runOps Decl.sample gasAccount (Db.init Decl.sample)) =
          .ok v (runOps Decl.sample gasAccount (Db.init Decl.sample)) ∧
        ((runOps Decl.sample gasAccount (Db.init Decl.sample)).gst.find (toLex (true, 1)) = none → v.val = 0) ∧
        ∀ p, (runOps Decl.sample gasAccount (Db.init Decl.sample)).gst.find (toLex (true, 1)) = some p →
          (0 ≤ p.gstBytes.val → v.val = max (p.gstBytes.val - p.gstUsage.val) 0 ∧
            ((∃ db', verifyAccountGstUsage 1 (runOps Decl.sample gasAccount (Db.init Decl.sample)) = .ok () db') ↔
              100 ≤ v.val)) ∧
          (p.gstBytes.val < 0 → v.val =
            if p.gstBytes.val - p.gstUsage.val < -2 ^ 63 then p.gstBytes.val - p.gstUsage.val + 2 ^ 64 else 0) :=
  ⟨by decide, (Reachable.init).runOps _ _,
    getAccountLimits2_gasLeft Decl.sample (by decide) ((Reachable.init).runOps _ _) 1⟩

end Gstio
