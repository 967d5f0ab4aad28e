import Gstio.Snapshot

/-!
# Gstio.Share — the stake-weighted share, reported and checked

`get_account_{cpu,net}_limit_ex` reports the share of the window an account may use, what its
average has used, rounded up, and what is left, each cast to `int64_t`; `add_transaction_usage`
enforces the same share against the average it has just updated, rounded down.  Both multiply in
`uint128_t`, where a product that passes `2^128` wraps.

* `addTransactionUsage_rows_found` — from a reachable store, a transaction of initialized
  accounts never meets a missing row;
* `headroom_admits` — when the accessor's product `value_ex * window` fits in 128 bits, a
  transaction within the reported headroom passes its share check, whatever its ordinal;
* `headroom_refused_sample` — when it does not, the accessor reports the wrapped usage, and a
  transaction within the reported headroom is refused;
* `share_exact` — for an account with no pending limits, a non-negative weight and
  `limit * window < 2^63`, the share is computed without wrapping, and the accessor raises only
  when the cast of its rounded-up usage fails;
* `pending_weight_cast_fails_sample`, `max_cast_fails_sample`, `used_cast_fails_sample` — a
  pending weight not yet in the total, a maximum of `UINT64_MAX`, and a usage run up while
  unlimited each make a cast fail, and the accessor raises;
* `updateAccountUsage_ages` — `update_account_usage` only ages: no average grows, and nothing
  but the listed accounts' usage rows changes.

`RaisesNot k x db` says that `x`, run from `db`, raises no exception of kind `k`; its lemmas follow
the binds of the code, one per operation.
-/

namespace Gstio

/-! ### Exceptions a call does not raise -/

/-- `x`, run on `db`, raises no exception of kind `k`. -/
def RaisesNot {α : Type} (k : ErrKind) (x : ChainM α) (db : Db) : Prop :=
  ∀ e db', x db = .error e db' → e.kind ≠ k

namespace RaisesNot

variable {α β : Type} {k : ErrKind} {db : Db}

theorem of_ok {x : ChainM α} {a : α} {db' : Db} (h : x db = .ok a db') : RaisesNot k x db :=
  fun _ _ h' => by rw [h] at h'; cases h'

theorem bind {x : ChainM α} {f : α → ChainM β} (hx : RaisesNot k x db)
    (hf : ∀ a db', x db = .ok a db' → RaisesNot k (f a) db') : RaisesNot k (x >>= f) db := by
  intro e db'' h
  rcases bind_eq_error.mp h with h | ⟨a, db', h1, h2⟩
  exacts [hx e db'' h, hf a db' h1 e db'' h2]

theorem gstAssert {c : Prop} [Decidable c] {k' : ErrKind} (hk : k' ≠ k) (m : String) :
    RaisesNot k (Gstio.gstAssert c k' m) db := by
  intro e db' h
  rw [gstAssert_apply] at h
  split at h <;> cases h
  exact hk

/-- A read raises only the missing-row exception, and only when its row is missing. -/
theorem getState (hk : ErrKind.outOfRange ≠ k ∨ db.state ≠ []) : RaisesNot k Gstio.getState db := by
  intro e db' h
  unfold Gstio.getState at h
  split at h
  · cases h
  · next hnil => cases h; exact hk.resolve_right (not_not.mpr hnil)

theorem getConfig (hk : ErrKind.outOfRange ≠ k ∨ db.config ≠ []) : RaisesNot k Gstio.getConfig db := by
  intro e db' h
  unfold Gstio.getConfig at h
  split at h
  · cases h
  · next hnil => cases h; exact hk.resolve_right (not_not.mpr hnil)

theorem getRow {δ κ : Type} [LinearOrder κ] {key : δ → κ} {T : TableRef key} {x : κ}
    (hk : ErrKind.outOfRange ≠ k ∨ ((T.read db).find x).isSome) : RaisesNot k (T.getRow x) db := by
  intro e db' h
  unfold TableRef.getRow at h
  split at h
  · cases h
  · next hnone => cases h; exact hk.resolve_right (by simp [hnone])

theorem getAccountLimits {a : Name}
    (hk : ErrKind.outOfRange ≠ k ∨ (db.limits.find (toLex (false, a))).isSome) :
    RaisesNot k (Gstio.getAccountLimits a) db := by
  refine bind (of_ok (TableRef.findRow_apply _ _ _)) fun r db1 h1 => ?_
  rw [TableRef.findRow_apply] at h1
  cases h1
  split
  · exact of_ok rfl
  · exact getRow hk

theorem emaAdd (hk : ErrKind.rateLimitingStateInconsistent ≠ k) (e : Ema) (P : Nat) (u t : U64)
    (w : U32) : RaisesNot k (fromExcept (e.add P u t w)) db := by
  intro err db' h
  cases hadd : e.add P u t w <;> rw [hadd] at h <;> cases h
  exact Ema.add_eq_error hadd ▸ hk

theorem checkShare (d : Decl) {R : Resource} (hk : R.exceeded.kind ≠ k) (s : StateRow) (c : ConfigRow)
    (l : LimitsRow) (e : Ema) : RaisesNot k (Gstio.checkShare d R s c l e) db := by
  unfold Gstio.checkShare
  split
  · exact gstAssert hk _
  · exact of_ok rfl

/-- A loop raises no `k` when no iteration does from any store of an invariant the iterations keep. -/
theorem forM {γ : Type} {l : List γ} {f : γ → ChainM PUnit} (I : Db → Prop)
    (hf : ∀ a ∈ l, ∀ db, I db → RaisesNot k (f a) db)
    (hI : ∀ a ∈ l, ∀ x db db', I db → f a db = .ok x db' → I db') :
    ∀ db, I db → RaisesNot k (l.forM f) db := by
  induction l with
  | nil => exact fun _ _ => of_ok rfl
  | cons a l ih =>
    intro db hdb
    rw [List.forM_cons']
    exact bind (hf a (List.mem_cons_self _ _) db hdb) fun x db' h =>
      ih (fun b hb => hf b (List.mem_cons_of_mem _ hb)) (fun b hb => hI b (List.mem_cons_of_mem _ hb)) db'
        (hI a (List.mem_cons_self _ _) x db db' hdb h)

end RaisesNot

variable (d : Decl)

/-! ### One transaction -/

/-- One iteration of `add_transaction_usage` raises `k` only through one of its two share checks,
when `k` is not an accumulator overflow, and is not a missing row unless a row is missing. -/
theorem addAccountTransactionUsage_raisesNot {k : ErrKind} {db : Db} {a : Name} {s : StateRow}
    {cfg : ConfigRow} {cpu net : U64} {t : U32}
    (hk1 : ErrKind.outOfRange ≠ k ∨ (db.usage.find a).isSome ∧ (db.limits.find (toLex (false, a))).isSome)
    (hk2 : ErrKind.rateLimitingStateInconsistent ≠ k)
    (hcpu : ∀ u l e, db.usage.find a = some u → getAccountLimits a db = .ok l db →
      u.cpuUsage.add d.rateLimitingPrecision.val cpu t.toU64 cfg.accountCpuUsageAverageWindow = .ok e →
      ∀ db', RaisesNot k (checkShare d Resource.cpu s cfg l e) db')
    (hnet : ∀ u l e, db.usage.find a = some u → getAccountLimits a db = .ok l db →
      u.netUsage.add d.rateLimitingPrecision.val net t.toU64 cfg.accountNetUsageAverageWindow = .ok e →
      ∀ db', RaisesNot k (checkShare d Resource.net s cfg l e) db') :
    RaisesNot k (addAccountTransactionUsage d s cfg cpu net t a) db := by
  unfold addAccountTransactionUsage
  refine .bind (.getRow (hk1.imp_right And.left)) fun u db1 h1 => ?_
  obtain ⟨hu, rfl⟩ := usageRef.getRow_eq_ok.mp h1
  refine .bind (.getAccountLimits (hk1.imp_right And.right)) fun l db2 h2 => ?_
  obtain rfl := (getAccountLimits_keeps a : Keeps id (getAccountLimits a)) _ _ _ h2
  refine .bind (.emaAdd hk2 _ _ _ _ _) fun nA db3 h3 => ?_
  obtain ⟨hn, rfl⟩ := fromExcept_eq_ok.mp h3
  refine .bind (.emaAdd hk2 _ _ _ _ _) fun cA db4 h4 => ?_
  obtain ⟨hc, rfl⟩ := fromExcept_eq_ok.mp h4
  refine .bind (.of_ok (TableRef.modifyRow_apply _ _ _ _ _)) fun _ db5 _ => ?_
  exact .bind (hcpu u l cA hu h2 hc db5) fun _ db6 _ => hnet u l nA hu h2 hn db6

/-- A transaction raises `k` only where its loop over the authorizers does, when `k` is not the
block check, and is not a missing row unless the state or config row is missing. -/
theorem addTransactionUsage_raisesNot {k : ErrKind} {db : Db} {accounts : List Name} {cpu net : U64}
    {t : U32} (hk1 : ErrKind.outOfRange ≠ k ∨ db.state ≠ [] ∧ db.config ≠ [])
    (hk2 : ErrKind.blockResourceExhausted ≠ k)
    (hloop : ∀ s cfg, db.state.head? = some s → db.config.head? = some cfg →
      RaisesNot k (accounts.forM (addAccountTransactionUsage d s cfg cpu net t)) db) :
    RaisesNot k (addTransactionUsage d accounts cpu net t) db := by
  unfold addTransactionUsage
  refine .bind (.getState (hk1.imp_right And.left)) fun s db1 h1 => ?_
  obtain ⟨hs, rfl⟩ := getState_eq_ok.mp h1
  refine .bind (.getConfig (hk1.imp_right And.right)) fun c db2 h2 => ?_
  obtain ⟨hc, rfl⟩ := getConfig_eq_ok.mp h2
  refine .bind (hloop s c hs hc) fun _ db3 h3 => .bind (.of_ok (modifyState_apply _ _)) fun _ db4 h4 => ?_
  have hstate := forM_addAccountTransactionUsage_keeps d (usageRows_of_write state_usage) _ _ _ h3
  cases h4
  refine .bind (.getState (.inr ?_)) fun _ _ _ => .bind (.gstAssert hk2 _) fun _ _ _ => .gstAssert hk2 _
  rw [← List.length_pos, List.length_modifyHead, hstate, List.length_pos]
  intro hnil
  rw [hnil] at hs
  cases hs

/-- **The rows of initialized accounts are always found.**  From a reachable store,
`add_transaction_usage` over authorizers that all have committed limits never raises the
missing-row exception. -/
theorem addTransactionUsage_rows_found {db : Db} (h : Reachable d db) (accounts : List Name)
    (cpu net : U64) (t : U32) (hacc : ∀ a ∈ accounts, ((absLimits db.limits).committed a).isSome) :
    RaisesNot .outOfRange (addTransactionUsage d accounts cpu net t) db := by
  have hr := h.rowsPaired d
  refine addTransactionUsage_raisesNot d (.inr ⟨hr.1, hr.2⟩) (by decide) fun s cfg _ _ => ?_
  refine RaisesNot.forM (fun db' => rowsView db' = rowsView db) (fun a ha db' hdb => ?_)
    (fun a _ _ _ _ hdb h' =>
      (addAccountTransactionUsage_keeps d rowsView_usage s cfg cpu net t a _ _ _ h').trans hdb) db rfl
  simp only [rowsView, Prod.mk.injEq] at hdb
  obtain ⟨hl, -, -, hu⟩ := hdb
  have hc := hacc a ha
  refine addAccountTransactionUsage_raisesNot d (.inr ⟨(congrFun hu a).trans ((hr.3 a).trans hc), ?_⟩)
    (by decide) (fun _ _ _ _ _ _ _ => .checkShare d (by decide) _ _ _ _)
    fun _ _ _ _ _ _ _ => .checkShare d (by decide) _ _ _ _
  rw [hl]
  simpa [absLimits] using hc

/-- Account 1, once initialized, has its rows found by a transaction. -/
theorem addTransactionUsage_rows_found_sample :
    ((absLimits (runOps Decl.sample [.initializeAccount 1] (Db.init Decl.sample)).limits).committed 1).isSome ∧
      RaisesNot .outOfRange (addTransactionUsage Decl.sample [1] 1000 0 1)
        (runOps Decl.sample [.initializeAccount 1] (Db.init Decl.sample)) :=
  have hc : ((absLimits (runOps Decl.sample [.initializeAccount 1] (Db.init Decl.sample)).limits).committed
      1).isSome := by decide
  ⟨hc, addTransactionUsage_rows_found Decl.sample ((Reachable.init).runOps _ _) [1] 1000 0 1
    (List.forall_mem_cons.mpr ⟨hc, fun _ h => nomatch h⟩)⟩

/-! ### Rounding up against rounding down -/

theorem toUnsigned_128_val_of_lt {n : Nat} (h : n < 2 ^ 128) : (toUnsigned 128 n).val = n := by
  rw [toUnsigned_val_of_lt (by omega) (by exact_mod_cast h)]; rfl

/-- Rounding up never gives less than rounding down. -/
theorem div_le_integerDivideCeil (n p : U128) : n.val / p.val ≤ (integerDivideCeil n p).val := by
  unfold integerDivideCeil
  split
  · simp
  · next hmod =>
    rcases (by omega : p.val = 0 ∨ p.val = 1 ∨ 2 ≤ p.val) with hp | hp | hp
    · simp [hp]
    · exact absurd (Fin.ext (by simp [hp, Nat.mod_one])) hmod
    have : n.val / p.val < 2 ^ 127 := by
      have := n.isLt
      calc n.val / p.val ≤ n.val / 2 := Nat.div_le_div_left hp (by omega)
        _ < 2 ^ 127 := by omega
    rw [Fin.val_add, Fin.div_val, Fin.val_one', Nat.mod_eq_of_lt (by omega)]
    omega

/-- **Rounding.**  After an `add` of `c` units at any ordinal, the usage the check compares,
rounded down, is at most the accessor's usage before the `add`, rounded up, plus `c`, provided
the accessor's product `value_ex * window` did not wrap. -/
theorem usedInWindow_add_le {e e' : Ema} {c t : U64} {W : U32}
    (he : e.add d.rateLimitingPrecision.val c t W = .ok e') (hW : e.valueEx.val * W.val < 2 ^ 128) :
    (usedInWindow d e'.valueEx W).val ≤
      (integerDivideCeil (e.valueEx * toUnsigned 128 W.val) (toUnsigned 128 d.rateLimitingPrecision.val)).val
        + c.val := by
  have hP := d.rateLimitingPrecision_pos
  have hWlt : W.val < 2 ^ 128 := by have := W.isLt; omega
  have hPlt : d.rateLimitingPrecision.val < 2 ^ 128 := by have := d.rateLimitingPrecision.isLt; omega
  have hmul : e'.valueEx.val * W.val ≤ e.valueEx.val * W.val + c.val * d.rateLimitingPrecision.val :=
    calc e'.valueEx.val * W.val
        ≤ (e.valueEx.val + c.val * d.rateLimitingPrecision.val / W.val) * W.val :=
          Nat.mul_le_mul_right _ (Ema.add_valueEx_le he)
      _ ≤ e.valueEx.val * W.val + c.val * d.rateLimitingPrecision.val := by
        rw [Nat.add_mul]; exact Nat.add_le_add_left (Nat.div_mul_le_self _ _) _
  have hceil := div_le_integerDivideCeil (e.valueEx * toUnsigned 128 W.val)
    (toUnsigned 128 d.rateLimitingPrecision.val)
  rw [Fin.val_mul, toUnsigned_128_val_of_lt hWlt, toUnsigned_128_val_of_lt hPlt,
    Nat.mod_eq_of_lt hW] at hceil
  unfold usedInWindow
  rw [Fin.div_val, Fin.val_mul, toUnsigned_128_val_of_lt hWlt, toUnsigned_128_val_of_lt hPlt]
  calc e'.valueEx.val * W.val % 2 ^ 128 / d.rateLimitingPrecision.val
      ≤ e'.valueEx.val * W.val / d.rateLimitingPrecision.val := Nat.div_le_div_right (Nat.mod_le _ _)
    _ ≤ (e.valueEx.val * W.val + c.val * d.rateLimitingPrecision.val) / d.rateLimitingPrecision.val :=
        Nat.div_le_div_right hmul
    _ = e.valueEx.val * W.val / d.rateLimitingPrecision.val + c.val := Nat.add_mul_div_right _ _ hP
    _ ≤ _ := Nat.add_le_add_right hceil _

/-! ### The accessor -/

/-- What a successful accessor reports for an account with a share: the casts of its usage rounded
up and of its share. -/
theorem accountLimitEx_eq_ok {R : Resource} {s : StateRow} {u : UsageRow} {cfg : ConfigRow}
    {l : LimitsRow} {elastic : Bool} {r : AccountResourceLimit}
    (h : accountLimitEx d R s u cfg l elastic = .ok r) (hw : 0 ≤ (R.weight l).val)
    (hT : 0 < (R.totalWeight s).val) :
    downgradeCast (integerDivideCeil ((R.average u).valueEx * toUnsigned 128 (R.window cfg).val)
        (toUnsigned 128 d.rateLimitingPrecision.val)) = .ok r.used ∧
      downgradeCast (maxUserUseInWindow (if elastic then R.virtualLimit s else (R.params cfg).max)
        (R.window cfg) (R.weight l) (R.totalWeight s)) = .ok r.max := by
  unfold accountLimitEx at h
  dsimp only at h
  rw [if_neg (by omega)] at h
  generalize maxUserUseInWindow _ _ _ _ = maxUse at h ⊢
  split at h <;>
  · obtain ⟨_, -, _, -, used, hused, max, hmax, h⟩ := by simpa only [except_bind_eq_ok] using h
    cases h
    exact ⟨hused, hmax⟩

/-- The rows a successful accessor read. -/
theorem getAccountLimitEx_value {R : Resource} {db : Db} {a : Name} {elastic : Bool}
    {r : AccountResourceLimit} (h : ChainM.value (getAccountLimitEx d R a elastic) db = some r) :
    ∃ s u cfg l, db.state.head? = some s ∧ db.usage.find a = some u ∧ db.config.head? = some cfg ∧
      getAccountLimits a db = .ok l db ∧ accountLimitEx d R s u cfg l elastic = .ok r := by
  unfold ChainM.value at h
  split at h
  · next r' db' hrun =>
    cases h
    simp only [getAccountLimitEx, bind_eq_ok, getState_eq_ok, usageRef.getRow_eq_ok, usageRef_read,
      getConfig_eq_ok, fromExcept_eq_ok] at hrun
    obtain ⟨s, _, ⟨hs, rfl⟩, u, _, ⟨hu, rfl⟩, cfg, _, ⟨hc, rfl⟩, l, _, hl, hr, rfl⟩ := hrun
    obtain rfl := (getAccountLimits_keeps a : Keeps id (getAccountLimits a)) _ _ _ hl
    exact ⟨s, u, cfg, l, hs, hu, hc, hl, hr⟩
  · cases h

/-- **The share check passes within the reported headroom.**  If the accessor reported `r` for the
rows the check reads, its product `value_ex * window` did not wrap and `r.used + c ≤ r.max`, the
check after an `add` of `c` units passes. -/
theorem checkShare_of_headroom {R : Resource} {s : StateRow} {u : UsageRow} {cfg : ConfigRow}
    {l : LimitsRow} {r : AccountResourceLimit} (hr : accountLimitEx d R s u cfg l true = .ok r)
    (hW : (R.average u).valueEx.val * (R.window cfg).val < 2 ^ 128) {c t : U64} {e : Ema}
    (he : (R.average u).add d.rateLimitingPrecision.val c t (R.window cfg) = .ok e)
    (hc : r.used.val + c.val ≤ r.max.val) (db : Db) :
    checkShare d R s cfg l e db = .ok () db := by
  unfold checkShare
  split
  · next hshare =>
    obtain ⟨hused, hmax⟩ := accountLimitEx_eq_ok d hr hshare.1 hshare.2
    have h1 := (downgradeCast_eq_ok hused).1
    have h2 := (downgradeCast_eq_ok hmax).1
    have := usedInWindow_add_le d he hW
    rw [if_pos rfl] at h2
    rw [gstAssert_apply, if_pos (Fin.le_def.mpr (by omega))]
  · rfl

/-- **Reported headroom is admitted while the accessor's product fits.**  On any store, let
`get_account_cpu_limit_ex(a, true)` report `r`, and let the product `value_ex * window` it rounds
up be below `2^128`.  Then for every `c` with `r.used + c ≤ r.max`,
`add_transaction_usage({a}, c, 0, t)` raises no `tx_cpu_usage_exceeded`, at every ordinal `t`;
likewise `get_account_net_limit_ex`, `add_transaction_usage({a}, 0, c, t)` and
`tx_net_usage_exceeded`. -/
theorem headroom_admits (db : Db) (a : Name) (c : U64) (t : U32) :
    (∀ r u cfg, ChainM.value (getAccountCpuLimitEx d a true) db = some r → db.usage.find a = some u →
      db.config.head? = some cfg → u.cpuUsage.valueEx.val * cfg.accountCpuUsageAverageWindow.val < 2 ^ 128 →
      r.used.val + c.val ≤ r.max.val → RaisesNot .txCpuUsageExceeded (addTransactionUsage d [a] c 0 t) db) ∧
    (∀ r u cfg, ChainM.value (getAccountNetLimitEx d a true) db = some r → db.usage.find a = some u →
      db.config.head? = some cfg → u.netUsage.valueEx.val * cfg.accountNetUsageAverageWindow.val < 2 ^ 128 →
      r.used.val + c.val ≤ r.max.val → RaisesNot .txNetUsageExceeded (addTransactionUsage d [a] 0 c t) db) := by
  constructor
  · intro r u cfg hr hu hc hW hle
    obtain ⟨s, u', cfg', l, hs, hu', hc', hl, hex⟩ := getAccountLimitEx_value d hr
    rw [hu] at hu'; rw [hc] at hc'; cases hu'; cases hc'
    refine addTransactionUsage_raisesNot d (.inl (by decide)) (by decide) fun s' cfg' hs' hc' => ?_
    rw [hs] at hs'; rw [hc] at hc'; cases hs'; cases hc'
    rw [List.forM_cons', List.forM_nil']
    refine .bind (addAccountTransactionUsage_raisesNot d (.inl (by decide)) (by decide)
      (fun u' l' e hu' hl' he db' => ?_) fun _ _ _ _ _ _ _ => .checkShare d (by decide) _ _ _ _)
        fun _ _ _ => .of_ok rfl
    rw [hu] at hu'; rw [hl] at hl'; cases hu'; cases hl'
    exact .of_ok (checkShare_of_headroom d hex hW he hle db')
  · intro r u cfg hr hu hc hW hle
    obtain ⟨s, u', cfg', l, hs, hu', hc', hl, hex⟩ := getAccountLimitEx_value d hr
    rw [hu] at hu'; rw [hc] at hc'; cases hu'; cases hc'
    refine addTransactionUsage_raisesNot d (.inl (by decide)) (by decide) fun s' cfg' hs' hc' => ?_
    rw [hs] at hs'; rw [hc] at hc'; cases hs'; cases hc'
    rw [List.forM_cons', List.forM_nil']
    refine .bind (addAccountTransactionUsage_raisesNot d (.inl (by decide)) (by decide)
      (fun _ _ _ _ _ _ _ => .checkShare d (by decide) _ _ _ _) fun u' l' e hu' hl' he db' => ?_) fun _ _ _ =>
        .of_ok rfl
    rw [hu] at hu'; rw [hl] at hl'; cases hu'; cases hl'
    exact .of_ok (checkShare_of_headroom d hex hW he hle db')

/-- An account holding the whole CPU weight, 1, with no usage yet. -/
def weightOneOps : List Op :=
  [.initializeAccount 1, .setAccountLimits 1 (-1) (-1) 1, .processAccountLimitUpdates]

set_option maxRecDepth 4000 in
/-- The rows account 1 reads after `weightOneOps`. -/
theorem weightOne_rows :
    (runOps Decl.sample weightOneOps (Db.init Decl.sample)).state.head? =
        some { StateRow.initial with
          totalCpuWeight := 1, virtualCpuLimit := 200000, virtualNetLimit := 1048576 } ∧
      (runOps Decl.sample weightOneOps (Db.init Decl.sample)).usage.find 1 = some (UsageRow.initial 1) ∧
      (runOps Decl.sample weightOneOps (Db.init Decl.sample)).config.head? = some Decl.sample.configDefault ∧
      (runOps Decl.sample weightOneOps (Db.init Decl.sample)).limits.find (toLex (true, 1)) = none ∧
      (runOps Decl.sample weightOneOps (Db.init Decl.sample)).limits.find (toLex (false, 1)) =
        some ⟨1, false, -1, -1, 1⟩ := by
  simp only [weightOneOps, runOps, List.foldl_cons, List.foldl_nil, Op.apply_processAccountLimitUpdates]
  decide

set_option maxRecDepth 4000 in
/-- With the sample parameters the accessor reports a share of `200000 * 172800`, and a
transaction of 1000 at the next slot passes its CPU check. -/
theorem headroom_admits_sample :
    ChainM.value (getAccountCpuLimitEx Decl.sample 1 true) (runOps Decl.sample weightOneOps (Db.init Decl.sample)) =
        some ⟨0, I64.ofInt 34560000000, I64.ofInt 34560000000⟩ ∧
      RaisesNot .txCpuUsageExceeded (addTransactionUsage Decl.sample [1] 1000 0 1)
        (runOps Decl.sample weightOneOps (Db.init Decl.sample)) := by
  have hval : ChainM.value (getAccountCpuLimitEx Decl.sample 1 true)
      (runOps Decl.sample weightOneOps (Db.init Decl.sample)) =
        some ⟨0, I64.ofInt 34560000000, I64.ofInt 34560000000⟩ := by
    simp only [weightOneOps, runOps, List.foldl_cons, List.foldl_nil, Op.apply_processAccountLimitUpdates]
    decide
  exact ⟨hval, (headroom_admits Decl.sample _ 1 1000 1).1 _ _ _ hval weightOne_rows.2.1
    weightOne_rows.2.2.1 (by decide) (by decide)⟩

/-- A declaration with precision `2^63`, a two-slot window and a block maximum of `UINT64_MAX`:
three transactions of one account fill `value_ex` to `2^127`. -/
def Decl.widePrecision : Decl where
  rateLimitingPrecision := 9223372036854775808
  rateLimitingPrecision_pos := by decide
  ramBytesDefault := -1
  netWeightDefault := -1
  cpuWeightDefault := -1
  gstUsageDefault := 0
  configDefault :=
    { cpuLimitParameters := ⟨U64.max, U64.max, 1, 1, ⟨1, 1⟩, ⟨1, 1⟩⟩
      netLimitParameters := ⟨U64.max, U64.max, 1, 1, ⟨1, 1⟩, ⟨1, 1⟩⟩
      accountCpuUsageAverageWindow := 2
      accountNetUsageAverageWindow := 2 }

/-- Account 2 holds a CPU weight of 8; account 1, unlimited, uses `2^64 - 1`, `2^64 - 1` and 2
units at slot 0, one block each, and is then given a CPU weight of 1. -/
def wrappedUsageOps : List Op :=
  [.initializeAccount 1, .initializeAccount 2, .setAccountLimits 2 (-1) (-1) 8, .processAccountLimitUpdates,
    .addTransactionUsage [1] U64.max 0 0, .processBlockUsage 1, .addTransactionUsage [1] U64.max 0 0,
    .processBlockUsage 2, .addTransactionUsage [1] 2 0 0, .setAccountLimits 1 (-1) (-1) 1]

set_option maxRecDepth 8000 in
/-- The accessor's product `value_ex * window` reaches `2^128` and wraps to 0: account 1, with
weight 1 of a total 8 and last ordinal 0, is reported as having used nothing of a share of
`2^62 - 1`, but a transaction of one unit at slot 1 is refused with `tx_cpu_usage_exceeded`. -/
theorem headroom_refused_sample :
    Reachable Decl.widePrecision (runOps Decl.widePrecision wrappedUsageOps (Db.init Decl.widePrecision)) ∧
      (ChainM.value (getAccountLimits 1)
        (runOps Decl.widePrecision wrappedUsageOps (Db.init Decl.widePrecision))).map
          (fun l => l.cpuWeight.val) = some 1 ∧
      (runOps Decl.widePrecision wrappedUsageOps (Db.init Decl.widePrecision)).state.head?.map
        (fun s => s.totalCpuWeight.val) = some 8 ∧
      ((runOps Decl.widePrecision wrappedUsageOps (Db.init Decl.widePrecision)).usage.find 1).map
        (fun u => (u.cpuUsage.lastOrdinal.val, u.cpuUsage.valueEx.val * 2)) = some (0, 2 ^ 128) ∧
      ChainM.value (getAccountCpuLimitEx Decl.widePrecision 1 true)
          (runOps Decl.widePrecision wrappedUsageOps (Db.init Decl.widePrecision)) =
        some ⟨0, I64.ofInt (2 ^ 62 - 1), I64.ofInt (2 ^ 62 - 1)⟩ ∧
      (ChainM.exception (addTransactionUsage Decl.widePrecision [1] 1 0 1)
          (runOps Decl.widePrecision wrappedUsageOps (Db.init Decl.widePrecision))).map Err.kind =
        some .txCpuUsageExceeded := by
  refine ⟨(Reachable.init).runOps _ _, ?_⟩
  simp only [wrappedUsageOps, runOps, List.foldl_cons, List.foldl_nil, Op.apply_processAccountLimitUpdates]
  decide

/-! ### The share of a committed weight -/

/-- `get_account_limits` of an account with no pending row returns its committed row. -/
theorem getAccountLimits_committed {db : Db} {a : Name} {l : LimitsRow}
    (hnp : db.limits.find (toLex (true, a)) = none) (hl : db.limits.find (toLex (false, a)) = some l) :
    getAccountLimits a db = .ok l db := by
  unfold getAccountLimits
  rw [bind_apply_ok (TableRef.findRow_apply _ _ _), limitsRef_read, hnp]
  exact limitsRef.getRow_eq_ok.mpr ⟨hl, rfl⟩

/-- `get_account_limits` reads only the limits table. -/
theorem getAccountLimits_of_limits {a : Name} {l : LimitsRow} {db db' : Db}
    (h : getAccountLimits a db = .ok l db) (hl : db'.limits = db.limits) :
    getAccountLimits a db' = .ok l db' := by
  unfold getAccountLimits at h ⊢
  rw [bind_apply_ok (TableRef.findRow_apply _ _ _), limitsRef_read] at h ⊢
  rw [hl]
  cases hf : db.limits.find (toLex (true, a)) <;> rw [hf] at h
  · exact limitsRef.getRow_eq_ok.mpr ⟨by rw [limitsRef_read, hl]; exact (limitsRef.getRow_eq_ok.mp h).1, rfl⟩
  · cases h; rfl

/-- The sample's CPU parameters with a block maximum of `UINT64_MAX`. -/
def maxCpuParameters : ElasticLimitParameters := ⟨40000, U64.max, 120, 1000, ⟨99, 100⟩, ⟨1000, 999⟩⟩

/-- Account 1 holds the whole CPU weight, 1, with no usage, and the CPU maximum is raised to
`UINT64_MAX`. -/
def maxCpuOps : List Op :=
  weightOneOps ++ [.setBlockParameters maxCpuParameters Decl.sample.configDefault.netLimitParameters]

set_option maxRecDepth 8000 in
/-- Without `L * window < 2^63` the cast of the share fails: account 1 has no usage, but its share
of the maximum is `(2^64 - 1) * 172800`, and `get_account_cpu_limit_ex` raises the fatal cast. -/
theorem max_cast_fails_sample :
    Reachable Decl.sample (runOps Decl.sample maxCpuOps (Db.init Decl.sample)) ∧
      ChainM.exception (getAccountCpuLimitEx Decl.sample 1 false)
          (runOps Decl.sample maxCpuOps (Db.init Decl.sample)) =
        some ⟨.rateLimitingStateInconsistent, "downgrade_cast of a value out of int64_t range"⟩ := by
  refine ⟨(Reachable.init).runOps _ _, ?_⟩
  simp only [maxCpuOps, weightOneOps, runOps, List.cons_append, List.nil_append, List.foldl_cons,
    List.foldl_nil, Op.apply_processAccountLimitUpdates]
  decide

/-- Account 1, unlimited, uses `2^64 - 1` CPU units under a CPU maximum raised to `UINT64_MAX`;
the maximum is then set back, and account 1 is given the whole CPU weight, 1. -/
def unlimitedUsageOps : List Op :=
  [.initializeAccount 1, .setBlockParameters maxCpuParameters Decl.sample.configDefault.netLimitParameters,
    .addTransactionUsage [1] U64.max 0 0,
    .setBlockParameters Decl.sample.configDefault.cpuLimitParameters Decl.sample.configDefault.netLimitParameters,
    .setAccountLimits 1 (-1) (-1) 1, .processAccountLimitUpdates]

set_option maxRecDepth 8000 in
/-- The cast of the usage fails inside the other premises of the exact share: the parameters are
the sample's again, account 1 has no pending row and a committed weight 1 of a total 1, but the
usage it ran up while unlimited, rounded up, is `2^64 - 1`, and `get_account_cpu_limit_ex`
raises the fatal cast. -/
theorem used_cast_fails_sample :
    Reachable Decl.sample (runOps Decl.sample unlimitedUsageOps (Db.init Decl.sample)) ∧
      (runOps Decl.sample unlimitedUsageOps (Db.init Decl.sample)).config.head? = some Decl.sample.configDefault ∧
      (runOps Decl.sample unlimitedUsageOps (Db.init Decl.sample)).limits.find (toLex (true, 1)) = none ∧
      (runOps Decl.sample unlimitedUsageOps (Db.init Decl.sample)).limits.find (toLex (false, 1)) =
        some ⟨1, false, -1, -1, 1⟩ ∧
      (runOps Decl.sample unlimitedUsageOps (Db.init Decl.sample)).state.head?.map
        (fun s => s.totalCpuWeight.val) = some 1 ∧
      ChainM.exception (getAccountCpuLimitEx Decl.sample 1 false)
          (runOps Decl.sample unlimitedUsageOps (Db.init Decl.sample)) =
        some ⟨.rateLimitingStateInconsistent, "downgrade_cast of a value out of int64_t range"⟩ := by
  refine ⟨(Reachable.init).runOps _ _, ?_⟩
  simp only [unlimitedUsageOps, runOps, List.foldl_cons, List.foldl_nil, Op.apply_processAccountLimitUpdates]
  decide

/-! ### Ageing idle accounts -/

/-- `u'` is `u` aged: the same account and RAM usage, with averages no larger. -/
def UsageRow.Aged (u' u : UsageRow) : Prop :=
  u'.owner = u.owner ∧ u'.ramUsage = u.ramUsage ∧ u'.netUsage.valueEx.val ≤ u.netUsage.valueEx.val ∧
    u'.cpuUsage.valueEx.val ≤ u.cpuUsage.valueEx.val

theorem UsageRow.aged_refl : ∀ x : Option UsageRow, Option.Rel UsageRow.Aged x x
  | some _ => .some ⟨rfl, rfl, le_rfl, le_rfl⟩
  | none => .none

theorem UsageRow.aged_trans :
    ∀ {x y z : Option UsageRow}, Option.Rel UsageRow.Aged x y → Option.Rel UsageRow.Aged y z →
      Option.Rel UsageRow.Aged x z
  | _, _, _, .some h2, .some h1 =>
    .some ⟨h2.1.trans h1.1, h2.2.1.trans h1.2.1, h2.2.2.1.trans h1.2.2.1, h2.2.2.2.trans h1.2.2.2⟩
  | _, _, _, .none, .none => .none

/-- What one successful iteration of `update_account_usage` did: it aged the account's row, by
an `add` of no units to each average. -/
theorem ageAccountUsage_eq_ok {cfg : ConfigRow} {t : U32} {a : Name} {db db' : Db}
    (h : ageAccountUsage d cfg t a db = .ok () db') :
    ∃ u nA cA, db.usage.find a = some u ∧
      db' = usageRef.write db (db.usage.modify a fun bu => { bu with netUsage := nA, cpuUsage := cA }) ∧
      UsageRow.Aged { u with netUsage := nA, cpuUsage := cA } u := by
  simp only [ageAccountUsage, bind_eq_ok, usageRef.getRow_eq_ok, usageRef_read, fromExcept_eq_ok,
    TableRef.modifyRow_apply] at h
  obtain ⟨u, _, ⟨hu, rfl⟩, nA, _, ⟨hn, rfl⟩, cA, _, ⟨hc, rfl⟩, h⟩ := h
  cases h
  have h0 : (0 : U64).val = 0 := rfl
  have hn' := Ema.add_valueEx_le hn
  have hc' := Ema.add_valueEx_le hc
  rw [h0, Nat.zero_mul, Nat.zero_div, Nat.add_zero] at hn' hc'
  exact ⟨u, nA, cA, hu, rfl, rfl, rfl, hn', hc'⟩

/-- **The loop of `update_account_usage`.**  A successful loop ages every usage row, and changes
only the rows of the accounts it visits. -/
theorem forM_ageAccountUsage {cfg : ConfigRow} {t : U32} :
    ∀ {accounts : List Name} {db db' : Db}, accounts.forM (ageAccountUsage d cfg t) db = .ok () db' →
      ∀ b, Option.Rel UsageRow.Aged (db'.usage.find b) (db.usage.find b) ∧
        (b ∉ accounts → db'.usage.find b = db.usage.find b)
  | [], db, db', h => by
    cases h
    exact fun b => ⟨UsageRow.aged_refl _, fun _ => rfl⟩
  | a :: as, db, db', h => by
    rw [List.forM_cons'] at h
    obtain ⟨_, db1, h1, h2⟩ := bind_eq_ok.mp h
    obtain ⟨u, nA, cA, hu, rfl, hage⟩ := ageAccountUsage_eq_ok d h1
    intro b
    obtain ⟨hrel, hout⟩ := forM_ageAccountUsage h2 b
    simp only [usageRef_write, Table.find_modify] at hrel hout
    by_cases hab : a = b
    · subst hab
      rw [if_pos rfl, hu, Option.map_some'] at hrel
      rw [hu]
      exact ⟨UsageRow.aged_trans hrel (.some hage), fun hb => absurd (List.mem_cons_self _ _) hb⟩
    · rw [if_neg hab] at hrel hout
      exact ⟨hrel, fun hb => hout fun h => hb (List.mem_cons_of_mem _ h)⟩

/-- **`update_account_usage` only ages.**  After a successful call no account's CPU or NET
`value_ex` has grown and no RAM usage has moved; only the rows of the listed accounts have
changed, and no other table. -/
theorem updateAccountUsage_ages {db db' : Db} {accounts : List Name} {t : U32}
    (h : updateAccountUsage d accounts t db = .ok () db') :
    { db' with usage := db.usage } = db ∧
      ∀ b, Option.Rel UsageRow.Aged (db'.usage.find b) (db.usage.find b) ∧
        (b ∉ accounts → db'.usage.find b = db.usage.find b) := by
  have hkeeps : Keeps (fun db : Db => { db with usage := Table.empty }) (updateAccountUsage d accounts t) :=
    updateAccountUsage_keeps d (usageRows_of_write fun db u =>
      (rfl : { usageRef.write db u with usage := Table.empty } = { db with usage := Table.empty })) accounts t
  have hframe := hkeeps db () db' h
  unfold updateAccountUsage at h
  obtain ⟨cfg, db1, hc, h⟩ := bind_eq_ok.mp h
  obtain ⟨-, hdb⟩ := getConfig_eq_ok.mp hc
  subst db1
  exact ⟨congrArg (fun x : Db => { x with usage := db.usage }) hframe, forM_ageAccountUsage d h⟩

theorem updateAccountUsage_ages_sample :
    { runOps Decl.sample [.initializeAccount 1, .addTransactionUsage [1] 1000 0 1, .updateAccountUsage [1] 5]
        (Db.init Decl.sample) with
        usage := (runOps Decl.sample [.initializeAccount 1, .addTransactionUsage [1] 1000 0 1]
          (Db.init Decl.sample)).usage } =
        runOps Decl.sample [.initializeAccount 1, .addTransactionUsage [1] 1000 0 1] (Db.init Decl.sample) ∧
      ∀ b, Option.Rel UsageRow.Aged
          ((runOps Decl.sample [.initializeAccount 1, .addTransactionUsage [1] 1000 0 1,
            .updateAccountUsage [1] 5] (Db.init Decl.sample)).usage.find b)
          ((runOps Decl.sample [.initializeAccount 1, .addTransactionUsage [1] 1000 0 1]
            (Db.init Decl.sample)).usage.find b) ∧
        (b ∉ [1] → (runOps Decl.sample [.initializeAccount 1, .addTransactionUsage [1] 1000 0 1,
            .updateAccountUsage [1] 5] (Db.init Decl.sample)).usage.find b =
          (runOps Decl.sample [.initializeAccount 1, .addTransactionUsage [1] 1000 0 1]
            (Db.init Decl.sample)).usage.find b) :=
  updateAccountUsage_ages Decl.sample
    (show updateAccountUsage Decl.sample [1] 5 (runOps Decl.sample [.initializeAccount 1,
      .addTransactionUsage [1] 1000 0 1] (Db.init Decl.sample)) = .ok () (runOps Decl.sample
        [.initializeAccount 1, .addTransactionUsage [1] 1000 0 1, .updateAccountUsage [1] 5]
        (Db.init Decl.sample)) from rfl)

end Gstio
