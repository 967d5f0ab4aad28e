import Gstio.Frame
import Gstio.Commit
import Mathlib.Algebra.Order.BigOperators.Group.List

/-!
# Gstio.Totals — the state's totals are the sums of the committed limits

`total_cpu_weight`, `total_net_weight` and `total_ram_bytes` change only in
`process_account_limit_updates`, which takes each committed value out of its total and puts the
pending value in, each only when positive, with checked `uint64_t` arithmetic.  `TotalsInv`: the
state row exists and each total equals, in unbounded arithmetic, the sum over the committed rows
of the positive part of its value.

* `TotalsMatch.commit` — one iteration of the commit loop keeps the match;
* `TotalsInv.step` — every successful call keeps the invariant, given non-positive row defaults;
* `totals_eq_committedSum` — the invariant holds in every reachable store, and the underflow
  assertion of the commit loop, whose condition it implies, never fires.
-/

namespace Gstio

/-! ### The committed sums -/

/-- What a limits row adds to the total of the value `w`: its positive part when committed. -/
def LimitsRow.share (w : LimitsRow → I64) (r : LimitsRow) : Int :=
  if r.pending then 0 else max (w r).val 0

/-- The sum of the positive parts of `w` over the committed rows of `t`. -/
def committedSum (w : LimitsRow → I64) (t : Table LimitsRow.key) : Int :=
  (t.rows.map (LimitsRow.share w)).sum

/-- The totals of the state row `s` are the committed sums of the limits table `t`. -/
structure TotalsMatch (t : Table LimitsRow.key) (s : StateRow) : Prop where
  cpu : (s.totalCpuWeight.val : Int) = committedSum LimitsRow.cpuWeight t
  net : (s.totalNetWeight.val : Int) = committedSum LimitsRow.netWeight t
  ram : (s.totalRamBytes.val : Int) = committedSum LimitsRow.ramBytes t

/-- The invariant of the store: it has a state row, whose totals match the limits table. -/
def TotalsInv (db : Db) : Prop := ∃ s, db.state.head? = some s ∧ TotalsMatch db.limits s

/-- The declared defaults of the limits are not positive (the spec's defaults are `-1`). -/
def Decl.DefaultsNonpos (d : Decl) : Prop :=
  d.ramBytesDefault.val ≤ 0 ∧ d.netWeightDefault.val ≤ 0 ∧ d.cpuWeightDefault.val ≤ 0

instance (d : Decl) : Decidable d.DefaultsNonpos := inferInstanceAs (Decidable (_ ∧ _ ∧ _))

section Sums

variable (w : LimitsRow → I64) {t t' : Table LimitsRow.key}

theorem LimitsRow.share_of_pending {r : LimitsRow} (h : r.pending = true) : r.share w = 0 := by
  simp [share, h]

theorem LimitsRow.share_of_committed {r : LimitsRow} (h : r.pending = false) :
    r.share w = max (w r).val 0 := by
  simp [share, h]

theorem share_le_committedSum {x : LimitsRow} (hx : x ∈ t.rows) : x.share w ≤ committedSum w t := by
  refine List.single_le_sum (fun _ hy => ?_) _ (List.mem_map_of_mem _ hx)
  obtain ⟨r, -, rfl⟩ := List.mem_map.mp hy
  unfold LimitsRow.share; split <;> omega

theorem pending_of_key {r : LimitsRow} {b : Bool} {o : Name} (h : r.key = toLex (b, o)) :
    r.pending = b ∧ r.owner = o := by
  simpa [LimitsRow.key] using h

theorem committedSum_create {r : LimitsRow} (h : t.create r = some t') :
    committedSum w t' = r.share w + committedSum w t :=
  Table.sum_map_create _ h

/-- Rewriting a pending row leaves the committed sums alone. -/
theorem committedSum_modify_pending (o : Name) (f : LimitsRow → LimitsRow)
    (hf : ∀ x, (f x).key = x.key) : committedSum w (t.modify (toLex (true, o)) f hf) = committedSum w t :=
  Table.sum_map_modify_of_forall _ t _ f hf fun x _ hk => by
    rw [LimitsRow.share_of_pending w (pending_of_key hk).1,
      LimitsRow.share_of_pending w (pending_of_key ((hf x).trans hk)).1]

/-- One iteration of the commit loop moves the committed sum of `w` from the committed value to
the pending one. -/
theorem committedSum_commitRow {itr actual : LimitsRow} (hp : itr.pending = true)
    (ha : t.find (toLex (false, itr.owner)) = some actual) (hw : ∀ r, w (itr.commit r) = w itr) :
    committedSum w (commitRow t itr) = committedSum w t - max (w actual).val 0 + max (w itr).val 0 := by
  have hpa := (pending_of_key (Table.find_eq_some_iff.mp ha).2).1
  unfold commitRow committedSum
  rw [Table.sum_map_remove_of_forall (LimitsRow.share w) _ itr.key fun x _ hk => LimitsRow.share_of_pending w
      ((pending_of_key (hk : x.key = toLex (itr.pending, itr.owner))).1.trans hp),
    Table.sum_map_modify _ _ _ ha, LimitsRow.share_of_committed w hpa,
    LimitsRow.share_of_committed w (show (itr.commit actual).pending = false from hpa), hw]

end Sums

/-! ### One iteration of the commit loop -/

section Commit

variable {total total' : U64} {v p : I64} {which : String}

theorem revertValue_eq_ok (h : revertValue total v which = .ok total') :
    (total'.val : Int) = total.val - max v.val 0 := by
  unfold revertValue at h
  split at h
  next hv =>
    obtain ⟨_, h1, h2⟩ := except_bind_eq_ok.mp h
    rw [gstAssert_except] at h1
    split at h1
    next hle =>
      cases h2
      have hx := toUnsigned_I64_of_nonneg hv.le
      rw [Fin.sub_val_of_le hle]
      rw [Fin.le_def] at hle
      omega
    next => cases h1
  next => cases h; omega

theorem applyValue_eq_ok (h : applyValue total p which = .ok total') :
    (total'.val : Int) = total.val + max p.val 0 := by
  unfold applyValue at h
  split at h
  next hp =>
    obtain ⟨_, h1, h2⟩ := except_bind_eq_ok.mp h
    rw [gstAssert_except] at h1
    split at h1
    next hle =>
      cases h2
      have hx := toUnsigned_I64_of_nonneg hp.le
      rw [Fin.le_def, Fin.sub_val_of_le (Fin.le_def.mpr (by simp only [U64.max_val]; omega)),
        U64.max_val] at hle
      rw [Fin.val_add]
      omega
    next => cases h1
  next => cases h; omega

/-- A successful `update_state_and_value` is exact: both of its checks rule out wrapping. -/
theorem updateStateAndValue_eq_ok (h : updateStateAndValue total v p which = .ok total') :
    (total'.val : Int) = total.val - max v.val 0 + max p.val 0 := by
  obtain ⟨total1, h1, h2⟩ := except_bind_eq_ok.mp h
  rw [applyValue_eq_ok h2, revertValue_eq_ok h1]

theorem revertValue_ne_error {e : Err} (hv : max v.val 0 ≤ total.val) :
    revertValue total v which ≠ .error e := by
  unfold revertValue
  split
  next hpos =>
    have hx := toUnsigned_I64_of_nonneg hpos.le
    rw [gstAssert_except, if_pos (Fin.le_def.mpr (by omega))]
    intro h; cases h
  next => intro h; cases h

theorem applyValue_eq_error {e : Err} (h : applyValue total p which = .error e) :
    e = ⟨.rateLimitingStateInconsistent, "overflow when applying new value to " ++ which⟩ := by
  unfold applyValue at h
  split at h
  next =>
    rcases except_bind_eq_error.mp h with h1 | ⟨_, _, h2⟩
    · rw [gstAssert_except] at h1; split at h1 <;> cases h1; rfl
    · cases h2
  next => cases h

/-- When the old value fits in the total, `update_state_and_value` can only raise its overflow
assertion. -/
theorem updateStateAndValue_eq_error {e : Err} (h : updateStateAndValue total v p which = .error e)
    (hv : max v.val 0 ≤ total.val) :
    e = ⟨.rateLimitingStateInconsistent, "overflow when applying new value to " ++ which⟩ := by
  rcases except_bind_eq_error.mp h with h1 | ⟨_, _, h2⟩
  · exact absurd h1 (revertValue_ne_error hv)
  · exact applyValue_eq_error h2

variable {rso rso' : StateRow} {actual itr : LimitsRow}

theorem commitTotals_eq_ok (h : commitTotals rso actual itr = .ok rso') :
    ∃ ram cpu net,
      updateStateAndValue rso.totalRamBytes actual.ramBytes itr.ramBytes "ram_bytes" = .ok ram ∧
      updateStateAndValue rso.totalCpuWeight actual.cpuWeight itr.cpuWeight "cpu_weight" = .ok cpu ∧
      updateStateAndValue rso.totalNetWeight actual.netWeight itr.netWeight "net_weight" = .ok net ∧
      rso' = { rso with totalRamBytes := ram, totalCpuWeight := cpu, totalNetWeight := net } := by
  obtain ⟨ram, h1, h⟩ := except_bind_eq_ok.mp h
  obtain ⟨cpu, h2, h⟩ := except_bind_eq_ok.mp h
  obtain ⟨net, h3, h⟩ := except_bind_eq_ok.mp h
  cases h
  exact ⟨ram, cpu, net, h1, h2, h3, rfl⟩

theorem commitTotals_eq_error {e : Err} (h : commitTotals rso actual itr = .error e) :
    updateStateAndValue rso.totalRamBytes actual.ramBytes itr.ramBytes "ram_bytes" = .error e ∨
      updateStateAndValue rso.totalCpuWeight actual.cpuWeight itr.cpuWeight "cpu_weight" = .error e ∨
      updateStateAndValue rso.totalNetWeight actual.netWeight itr.netWeight "net_weight" = .error e := by
  rcases except_bind_eq_error.mp h with h1 | ⟨_, _, h⟩
  · exact .inl h1
  rcases except_bind_eq_error.mp h with h2 | ⟨_, _, h⟩
  · exact .inr (.inl h2)
  rcases except_bind_eq_error.mp h with h3 | ⟨_, _, h⟩
  · exact .inr (.inr h3)
  · cases h

variable {t : Table LimitsRow.key}

/-- **Step lemma of the loop.** Committing one pending row keeps the totals matched. -/
theorem TotalsMatch.commit (h : TotalsMatch t rso) (hp : itr.pending = true)
    (ha : t.find (toLex (false, itr.owner)) = some actual)
    (hc : commitTotals rso actual itr = .ok rso') : TotalsMatch (commitRow t itr) rso' := by
  obtain ⟨ram, cpu, net, h1, h2, h3, rfl⟩ := commitTotals_eq_ok hc
  refine ⟨?_, ?_, ?_⟩ <;> dsimp only
  · rw [updateStateAndValue_eq_ok h2, h.cpu, committedSum_commitRow LimitsRow.cpuWeight hp ha fun _ => rfl]
  · rw [updateStateAndValue_eq_ok h3, h.net, committedSum_commitRow LimitsRow.netWeight hp ha fun _ => rfl]
  · rw [updateStateAndValue_eq_ok h1, h.ram, committedSum_commitRow LimitsRow.ramBytes hp ha fun _ => rfl]

/-- With the totals matched, the committed value is part of its total, so the underflow assertion
holds and only the overflow assertion can fail. -/
theorem TotalsMatch.commit_error {e : Err} (h : TotalsMatch t rso)
    (ha : t.find (toLex (false, itr.owner)) = some actual)
    (hc : commitTotals rso actual itr = .error e) :
    ∃ which, e = ⟨.rateLimitingStateInconsistent, "overflow when applying new value to " ++ which⟩ := by
  obtain ⟨hmem, hk⟩ := Table.find_eq_some_iff.mp ha
  have hle : ∀ w : LimitsRow → I64, max (w actual).val 0 ≤ committedSum w t := fun w =>
    (LimitsRow.share_of_committed w (pending_of_key hk).1) ▸ share_le_committedSum w hmem
  rcases commitTotals_eq_error hc with h1 | h1 | h1
  · exact ⟨_, updateStateAndValue_eq_error h1 (h.ram ▸ hle _)⟩
  · exact ⟨_, updateStateAndValue_eq_error h1 (h.cpu ▸ hle _)⟩
  · exact ⟨_, updateStateAndValue_eq_error h1 (h.net ▸ hle _)⟩

end Commit

/-! ### The invariant over runs -/

/-- What `TotalsInv` reads of the store: the state row's totals and the limits table. -/
def totalsView (db : Db) : Option (U64 × U64 × U64) × Table LimitsRow.key :=
  (db.state.head?.map StateRow.totals, db.limits)

section Runs

variable (d : Decl) {db db' : Db} {t t' : Table LimitsRow.key} {s s' : StateRow}

theorem TotalsMatch.of_totals (h : TotalsMatch t s) (he : s'.totals = s.totals) : TotalsMatch t s' := by
  simp only [StateRow.totals, Prod.mk.injEq] at he
  exact ⟨he.1 ▸ h.cpu, he.2.1 ▸ h.net, he.2.2 ▸ h.ram⟩

theorem TotalsMatch.of_sums (h : TotalsMatch t s) (hw : ∀ w, committedSum w t' = committedSum w t) :
    TotalsMatch t' s :=
  ⟨h.cpu.trans (hw _).symm, h.net.trans (hw _).symm, h.ram.trans (hw _).symm⟩

/-- A call that keeps `totalsView` keeps the invariant. -/
theorem TotalsInv.of_keeps {α : Type} {x : ChainM α} {a : α} (hx : Keeps totalsView x)
    (h : TotalsInv db) (hrun : x db = .ok a db') : TotalsInv db' := by
  obtain ⟨s, hs, hm⟩ := h
  obtain ⟨h1, h2⟩ := Prod.mk.inj (hx db a db' hrun)
  rw [hs, Option.map_some'] at h1
  obtain ⟨s', hs', he⟩ := Option.map_eq_some'.mp h1
  exact ⟨s', hs', h2 ▸ hm.of_totals he⟩

theorem totalsView_usage (db : Db) (t : Table UsageRow.owner) :
    totalsView (usageRef.write db t) = totalsView db := rfl

theorem totalsView_gst (db : Db) (t : Table GstRow.key) :
    totalsView (gstRef.write db t) = totalsView db := rfl

theorem totalsView_activation (db : Db) (t : Table ActivationRow.key) :
    totalsView (activationRef.write db t) = totalsView db := rfl

theorem totalsView_config (db : Db) (c : List ConfigRow) :
    totalsView { db with config := c } = totalsView db := rfl

theorem totalsView_modifyState (db : Db) (g : StateRow → StateRow)
    (hg : ∀ s, db.state.head? = some s → (g s).totals = s.totals) :
    totalsView { db with state := db.state.modifyHead g } = totalsView db := by
  simp only [totalsView, List.head?_modifyHead, Option.map_map]
  cases h : db.state.head? with
  | none => rfl
  | some s => simp [hg s h]

theorem TotalsInv.init : TotalsInv (Db.init d) := ⟨_, rfl, rfl, rfl, rfl⟩

theorem TotalsInv.initializeAccount (hd : d.DefaultsNonpos) {a : Name} (h : TotalsInv db)
    (hrun : initializeAccount d a db = .ok () db') : TotalsInv db' := by
  obtain ⟨t, u, ht, -, rfl⟩ := initializeAccount_eq_ok d hrun
  obtain ⟨s, hs, hm⟩ := h
  have hz : ∀ w : LimitsRow → I64, (w (LimitsRow.initial d a)).val ≤ 0 →
      committedSum w t = committedSum w db.limits := fun w hw => by
    rw [committedSum_create w ht, LimitsRow.share_of_committed w rfl]; omega
  exact ⟨s, hs, hm.cpu.trans (hz _ hd.2.2).symm, hm.net.trans (hz _ hd.2.1).symm,
    hm.ram.trans (hz _ hd.1).symm⟩

theorem findOrCreatePendingLimits_sums {a : Name} {l : LimitsRow}
    (h : findOrCreatePendingLimits a db = .ok l db') :
    db'.state = db.state ∧ ∀ w, committedSum w db'.limits = committedSum w db.limits := by
  rcases findOrCreatePendingLimits_eq_ok h with ⟨-, rfl⟩ | ⟨-, c, t, -, rfl, ht, rfl⟩
  · exact ⟨rfl, fun _ => rfl⟩
  · exact ⟨rfl, fun w => by rw [committedSum_create w ht, LimitsRow.share_of_pending w rfl, zero_add]⟩

theorem TotalsInv.setAccountLimits {a : Name} {r n c : I64} {dec : Bool} (h : TotalsInv db)
    (hrun : setAccountLimits a r n c db = .ok dec db') : TotalsInv db' := by
  obtain ⟨l, db1, h1, rfl, -⟩ := setAccountLimits_eq_ok hrun
  obtain ⟨hst, hw⟩ := findOrCreatePendingLimits_sums h1
  obtain ⟨s, hs, hm⟩ := h
  exact ⟨s, hst ▸ hs, hm.of_sums fun w => (committedSum_modify_pending w a
    (fun p => { p with ramBytes := r, netWeight := n, cpuWeight := c }) fun _ => rfl).trans (hw w)⟩

/-- The loop's step, in the form `commitAll_ok_inv` takes. -/
theorem TotalsMatch.loopStep (t : Table LimitsRow.key) (rso : StateRow) (itr : LimitsRow)
    (rest : List LimitsRow) (actual : LimitsRow) (rso' : StateRow) (h : TotalsMatch t rso)
    (hl : pendingRows t = itr :: rest) (ha : t.find (toLex (false, itr.owner)) = some actual)
    (hc : commitTotals rso actual itr = .ok rso') : TotalsMatch (commitRow t itr) rso' :=
  h.commit (mem_of_pendingRows_eq_cons hl).2 ha hc

theorem TotalsInv.processAccountLimitUpdates (h : TotalsInv db)
    (hrun : processAccountLimitUpdates db = .ok () db') : TotalsInv db' := by
  obtain ⟨s, rest, t, rso, hs, hc, rfl⟩ := processAccountLimitUpdates_eq_ok hrun
  obtain ⟨s0, hs0, hm⟩ := h
  rw [hs, List.head?_cons, Option.some.injEq] at hs0
  subst hs0
  exact ⟨rso, rfl, (commitAll_ok_inv TotalsMatch TotalsMatch.loopStep _ _ _ rfl hm hc).1⟩

/-- **Step lemma.** Every successful call keeps the invariant. -/
theorem TotalsInv.step (hd : d.DefaultsNonpos) (h : TotalsInv db) :
    ∀ op : Op, op.exec d db = .ok () db' → TotalsInv db'
  | .initializeAccount _, hrun => h.initializeAccount d hd hrun
  | .setAccountLimits .., hrun => by
    obtain ⟨_, _, h1, h2⟩ := bind_eq_ok.mp hrun
    cases h2
    exact h.setAccountLimits h1
  | .processAccountLimitUpdates, hrun => h.processAccountLimitUpdates hrun
  | .setBlockParameters cpu net, hrun =>
    h.of_keeps (setBlockParameters_keeps (configHead_of_write totalsView_config) cpu net) hrun
  | .updateAccountUsage accounts ts, hrun =>
    h.of_keeps (updateAccountUsage_keeps d (usageRows_of_write totalsView_usage) accounts ts) hrun
  | .addTransactionUsage accounts cpu net ts, hrun =>
    h.of_keeps
      (addTransactionUsage_keeps d (usageRows_of_write totalsView_usage) totalsView_modifyState accounts cpu net ts)
      hrun
  | .addPendingRamUsage a δ, hrun =>
    h.of_keeps (addPendingRamUsage_keeps (usageRows_of_write totalsView_usage) totalsView_gst a δ) hrun
  | .verifyAccountGstUsage a, hrun => h.of_keeps (verifyAccountGstUsage_keeps totalsView_gst a) hrun
  | .setGstLimits a b, hrun =>
    h.of_keeps (.bind (setGstLimits_keeps d totalsView_gst a b) fun _ => .pure _) hrun
  | .setGasLimits flag, hrun => h.of_keeps (setGasLimits_keeps totalsView_activation flag) hrun
  | .processBlockUsage n, hrun => h.of_keeps (processBlockUsage_keeps d totalsView_modifyState n) hrun

/-- **Run lemma.** -/
theorem Reachable.totalsInv (hd : d.DefaultsNonpos) (h : Reachable d db) : TotalsInv db := by
  induction h with
  | init => exact TotalsInv.init d
  | step op _ hrun ih => exact ih.step d hd op hrun

end Runs

theorem overflow_msg_ne_underflow_msg (a b : String) :
    "overflow when applying new value to " ++ a ≠ "underflow when reverting old value to " ++ b := by
  intro h
  have := congrArg (fun s => s.data.head?) h
  simp at this

/-- **The totals are the committed sums.**  In every reachable store (row defaults not positive),
the state row's `total_cpu_weight`, `total_net_weight` and `total_ram_bytes` equal, exactly, the
sums over the committed limits rows of the positive parts of `cpu_weight`, `net_weight` and
`ram_bytes`; so `process_account_limit_updates` never raises its underflow assertion. -/
theorem totals_eq_committedSum (d : Decl) (hd : d.DefaultsNonpos) {db : Db} (h : Reachable d db) :
    TotalsInv db ∧ ∀ e db' which, processAccountLimitUpdates db = .error e db' →
      e ≠ ⟨.rateLimitingStateInconsistent, "underflow when reverting old value to " ++ which⟩ := by
  obtain ⟨s, hs, hm⟩ := h.totalsInv d hd
  refine ⟨⟨s, hs, hm⟩, fun e db' which he => ?_⟩
  rcases (processAccountLimitUpdates_eq_error he).2 with ⟨hnil, -⟩ | ⟨s', rest, hs', hc⟩
  · simp [hnil] at hs
  rw [hs', List.head?_cons, Option.some.injEq] at hs
  subst hs
  obtain ⟨t1, rso1, itr, -, hm1, -, hfail⟩ :=
    commitAll_error_inv TotalsMatch TotalsMatch.loopStep _ _ _ rfl hm hc
  rcases hfail with ⟨-, rfl⟩ | ⟨actual, ha, hc1⟩
  · intro h; cases h
  · obtain ⟨which', rfl⟩ := hm1.commit_error ha hc1
    exact fun h => overflow_msg_ne_underflow_msg which' which (congrArg Err.msg h)

theorem totals_eq_committedSum_sample :
    Decl.sample.DefaultsNonpos ∧
      Reachable Decl.sample (runOps Decl.sample [.initializeAccount 1, .setAccountLimits 1 100 10 10,
        .processAccountLimitUpdates] (Db.init Decl.sample)) ∧
      (TotalsInv (runOps Decl.sample [.initializeAccount 1, .setAccountLimits 1 100 10 10,
          .processAccountLimitUpdates] (Db.init Decl.sample)) ∧
        ∀ e db' which, processAccountLimitUpdates (runOps Decl.sample [.initializeAccount 1,
          .setAccountLimits 1 100 10 10, .processAccountLimitUpdates] (Db.init Decl.sample)) =
            .error e db' →
          e ≠ ⟨.rateLimitingStateInconsistent, "underflow when reverting old value to " ++ which⟩) :=
  ⟨by decide, (Reachable.init).runOps _ _,
    totals_eq_committedSum Decl.sample (by decide) ((Reachable.init).runOps _ _)⟩

end Gstio
