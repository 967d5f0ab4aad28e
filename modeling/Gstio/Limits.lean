import Gstio.Totals

/-!
# Gstio.Limits — the limits table refines two maps, committed and pending

The `resource_limits_object` table holds, per owner, a committed row `(false, owner)` and at most
one pending row `(true, owner)`.  `absLimits` reads it as two finite maps, and the four calls that
use the table act on the maps as `LimitsMaps` says:

* `initialize_account a` adds `committed[a]`, with the declared defaults;
* `set_account_limits a r n c` needs `committed[a]` and sets `pending[a] := (r, n, c)`;
* `get_account_limits a` reads `pending[a]`, falling back to `committed[a]`;
* `process_account_limit_updates` moves every `pending[a]` into `committed[a]` and empties
  `pending`.

Every pending row has a committed row (`LimitsMaps.PendingCommitted`), because
`set_account_limits` copies a new pending row from the committed one, so the commit loop always
finds the row it overwrites.  What the commit cannot always do is add: from a reachable store its
only failure is the overflow assertion of `update_state_and_value` (`limits_refine_maps`), and
that failure is reachable (`commit_overflows_sample`).

Every reachable store also has its state and config rows, and a usage row for exactly the accounts
with committed limits (`Reachable.rowsPaired`): `initialize_account` creates both rows together,
and nothing else creates or removes either.
-/

namespace Gstio

/-! ### The abstract model -/

/-- The three limits of a row. -/
structure Limits where
  ramBytes : I64
  netWeight : I64
  cpuWeight : I64
deriving DecidableEq, Repr

/-- The limits a row holds. -/
def LimitsRow.limits (r : LimitsRow) : Limits := ⟨r.ramBytes, r.netWeight, r.cpuWeight⟩

/-- The limits of each owner: those in force, and those waiting for the next commit. -/
@[ext] structure LimitsMaps where
  committed : Name → Option Limits
  pending : Name → Option Limits

namespace LimitsMaps

variable (m : LimitsMaps) (a : Name) (v : Limits)

/-- A new account gets committed limits `v`; it must not have any yet. -/
def initializeAccount : Option LimitsMaps :=
  if (m.committed a).isSome then none
  else some { m with committed := Function.update m.committed a (some v) }

/-- New limits wait in `pending`; the account must have committed limits. -/
def setAccountLimits : Option LimitsMaps :=
  if (m.committed a).isSome then some { m with pending := Function.update m.pending a (some v) }
  else none

/-- The latest intended limits: pending first, then committed. -/
def getAccountLimits : Option Limits := (m.pending a).or (m.committed a)

/-- The commit: every pending value is committed, and nothing is left pending. -/
def commit : LimitsMaps := ⟨m.getAccountLimits, fun _ => none⟩

/-- The commit of one owner. -/
def commitOwner : LimitsMaps :=
  ⟨Function.update m.committed a (m.getAccountLimits a), Function.update m.pending a none⟩

/-- Every owner with pending limits has committed limits. -/
def PendingCommitted : Prop := ∀ a, (m.pending a).isSome → (m.committed a).isSome

variable {m a v}

theorem commit_commitOwner : (m.commitOwner a).commit = m.commit := by
  ext c : 2
  · by_cases h : c = a
    · subst h; simp [commit, commitOwner, getAccountLimits]
    · simp [commit, commitOwner, getAccountLimits, Function.update_noteq h]
  · rfl

theorem commit_of_forall_pending (h : ∀ a, m.pending a = none) : m.commit = m := by
  ext c : 2
  · simp [commit, getAccountLimits, h c]
  · exact (h c).symm

theorem PendingCommitted.initializeAccount {m' : LimitsMaps} (h : m.PendingCommitted)
    (hm : m.initializeAccount a v = some m') : m'.PendingCommitted := by
  unfold LimitsMaps.initializeAccount at hm
  split at hm
  · cases hm
  · cases hm
    intro b hb
    by_cases hba : b = a
    · subst hba; simp
    · simpa [Function.update_noteq hba] using h b hb

theorem PendingCommitted.setAccountLimits {m' : LimitsMaps} (h : m.PendingCommitted)
    (hm : m.setAccountLimits a v = some m') : m'.PendingCommitted := by
  unfold LimitsMaps.setAccountLimits at hm
  split at hm
  · cases hm
    intro b hb
    by_cases hba : b = a
    · subst hba; assumption
    · exact h b (by simpa [Function.update_noteq hba] using hb)
  · cases hm

theorem PendingCommitted.commitOwner (h : m.PendingCommitted) : (m.commitOwner a).PendingCommitted := by
  intro b hb
  by_cases hba : b = a
  · subst hba; simp [LimitsMaps.commitOwner] at hb
  · simpa [LimitsMaps.commitOwner, Function.update_noteq hba] using h b
      (by simpa [LimitsMaps.commitOwner, Function.update_noteq hba] using hb)

end LimitsMaps

/-- The limits table read as the two maps. -/
def absLimits (t : Table LimitsRow.key) : LimitsMaps :=
  ⟨fun a => (t.find (toLex (false, a))).map LimitsRow.limits,
    fun a => (t.find (toLex (true, a))).map LimitsRow.limits⟩

/-! ### The table operations on the maps -/

section Table

variable {t t' : Table LimitsRow.key} {r x : LimitsRow} {a : Name}

theorem absLimits_create_committed (ht : t.create r = some t') (hp : r.pending = false) :
    absLimits t' =
      { absLimits t with committed := Function.update (absLimits t).committed r.owner (some r.limits) } := by
  ext c : 2 <;> by_cases hc : c = r.owner <;>
    simp [absLimits, Table.find_create ht, LimitsRow.key, hp, hc, Function.update_apply, eq_comm (a := r.owner)]

theorem absLimits_create_pending (ht : t.create r = some t') (hp : r.pending = true) :
    absLimits t' =
      { absLimits t with pending := Function.update (absLimits t).pending r.owner (some r.limits) } := by
  ext c : 2 <;> by_cases hc : c = r.owner <;>
    simp [absLimits, Table.find_create ht, LimitsRow.key, hp, hc, Function.update_apply, eq_comm (a := r.owner)]

theorem absLimits_modify_pending (hx : t.find (toLex (true, a)) = some x) (f : LimitsRow → LimitsRow)
    (hf : ∀ x, (f x).key = x.key) :
    absLimits (t.modify (toLex (true, a)) f hf) =
      { absLimits t with pending := Function.update (absLimits t).pending a (some (f x).limits) } := by
  ext c : 2 <;> by_cases hc : c = a <;> simp [absLimits, Table.find_modify, hx, hc, Function.update_apply, eq_comm (a := a)]

/-- One iteration of the commit loop commits the owner of the pending row it visits. -/
theorem absLimits_commitRow {itr actual : LimitsRow} {rest : List LimitsRow}
    (hl : pendingRows t = itr :: rest) (ha : t.find (toLex (false, itr.owner)) = some actual) :
    absLimits (commitRow t itr) = (absLimits t).commitOwner itr.owner := by
  obtain ⟨hmem, hp⟩ := mem_of_pendingRows_eq_cons hl
  have hi : t.find (toLex (true, itr.owner)) = some itr := by
    simpa [LimitsRow.key, hp] using Table.find_of_mem hmem
  ext c : 2 <;> by_cases hc : c = itr.owner <;>
    simp [absLimits, commitRow, Table.find_remove, Table.find_modify, LimitsRow.key, hp, ha, hi, hc,
      LimitsMaps.commitOwner, LimitsMaps.getAccountLimits, LimitsRow.limits, LimitsRow.commit,
      Function.update_apply, eq_comm (a := itr.owner)]

theorem absLimits_pending_of_pendingRows (h : pendingRows t = []) (a : Name) :
    (absLimits t).pending a = none := by
  cases hf : t.find (toLex (true, a)) with
  | none => simp [absLimits, hf]
  | some x =>
    obtain ⟨hx, hk⟩ := Table.find_eq_some_iff.mp hf
    have : x ∈ pendingRows t := List.mem_filter.mpr ⟨hx, (pending_of_key hk).1⟩
    simp [h] at this

end Table

/-! ### The calls on the maps -/

section Calls

variable (d : Decl) {db db' : Db} {a : Name}

/-- `initialize_account` refines the abstract `initializeAccount`. -/
theorem initializeAccount_refines (h : initializeAccount d a db = .ok () db') :
    (absLimits db.limits).initializeAccount a (LimitsRow.initial d a).limits =
      some (absLimits db'.limits) := by
  obtain ⟨t, u, ht, -, rfl⟩ := initializeAccount_eq_ok d h
  have hnone : db.limits.find (toLex (false, a)) = none := Table.find_of_create ht
  rw [LimitsMaps.initializeAccount, if_neg (by simp [absLimits, hnone]), absLimits_create_committed ht rfl]
  rfl

/-- With every pending row backed by a committed one, `set_account_limits` refines the abstract
`setAccountLimits`. -/
theorem setAccountLimits_refines {r n c : I64} {dec : Bool}
    (hpc : (absLimits db.limits).PendingCommitted) (h : setAccountLimits a r n c db = .ok dec db') :
    (absLimits db.limits).setAccountLimits a ⟨r, n, c⟩ = some (absLimits db'.limits) := by
  obtain ⟨l, db1, h1, rfl, -⟩ := setAccountLimits_eq_ok h
  rcases findOrCreatePendingLimits_eq_ok h1 with ⟨hl, rfl⟩ | ⟨-, c', t, hc, rfl, ht, rfl⟩
  · rw [LimitsMaps.setAccountLimits, if_pos (hpc a (by simp [absLimits, hl])), absLimits_modify_pending hl]
    rfl
  · have howner : c'.owner = a := (pending_of_key (Table.find_eq_some_iff.mp hc).2).2
    have hl : t.find (toLex (true, a)) = some { c' with pending := true } := by
      rw [Table.find_create ht]; simp [LimitsRow.key, howner]
    rw [LimitsMaps.setAccountLimits, if_pos (by simp [absLimits, hc])]
    dsimp only
    rw [absLimits_modify_pending hl, absLimits_create_pending ht rfl]
    simp [howner]
    rfl

theorem findOrCreatePendingLimits_ok (hc : (db.limits.find (toLex (false, a))).isSome) :
    ∃ l db1, findOrCreatePendingLimits a db = .ok l db1 := by
  obtain ⟨c', hc'⟩ := Option.isSome_iff_exists.mp hc
  cases hp : db.limits.find (toLex (true, a)) with
  | some p =>
    exact ⟨p, db, bind_eq_ok.mpr ⟨_, _, TableRef.findRow_apply _ _ _, by simp only [limitsRef_read, hp]; rfl⟩⟩
  | none =>
    have howner := (pending_of_key (Table.find_eq_some_iff.mp hc').2).2
    obtain ⟨t, ht⟩ := Option.isSome_iff_exists.mp
      (Table.create_isSome (show db.limits.find ({ c' with pending := true } : LimitsRow).key = none by
        simpa [LimitsRow.key, howner] using hp))
    refine ⟨{ c' with pending := true }, { db with limits := t },
      bind_eq_ok.mpr ⟨_, _, TableRef.findRow_apply _ _ _, ?_⟩⟩
    simp only [limitsRef_read, hp]
    exact bind_eq_ok.mpr ⟨c', db, limitsRef.getRow_eq_ok.mpr ⟨hc', rfl⟩,
      bind_eq_ok.mpr ⟨(), _, limitsRef.createRow_eq_ok.mpr ⟨t, ht, rfl⟩, rfl⟩⟩

/-- `set_account_limits` succeeds exactly when the account has committed limits. -/
theorem setAccountLimits_ok_iff {r n c : I64} (hpc : (absLimits db.limits).PendingCommitted) :
    (∃ dec db', setAccountLimits a r n c db = .ok dec db') ↔ ((absLimits db.limits).committed a).isSome := by
  constructor
  · rintro ⟨dec, db', h⟩
    have := setAccountLimits_refines hpc h
    unfold LimitsMaps.setAccountLimits at this
    split at this
    · assumption
    · cases this
  · intro hc
    obtain ⟨l, db1, h1⟩ := findOrCreatePendingLimits_ok (by simpa [absLimits] using hc)
    exact ⟨_, _, bind_eq_ok.mpr ⟨l, db1, h1, rfl⟩⟩

/-- `get_account_limits` returns the abstract `getAccountLimits`, and raises when it is `none`. -/
theorem getAccountLimits_refines :
    (ChainM.value (getAccountLimits a) db).map LimitsRow.limits = (absLimits db.limits).getAccountLimits a := by
  cases hp : db.limits.find (toLex (true, a)) <;> cases hc : db.limits.find (toLex (false, a)) <;>
    simp [ChainM.value, getAccountLimits, bind, EStateM.bind, TableRef.findRow, TableRef.getRow, hp, hc,
      absLimits, LimitsMaps.getAccountLimits, limitsRef]

/-- The loop's step on the maps: one iteration commits one owner, which changes neither the
invariant nor the commit of the whole. -/
theorem absLimits_loopStep (M : LimitsMaps) (t : Table LimitsRow.key) (rso : StateRow)
    (itr : LimitsRow) (rest : List LimitsRow) (actual : LimitsRow) (rso' : StateRow)
    (h : (absLimits t).PendingCommitted ∧ (absLimits t).commit = M)
    (hl : pendingRows t = itr :: rest) (ha : t.find (toLex (false, itr.owner)) = some actual)
    (_ : commitTotals rso actual itr = .ok rso') :
    (absLimits (commitRow t itr)).PendingCommitted ∧ (absLimits (commitRow t itr)).commit = M := by
  rw [absLimits_commitRow hl ha]
  exact ⟨h.1.commitOwner, LimitsMaps.commit_commitOwner.trans h.2⟩

/-- With every pending row backed by a committed one, a successful
`process_account_limit_updates` refines the abstract `commit`. -/
theorem processAccountLimitUpdates_refines (hpc : (absLimits db.limits).PendingCommitted)
    (h : processAccountLimitUpdates db = .ok () db') :
    absLimits db'.limits = (absLimits db.limits).commit ∧ (absLimits db'.limits).PendingCommitted := by
  obtain ⟨s, rest, t, rso, -, hc, rfl⟩ := processAccountLimitUpdates_eq_ok h
  obtain ⟨⟨hpc', hcm⟩, hnil⟩ := commitAll_ok_inv _ (absLimits_loopStep (absLimits db.limits).commit)
    _ _ _ rfl ⟨hpc, rfl⟩ hc
  rw [← hcm, LimitsMaps.commit_of_forall_pending (absLimits_pending_of_pendingRows hnil)]
  exact ⟨rfl, hpc'⟩

end Calls

/-! ### The invariant over runs -/

section Runs

variable (d : Decl) {db db' : Db}

/-- A call that leaves the limits table alone. -/
theorem pendingCommitted_of_keeps {α : Type} {x : ChainM α} {a : α} (hx : Keeps Db.limits x)
    (h : (absLimits db.limits).PendingCommitted) (hrun : x db = .ok a db') :
    (absLimits db'.limits).PendingCommitted :=
  hx db a db' hrun ▸ h

theorem limits_usage (db : Db) (t : Table UsageRow.owner) : (usageRef.write db t).limits = db.limits :=
  rfl

theorem limits_gst (db : Db) (t : Table GstRow.key) : (gstRef.write db t).limits = db.limits := rfl

theorem limits_activation (db : Db) (t : Table ActivationRow.key) :
    (activationRef.write db t).limits = db.limits := rfl

theorem limits_config (db : Db) (c : List ConfigRow) : { db with config := c }.limits = db.limits := rfl

theorem limits_modifyState (db : Db) (g : StateRow → StateRow)
    (_ : ∀ s, db.state.head? = some s → (g s).totals = s.totals) :
    { db with state := db.state.modifyHead g }.limits = db.limits := rfl

/-- **Step lemma.** Every successful call keeps every pending row backed by a committed one. -/
theorem pendingCommitted_step (h : (absLimits db.limits).PendingCommitted) :
    ∀ op : Op, op.exec d db = .ok () db' → (absLimits db'.limits).PendingCommitted
  | .initializeAccount _, hrun => h.initializeAccount (initializeAccount_refines d hrun)
  | .setAccountLimits .., hrun => by
    obtain ⟨_, _, h1, h2⟩ := bind_eq_ok.mp hrun
    cases h2
    exact h.setAccountLimits (setAccountLimits_refines h h1)
  | .processAccountLimitUpdates, hrun => (processAccountLimitUpdates_refines h hrun).2
  | .setBlockParameters cpu net, hrun =>
    pendingCommitted_of_keeps (setBlockParameters_keeps (configHead_of_write limits_config) cpu net) h hrun
  | .updateAccountUsage accounts ts, hrun =>
    pendingCommitted_of_keeps (updateAccountUsage_keeps d (usageRows_of_write limits_usage) accounts ts) h hrun
  | .addTransactionUsage accounts cpu net ts, hrun =>
    pendingCommitted_of_keeps
      (addTransactionUsage_keeps d (usageRows_of_write limits_usage) limits_modifyState accounts cpu net ts)
      h hrun
  | .addPendingRamUsage a δ, hrun =>
    pendingCommitted_of_keeps (addPendingRamUsage_keeps (usageRows_of_write limits_usage) limits_gst a δ) h
      hrun
  | .verifyAccountGstUsage a, hrun =>
    pendingCommitted_of_keeps (verifyAccountGstUsage_keeps limits_gst a) h hrun
  | .setGstLimits a b, hrun =>
    pendingCommitted_of_keeps (.bind (setGstLimits_keeps d limits_gst a b) fun _ => .pure _) h hrun
  | .setGasLimits flag, hrun =>
    pendingCommitted_of_keeps (setGasLimits_keeps limits_activation flag) h hrun
  | .processBlockUsage n, hrun =>
    pendingCommitted_of_keeps (processBlockUsage_keeps d limits_modifyState n) h hrun

/-- **Run lemma.** -/
theorem Reachable.pendingCommitted (h : Reachable d db) : (absLimits db.limits).PendingCommitted := by
  induction h with
  | init => intro a ha; simp [absLimits, Db.init, Db.empty, Table.empty, Table.find] at ha
  | step op _ hrun ih => exact pendingCommitted_step d ih op hrun

/-- From a reachable store, `process_account_limit_updates` fails only by its overflow assertion,
and leaves the store as it found it. -/
theorem processAccountLimitUpdates_error (hd : d.DefaultsNonpos) (h : Reachable d db) {e : Err}
    (he : processAccountLimitUpdates db = .error e db') :
    db' = db ∧ ∃ which, e = ⟨.rateLimitingStateInconsistent, "overflow when applying new value to " ++ which⟩ := by
  obtain ⟨rfl, hst⟩ := processAccountLimitUpdates_eq_error he
  refine ⟨rfl, ?_⟩
  obtain ⟨s, hs, hm⟩ := h.totalsInv d hd
  rcases hst with ⟨hnil, -⟩ | ⟨s', rest, hs', hc⟩
  · simp [hnil] at hs
  rw [hs', List.head?_cons, Option.some.injEq] at hs
  subst hs
  obtain ⟨t1, rso1, itr, rest1, ⟨hpc1, hm1⟩, hl1, hfail⟩ :=
    commitAll_error_inv (fun t rso => (absLimits t).PendingCommitted ∧ TotalsMatch t rso)
      (fun t rso itr rest actual rso' h hl ha hc =>
        ⟨(absLimits_loopStep _ t rso itr rest actual rso' ⟨h.1, rfl⟩ hl ha hc).1,
          TotalsMatch.loopStep t rso itr rest actual rso' h.2 hl ha hc⟩)
      _ _ _ rfl ⟨h.pendingCommitted d, hm⟩ hc
  rcases hfail with ⟨hnone, -⟩ | ⟨actual, ha, hc1⟩
  · obtain ⟨hmem, hp⟩ := mem_of_pendingRows_eq_cons hl1
    have hi : t1.find (toLex (true, itr.owner)) = some itr := by
      simpa [LimitsRow.key, hp] using Table.find_of_mem hmem
    have := hpc1 itr.owner (by simp [absLimits, hi])
    simp [absLimits, hnone] at this
  · exact hm1.commit_error ha hc1

end Runs

/-! ### The rows of a reachable store -/

section Rows

variable (d : Decl) {db db' : Db}

/-- The rows every reachable store has: its state and config rows, and a usage row for exactly the
accounts with committed limits. -/
structure RowsPaired (db : Db) : Prop where
  state_ne_nil : db.state ≠ []
  config_ne_nil : db.config ≠ []
  usage_iff : ∀ a, (db.usage.find a).isSome = ((absLimits db.limits).committed a).isSome

/-- What `RowsPaired` reads of the store. -/
def rowsView (db : Db) : Table LimitsRow.key × Nat × Nat × (Name → Bool) :=
  (db.limits, db.state.length, db.config.length, fun a => (db.usage.find a).isSome)

/-- A call that leaves `rowsView` alone. -/
theorem RowsPaired.of_keeps {α : Type} {x : ChainM α} {a : α} (hx : Keeps rowsView x)
    (h : RowsPaired db) (hrun : x db = .ok a db') : RowsPaired db' := by
  have hv := hx db a db' hrun
  simp only [rowsView, Prod.mk.injEq] at hv
  obtain ⟨hl, hs, hc, hu⟩ := hv
  refine ⟨?_, ?_, fun b => ?_⟩
  · rw [← List.length_pos, hs]; exact List.length_pos.mpr h.1
  · rw [← List.length_pos, hc]; exact List.length_pos.mpr h.2
  · rw [congrFun hu b, hl]; exact h.3 b

theorem rowsView_usage (db : Db) (a : Name) (f : UsageRow → UsageRow) (hf : ∀ x, (f x).owner = x.owner) :
    rowsView (usageRef.write db ((usageRef.read db).modify a f hf)) = rowsView db := by
  simp only [rowsView, usageRef_write, usageRef_read, Prod.mk.injEq, true_and]
  funext b
  rw [Table.find_modify]
  split <;> simp [*]

theorem rowsView_gst (db : Db) (t : Table GstRow.key) : rowsView (gstRef.write db t) = rowsView db := rfl

theorem rowsView_activation (db : Db) (t : Table ActivationRow.key) :
    rowsView (activationRef.write db t) = rowsView db := rfl

theorem rowsView_config (db : Db) (f : ConfigRow → ConfigRow) :
    rowsView { db with config := db.config.modifyHead f } = rowsView db := by
  simp only [rowsView, List.length_modifyHead]

theorem rowsView_modifyState (db : Db) (g : StateRow → StateRow)
    (_ : ∀ s, db.state.head? = some s → (g s).totals = s.totals) :
    rowsView { db with state := db.state.modifyHead g } = rowsView db := by
  simp only [rowsView, List.length_modifyHead]

/-- `initialize_account` adds the committed row and the usage row together. -/
theorem RowsPaired.initializeAccount (h : RowsPaired db) {a : Name}
    (hrun : initializeAccount d a db = .ok () db') : RowsPaired db' := by
  have habs := initializeAccount_refines d hrun
  obtain ⟨t, u, -, hu, rfl⟩ := initializeAccount_eq_ok d hrun
  rw [LimitsMaps.initializeAccount] at habs
  split at habs
  · cases habs
  · have hcm := congrArg LimitsMaps.committed (Option.some.inj habs)
    refine ⟨h.1, h.2, fun b => ?_⟩
    rw [← hcm, Table.find_create hu]
    dsimp only [UsageRow.initial]
    rw [Function.update_apply]
    by_cases hb : b = a
    · subst hb; simp
    · rw [if_neg (Ne.symm hb), if_neg hb]; exact h.3 b

/-- `set_account_limits` writes pending rows only. -/
theorem RowsPaired.setAccountLimits (h : RowsPaired db) (hpc : (absLimits db.limits).PendingCommitted)
    {a : Name} {r n c : I64} {dec : Bool} (hrun : setAccountLimits a r n c db = .ok dec db') :
    RowsPaired db' := by
  have hk : Keeps (fun db : Db => { db with limits := Table.empty }) (Gstio.setAccountLimits a r n c) :=
    setAccountLimits_keeps (fun db t =>
      (rfl : { limitsRef.write db t with limits := Table.empty } = { db with limits := Table.empty })) a r n c
  have hrest := hk db dec db' hrun
  have hs := congrArg Db.state hrest
  have hc := congrArg Db.config hrest
  have hu := congrArg Db.usage hrest
  have habs := setAccountLimits_refines hpc hrun
  rw [LimitsMaps.setAccountLimits] at habs
  split at habs
  · have hcm := congrArg LimitsMaps.committed (Option.some.inj habs)
    refine ⟨?_, ?_, fun b => ?_⟩
    · rw [show db'.state = db.state from hs]; exact h.1
    · rw [show db'.config = db.config from hc]; exact h.2
    · rw [show db'.usage = db.usage from hu, ← hcm]; exact h.3 b
  · cases habs

/-- `process_account_limit_updates` commits only owners that already have a committed row. -/
theorem RowsPaired.processAccountLimitUpdates (h : RowsPaired db)
    (hpc : (absLimits db.limits).PendingCommitted) (hrun : processAccountLimitUpdates db = .ok () db') :
    RowsPaired db' := by
  have habs := (processAccountLimitUpdates_refines hpc hrun).1
  obtain ⟨s, rest, t, rso, -, -, rfl⟩ := processAccountLimitUpdates_eq_ok hrun
  refine ⟨List.cons_ne_nil _ _, h.2, fun b => ?_⟩
  rw [habs, h.3 b]
  show _ = ((absLimits db.limits).pending b |>.or ((absLimits db.limits).committed b)).isSome
  cases hp : (absLimits db.limits).pending b
  · rfl
  · rw [hpc b (by rw [hp]; rfl)]; rfl

/-- **Step lemma.** -/
theorem RowsPaired.step (hpc : (absLimits db.limits).PendingCommitted) (h : RowsPaired db) :
    ∀ op : Op, op.exec d db = .ok () db' → RowsPaired db'
  | .initializeAccount _, hrun => h.initializeAccount d hrun
  | .setAccountLimits .., hrun => by
    obtain ⟨_, _, h1, h2⟩ := bind_eq_ok.mp hrun
    cases h2
    exact h.setAccountLimits hpc h1
  | .processAccountLimitUpdates, hrun => h.processAccountLimitUpdates hpc hrun
  | .setBlockParameters cpu net, hrun => h.of_keeps (setBlockParameters_keeps rowsView_config cpu net) hrun
  | .updateAccountUsage accounts ts, hrun =>
    h.of_keeps (updateAccountUsage_keeps d rowsView_usage accounts ts) hrun
  | .addTransactionUsage accounts cpu net ts, hrun =>
    h.of_keeps (addTransactionUsage_keeps d rowsView_usage rowsView_modifyState accounts cpu net ts) hrun
  | .addPendingRamUsage a δ, hrun =>
    h.of_keeps (addPendingRamUsage_keeps rowsView_usage rowsView_gst a δ) hrun
  | .verifyAccountGstUsage a, hrun => h.of_keeps (verifyAccountGstUsage_keeps rowsView_gst a) hrun
  | .setGstLimits a b, hrun =>
    h.of_keeps (.bind (setGstLimits_keeps d rowsView_gst a b) fun _ => .pure _) hrun
  | .setGasLimits flag, hrun => h.of_keeps (setGasLimits_keeps rowsView_activation flag) hrun
  | .processBlockUsage n, hrun => h.of_keeps (processBlockUsage_keeps d rowsView_modifyState n) hrun

/-- **Run lemma.**  Every reachable store has its state and config rows, and a usage row for
exactly the accounts with committed limits. -/
theorem Reachable.rowsPaired (h : Reachable d db) : RowsPaired db := by
  induction h with
  | init =>
    exact ⟨List.cons_ne_nil _ _, List.cons_ne_nil _ _, fun a => by
      simp [absLimits, Db.init, Db.empty, Table.empty, Table.find]⟩
  | step op hR hrun ih => exact ih.step d (hR.pendingCommitted d) op hrun

end Rows

/-! ### The refinement -/

/-- The limits table of `db` refines the two maps, for the calls on the account `a` with the new
limits `r`, `n`, `c`. -/
structure LimitsRefinement (d : Decl) (db : Db) (a : Name) (r n c : I64) : Prop where
  pendingCommitted : (absLimits db.limits).PendingCommitted
  initializeAccount : ∀ db', initializeAccount d a db = .ok () db' →
    (absLimits db.limits).initializeAccount a (LimitsRow.initial d a).limits =
      some (absLimits db'.limits)
  setAccountLimits_ok_iff :
    (∃ dec db', setAccountLimits a r n c db = .ok dec db') ↔ ((absLimits db.limits).committed a).isSome
  setAccountLimits : ∀ dec db', setAccountLimits a r n c db = .ok dec db' →
    (absLimits db.limits).setAccountLimits a ⟨r, n, c⟩ = some (absLimits db'.limits)
  getAccountLimits :
    (ChainM.value (getAccountLimits a) db).map LimitsRow.limits = (absLimits db.limits).getAccountLimits a
  /-- The `lower_bound((true))` loop visits the pending rows, each once, in owner order. -/
  loop_eq_fold : ∀ rso, limitUpdatesLoop db.limits rso = commitAll (pendingRows db.limits) db.limits rso
  pending_sorted : (pendingRows db.limits).Pairwise (fun p q => p.owner < q.owner)
  processAccountLimitUpdates_ok : ∀ db', processAccountLimitUpdates db = .ok () db' →
    absLimits db'.limits = (absLimits db.limits).commit
  processAccountLimitUpdates_error : ∀ e db', processAccountLimitUpdates db = .error e db' →
    db' = db ∧ ∃ which, e = ⟨.rateLimitingStateInconsistent, "overflow when applying new value to " ++ which⟩

/-- Two accounts with committed limits, each then given pending limits. -/
def twoPendingLimits : List Op :=
  [.initializeAccount 1, .initializeAccount 2, .setAccountLimits 1 100 10 10, .setAccountLimits 2 200 20 20]

/-- **The limits table refines the maps.**  In every reachable store, `initialize_account`,
`set_account_limits` (which succeeds exactly when the account has committed limits) and
`get_account_limits` act on `absLimits` as the abstract calls do, and
`process_account_limit_updates` visits the pending rows once each in owner order and either commits
them all or raises its overflow assertion, leaving the store as it was. -/
theorem limits_refine_maps (d : Decl) (hd : d.DefaultsNonpos) {db : Db} (h : Reachable d db)
    (a : Name) (r n c : I64) : LimitsRefinement d db a r n c :=
  have hpc := h.pendingCommitted d
  ⟨hpc, fun _ => initializeAccount_refines d, setAccountLimits_ok_iff hpc,
    fun _ _ => setAccountLimits_refines hpc, getAccountLimits_refines, limitUpdatesLoop_eq_commitAll _,
    pendingRows_sorted _, fun _ hp => (processAccountLimitUpdates_refines hpc hp).1,
    fun _ _ he => processAccountLimitUpdates_error d hd h he⟩

/-- Account 1 is given new limits while accounts 1 and 2 both hold pending rows and the commit
succeeds. -/
theorem limits_refine_maps_sample :
    Decl.sample.DefaultsNonpos ∧ Reachable Decl.sample (runOps Decl.sample twoPendingLimits (Db.init Decl.sample)) ∧
      (pendingRows (runOps Decl.sample twoPendingLimits (Db.init Decl.sample)).limits).length = 2 ∧
      ChainM.exception processAccountLimitUpdates (runOps Decl.sample twoPendingLimits (Db.init Decl.sample)) = none ∧
      LimitsRefinement Decl.sample (runOps Decl.sample twoPendingLimits (Db.init Decl.sample)) 1 300 30 30 :=
  have hr : Reachable Decl.sample (runOps Decl.sample twoPendingLimits (Db.init Decl.sample)) :=
    (Reachable.init).runOps _ _
  ⟨by decide, hr, by decide, by rw [ChainM.exception, processAccountLimitUpdates_eq_fold]; decide,
    limits_refine_maps Decl.sample (by decide) hr 1 300 30 30⟩

/-- Three accounts, each given a pending `ram_bytes` of `2^63 - 1`. -/
def threeLargeRamLimits : List Op :=
  [.initializeAccount 1, .initializeAccount 2, .initializeAccount 3,
    .setAccountLimits 1 (I64.ofInt (2 ^ 63 - 1)) 0 0, .setAccountLimits 2 (I64.ofInt (2 ^ 63 - 1)) 0 0,
    .setAccountLimits 3 (I64.ofInt (2 ^ 63 - 1)) 0 0]

/-- The commit is not total: the three pending values sum past `UINT64_MAX`, so
`process_account_limit_updates` raises its overflow assertion, and the rolled-back store keeps its
three pending rows. -/
theorem commit_overflows_sample :
    Reachable Decl.sample (runOps Decl.sample threeLargeRamLimits (Db.init Decl.sample)) ∧
      (pendingRows (runOps Decl.sample threeLargeRamLimits (Db.init Decl.sample)).limits).length = 3 ∧
      ChainM.exception processAccountLimitUpdates
          (runOps Decl.sample threeLargeRamLimits (Db.init Decl.sample)) =
        some ⟨.rateLimitingStateInconsistent, "overflow when applying new value to ram_bytes"⟩ := by
  refine ⟨(Reachable.init).runOps _ _, by decide, ?_⟩
  rw [ChainM.exception, processAccountLimitUpdates_eq_fold]
  decide

end Gstio
