import Gstio.Run

/-!
# Gstio.Frame — what each call leaves alone

`Keeps π x`: every successful run of `x` leaves the view `π` of the store unchanged.  The view is
kept through `>>=`, by every read, and by a write `π` is blind to: any write of a table `π` does
not read, or only the in-place row modifications the call makes.  From these rules, each call of
the manager keeps every view blind to what it writes; the invariants of the later modules then
only have to look at the calls that do write what they read.
-/

namespace Gstio

variable {β α γ : Type} {π : Db → β}

/-- The three totals of the state row. -/
def StateRow.totals (s : StateRow) : U64 × U64 × U64 :=
  (s.totalCpuWeight, s.totalNetWeight, s.totalRamBytes)

theorem fromExcept_eq_ok {e : Except Err α} {db db' : Db} {a : α} :
    fromExcept e db = .ok a db' ↔ e = .ok a ∧ db' = db := by
  cases e <;> simp [fromExcept, eq_comm]

/-- Every successful run of `x` leaves `π` of the store unchanged. -/
def Keeps (π : Db → β) (x : ChainM α) : Prop := ∀ db a db', x db = .ok a db' → π db' = π db

namespace Keeps

theorem bind {x : ChainM α} {f : α → ChainM γ} (hx : Keeps π x) (hf : ∀ a, Keeps π (f a)) :
    Keeps π (x >>= f) := by
  intro db b db'' h
  obtain ⟨a, db', h1, h2⟩ := bind_eq_ok.mp h
  rw [hf a db' b db'' h2, hx db a db' h1]

theorem pure (a : α) : Keeps π (Pure.pure a : ChainM α) := by
  intro db b db' h; cases h; rfl

theorem gstAssert (c : Prop) [Decidable c] (k : ErrKind) (m : String) :
    Keeps π (Gstio.gstAssert c k m : ChainM Unit) := by
  intro db b db' h; rw [gstAssert_apply] at h; split at h <;> cases h; rfl

theorem fromExcept (e : Except Err α) : Keeps π (Gstio.fromExcept e) := by
  intro db b db' h; cases e <;> cases h; rfl

theorem throw (e : Err) : Keeps π (MonadExcept.throw e : ChainM α) := by
  intro db b db' h; cases h

theorem getState : Keeps π Gstio.getState := by
  intro db b db' h; rw [(getState_eq_ok.mp h).2]

theorem getConfig : Keeps π Gstio.getConfig := by
  intro db b db' h; rw [(getConfig_eq_ok.mp h).2]

theorem forM {l : List γ} {f : γ → ChainM PUnit} (h : ∀ a, Keeps π (f a)) : Keeps π (l.forM f) := by
  induction l with
  | nil => exact pure _
  | cons a l ih => exact bind (h a) fun _ => ih

section Tables

variable {δ κ : Type} [LinearOrder κ] {key : δ → κ} (T : TableRef key)

theorem findRow (k : κ) : Keeps π (T.findRow k) := by
  intro db b db' h; cases h; rfl

theorem getRow (k : κ) : Keeps π (T.getRow k) := by
  intro db b db' h; rw [((T.getRow_eq_ok).mp h).2]

variable {T}

/-- A modification of rows of `T` keeps every view blind to such modifications. -/
theorem modifyRowOf (hT : ∀ db k (f : δ → δ) hf, π (T.write db ((T.read db).modify k f hf)) = π db)
    (k : κ) (f : δ → δ) (hf : ∀ x, key (f x) = key x) : Keeps π (T.modifyRow k f hf) := by
  intro db b db' h; cases h; exact hT db k f hf

variable (hT : ∀ db t, π (T.write db t) = π db)
include hT

theorem createRow (r : δ) : Keeps π (T.createRow r) := by
  intro db b db' h
  obtain ⟨t, -, rfl⟩ := T.createRow_eq_ok.mp h
  exact hT db t

theorem modifyRow (k : κ) (f : δ → δ) (hf : ∀ x, key (f x) = key x) : Keeps π (T.modifyRow k f hf) :=
  modifyRowOf (fun db _ _ _ => hT db _) k f hf

end Tables

theorem modifyConfig
    (hc : ∀ db (f : ConfigRow → ConfigRow), π { db with config := db.config.modifyHead f } = π db)
    (f : ConfigRow → ConfigRow) : Keeps π (Gstio.modifyConfig f) := by
  intro db b db' h; cases h; exact hc db f

theorem modifyState {f : StateRow → StateRow}
    (hs : ∀ db, π { db with state := db.state.modifyHead f } = π db) :
    Keeps π (Gstio.modifyState f) := by
  intro db b db' h; cases h; exact hs db

end Keeps

/-! ### The reads of the manager -/

theorem getAccountLimits_keeps (a : Name) : Keeps π (getAccountLimits a) := by
  refine Keeps.bind (Keeps.findRow _ _) fun r => ?_
  cases r
  · exact Keeps.getRow _ _
  · exact Keeps.pure _

theorem isActivation_keeps : Keeps π isActivation := by
  refine Keeps.bind (Keeps.findRow _ _) fun r => ?_
  cases r <;> exact Keeps.pure _

/-- A view blind to every write of the usage table is blind to its row modifications. -/
theorem usageRows_of_write (hu : ∀ db t, π (usageRef.write db t) = π db) :
    ∀ db a (f : UsageRow → UsageRow) hf,
      π (usageRef.write db ((usageRef.read db).modify a f hf)) = π db :=
  fun db _ _ _ => hu db _

/-- A view blind to every write of the config rows is blind to a change of the config row. -/
theorem configHead_of_write (hc : ∀ db c, π { db with config := c } = π db) :
    ∀ db (f : ConfigRow → ConfigRow), π { db with config := db.config.modifyHead f } = π db :=
  fun db _ => hc db _

/-! ### Writers: each call keeps every view blind to what it writes

The usage rows and the config row are only ever modified in place (the usage rows are created by
`initialize_account` alone), so a view need only be blind to those modifications. -/

section Writers

variable (d : Decl)
variable (hu : ∀ db a (f : UsageRow → UsageRow) hf,
  π (usageRef.write db ((usageRef.read db).modify a f hf)) = π db)
variable (hg : ∀ db t, π (gstRef.write db t) = π db)
variable (hc : ∀ db (f : ConfigRow → ConfigRow), π { db with config := db.config.modifyHead f } = π db)
variable (hl : ∀ db t, π (limitsRef.write db t) = π db)

include hl in
theorem initializeAccount_keeps (huc : ∀ db t, π (usageRef.write db t) = π db) (a : Name) :
    Keeps π (initializeAccount d a) :=
  .bind (.createRow hl _) fun _ => .createRow huc _

include hl in
theorem setAccountLimits_keeps (a : Name) (r n c : I64) : Keeps π (setAccountLimits a r n c) := by
  refine .bind (.bind (.findRow _ _) fun p => ?_) fun _ => .bind (.modifyRow hl _ _ _) fun _ => .pure _
  cases p
  · exact .bind (.getRow _ _) fun _ => .bind (.createRow hl _) fun _ => .pure _
  · exact .pure _

include hc in
theorem setBlockParameters_keeps (cpu net : ElasticLimitParameters) :
    Keeps π (setBlockParameters cpu net) :=
  .bind (.fromExcept _) fun _ => .bind (.fromExcept _) fun _ => .bind .getConfig fun _ =>
    .modifyConfig hc _

include hu in
theorem updateAccountUsage_keeps (accounts : List Name) (t : U32) :
    Keeps π (updateAccountUsage d accounts t) :=
  .bind .getConfig fun _ => .forM fun _ => .bind (.getRow _ _) fun _ =>
    .bind (.fromExcept _) fun _ => .bind (.fromExcept _) fun _ => .modifyRowOf hu _ _ _

theorem checkShare_keeps (R : Resource) (s : StateRow) (c : ConfigRow) (l : LimitsRow) (e : Ema) :
    Keeps π (checkShare d R s c l e) := by
  unfold checkShare; split
  · exact .gstAssert _ _ _
  · exact .pure _

variable (hs : ∀ db (g : StateRow → StateRow), (∀ s, db.state.head? = some s → (g s).totals = s.totals) →
  π { db with state := db.state.modifyHead g } = π db)

include hu in
theorem addAccountTransactionUsage_keeps (s : StateRow) (c : ConfigRow) (cpu net : U64) (t : U32)
    (a : Name) : Keeps π (addAccountTransactionUsage d s c cpu net t a) :=
  .bind (.getRow _ _) fun _ => .bind (getAccountLimits_keeps _) fun _ =>
    .bind (.fromExcept _) fun _ => .bind (.fromExcept _) fun _ => .bind (.modifyRowOf hu _ _ _)
      fun _ => .bind (checkShare_keeps d _ _ _ _ _) fun _ => checkShare_keeps d _ _ _ _ _

include hu in
/-- The loop of `add_transaction_usage`. -/
theorem forM_addAccountTransactionUsage_keeps {accounts : List Name} {s : StateRow} {c : ConfigRow}
    {cpu net : U64} {t : U32} : Keeps π (accounts.forM (addAccountTransactionUsage d s c cpu net t)) :=
  .forM fun _ => addAccountTransactionUsage_keeps d hu _ _ _ _ _ _

include hu hs in
theorem addTransactionUsage_keeps (accounts : List Name) (cpu net : U64) (t : U32) :
    Keeps π (addTransactionUsage d accounts cpu net t) :=
  .bind .getState fun _ => .bind .getConfig fun _ =>
    .bind (forM_addAccountTransactionUsage_keeps d hu)
    fun _ => .bind (.modifyState fun db => hs db _ fun _ _ => rfl) fun _ => .bind .getState fun _ =>
      .bind (.gstAssert _ _ _) fun _ => .gstAssert _ _ _

include hg in
theorem addPendingGstUsage_keeps (a : Name) (δ : I64) : Keeps π (addPendingGstUsage a δ) := by
  refine .bind isActivation_keeps fun act => ?_
  split
  · refine .bind (.findRow _ _) fun r => ?_
    cases r
    · exact .createRow hg _
    · exact .modifyRow hg _ _ _
  · exact .pure _

include hu hg in
theorem addPendingRamUsage_keeps (a : Name) (δ : I64) : Keeps π (addPendingRamUsage a δ) := by
  unfold addPendingRamUsage
  split
  · exact .pure _
  · exact .bind (.pure _) fun _ => .bind (.getRow _ _) fun _ => .bind (.gstAssert _ _ _) fun _ =>
      .bind (.gstAssert _ _ _) fun _ => .bind (.modifyRowOf hu _ _ _) fun _ => addPendingGstUsage_keeps hg a δ

include hg in
theorem verifyAccountGstUsage_keeps (a : Name) : Keeps π (verifyAccountGstUsage a) := by
  refine .bind (.findRow _ _) fun r => ?_
  cases r
  · exact .throw _
  · dsimp only; split
    · exact .bind (.gstAssert _ _ _) fun _ => .modifyRow hg _ _ _
    · exact .pure _

include hg in
theorem findOrCreatePendingGst_keeps (a : Name) (b : I64) :
    Keeps π (findOrCreatePendingGst d a b) := by
  refine .bind (.findRow _ _) fun r => ?_
  cases r
  · exact .bind (.createRow hg _) fun _ => .pure _
  · exact .pure _

include hg in
theorem setGstLimits_keeps (a : Name) (b : I64) : Keeps π (setGstLimits d a b) := by
  refine .bind (findOrCreatePendingGst_keeps d hg a b) fun l => ?_
  show Keeps π (if _ then _ else _)
  split <;> refine .bind ?_ fun _ => .bind (.modifyRow hg _ _ _) fun _ => .pure _
  · exact .gstAssert _ _ _
  · exact .pure _

theorem setGasLimits_keeps (ha : ∀ db t, π (activationRef.write db t) = π db) (flag : Bool) :
    Keeps π (setGasLimits flag) := by
  refine .bind (.findRow _ _) fun r => ?_
  cases r
  · exact .createRow ha _
  · exact .modifyRow ha _ _ _

theorem blockUsageUpdate_totals {c : ConfigRow} {s s' : StateRow} {n : U32}
    (h : blockUsageUpdate d c s n = .ok s') : s'.totals = s.totals := by
  simp only [blockUsageUpdate, bind, Except.bind, pure, Except.pure] at h
  split at h; · cases h
  split at h; · cases h
  cases h; rfl

include hs in
theorem processBlockUsage_keeps (n : U32) : Keeps π (processBlockUsage d n) := by
  intro db u db' hrun
  simp only [processBlockUsage, bind_eq_ok, getState_eq_ok, getConfig_eq_ok, fromExcept_eq_ok] at hrun
  obtain ⟨s, _, ⟨hs1, rfl⟩, c, _, ⟨-, rfl⟩, s', _, ⟨h3, rfl⟩, hrun⟩ := hrun
  cases hrun
  exact hs _ _ fun s0 h0 => by rw [hs1] at h0; cases h0; exact blockUsageUpdate_totals d h3

end Writers

end Gstio
