import Gstio.Verify

/-!
# Gstio.Commute — calls on disjoint accounts commute

Six calls of the manager touch only the rows of the accounts they name: `initialize_account`,
`set_account_limits`, `set_gst_limits`, `add_pending_ram_usage`, `verify_account_gst_usage` and
`update_account_usage`.  They read the activation row and the config row, which no account owns,
and write neither.  `Db.rowsOf db a` is what the store holds for account `a`: its committed and
pending limits rows, its usage row, its committed and pending gas rows.

* `LocalM S x` — a call on the accounts of `S`: a successful run changes no row outside `S` and
  no shared row (`Db.Outside`), and from two stores that agree on `S` and on the shared rows
  (`Db.AgreeOn`) it returns the same value, or raises on both, leaving stores that still agree;
* `Op.exec_local` — each of the six calls is such a call, built up bind by bind from the
  chainbase primitives;
* `LocalMap.commute` — two maps local to disjoint sets commute, by extensionality of the store
  over its accounts (`Db.ext_rowsOf`);
* `runOps_interleave` — every interleaving of a run of calls on the accounts of `S` with a run of
  calls on the accounts of `T`, `S` and `T` disjoint, ends with the same rows as one run after
  the other (row ids are not modelled);
* `accountLoops_perm` — inside one call, the loops of `add_transaction_usage` and
  `update_account_usage` over their `flat_set` of accounts give the same outcome in every order.
-/

namespace Gstio

/-! ### The rows of an account -/

/-- The rows of account `a`: its committed and pending limits rows, its usage row, and its
committed and pending gas rows. -/
def Db.rowsOf (db : Db) (a : Name) :
    Option LimitsRow × Option LimitsRow × Option UsageRow × Option GstRow × Option GstRow :=
  (db.limits.find (toLex (false, a)), db.limits.find (toLex (true, a)), db.usage.find a,
    db.gst.find (toLex (false, a)), db.gst.find (toLex (true, a)))

/-- The rows no account owns: the activation rows, the state row and the config row. -/
def Db.shared (db : Db) : Table ActivationRow.key × List StateRow × List ConfigRow :=
  (db.activation, db.state, db.config)

/-- A key `(pending, owner)` is one of the two keys of its owner. -/
theorem lex_key_cases (k : Bool ×ₗ Name) : k = toLex (false, (ofLex k).2) ∨ k = toLex (true, (ofLex k).2) := by
  obtain ⟨p, a⟩ := k
  cases p
  · exact .inl rfl
  · exact .inr rfl

/-- A store is determined by its shared rows and the rows of every account. -/
theorem Db.ext_rowsOf {db db' : Db} (hs : db.shared = db'.shared) (hr : ∀ a, db.rowsOf a = db'.rowsOf a) :
    db = db' := by
  obtain ⟨l, u, g, act, st, cf⟩ := db
  obtain ⟨l', u', g', act', st', cf'⟩ := db'
  simp only [Db.shared, Prod.mk.injEq] at hs
  obtain ⟨rfl, rfl, rfl⟩ := hs
  simp only [Db.rowsOf, Prod.mk.injEq] at hr
  have hl : l = l' := Table.ext_find fun k => by
    rcases lex_key_cases k with hk | hk <;> rw [hk]
    exacts [(hr _).1, (hr _).2.1]
  have hg : g = g' := Table.ext_find fun k => by
    rcases lex_key_cases k with hk | hk <;> rw [hk]
    exacts [(hr _).2.2.2.1, (hr _).2.2.2.2]
  have hu : u = u' := Table.ext_find fun a => (hr a).2.2.1
  rw [hl, hu, hg]

/-! ### Calls local to a set of accounts -/

variable {α β : Type} {S : Name → Prop}

/-- `db'` differs from `db` at most in the rows of the accounts of `S`. -/
def Db.Outside (S : Name → Prop) (db db' : Db) : Prop :=
  db'.shared = db.shared ∧ ∀ a, ¬ S a → db'.rowsOf a = db.rowsOf a

/-- `db1` and `db2` have the same shared rows and the same rows for every account of `S`. -/
def Db.AgreeOn (S : Name → Prop) (db1 db2 : Db) : Prop :=
  db1.shared = db2.shared ∧ ∀ a, S a → db1.rowsOf a = db2.rowsOf a

theorem Db.Outside.refl (db : Db) : Db.Outside S db db := ⟨rfl, fun _ _ => rfl⟩

theorem Db.Outside.trans {db db' db'' : Db} (h1 : Db.Outside S db db') (h2 : Db.Outside S db' db'') :
    Db.Outside S db db'' :=
  ⟨h2.1.trans h1.1, fun a ha => (h2.2 a ha).trans (h1.2 a ha)⟩

/-- Two results of one call that nothing on `S` tells apart: the same value returned on stores that
agree on `S`, or an exception on both. -/
def SameOutcome (S : Name → Prop) : EStateM.Result Err Db α → EStateM.Result Err Db α → Prop
  | .ok a db1, .ok b db2 => a = b ∧ Db.AgreeOn S db1 db2
  | .error _ _, .error _ _ => True
  | _, _ => False

/-- `x` is a call on the accounts of `S`: a successful run changes nothing outside their rows, and
from two stores that agree on `S` the call has the same outcome. -/
structure LocalM (S : Name → Prop) (x : ChainM α) : Prop where
  outside : ∀ db a db', x db = .ok a db' → Db.Outside S db db'
  congr : ∀ db1 db2, Db.AgreeOn S db1 db2 → SameOutcome S (x db1) (x db2)

namespace LocalM

theorem pure (a : α) : LocalM S (Pure.pure a : ChainM α) where
  outside _ _ _ h := by cases h; exact .refl _
  congr _ _ h := ⟨rfl, h⟩

/-- Bind, with a fact `P` about the value the first call returns. -/
theorem bind_of {x : ChainM α} {f : α → ChainM β} (P : α → Prop) (hx : LocalM S x)
    (hP : ∀ db a db', x db = .ok a db' → P a) (hf : ∀ a, P a → LocalM S (f a)) : LocalM S (x >>= f) where
  outside db b db'' h := by
    obtain ⟨a, db', h1, h2⟩ := bind_eq_ok.mp h
    exact (hx.outside _ _ _ h1).trans ((hf a (hP _ _ _ h1)).outside _ _ _ h2)
  congr db1 db2 h := by
    have hc := hx.congr db1 db2 h
    rcases h1 : x db1 with ⟨a, db1'⟩ | ⟨e1, s1⟩ <;> rcases h2 : x db2 with ⟨b, db2'⟩ | ⟨e2, s2⟩ <;>
      rw [h1, h2] at hc
    · obtain ⟨rfl, hagree⟩ := hc
      rw [bind_apply_ok h1, bind_apply_ok h2]
      exact (hf a (hP _ _ _ h1)).congr _ _ hagree
    · exact hc.elim
    · exact hc.elim
    · rw [bind_eq_error.mpr (.inl h1), bind_eq_error.mpr (.inl h2)]; trivial

theorem bind {x : ChainM α} {f : α → ChainM β} (hx : LocalM S x) (hf : ∀ a, LocalM S (f a)) :
    LocalM S (x >>= f) :=
  bind_of (fun _ => True) hx (fun _ _ _ _ => trivial) fun a _ => hf a

theorem gstAssert (c : Prop) [Decidable c] (k : ErrKind) (m : String) :
    LocalM S (Gstio.gstAssert c k m : ChainM Unit) where
  outside _ _ _ h := by rw [gstAssert_apply] at h; split at h <;> cases h; exact .refl _
  congr _ _ h := by rw [gstAssert_apply, gstAssert_apply]; split; exacts [⟨rfl, h⟩, trivial]

theorem throw (e : Err) : LocalM S (MonadExcept.throw e : ChainM α) where
  outside _ _ _ h := by cases h
  congr _ _ _ := trivial

theorem fromExcept (e : Except Err α) : LocalM S (Gstio.fromExcept e) := by
  cases e
  · exact ⟨fun _ _ _ h => (by cases h), fun _ _ _ => trivial⟩
  · exact pure _

theorem forM {γ : Type} {l : List γ} {f : γ → ChainM PUnit} (h : ∀ a ∈ l, LocalM S (f a)) :
    LocalM S (l.forM f) := by
  induction l with
  | nil => exact pure _
  | cons a l ih => exact bind (h a (.head _)) fun _ => ih fun b hb => h b (.tail _ hb)

/-- The config row is shared: reading it is local to every set of accounts. -/
theorem getConfig : LocalM S Gstio.getConfig where
  outside _ _ _ h := by rw [(getConfig_eq_ok.mp h).2]; exact .refl _
  congr db1 db2 h := by
    have hc : db1.config = db2.config := congrArg (fun s => s.2.2) h.1
    unfold Gstio.getConfig; rw [hc]
    cases db2.config
    · trivial
    · exact ⟨rfl, h⟩

/-- The activation rows are shared: reading them is local to every set of accounts. -/
theorem findActivation (k : Bool ×ₗ Name) : LocalM S (activationRef.findRow k) where
  outside _ _ _ h := by cases h; exact .refl _
  congr db1 db2 h := by
    have ha : db1.activation = db2.activation := congrArg (fun s => s.1) h.1
    exact ⟨by rw [activationRef_read, activationRef_read, ha], h⟩

end LocalM

/-! ### The keyed tables -/

section Tables

variable {δ κ : Type} [LinearOrder κ] {key : δ → κ}

/-- Every key `k` of `T` belongs to the account `own k`: reading `T` at a key of an account of `S`
sees only that account's rows, and writing back a table that differs only at keys of accounts of
`S` changes only their rows. -/
structure TableRef.Owned (T : TableRef key) (own : κ → Name) : Prop where
  find_eq : ∀ {S : Name → Prop} {db1 db2 : Db} (k : κ), Db.AgreeOn S db1 db2 → S (own k) →
    (T.read db1).find k = (T.read db2).find k
  write_outside : ∀ {S : Name → Prop} (db : Db) (t : Table key),
    (∀ k, ¬ S (own k) → t.find k = (T.read db).find k) → Db.Outside S db (T.write db t)
  write_agree : ∀ {S : Name → Prop} {db1 db2 : Db} (t1 t2 : Table key), Db.AgreeOn S db1 db2 →
    (∀ k, S (own k) → t1.find k = t2.find k) → Db.AgreeOn S (T.write db1 t1) (T.write db2 t2)

theorem TableRef.getRow_key (T : TableRef key) {k : κ} {db db' : Db} {r : δ} (h : T.getRow k db = .ok r db') :
    key r = k :=
  (Table.find_eq_some_iff.mp (T.getRow_eq_ok.mp h).1).2

namespace LocalM

variable {T : TableRef key} {own : κ → Name} (hT : T.Owned own)
include hT

theorem findRow {k : κ} (hk : S (own k)) : LocalM S (T.findRow k) where
  outside _ _ _ h := by cases h; exact .refl _
  congr _ _ h := ⟨hT.find_eq k h hk, h⟩

theorem getRow {k : κ} (hk : S (own k)) : LocalM S (T.getRow k) where
  outside _ _ _ h := by rw [(T.getRow_eq_ok.mp h).2]; exact .refl _
  congr db1 db2 h := by
    unfold TableRef.getRow; rw [hT.find_eq k h hk]
    cases (T.read db2).find k
    · trivial
    · exact ⟨rfl, h⟩

theorem createRow {r : δ} (hr : S (own (key r))) : LocalM S (T.createRow r) where
  outside db _ _ h := by
    obtain ⟨t, ht, rfl⟩ := T.createRow_eq_ok.mp h
    exact hT.write_outside _ _ fun k hk => by rw [Table.find_create ht, if_neg fun (e : key r = k) => hk (e ▸ hr)]
  congr db1 db2 h := by
    have hnone : ∀ t : Table key, t.create r = none ↔ (t.find (key r)).isSome := fun _ => Table.create_eq_none_iff
    have hfind := hT.find_eq (key r) h hr
    unfold TableRef.createRow
    cases h1 : (T.read db1).create r <;> cases h2 : (T.read db2).create r
    · trivial
    · rw [hnone, hfind, ← hnone, h2] at h1; cases h1
    · rw [hnone, ← hfind, ← hnone, h1] at h2; cases h2
    · exact ⟨rfl, hT.write_agree _ _ h fun k hk => by
        rw [Table.find_create h1, Table.find_create h2, hT.find_eq k h hk]⟩

theorem modifyRow {k : κ} (hk : S (own k)) (f : δ → δ) (hf : ∀ x, key (f x) = key x) :
    LocalM S (T.modifyRow k f hf) where
  outside db _ _ h := by
    cases h
    exact hT.write_outside _ _ fun k' hk' => by rw [Table.find_modify, if_neg fun (e : k = k') => hk' (e ▸ hk)]
  congr db1 db2 h := ⟨rfl, hT.write_agree _ _ h fun k' hk' => by
    rw [Table.find_modify, Table.find_modify, hT.find_eq k h hk, hT.find_eq k' h hk']⟩

end LocalM

end Tables

theorem limitsRef_owned : limitsRef.Owned fun k => (ofLex k).2 where
  find_eq k h hS := by
    have := h.2 _ hS
    simp only [Db.rowsOf, Prod.mk.injEq] at this
    rcases lex_key_cases k with hk | hk <;> rw [hk]
    exacts [this.1, this.2.1]
  write_outside db t ht := ⟨rfl, fun a ha => by
    simp only [Db.rowsOf, limitsRef_write, ht (toLex (false, a)) ha, ht (toLex (true, a)) ha, limitsRef_read]⟩
  write_agree t1 t2 h ht := ⟨h.1, fun a ha => by
    have := h.2 a ha
    simp only [Db.rowsOf, limitsRef_write, Prod.mk.injEq] at this ⊢
    exact ⟨ht _ ha, ht _ ha, this.2.2⟩⟩

theorem usageRef_owned : usageRef.Owned id where
  find_eq a h hS := by
    have := h.2 _ hS
    simp only [Db.rowsOf, Prod.mk.injEq] at this
    exact this.2.2.1
  write_outside db t ht := ⟨rfl, fun a ha => by simp only [Db.rowsOf, usageRef_write, ht a ha, usageRef_read]⟩
  write_agree t1 t2 h ht := ⟨h.1, fun a ha => by
    have := h.2 a ha
    simp only [Db.rowsOf, usageRef_write, Prod.mk.injEq] at this ⊢
    exact ⟨this.1, this.2.1, ht a ha, this.2.2.2⟩⟩

theorem gstRef_owned : gstRef.Owned fun k => (ofLex k).2 where
  find_eq k h hS := by
    have := h.2 _ hS
    simp only [Db.rowsOf, Prod.mk.injEq] at this
    rcases lex_key_cases k with hk | hk <;> rw [hk]
    exacts [this.2.2.2.1, this.2.2.2.2]
  write_outside db t ht := ⟨rfl, fun a ha => by
    simp only [Db.rowsOf, gstRef_write, ht (toLex (false, a)) ha, ht (toLex (true, a)) ha, gstRef_read]⟩
  write_agree t1 t2 h ht := ⟨h.1, fun a ha => by
    have := h.2 a ha
    simp only [Db.rowsOf, gstRef_write, Prod.mk.injEq] at this ⊢
    exact ⟨this.1, this.2.1, this.2.2.1, ht _ ha, ht _ ha⟩⟩

/-! ### The calls on an account -/

section Calls

variable (d : Decl) {a : Name}

theorem initializeAccount_local (hS : S a) : LocalM S (initializeAccount d a) :=
  .bind (.createRow limitsRef_owned hS) fun _ => .createRow usageRef_owned hS

theorem findOrCreatePendingLimits_local (hS : S a) : LocalM S (findOrCreatePendingLimits a) := by
  refine .bind (.findRow limitsRef_owned hS) fun r => ?_
  cases r
  · refine .bind_of (fun l : LimitsRow => l.key = toLex (false, a)) (.getRow limitsRef_owned hS)
      (fun _ _ _ h => limitsRef.getRow_key h) fun l hl => .bind (.createRow limitsRef_owned ?_) fun _ => .pure _
    exact (congrArg (fun k => (ofLex k).2) hl).symm ▸ hS
  · exact .pure _

theorem setAccountLimits_local (hS : S a) (r n c : I64) : LocalM S (setAccountLimits a r n c) :=
  .bind_of (fun l : LimitsRow => l.key = toLex (true, a)) (findOrCreatePendingLimits_local hS)
    (fun _ _ _ h => findOrCreatePendingLimits_key h) fun l hl =>
      .bind (.modifyRow limitsRef_owned (show S (ofLex l.key).2 by rw [hl]; exact hS) _ _) fun _ => .pure _

theorem findOrCreatePendingGst_key {b : I64} {db db' : Db} {l : GstRow}
    (h : findOrCreatePendingGst d a b db = .ok l db') : l.key = toLex (true, a) := by
  rcases findOrCreatePendingGst_eq_ok d h with ⟨hl, -⟩ | ⟨-, rfl, -⟩
  · exact (Table.find_eq_some_iff.mp hl).2
  · rfl

theorem findOrCreatePendingGst_local (hS : S a) (b : I64) : LocalM S (findOrCreatePendingGst d a b) := by
  refine .bind (.findRow gstRef_owned hS) fun r => ?_
  cases r
  · exact .bind (.createRow gstRef_owned hS) fun _ => .pure _
  · exact .pure _

theorem setGstLimits_local (hS : S a) (b : I64) : LocalM S (setGstLimits d a b) := by
  refine .bind_of (fun l : GstRow => l.key = toLex (true, a)) (findOrCreatePendingGst_local d hS b)
    (fun _ _ _ h => findOrCreatePendingGst_key d h) fun l hl => ?_
  have hk : S (ofLex l.key).2 := by rw [hl]; exact hS
  show LocalM S (if _ then _ else _)
  split <;> refine .bind ?_ fun _ => .bind (.modifyRow gstRef_owned hk _ _) fun _ => .pure _
  · exact .gstAssert _ _ _
  · exact .pure _

theorem isActivation_local : LocalM S isActivation :=
  .bind (.findActivation _) fun r => by cases r <;> exact .pure _

theorem addPendingGstUsage_local (hS : S a) (δ : I64) : LocalM S (addPendingGstUsage a δ) := by
  refine .bind isActivation_local fun act => ?_
  split
  · refine .bind (.findRow gstRef_owned hS) fun r => ?_
    cases r
    · exact .createRow gstRef_owned hS
    · exact .modifyRow gstRef_owned (k := toLex (true, a)) hS _ _
  · exact .pure _

theorem addPendingRamUsage_local (hS : S a) (δ : I64) : LocalM S (addPendingRamUsage a δ) := by
  unfold addPendingRamUsage
  split
  · exact .pure _
  · exact .bind (.pure _) fun _ => .bind (.getRow usageRef_owned hS) fun _ => .bind (.gstAssert _ _ _) fun _ =>
      .bind (.gstAssert _ _ _) fun _ => .bind (.modifyRow usageRef_owned hS _ _) fun _ =>
        addPendingGstUsage_local hS δ

theorem verifyAccountGstUsage_local (hS : S a) : LocalM S (verifyAccountGstUsage a) := by
  refine .bind (.findRow gstRef_owned hS) fun r => ?_
  cases r
  · exact .throw _
  · dsimp only; split
    · exact .bind (.gstAssert _ _ _) fun _ => .modifyRow gstRef_owned (k := toLex (true, a)) hS _ _
    · exact .pure _

theorem updateAccountUsage_local {accounts : List Name} (hS : ∀ a ∈ accounts, S a) (t : U32) :
    LocalM S (updateAccountUsage d accounts t) :=
  .bind .getConfig fun _ => .forM fun a ha => .bind (.getRow usageRef_owned (hS a ha)) fun _ =>
    .bind (.fromExcept _) fun _ => .bind (.fromExcept _) fun _ => .modifyRow usageRef_owned (hS a ha) _ _

end Calls

/-! ### Runs on disjoint accounts -/

/-- The accounts whose rows a call touches, for the six calls that touch only the rows of the
accounts they name; `none` for the others, which write the state, config or activation rows or
every account's rows. -/
def Op.accounts : Op → Option (List Name)
  | .initializeAccount a => some [a]
  | .updateAccountUsage accounts _ => some accounts
  | .addPendingRamUsage a _ => some [a]
  | .verifyAccountGstUsage a => some [a]
  | .setAccountLimits a _ _ _ => some [a]
  | .setGstLimits a _ => some [a]
  | _ => none

/-- `op` touches only rows of accounts of `S`. -/
def Op.OnAccounts (S : Name → Prop) (op : Op) : Prop := ∃ l, op.accounts = some l ∧ ∀ a ∈ l, S a

variable (d : Decl)

theorem Op.exec_local {op : Op} (h : op.OnAccounts S) : LocalM S (op.exec d) := by
  obtain ⟨l, hl, hS⟩ := h
  cases op <;> simp only [Op.accounts, Option.some.injEq, reduceCtorEq] at hl <;> subst hl
  case initializeAccount a => exact initializeAccount_local d (hS a (.head _))
  case updateAccountUsage accounts t => exact updateAccountUsage_local d hS t
  case addPendingRamUsage a δ => exact addPendingRamUsage_local (hS a (.head _)) δ
  case verifyAccountGstUsage a => exact verifyAccountGstUsage_local (hS a (.head _))
  case setAccountLimits a r n c => exact .bind (setAccountLimits_local (hS a (.head _)) r n c) fun _ => .pure _
  case setGstLimits a b => exact .bind (setGstLimits_local d (hS a (.head _)) b) fun _ => .pure _

/-- `f` changes only rows of accounts of `S`, and what it leaves in them depends only on their rows
and the shared rows. -/
structure LocalMap (S : Name → Prop) (f : Db → Db) : Prop where
  outside : ∀ db, Db.Outside S db (f db)
  congr : ∀ db1 db2, Db.AgreeOn S db1 db2 → Db.AgreeOn S (f db1) (f db2)

/-- A call on accounts of `S`, rolled back when it raises, is a map local to `S`. -/
theorem LocalM.apply {op : Op} (h : LocalM S (op.exec d)) : LocalMap S (op.apply d) where
  outside db := by
    unfold Op.apply; split
    · exact h.outside _ _ _ ‹_›
    · exact .refl _
  congr db1 db2 hagree := by
    have hc := h.congr db1 db2 hagree
    unfold Op.apply
    rcases h1 : op.exec d db1 with ⟨_, db1'⟩ | ⟨_, _⟩ <;> rcases h2 : op.exec d db2 with ⟨_, db2'⟩ | ⟨_, _⟩ <;>
      rw [h1, h2] at hc
    · exact hc.2
    · exact hc.elim
    · exact hc.elim
    · exact hagree

theorem LocalMap.comp {f g : Db → Db} (hf : LocalMap S f) (hg : LocalMap S g) : LocalMap S (f ∘ g) where
  outside db := (hg.outside db).trans (hf.outside (g db))
  congr _ _ h := hf.congr _ _ (hg.congr _ _ h)

theorem LocalMap.runOps {ops : List Op} (h : ∀ op ∈ ops, op.OnAccounts S) : LocalMap S (runOps d ops) := by
  induction ops with
  | nil => exact ⟨fun db => .refl db, fun _ _ h => h⟩
  | cons op ops ih => exact (ih fun o ho => h o (.tail _ ho)).comp ((Op.exec_local d (h op (.head _))).apply d)

/-- **Local maps on disjoint accounts commute**: each sees the same rows of its accounts whether
the other ran first or not, and leaves the other's rows alone. -/
theorem LocalMap.commute {T : Name → Prop} {f g : Db → Db} (hf : LocalMap S f) (hg : LocalMap T g)
    (hST : ∀ a, S a → ¬ T a) (db : Db) : f (g db) = g (f db) := by
  have hfg := hf.outside (g db)
  have hgf := hg.outside (f db)
  have h1 := hf.congr _ _ ⟨(hg.outside db).1, fun a ha => (hg.outside db).2 a (hST a ha)⟩
  have h2 := hg.congr _ _ ⟨(hf.outside db).1, fun a ha => (hf.outside db).2 a fun hs => hST a hs ha⟩
  refine Db.ext_rowsOf ?_ fun a => ?_
  · rw [hfg.1, hgf.1, (hg.outside db).1, (hf.outside db).1]
  · by_cases ha : S a
    · rw [h1.2 a ha, hgf.2 a (hST a ha)]
    · by_cases hb : T a
      · rw [hfg.2 a ha, h2.2 a hb]
      · rw [hfg.2 a ha, (hg.outside db).2 a hb, hgf.2 a hb, (hf.outside db).2 a ha]

/-- `Interleave xs ys zs`: `zs` is a merge of `xs` and `ys` that keeps the order of each. -/
inductive Interleave {α : Type} : List α → List α → List α → Prop
  | /-- Two empty runs merge to the empty run. -/
    nil : Interleave [] [] []
  | /-- The next call of the merge is the first run's. -/
    left {x : α} {xs ys zs : List α} : Interleave xs ys zs → Interleave (x :: xs) ys (x :: zs)
  | /-- The next call of the merge is the second run's. -/
    right {y : α} {xs ys zs : List α} : Interleave xs ys zs → Interleave xs (y :: ys) (y :: zs)

/-- **Calls on disjoint accounts interleave freely.**  Let `xs` be calls on accounts of `S` and
`ys` calls on accounts of `T`, each one of `initialize_account`, `set_account_limits`,
`set_gst_limits`, `add_pending_ram_usage`, `verify_account_gst_usage` or `update_account_usage`,
with `S` and `T` disjoint.  From every store, every interleaving of the two runs, each call rolled
back when it raises, ends in the store that `xs` and then `ys` reach: the same rows in every table
the manager reads.  `Db` leaves out the chainbase row ids, which creates interleaved in another
order would number differently. -/
theorem runOps_interleave {S T : Name → Prop} (hST : ∀ a, S a → ¬ T a) {xs ys zs : List Op}
    (hxs : ∀ op ∈ xs, op.OnAccounts S) (hys : ∀ op ∈ ys, op.OnAccounts T) (hz : Interleave xs ys zs)
    (db : Db) : runOps d zs db = runOps d ys (runOps d xs db) := by
  induction hz generalizing db with
  | nil => rfl
  | left _ ih => exact ih (fun o ho => hxs o (.tail _ ho)) hys _
  | @right y xs ys zs _ ih =>
    show runOps d zs (y.apply d db) = runOps d ys (y.apply d (runOps d xs db))
    rw [ih hxs (fun o ho => hys o (.tail _ ho)),
      LocalMap.commute (LocalMap.runOps d hxs) ((Op.exec_local d (hys y (.head _))).apply d) hST]

/-- Account `1` is created and takes RAM while account `2` is created and gets a gas limit, the
calls of the two runs mixed. -/
theorem runOps_interleave_sample :
    (∀ a : Name, a = 1 → ¬ a = 2) ∧
      (∀ op ∈ [Op.initializeAccount 1, .addPendingRamUsage 1 100], op.OnAccounts (· = 1)) ∧
      (∀ op ∈ [Op.initializeAccount 2, .setGstLimits 2 500], op.OnAccounts (· = 2)) ∧
      Interleave [Op.initializeAccount 1, .addPendingRamUsage 1 100] [.initializeAccount 2, .setGstLimits 2 500]
        [.initializeAccount 1, .initializeAccount 2, .setGstLimits 2 500, .addPendingRamUsage 1 100] ∧
      runOps Decl.sample [.initializeAccount 1, .initializeAccount 2, .setGstLimits 2 500,
          .addPendingRamUsage 1 100] (Db.init Decl.sample) =
        runOps Decl.sample [.initializeAccount 2, .setGstLimits 2 500]
          (runOps Decl.sample [.initializeAccount 1, .addPendingRamUsage 1 100] (Db.init Decl.sample)) :=
  have hST : ∀ a : Name, a = 1 → ¬ a = 2 := by rintro a rfl; decide
  have hxs : ∀ op ∈ [Op.initializeAccount 1, .addPendingRamUsage 1 100], op.OnAccounts (· = 1) := by
    simp [Op.OnAccounts, Op.accounts]
  have hys : ∀ op ∈ [Op.initializeAccount 2, .setGstLimits 2 500], op.OnAccounts (· = 2) := by
    simp [Op.OnAccounts, Op.accounts]
  have hz : Interleave [Op.initializeAccount 1, .addPendingRamUsage 1 100] [.initializeAccount 2, .setGstLimits 2 500]
      [.initializeAccount 1, .initializeAccount 2, .setGstLimits 2 500, .addPendingRamUsage 1 100] :=
    .left (.right (.right (.left .nil)))
  ⟨hST, hxs, hys, hz, runOps_interleave Decl.sample hST hxs hys hz _⟩

/-! ### The order of the accounts -/

/-- **Two calls on disjoint accounts, in sequence, commute**: run in the other order they succeed
from the same store and leave the same store. -/
theorem LocalM.seq_comm {T : Name → Prop} {x y : ChainM Unit} (hx : LocalM S x) (hy : LocalM T y)
    (hST : ∀ a, S a → ¬ T a) {db db' : Db} (h : (x >>= fun _ => y) db = .ok () db') :
    (y >>= fun _ => x) db = .ok () db' := by
  obtain ⟨_, db1, h1, h2⟩ := bind_eq_ok.mp h
  have ox1 := hx.outside _ _ _ h1
  have oy2 := hy.outside _ _ _ h2
  have hcy := hy.congr db1 db ⟨ox1.1, fun a ha => ox1.2 a fun hs => hST a hs ha⟩
  rw [h2] at hcy
  rcases hy' : y db with ⟨_, db2⟩ | ⟨_, _⟩ <;> rw [hy'] at hcy
  · have oy := hy.outside _ _ _ hy'
    have hcx := hx.congr db db2 ⟨oy.1.symm, fun a ha => (oy.2 a (hST a ha)).symm⟩
    rw [h1] at hcx
    rcases hx' : x db2 with ⟨_, db3⟩ | ⟨_, _⟩ <;> rw [hx'] at hcx
    · have ox3 := hx.outside _ _ _ hx'
      rw [bind_apply_ok hy', hx']
      refine congrArg _ (Db.ext_rowsOf ?_ fun a => ?_)
      · rw [ox3.1, oy.1, oy2.1, ox1.1]
      · by_cases ha : S a
        · rw [← hcx.2.2 a ha, oy2.2 a (hST a ha)]
        · by_cases hb : T a
          · rw [ox3.2 a ha, hcy.2.2 a hb]
          · rw [ox3.2 a ha, oy.2 a hb, oy2.2 a hb, ox1.2 a ha]
    · exact hcx.elim
  · exact hcy.elim

/-- A loop whose body on `a` is a call on `a` alone succeeds over a permutation of distinct
elements exactly as over the original order, and leaves the same store. -/
theorem LocalM.forM_perm {f : Name → ChainM PUnit} (hf : ∀ a, LocalM (· = a) (f a)) {l l' : List Name}
    (hp : l.Perm l') (hnd : l.Nodup) {db db' : Db} (h : l.forM f db = .ok () db') : l'.forM f db = .ok () db' := by
  induction hp generalizing db db' with
  | nil => exact h
  | cons x _ ih =>
    rw [List.forM_cons'] at h ⊢
    obtain ⟨_, db1, h1, h2⟩ := bind_eq_ok.mp h
    rw [bind_apply_ok h1]
    exact ih (List.nodup_cons.mp hnd).2 h2
  | swap x y l =>
    simp only [List.forM_cons'] at h ⊢
    obtain ⟨_, db1, h1, h⟩ := bind_eq_ok.mp h
    obtain ⟨_, db2, h2, h3⟩ := bind_eq_ok.mp h
    have hyx : y ≠ x := fun e => (List.nodup_cons.mp hnd).1 (e ▸ List.mem_cons_self y l)
    have hxy := (hf y).seq_comm (hf x) (fun _ ha hb => hyx (ha.symm.trans hb))
      (show (f y >>= fun _ => f x) db = .ok () db2 by rw [bind_apply_ok h1]; exact h2)
    obtain ⟨_, db1', h1', h2'⟩ := bind_eq_ok.mp hxy
    rw [bind_apply_ok h1', bind_apply_ok h2']
    exact h3
  | trans h₁ _ ih₁ ih₂ => exact ih₂ (h₁.nodup_iff.mp hnd) (ih₁ hnd h)

/-- Rolled back on failure, two calls that succeed together and then agree leave the same store. -/
theorem Op.apply_eq_of_iff {op op' : Op} {db : Db}
    (h : ∀ db', op.exec d db = .ok () db' ↔ op'.exec d db = .ok () db') : op.apply d db = op'.apply d db := by
  unfold Op.apply
  rcases h1 : op.exec d db with ⟨_, db1⟩ | ⟨_, _⟩ <;> rcases h2 : op'.exec d db with ⟨_, db2⟩ | ⟨_, _⟩
  · have := (h db1).mp h1; rw [h2] at this; cases this; rfl
  · have := (h db1).mp h1; rw [h2] at this; cases this
  · have := (h db2).mpr h2; rw [h1] at this; cases this
  · rfl

theorem getAccountLimits_local {a : Name} (hS : S a) : LocalM S (getAccountLimits a) := by
  refine .bind (.findRow limitsRef_owned hS) fun r => ?_
  cases r
  · exact .getRow limitsRef_owned hS
  · exact .pure _

theorem checkShare_local (R : Resource) (s : StateRow) (c : ConfigRow) (l : LimitsRow) (e : Ema) :
    LocalM S (checkShare d R s c l e) := by
  unfold checkShare; split
  · exact .gstAssert _ _ _
  · exact .pure _

theorem addAccountTransactionUsage_local {a : Name} (s : StateRow) (c : ConfigRow) (cpu net : U64) (t : U32)
    (hS : S a) : LocalM S (addAccountTransactionUsage d s c cpu net t a) :=
  .bind (.getRow usageRef_owned hS) fun _ => .bind (getAccountLimits_local hS) fun _ =>
    .bind (.fromExcept _) fun _ => .bind (.fromExcept _) fun _ => .bind (.modifyRow usageRef_owned hS _ _)
      fun _ => .bind (checkShare_local d _ _ _ _ _) fun _ => checkShare_local d _ _ _ _ _

theorem ageAccountUsage_local {a : Name} (c : ConfigRow) (t : U32) (hS : S a) :
    LocalM S (ageAccountUsage d c t a) :=
  .bind (.getRow usageRef_owned hS) fun _ => .bind (.fromExcept _) fun _ => .bind (.fromExcept _) fun _ =>
    .modifyRow usageRef_owned hS _ _

section Perm

variable {accounts accounts' : List Name} (hp : accounts.Perm accounts') (hnd : accounts.Nodup)
include hp hnd

theorem addTransactionUsage_of_perm {cpu net : U64} {t : U32} {db db' : Db}
    (h : addTransactionUsage d accounts cpu net t db = .ok () db') :
    addTransactionUsage d accounts' cpu net t db = .ok () db' := by
  obtain ⟨s, _, hs, h⟩ := bind_eq_ok.mp h
  obtain ⟨c, _, hc, h⟩ := bind_eq_ok.mp h
  obtain ⟨_, _, hfor, h⟩ := bind_eq_ok.mp h
  unfold addTransactionUsage
  rw [bind_apply_ok hs, bind_apply_ok hc,
    bind_apply_ok (LocalM.forM_perm (fun a => addAccountTransactionUsage_local d s c cpu net t rfl) hp hnd hfor)]
  exact h

theorem updateAccountUsage_of_perm {t : U32} {db db' : Db} (h : updateAccountUsage d accounts t db = .ok () db') :
    updateAccountUsage d accounts' t db = .ok () db' := by
  obtain ⟨c, _, hc, hfor⟩ := bind_eq_ok.mp h
  unfold updateAccountUsage
  rw [bind_apply_ok hc]
  exact LocalM.forM_perm (fun a => ageAccountUsage_local d c t rfl) hp hnd hfor

/-- **The order of the accounts does not matter.**  `add_transaction_usage` and
`update_account_usage` take a `flat_set` of accounts; over any order of the same distinct
accounts, each call succeeds exactly when it does over the other, and leaves the same store, and
so does the call rolled back on failure.  Each iteration reads the state and config rows read
before the loop and the rows of its own account, and writes only its account's usage row. -/
theorem accountLoops_perm (cpu net : U64) (t : U32) (db : Db) :
    ((∀ db', addTransactionUsage d accounts cpu net t db = .ok () db' ↔
        addTransactionUsage d accounts' cpu net t db = .ok () db') ∧
      (Op.addTransactionUsage accounts cpu net t).apply d db = (Op.addTransactionUsage accounts' cpu net t).apply d db) ∧
    ((∀ db', updateAccountUsage d accounts t db = .ok () db' ↔ updateAccountUsage d accounts' t db = .ok () db') ∧
      (Op.updateAccountUsage accounts t).apply d db = (Op.updateAccountUsage accounts' t).apply d db) := by
  have hnd' := hp.nodup_iff.mp hnd
  have hadd : ∀ db', addTransactionUsage d accounts cpu net t db = .ok () db' ↔
      addTransactionUsage d accounts' cpu net t db = .ok () db' := fun _ =>
    ⟨addTransactionUsage_of_perm d hp hnd, addTransactionUsage_of_perm d hp.symm hnd'⟩
  have hage : ∀ db', updateAccountUsage d accounts t db = .ok () db' ↔
      updateAccountUsage d accounts' t db = .ok () db' := fun _ =>
    ⟨updateAccountUsage_of_perm d hp hnd, updateAccountUsage_of_perm d hp.symm hnd'⟩
  exact ⟨⟨hadd, Op.apply_eq_of_iff d hadd⟩, ⟨hage, Op.apply_eq_of_iff d hage⟩⟩

end Perm

theorem accountLoops_perm_sample :
    [1, 2].Perm [2, 1] ∧ [1, 2].Nodup ∧
      ((∀ db', addTransactionUsage Decl.sample [1, 2] 5 7 3 (runOps Decl.sample [.initializeAccount 1, .initializeAccount 2]
          (Db.init Decl.sample)) = .ok () db' ↔
          addTransactionUsage Decl.sample [2, 1] 5 7 3 (runOps Decl.sample [.initializeAccount 1, .initializeAccount 2]
            (Db.init Decl.sample)) = .ok () db') ∧
        (Op.addTransactionUsage [1, 2] 5 7 3).apply Decl.sample
            (runOps Decl.sample [.initializeAccount 1, .initializeAccount 2] (Db.init Decl.sample)) =
          (Op.addTransactionUsage [2, 1] 5 7 3).apply Decl.sample
            (runOps Decl.sample [.initializeAccount 1, .initializeAccount 2] (Db.init Decl.sample))) ∧
      ((∀ db', updateAccountUsage Decl.sample [1, 2] 3 (runOps Decl.sample [.initializeAccount 1, .initializeAccount 2]
          (Db.init Decl.sample)) = .ok () db' ↔
          updateAccountUsage Decl.sample [2, 1] 3 (runOps Decl.sample [.initializeAccount 1, .initializeAccount 2]
            (Db.init Decl.sample)) = .ok () db') ∧
        (Op.updateAccountUsage [1, 2] 3).apply Decl.sample
            (runOps Decl.sample [.initializeAccount 1, .initializeAccount 2] (Db.init Decl.sample)) =
          (Op.updateAccountUsage [2, 1] 3).apply Decl.sample
            (runOps Decl.sample [.initializeAccount 1, .initializeAccount 2] (Db.init Decl.sample))) :=
  have hp : [1, 2].Perm [2, 1] := List.Perm.swap 2 1 []
  have hnd : [1, 2].Nodup := by simp
  ⟨hp, hnd, accountLoops_perm Decl.sample hp hnd 5 7 3 _⟩

end Gstio
