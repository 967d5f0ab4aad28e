import Gstio.Run

/-!
# Gstio.Commit — the commit loop of `process_account_limit_updates` is a fold

The loop restarts from `lower_bound((true))` after every removal.  Because the `by_owner` index
orders all committed rows `(false, _)` before all pending rows `(true, _)`, that lower bound is
the first pending row, and removing it makes the next pending row the first.  So the loop is the
fold `commitAll` over `pendingRows t`, the pending rows in owner order:

* `lowerBound_eq_head` — `lower_bound((true))` is the head of `pendingRows`;
* `pendingRows_commitRow` — one iteration leaves exactly the other pending rows;
* `limitUpdatesLoop_eq_commitAll` — the loop and the fold agree on every table;
* `commitAll_ok_inv`, `commitAll_error_inv` — a property every iteration keeps holds after a
  successful loop, and a failed loop failed in an iteration that started from it;
* `processAccountLimitUpdates_idem` — a successful commit leaves no pending row, so a second
  commit changes nothing.

The other calls on the limits table get one spec lemma each, so that the invariants of the later
modules never unfold them.
-/

namespace Gstio

/-- The pending rows of the limits table, in index (owner) order. -/
def pendingRows (t : Table LimitsRow.key) : List LimitsRow := t.rows.filter (·.pending)

/-- The loop body applied to the listed pending rows, one after the other. -/
def commitAll : List LimitsRow → Table LimitsRow.key → StateRow →
    Except Err (Table LimitsRow.key × StateRow)
  | [], t, rso => .ok (t, rso)
  | itr :: rest, t, rso =>
    match t.find (toLex (false, itr.owner)) with
    | none => .error Err.unknownKey
    | some actualEntry => do
      let rso ← commitTotals rso actualEntry itr
      commitAll rest (commitRow t itr) rso

theorem toLex_true_le_key (r : LimitsRow) : toLex (true, (0 : Name)) ≤ r.key ↔ r.pending = true := by
  cases r; simp [LimitsRow.key, Prod.Lex.le_iff]

theorem find?_eq_head?_filter {α : Type} (p : α → Bool) (l : List α) :
    l.find? p = (l.filter p).head? := by
  induction l with
  | nil => rfl
  | cons x xs ih =>
    cases h : p x
    · simp only [List.find?_cons, List.filter_cons, h, Bool.false_eq_true, ite_false, ih]
    · simp only [List.find?_cons, List.filter_cons, h, ite_true, List.head?_cons]

theorem lowerBound_eq_head (t : Table LimitsRow.key) :
    t.lowerBound (toLex (true, 0)) = (pendingRows t).head? := by
  simp only [Table.lowerBound, pendingRows, find?_eq_head?_filter]
  congr 2; funext r; simp [toLex_true_le_key]

/-- The pending rows are strictly increasing in owner. -/
theorem pendingRows_sorted (t : Table LimitsRow.key) :
    (pendingRows t).Pairwise (fun a b => a.owner < b.owner) := by
  refine (t.sorted.sublist (List.filter_sublist _)).imp_of_mem fun {a b} ha hb h => ?_
  have hpa := (List.mem_filter.mp ha).2; have hpb := (List.mem_filter.mp hb).2
  simpa [LimitsRow.key, Prod.Lex.lt_iff, hpa, hpb] using h

theorem pendingRows_eq_cons {t : Table LimitsRow.key} {itr : LimitsRow}
    (h : t.lowerBound (toLex (true, 0)) = some itr) : ∃ rest, pendingRows t = itr :: rest := by
  rw [lowerBound_eq_head] at h
  cases hp : pendingRows t with
  | nil => simp [hp] at h
  | cons x rest => simp only [hp, List.head?_cons, Option.some.injEq] at h; exact ⟨rest, h ▸ rfl⟩

theorem mem_of_pendingRows_eq_cons {t : Table LimitsRow.key} {itr : LimitsRow} {rest : List LimitsRow}
    (h : pendingRows t = itr :: rest) : itr ∈ t.rows ∧ itr.pending = true :=
  List.mem_filter.mp (show itr ∈ pendingRows t from h ▸ List.mem_cons_self _ _)

/-- Overwriting a committed row leaves the pending rows as they were. -/
theorem filter_pending_modify (t : Table LimitsRow.key) (o : Name) (f : LimitsRow → LimitsRow)
    (hf : ∀ x, (f x).key = x.key) :
    (t.modify (toLex (false, o)) f hf).rows.filter (·.pending) = t.rows.filter (·.pending) := by
  show List.filter _ (List.map _ t.rows) = _
  induction t.rows with
  | nil => rfl
  | cons x xs ih =>
    simp only [List.map_cons, List.filter_cons]
    split
    · rename_i hk
      have hx : x.pending = false := by
        simpa [LimitsRow.key] using congrArg (fun k => (ofLex k).1) hk
      have hfx : (f x).pending = false := by
        simpa [LimitsRow.key, hx] using congrArg (fun k => (ofLex k).1) (hf x)
      simp [hx, hfx, ih]
    · simp [ih]

/-- One iteration removes the pending row it committed and no other. -/
theorem pendingRows_commitRow {t : Table LimitsRow.key} {itr : LimitsRow} {rest : List LimitsRow}
    (h : pendingRows t = itr :: rest) : pendingRows (commitRow t itr) = rest := by
  have hsorted := pendingRows_sorted t
  rw [h, List.pairwise_cons] at hsorted
  have hcomm : ∀ (p q : LimitsRow → Bool) (l : List LimitsRow),
      List.filter p (List.filter q l) = List.filter q (List.filter p l) := by
    intro p q l; simp only [List.filter_filter, Bool.and_comm]
  simp only [pendingRows, commitRow, Table.remove]
  rw [hcomm, filter_pending_modify t itr.owner (LimitsRow.commit itr) fun _ => rfl]
  rw [show t.rows.filter (·.pending) = itr :: rest from h, List.filter_cons]
  simp only [ne_eq, not_true_eq_false, decide_False, Bool.false_eq_true, ite_false]
  refine List.filter_eq_self.mpr fun r hr => ?_
  have hlt := hsorted.1 r hr
  simp only [decide_eq_true_eq]
  intro he
  have := congrArg (fun k => (ofLex k).2) he
  simp only [LimitsRow.key, ofLex_toLex] at this
  exact absurd (this ▸ hlt) (lt_irrefl _)

/-- **The loop is the fold**: `limitUpdatesLoop` commits exactly the pending rows, each once, in
owner order, and touches no committed row other than theirs. -/
theorem limitUpdatesLoop_eq_commitAll (t : Table LimitsRow.key) (rso : StateRow) :
    limitUpdatesLoop t rso = commitAll (pendingRows t) t rso := by
  induction t, rso using limitUpdatesLoop.induct with
  | case1 t rso hemp =>
    rw [limitUpdatesLoop, if_pos hemp]
    simp [pendingRows, List.isEmpty_iff.mp hemp, commitAll]
  | case2 t rso hemp hlb =>
    rw [limitUpdatesLoop, if_neg hemp]
    split
    · rw [lowerBound_eq_head, List.head?_eq_none_iff] at hlb
      rw [hlb, commitAll]
    · rename_i h'; rw [hlb] at h'; cases h'
  | case3 t rso hemp itr hlb hp hf =>
    obtain ⟨rest, hrest⟩ := pendingRows_eq_cons hlb
    rw [limitUpdatesLoop, if_neg hemp]
    split
    · rename_i h'; rw [hlb] at h'; cases h'
    · rename_i itr' h'
      rw [hlb] at h'; cases h'
      simp only [hp, dite_true, hf, hrest, commitAll]
  | case4 t rso hemp itr hlb hp a hf ih =>
    obtain ⟨rest, hrest⟩ := pendingRows_eq_cons hlb
    rw [limitUpdatesLoop, if_neg hemp]
    split
    · rename_i h'; rw [hlb] at h'; cases h'
    · rename_i itr' h'
      rw [hlb] at h'; cases h'
      simp only [hp, dite_true, hf, hrest, commitAll, ih, pendingRows_commitRow hrest]
  | case5 t rso hemp itr hlb hp =>
    exact absurd ((toLex_true_le_key itr).mp (by simpa using List.find?_some hlb)) hp

/-! ### Runs of the loop -/

section Run

variable (P : Table LimitsRow.key → StateRow → Prop)
  (step : ∀ t rso itr rest actual rso', P t rso → pendingRows t = itr :: rest →
    t.find (toLex (false, itr.owner)) = some actual → commitTotals rso actual itr = .ok rso' →
    P (commitRow t itr) rso')
include step

/-- **Run lemma (success).** A property every iteration keeps holds after a successful loop, and
the loop leaves no pending row. -/
theorem commitAll_ok_inv : ∀ (l : List LimitsRow) (t : Table LimitsRow.key) (rso : StateRow)
    {t' : Table LimitsRow.key} {rso' : StateRow}, pendingRows t = l → P t rso →
    commitAll l t rso = .ok (t', rso') → P t' rso' ∧ pendingRows t' = []
  | [], _, _, _, _, hl, hp, h => by cases h; exact ⟨hp, hl⟩
  | itr :: rest, t, rso, _, _, hl, hp, h => by
    simp only [commitAll] at h
    split at h
    · cases h
    · rename_i actual hact
      cases hc : commitTotals rso actual itr with
      | error e => rw [hc] at h; cases h
      | ok rso1 =>
        rw [hc] at h
        exact commitAll_ok_inv rest _ rso1 (pendingRows_commitRow hl)
          (step t rso itr rest actual rso1 hp hl hact hc) h

/-- **Run lemma (failure).** A failed loop failed in an iteration that started from a table and
state row with the property: either the pending row had no committed row, or one of the three
`update_state_and_value` calls raised. -/
theorem commitAll_error_inv : ∀ (l : List LimitsRow) (t : Table LimitsRow.key) (rso : StateRow)
    {e : Err}, pendingRows t = l → P t rso → commitAll l t rso = .error e →
    ∃ t1 rso1 itr rest, P t1 rso1 ∧ pendingRows t1 = itr :: rest ∧
      (t1.find (toLex (false, itr.owner)) = none ∧ e = Err.unknownKey ∨
        ∃ actual, t1.find (toLex (false, itr.owner)) = some actual ∧
          commitTotals rso1 actual itr = .error e)
  | [], _, _, _, _, _, h => by cases h
  | itr :: rest, t, rso, _, hl, hp, h => by
    simp only [commitAll] at h
    split at h
    · cases h; exact ⟨t, rso, itr, rest, hp, hl, .inl ⟨‹_›, rfl⟩⟩
    · rename_i actual hact
      cases hc : commitTotals rso actual itr with
      | error e' => rw [hc] at h; cases h; exact ⟨t, rso, itr, rest, hp, hl, .inr ⟨actual, hact, hc⟩⟩
      | ok rso1 =>
        rw [hc] at h
        exact commitAll_error_inv rest _ rso1 (pendingRows_commitRow hl)
          (step t rso itr rest actual rso1 hp hl hact hc) h

end Run

/-! ### The other calls on the limits table -/

section Calls

variable (d : Decl) {a : Name} {db db' : Db}

theorem initializeAccount_eq_ok (h : initializeAccount d a db = .ok () db') :
    ∃ t u, db.limits.create (LimitsRow.initial d a) = some t ∧
      db.usage.create (UsageRow.initial a) = some u ∧ db' = { db with limits := t, usage := u } := by
  obtain ⟨_, db1, h1, h2⟩ := bind_eq_ok.mp h
  obtain ⟨t, ht, rfl⟩ := limitsRef.createRow_eq_ok.mp h1
  obtain ⟨u, hu, rfl⟩ := usageRef.createRow_eq_ok.mp h2
  exact ⟨t, u, ht, hu, rfl⟩

/-- `find_or_create_pending_limits` either finds the pending row, or copies the committed row into
a new pending row. -/
theorem findOrCreatePendingLimits_eq_ok {l : LimitsRow}
    (h : findOrCreatePendingLimits a db = .ok l db') :
    (db.limits.find (toLex (true, a)) = some l ∧ db' = db) ∨
      (db.limits.find (toLex (true, a)) = none ∧ ∃ c t, db.limits.find (toLex (false, a)) = some c ∧
        l = { c with pending := true } ∧ db.limits.create l = some t ∧ db' = { db with limits := t }) := by
  obtain ⟨r, _, h1, h2⟩ := bind_eq_ok.mp h
  rw [TableRef.findRow_apply] at h1
  cases h1
  cases hr : db.limits.find (toLex (true, a)) with
  | some p =>
    simp only [limitsRef_read, hr] at h2
    cases h2; exact .inl ⟨rfl, rfl⟩
  | none =>
    simp only [limitsRef_read, hr] at h2
    obtain ⟨c, _, h3, h4⟩ := bind_eq_ok.mp h2
    obtain ⟨hc, rfl⟩ := limitsRef.getRow_eq_ok.mp h3
    obtain ⟨_, _, h5, h6⟩ := bind_eq_ok.mp h4
    obtain ⟨t, ht, rfl⟩ := limitsRef.createRow_eq_ok.mp h5
    cases h6
    exact .inr ⟨rfl, c, t, hc, rfl, ht, rfl⟩

theorem findOrCreatePendingLimits_key {l : LimitsRow}
    (h : findOrCreatePendingLimits a db = .ok l db') : l.key = toLex (true, a) := by
  rcases findOrCreatePendingLimits_eq_ok h with ⟨hl, -⟩ | ⟨-, c, -, hc, rfl, -⟩
  · exact (Table.find_eq_some_iff.mp hl).2
  · have := (Table.find_eq_some_iff.mp hc).2
    simp only [LimitsRow.key, toLex_inj, Prod.mk.injEq] at this ⊢
    exact ⟨trivial, this.2⟩

theorem setAccountLimits_eq_ok {r n c : I64} {dec : Bool}
    (h : setAccountLimits a r n c db = .ok dec db') :
    ∃ l db1, findOrCreatePendingLimits a db = .ok l db1 ∧
      db' = { db1 with limits := (db1.limits.modify (toLex (true, a))
        fun p => { p with ramBytes := r, netWeight := n, cpuWeight := c }) } ∧
      dec = (decide (0 ≤ r.val) && decide (l.ramBytes.val < 0 ∨ r.val < l.ramBytes.val)) := by
  obtain ⟨l, db1, h1, h2⟩ := bind_eq_ok.mp h
  obtain ⟨_, _, h3, h4⟩ := bind_eq_ok.mp h2
  rw [TableRef.modifyRow_apply] at h3
  cases h3; cases h4
  exact ⟨l, db1, h1, by rw [findOrCreatePendingLimits_key h1]; rfl, rfl⟩

/-- `process_account_limit_updates` with its loop read as the fold. -/
theorem processAccountLimitUpdates_eq_fold (db : Db) :
    processAccountLimitUpdates db =
      match db.state with
      | [] => .error Err.unknownKey db
      | state :: rest =>
        match commitAll (pendingRows db.limits) db.limits state with
        | .ok (t, rso) => .ok () { db with limits := t, state := rso :: rest }
        | .error e => .error e db := by
  obtain ⟨limits, usage, gst, activation, state, config⟩ := db
  cases state with
  | nil => rfl
  | cons s rest =>
    rcases h : commitAll (pendingRows limits) limits s with _ | ⟨t, rso⟩ <;>
      simp only [processAccountLimitUpdates, limitUpdatesLoop_eq_commitAll, h]

/-- A rolled-back `process_account_limit_updates` in a run, with its loop read as the fold. -/
theorem Op.apply_processAccountLimitUpdates (d : Decl) (db : Db) :
    Op.apply d .processAccountLimitUpdates db =
      match db.state with
      | [] => db
      | state :: rest =>
        match commitAll (pendingRows db.limits) db.limits state with
        | .ok (t, rso) => { db with limits := t, state := rso :: rest }
        | .error _ => db := by
  obtain ⟨limits, usage, gst, activation, _ | ⟨s, rest⟩, config⟩ := db
  · rfl
  · rcases h : commitAll (pendingRows limits) limits s with _ | ⟨t, rso⟩ <;>
      simp only [Op.apply, Op.exec, processAccountLimitUpdates_eq_fold, h]

theorem processAccountLimitUpdates_eq_ok (h : processAccountLimitUpdates db = .ok () db') :
    ∃ s rest t rso, db.state = s :: rest ∧
      commitAll (pendingRows db.limits) db.limits s = .ok (t, rso) ∧
      db' = { db with limits := t, state := rso :: rest } := by
  unfold processAccountLimitUpdates at h
  split at h
  · cases h
  · rename_i s rest hs
    rw [limitUpdatesLoop_eq_commitAll] at h
    split at h
    · rename_i t rso hc; cases h; exact ⟨s, rest, t, rso, hs, hc, rfl⟩
    · cases h

theorem processAccountLimitUpdates_eq_error {e : Err}
    (h : processAccountLimitUpdates db = .error e db') :
    db' = db ∧ (db.state = [] ∧ e = Err.unknownKey ∨
      ∃ s rest, db.state = s :: rest ∧ commitAll (pendingRows db.limits) db.limits s = .error e) := by
  unfold processAccountLimitUpdates at h
  split at h
  · cases h; exact ⟨rfl, .inl ⟨‹_›, rfl⟩⟩
  · rename_i s rest hs
    rw [limitUpdatesLoop_eq_commitAll] at h
    split at h
    · cases h
    · rename_i hc; cases h; exact ⟨rfl, .inr ⟨s, rest, hs, hc⟩⟩

/-- **The commit is idempotent.**  A successful `process_account_limit_updates` leaves no pending
limits row, so a second call finds nothing to commit: it succeeds and changes nothing. -/
theorem processAccountLimitUpdates_idem (h : processAccountLimitUpdates db = .ok () db') :
    pendingRows db'.limits = [] ∧ processAccountLimitUpdates db' = .ok () db' := by
  obtain ⟨s, rest, t, rso, -, hc, rfl⟩ := processAccountLimitUpdates_eq_ok h
  have hp := (commitAll_ok_inv (fun _ _ => True) (fun _ _ _ _ _ _ _ _ _ _ => trivial) _ _ _ rfl trivial hc).2
  refine ⟨hp, ?_⟩
  unfold processAccountLimitUpdates
  dsimp only
  rw [limitUpdatesLoop_eq_commitAll, hp]
  rfl

theorem processAccountLimitUpdates_idem_sample :
    processAccountLimitUpdates (runOps Decl.sample [.initializeAccount 1, .setAccountLimits 1 100 10 10]
        (Db.init Decl.sample)) =
      .ok () (runOps Decl.sample [.initializeAccount 1, .setAccountLimits 1 100 10 10, .processAccountLimitUpdates]
        (Db.init Decl.sample)) ∧
    pendingRows (runOps Decl.sample [.initializeAccount 1, .setAccountLimits 1 100 10 10,
        .processAccountLimitUpdates] (Db.init Decl.sample)).limits = [] ∧
      processAccountLimitUpdates (runOps Decl.sample [.initializeAccount 1, .setAccountLimits 1 100 10 10,
          .processAccountLimitUpdates] (Db.init Decl.sample)) =
        .ok () (runOps Decl.sample [.initializeAccount 1, .setAccountLimits 1 100 10 10,
          .processAccountLimitUpdates] (Db.init Decl.sample)) :=
  have h : processAccountLimitUpdates (runOps Decl.sample [.initializeAccount 1, .setAccountLimits 1 100 10 10]
      (Db.init Decl.sample)) =
      .ok () (runOps Decl.sample [.initializeAccount 1, .setAccountLimits 1 100 10 10, .processAccountLimitUpdates]
        (Db.init Decl.sample)) := by
    show _ = .ok () (Op.apply Decl.sample .processAccountLimitUpdates
      (runOps Decl.sample [.initializeAccount 1, .setAccountLimits 1 100 10 10] (Db.init Decl.sample)))
    rw [processAccountLimitUpdates_eq_fold, Op.apply_processAccountLimitUpdates]
    rfl
  ⟨h, processAccountLimitUpdates_idem h⟩

end Calls

end Gstio
