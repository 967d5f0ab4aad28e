import Gstio.Elastic

/-!
# Gstio.Store — the chainbase calls the manager makes

A manager call runs in `ChainM = EStateM Err Db`: it returns a value or raises an `Err`, and in both
cases leaves the store as it stood at that point.  Rows written before an exception stay written;
undoing them is the caller's storage transaction (§3, §7).

The keyed tables are reached through a `TableRef` (`findRow`, `getRow`, `createRow`, `modifyRow`,
`removeRow`); the singleton tables through `getState`/`modifyState` and `getConfig`/`modifyConfig`.
Each primitive comes with its equation, and `bind_eq_ok` peels a `do` block apart, so that the
proofs about the manager never unfold the monad.
-/

namespace Gstio

/-- A manager call on the store. -/
abbrev ChainM := EStateM Err Db

/-- chainbase's `get` of a missing row. -/
def Err.unknownKey : Err := ⟨.outOfRange, "unknown key"⟩

/-- chainbase's `create` of a row whose key is taken. -/
def Err.notUnique : Err :=
  ⟨.uniquenessViolation, "could not insert object, most likely a uniqueness constraint was violated"⟩

/-- A throwing helper called from the manager. -/
def fromExcept {α : Type} (x : Except Err α) : ChainM α := fun db =>
  match x with
  | .ok a => .ok a db
  | .error e => .error e db

/-! ### The monad -/

section Monad

variable {α β : Type} {x : ChainM α} {f : α → ChainM β} {s s'' : Db}

theorem bind_eq_ok {b : β} :
    (x >>= f) s = .ok b s'' ↔ ∃ a s', x s = .ok a s' ∧ f a s' = .ok b s'' := by
  show EStateM.bind x f s = _ ↔ _
  unfold EStateM.bind
  cases x s <;> simp [and_assoc]

theorem bind_eq_error {e : Err} :
    (x >>= f) s = .error e s'' ↔
      x s = .error e s'' ∨ ∃ a s', x s = .ok a s' ∧ f a s' = .error e s'' := by
  show EStateM.bind x f s = _ ↔ _
  unfold EStateM.bind
  cases x s <;> simp [and_assoc]

theorem bind_apply_ok {a : α} {s' : Db} (h : x s = .ok a s') : (x >>= f) s = f a s' := by
  show EStateM.bind x f s = _
  unfold EStateM.bind; rw [h]

@[simp] theorem gstAssert_bind_apply (c : Prop) [Decidable c] (k : ErrKind) (m : String)
    (g : Unit → ChainM β) : (gstAssert c k m >>= g) s = if c then g () s else .error ⟨k, m⟩ s := by
  unfold gstAssert; split <;> rfl

@[simp] theorem pure_apply (a : α) : (pure a : ChainM α) s = .ok a s := rfl

@[simp] theorem gstAssert_apply (c : Prop) [Decidable c] (k : ErrKind) (m : String) :
    (gstAssert c k m : ChainM Unit) s = if c then .ok () s else .error ⟨k, m⟩ s := by
  unfold gstAssert; split <;> rfl

@[simp] theorem fromExcept_ok (a : α) : fromExcept (.ok a) s = .ok a s := rfl

@[simp] theorem fromExcept_error (e : Err) : (fromExcept (.error e) : ChainM α) s = .error e s :=
  rfl

@[simp] theorem gstAssert_except (c : Prop) [Decidable c] (k : ErrKind) (m : String) :
    (gstAssert c k m : Except Err Unit) = if c then .ok () else .error ⟨k, m⟩ := by
  unfold gstAssert; split <;> rfl

theorem except_bind_eq_ok {y : Except Err α} {g : α → Except Err β} {b : β} :
    y >>= g = .ok b ↔ ∃ a, y = .ok a ∧ g a = .ok b := by
  cases y <;> simp [bind, Except.bind]

theorem except_bind_eq_error {y : Except Err α} {g : α → Except Err β} {e : Err} :
    y >>= g = .error e ↔ y = .error e ∨ ∃ a, y = .ok a ∧ g a = .error e := by
  cases y <;> simp [bind, Except.bind]

end Monad

/-! ### Keyed tables -/

/-- One keyed table of the store: where it is read and how it is written back. -/
structure TableRef {α κ : Type} [LinearOrder κ] (key : α → κ) where
  read : Db → Table key
  write : Db → Table key → Db

/-- `resource_limits_index`. -/
def limitsRef : TableRef LimitsRow.key := ⟨Db.limits, fun db t => { db with limits := t }⟩

/-- `resource_usage_index`. -/
def usageRef : TableRef UsageRow.owner := ⟨Db.usage, fun db t => { db with usage := t }⟩

/-- `resource_gst_index`. -/
def gstRef : TableRef GstRow.key := ⟨Db.gst, fun db t => { db with gst := t }⟩

/-- `resource_activation_gst_index`. -/
def activationRef : TableRef ActivationRow.key :=
  ⟨Db.activation, fun db t => { db with activation := t }⟩

@[simp] theorem limitsRef_read (db : Db) : limitsRef.read db = db.limits := rfl
@[simp] theorem usageRef_read (db : Db) : usageRef.read db = db.usage := rfl
@[simp] theorem gstRef_read (db : Db) : gstRef.read db = db.gst := rfl
@[simp] theorem activationRef_read (db : Db) : activationRef.read db = db.activation := rfl
@[simp] theorem limitsRef_write (db : Db) (t : Table LimitsRow.key) :
    limitsRef.write db t = { db with limits := t } := rfl
@[simp] theorem usageRef_write (db : Db) (t : Table UsageRow.owner) :
    usageRef.write db t = { db with usage := t } := rfl
@[simp] theorem gstRef_write (db : Db) (t : Table GstRow.key) :
    gstRef.write db t = { db with gst := t } := rfl
@[simp] theorem activationRef_write (db : Db) (t : Table ActivationRow.key) :
    activationRef.write db t = { db with activation := t } := rfl

namespace TableRef

variable {α κ : Type} [LinearOrder κ] {key : α → κ} (T : TableRef key)

/-- `_db.find<T, by_owner>(k)`. -/
def findRow (k : κ) : ChainM (Option α) := fun db => .ok ((T.read db).find k) db

/-- `_db.get<T, by_owner>(k)`: throws when the row is missing. -/
def getRow (k : κ) : ChainM α := fun db =>
  match (T.read db).find k with
  | some r => .ok r db
  | none => .error Err.unknownKey db

/-- `_db.create<T>(...)`: throws when the key is taken. -/
def createRow (r : α) : ChainM Unit := fun db =>
  match (T.read db).create r with
  | some t => .ok () (T.write db t)
  | none => .error Err.notUnique db

/-- `_db.modify(row, f)` of the row with key `k`. -/
def modifyRow (k : κ) (f : α → α) (hf : ∀ x, key (f x) = key x := by intro; rfl) : ChainM Unit :=
  fun db => .ok () (T.write db ((T.read db).modify k f hf))

/-- `remove(row)` of the row with key `k`. -/
def removeRow (k : κ) : ChainM Unit := fun db => .ok () (T.write db ((T.read db).remove k))

@[simp] theorem findRow_apply (k : κ) (db : Db) : T.findRow k db = .ok ((T.read db).find k) db :=
  rfl

theorem getRow_eq_ok {k : κ} {db db' : Db} {r : α} :
    T.getRow k db = .ok r db' ↔ (T.read db).find k = some r ∧ db' = db := by
  unfold getRow; cases h : (T.read db).find k <;> simp [eq_comm]

theorem createRow_eq_ok {r : α} {db db' : Db} :
    T.createRow r db = .ok () db' ↔ ∃ t, (T.read db).create r = some t ∧ db' = T.write db t := by
  unfold createRow; cases h : (T.read db).create r <;> simp [eq_comm]

@[simp] theorem modifyRow_apply (k : κ) (f : α → α) (hf : ∀ x, key (f x) = key x) (db : Db) :
    T.modifyRow k f hf db = .ok () (T.write db ((T.read db).modify k f hf)) := rfl

@[simp] theorem removeRow_apply (k : κ) (db : Db) :
    T.removeRow k db = .ok () (T.write db ((T.read db).remove k)) := rfl

end TableRef

/-! ### Singleton tables -/

/-- `_db.get<resource_limits_state_object>()`. -/
def getState : ChainM StateRow := fun db =>
  match db.state with
  | s :: _ => .ok s db
  | [] => .error Err.unknownKey db

/-- `_db.modify(state, f)`. -/
def modifyState (f : StateRow → StateRow) : ChainM Unit := fun db =>
  .ok () { db with state := db.state.modifyHead f }

/-- `_db.get<resource_limits_config_object>()`. -/
def getConfig : ChainM ConfigRow := fun db =>
  match db.config with
  | c :: _ => .ok c db
  | [] => .error Err.unknownKey db

/-- `_db.modify(config, f)`. -/
def modifyConfig (f : ConfigRow → ConfigRow) : ChainM Unit := fun db =>
  .ok () { db with config := db.config.modifyHead f }

@[simp] theorem modifyState_apply (f : StateRow → StateRow) (db : Db) :
    modifyState f db = .ok () { db with state := db.state.modifyHead f } := rfl

@[simp] theorem modifyConfig_apply (f : ConfigRow → ConfigRow) (db : Db) :
    modifyConfig f db = .ok () { db with config := db.config.modifyHead f } := rfl

/-! ### Observing a call -/

/-- The value a call returns on the store `db`; `none` when it raises. -/
def ChainM.value {α : Type} (x : ChainM α) (db : Db) : Option α :=
  match x db with
  | .ok a _ => some a
  | .error _ _ => none

/-- The exception a call raises on the store `db`; `none` when it returns. -/
def ChainM.exception {α : Type} (x : ChainM α) (db : Db) : Option Err :=
  match x db with
  | .ok _ _ => none
  | .error e _ => some e

section Observe

variable {α β : Type} {x : ChainM α} {f : α → ChainM β} {s s' : Db}

theorem ChainM.exception_eq_none : ChainM.exception x s = none ↔ ∃ a s', x s = .ok a s' := by
  unfold ChainM.exception; split <;> simp [*]

@[simp] theorem ChainM.exception_pure (a : α) : ChainM.exception (pure a : ChainM α) s = none := rfl

@[simp] theorem ChainM.exception_gstAssert (c : Prop) [Decidable c] (k : ErrKind) (m : String) :
    ChainM.exception (gstAssert c k m : ChainM Unit) s = none ↔ c := by
  rw [ChainM.exception, gstAssert_apply]; by_cases hc : c <;> simp [hc]

theorem ChainM.exception_bind_ok {a : α} (h : x s = .ok a s') :
    ChainM.exception (x >>= f) s = ChainM.exception (f a) s' := by
  rw [ChainM.exception, ChainM.exception, bind_apply_ok h]

theorem ChainM.exception_bind_error {e : Err} (h : x s = .error e s') :
    ChainM.exception (x >>= f) s = some e := by
  show (match EStateM.bind x f s with | .ok _ _ => none | .error e _ => some e) = _
  unfold EStateM.bind; rw [h]

/-- A check the code makes only when `c` holds, followed by the rest `g` of the call (the join
point of a `do` block's `if` without `else`). -/
theorem check_then_eq_ok {c P : Prop} [Decidable c] [Decidable P] {k : ErrKind} {m : String}
    {g : Unit → ChainM β} {b : β} :
    (if c then gstAssert P k m >>= g else pure () >>= g) s = .ok b s' ↔ (c → P) ∧ g () s = .ok b s' := by
  by_cases hc : c <;> by_cases hP : P <;> simp [hc, hP, bind_apply_ok (pure_apply (s := s) ())]

theorem ChainM.exception_check_then {c P : Prop} [Decidable c] [Decidable P] {k : ErrKind} {m : String}
    {g : Unit → ChainM Unit} :
    ChainM.exception (if c then gstAssert P k m >>= g else pure () >>= g) s = none ↔
      (c → P) ∧ ChainM.exception (g ()) s = none := by
  simp only [ChainM.exception_eq_none, check_then_eq_ok, exists_and_left]

end Observe

theorem getState_eq_ok {db db' : Db} {s : StateRow} :
    getState db = .ok s db' ↔ db.state.head? = some s ∧ db' = db := by
  unfold getState; cases db.state <;> simp [eq_comm]

theorem getConfig_eq_ok {db db' : Db} {c : ConfigRow} :
    getConfig db = .ok c db' ↔ db.config.head? = some c ∧ db' = db := by
  unfold getConfig; cases db.config <;> simp [eq_comm]

end Gstio
