import Gstio.Block

/-!
# Gstio.Snapshot — a snapshot restores the store it was taken from

`add_to_snapshot` writes one section per table of `resource_index_set`, in its order, each with
the rows `walk` visits; `read_from_snapshot` reads the sections back in the same order, creating
one row per `read_row` while the section has more.  The snapshot writer and reader are not among
the sources: the snapshot is modelled from the spec (§6.3) as the six sections' row lists, and
`walk` visits a table in the order of its rows.

* `readRows_createRow` — reading a section sorted by the table's index onto rows that all sort
  before it appends it, one `create` per row;
* `snapshot_roundtrip` — restoring into the empty store gives back the store, so a second
  snapshot writes the same sections.
-/

namespace Gstio

/-- Modelled from the spec: a snapshot holds one section per table, in the order of
`resource_index_set`, each the table's rows in walking order (§6.3). -/
structure Snapshot where
  limits : List LimitsRow
  usage : List UsageRow
  gst : List GstRow
  activation : List ActivationRow
  state : List StateRow
  config : List ConfigRow
deriving DecidableEq

/-- `add_to_snapshot`: each table's section, with the rows `walk` visits. -/
def addToSnapshot (db : Db) : Snapshot :=
  ⟨db.limits.rows, db.usage.rows, db.gst.rows, db.activation.rows, db.state, db.config⟩

/-- The `while (more)` loop of `read_from_snapshot` on one section: each iteration creates the row
`read_row` fills, and `read_row` reports whether rows remain. -/
def readRows {α : Type} (create : α → ChainM Unit) : List α → ChainM Unit
  | [] => pure ()
  | r :: rest => do
    create r
    readRows create rest

/-- `_db.create<resource_limits_state_object>` of a row read from a snapshot. -/
def createStateRow (r : StateRow) : ChainM Unit := fun db => .ok () { db with state := db.state ++ [r] }

/-- `_db.create<resource_limits_config_object>` of a row read from a snapshot. -/
def createConfigRow (r : ConfigRow) : ChainM Unit :=
  fun db => .ok () { db with config := db.config ++ [r] }

/-- `read_from_snapshot`: the six sections, in the order they were written. -/
def readFromSnapshot (snapshot : Snapshot) : ChainM Unit := do
  readRows limitsRef.createRow snapshot.limits
  readRows usageRef.createRow snapshot.usage
  readRows gstRef.createRow snapshot.gst
  readRows activationRef.createRow snapshot.activation
  readRows createStateRow snapshot.state
  readRows createConfigRow snapshot.config

/-! ### Reading one section -/

section Section

variable {α κ : Type} [LinearOrder κ] {key : α → κ} (T : TableRef key)
  (hwr : ∀ db, T.write db (T.read db) = db) (hrw : ∀ db t, T.read (T.write db t) = t)
  (hww : ∀ db t t', T.write (T.write db t) t' = T.write db t')
include hwr hrw hww

/-- **Reading a section.**  Rows sorted by the index, all after the rows already there, are
created one by one and end up appended, in order. -/
theorem readRows_createRow : ∀ (xs : List α) (db : Db)
    (hs : ((T.read db).rows ++ xs).Pairwise (fun a b => key a < key b)),
    readRows T.createRow xs db = .ok () (T.write db ⟨(T.read db).rows ++ xs, hs⟩)
  | [], db, _ => by
    rw [readRows, pure_apply]
    congr
    conv_lhs => rw [← hwr db]
    congr 1
    exact Table.ext (List.append_nil _).symm
  | r :: rest, db, hs => by
    have hlt : ∀ y ∈ (T.read db).rows, key y < key r := fun y hy =>
      (List.pairwise_append.mp hs).2.2 y hy r (List.mem_cons_self _ _)
    obtain ⟨t1, ht1⟩ := Option.isSome_iff_exists.mp
      (Table.create_isSome (Table.find_eq_none_iff.mpr fun y hy => (hlt y hy).ne))
    have hrows : t1.rows = (T.read db).rows ++ [r] := by
      rw [Table.create_eq_some ht1, Table.insertRow_of_lt hlt]
    have hs1 : ((T.read (T.write db t1)).rows ++ rest).Pairwise (fun a b => key a < key b) := by
      rw [hrw, hrows, List.append_assoc]; exact hs
    rw [readRows, bind_apply_ok (T.createRow_eq_ok.mpr ⟨t1, ht1, rfl⟩),
      readRows_createRow rest (T.write db t1) hs1, hww]
    congr 2
    exact Table.ext (by simp only [hrw, hrows, List.append_assoc, List.singleton_append])

theorem readRows_createRow_empty (t : Table key) (db : Db) (he : T.read db = Table.empty) :
    readRows T.createRow t.rows db = .ok () (T.write db t) := by
  rw [readRows_createRow T hwr hrw hww t.rows db (by rw [he]; exact t.sorted)]
  congr 2
  exact Table.ext (show (T.read db).rows ++ t.rows = t.rows by rw [he]; rfl)

end Section

theorem readRows_createStateRow : ∀ (xs : List StateRow) (db : Db),
    readRows createStateRow xs db = .ok () { db with state := db.state ++ xs }
  | [], db => by rw [readRows, pure_apply, List.append_nil]
  | r :: rest, db => by
    rw [readRows, bind_apply_ok (show createStateRow r db = .ok () { db with state := db.state ++ [r] } from rfl),
      readRows_createStateRow rest, List.append_assoc, List.singleton_append]

theorem readRows_createConfigRow : ∀ (xs : List ConfigRow) (db : Db),
    readRows createConfigRow xs db = .ok () { db with config := db.config ++ xs }
  | [], db => by rw [readRows, pure_apply, List.append_nil]
  | r :: rest, db => by
    rw [readRows,
      bind_apply_ok (show createConfigRow r db = .ok () { db with config := db.config ++ [r] } from rfl),
      readRows_createConfigRow rest, List.append_assoc, List.singleton_append]

/-- **Snapshot round trip.**  Reading the snapshot of any store into the empty store restores
that store, every table with exactly its rows in their order; so a snapshot of the restored store
writes the same sections. -/
theorem snapshot_roundtrip (db : Db) :
    readFromSnapshot (addToSnapshot db) Db.empty = .ok () db ∧
      ∀ db', readFromSnapshot (addToSnapshot db) Db.empty = .ok () db' → addToSnapshot db' = addToSnapshot db := by
  have hrun : readFromSnapshot (addToSnapshot db) Db.empty = .ok () db := by
    refine bind_eq_ok.mpr ⟨(), _, readRows_createRow_empty limitsRef (fun _ => rfl) (fun _ _ => rfl)
      (fun _ _ _ => rfl) _ _ rfl, ?_⟩
    refine bind_eq_ok.mpr ⟨(), _, readRows_createRow_empty usageRef (fun _ => rfl) (fun _ _ => rfl)
      (fun _ _ _ => rfl) _ _ rfl, ?_⟩
    refine bind_eq_ok.mpr ⟨(), _, readRows_createRow_empty gstRef (fun _ => rfl) (fun _ _ => rfl)
      (fun _ _ _ => rfl) _ _ rfl, ?_⟩
    refine bind_eq_ok.mpr ⟨(), _, readRows_createRow_empty activationRef (fun _ => rfl) (fun _ _ => rfl)
      (fun _ _ _ => rfl) _ _ rfl, ?_⟩
    refine bind_eq_ok.mpr ⟨(), _, readRows_createStateRow _ _, ?_⟩
    exact readRows_createConfigRow _ _
  exact ⟨hrun, fun db' h => by rw [hrun] at h; cases h; rfl⟩

end Gstio
