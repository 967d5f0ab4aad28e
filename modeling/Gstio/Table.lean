import Mathlib.Order.Basic
import Mathlib.Data.List.Basic
import Mathlib.Algebra.BigOperators.Group.List
import Mathlib.Algebra.Ring.Int.Defs
import Mathlib.Data.List.Sort

/-!
# Gstio.Table — a chainbase table seen through its unique ordered index

The manager reaches every keyed table through one ordered unique index (`by_owner`, keyed by
`(pending, owner)` or by `owner`).  A `Table key` is the list of its rows in that index's order:
strictly increasing in `key`, which also makes keys unique, so a table that breaks the unique
index cannot be built.  The store operations the manager uses are `find`, `create` (which throws
on a duplicate key), `modify` (which never changes a key here), `remove` and `lowerBound`.
-/

namespace Gstio

variable {α κ : Type} [LinearOrder κ]

/-- A table: its rows in the order of the unique index `key`. -/
structure Table (key : α → κ) where
  rows : List α
  sorted : rows.Pairwise (fun a b => key a < key b)

namespace Table

variable {key : α → κ}

/-- The empty table. -/
def empty : Table key := ⟨[], .nil⟩

/-- `find`: the row with key `k`, if any. -/
def find (t : Table key) (k : κ) : Option α := t.rows.find? (fun r => key r = k)

/-- The rows with `r` put at the position of its key. -/
def insertRow (key : α → κ) (r : α) : List α → List α
  | [] => [r]
  | x :: xs => if key r < key x then r :: x :: xs else x :: insertRow key r xs

theorem mem_insertRow {r y : α} {xs : List α} (h : y ∈ insertRow key r xs) : y = r ∨ y ∈ xs := by
  induction xs with
  | nil => simpa [insertRow] using h
  | cons x xs ih =>
    unfold insertRow at h
    split at h
    · simpa using h
    · rcases List.mem_cons.mp h with rfl | h
      · exact .inr (List.mem_cons_self _ _)
      · exact (ih h).imp_right (List.mem_cons_of_mem x)

theorem insertRow_sorted {r : α} {xs : List α} (hs : xs.Pairwise (fun a b => key a < key b))
    (hr : ∀ x ∈ xs, key x ≠ key r) : (insertRow key r xs).Pairwise (fun a b => key a < key b) := by
  induction xs with
  | nil => simp [insertRow]
  | cons x xs ih =>
    rw [List.pairwise_cons] at hs
    unfold insertRow
    split
    · rename_i hlt
      refine List.Pairwise.cons (fun y hy => ?_) (hs.2.cons hs.1)
      rcases List.mem_cons.mp hy with rfl | hy
      · exact hlt
      · exact hlt.trans (hs.1 y hy)
    · rename_i hge
      have hxr : key x < key r :=
        lt_of_le_of_ne (not_lt.mp hge) (hr x (List.mem_cons_self _ _))
      refine List.Pairwise.cons (fun y hy => ?_) (ih hs.2 fun y hy => hr y (List.mem_cons_of_mem _ hy))
      rcases mem_insertRow hy with rfl | hy
      · exact hxr
      · exact hs.1 y hy

/-- `create`: `none` when a row with the same key exists (the unique index throws). -/
def create (t : Table key) (r : α) : Option (Table key) :=
  if h : t.rows.any (fun x => key x = key r) then none
  else some ⟨insertRow key r t.rows, insertRow_sorted t.sorted (by simpa using h)⟩

/-- `modify`: apply `f`, which keeps keys, to the row with key `k`. -/
def modify (t : Table key) (k : κ) (f : α → α) (hf : ∀ x, key (f x) = key x := by intro; rfl) :
    Table key :=
  ⟨t.rows.map (fun x => if key x = k then f x else x), by
    rw [List.pairwise_map]
    refine t.sorted.imp fun {a b} h => ?_
    split <;> split <;> simpa [hf] using h⟩

/-- `remove`: drop the row with key `k`. -/
def remove (t : Table key) (k : κ) : Table key :=
  ⟨t.rows.filter (fun x => key x ≠ k), t.sorted.sublist (List.filter_sublist _)⟩

/-- `lower_bound(k)`: the first row whose key is not below `k`. -/
def lowerBound (t : Table key) (k : κ) : Option α := t.rows.find? (fun r => k ≤ key r)

/-! ### Lookup after each store operation -/

theorem eq_of_key_eq_of_sorted {xs : List α} (hs : xs.Pairwise (fun a b => key a < key b))
    {x y : α} (hx : x ∈ xs) (hy : y ∈ xs) (h : key x = key y) : x = y := by
  induction xs with
  | nil => simp at hx
  | cons z zs ih =>
    rw [List.pairwise_cons] at hs
    rcases List.mem_cons.mp hx with rfl | hx'
    · rcases List.mem_cons.mp hy with rfl | hy'
      · rfl
      · exact absurd h (hs.1 y hy').ne
    · rcases List.mem_cons.mp hy with rfl | hy'
      · exact absurd h.symm (hs.1 x hx').ne
      · exact ih hs.2 hx' hy'

theorem eq_of_key_eq {t : Table key} {x y : α} (hx : x ∈ t.rows) (hy : y ∈ t.rows)
    (h : key x = key y) : x = y :=
  eq_of_key_eq_of_sorted t.sorted hx hy h

theorem find_eq_some_iff {t : Table key} {k : κ} {x : α} :
    t.find k = some x ↔ x ∈ t.rows ∧ key x = k := by
  refine ⟨fun h => ⟨List.mem_of_find?_eq_some h, by simpa using List.find?_some h⟩, ?_⟩
  rintro ⟨hx, rfl⟩
  cases h : t.find (key x) with
  | none => exact absurd rfl ((by simpa [find, List.find?_eq_none] using h : ∀ z ∈ t.rows, key z ≠ key x) x hx)
  | some y =>
    have hy : y ∈ t.rows ∧ key y = key x :=
      ⟨List.mem_of_find?_eq_some h, by simpa using List.find?_some h⟩
    rw [eq_of_key_eq hy.1 hx hy.2]

theorem find_of_mem {t : Table key} {x : α} (hx : x ∈ t.rows) : t.find (key x) = some x :=
  find_eq_some_iff.mpr ⟨hx, rfl⟩

theorem find_eq_none_iff {t : Table key} {k : κ} : t.find k = none ↔ ∀ x ∈ t.rows, key x ≠ k := by
  simp [find, List.find?_eq_none]

theorem create_eq_none_iff {t : Table key} {r : α} : t.create r = none ↔ (t.find (key r)).isSome := by
  cases h : t.find (key r) with
  | none => simp_all [create, find_eq_none_iff]
  | some y =>
    have := find_eq_some_iff.mp h
    simp only [create, Option.isSome_some, iff_true, dite_eq_left_iff, reduceCtorEq, imp_false,
      not_not, List.any_eq_true, decide_eq_true_eq]
    exact ⟨y, this⟩

theorem create_eq_some {t t' : Table key} {r : α} (h : t.create r = some t') :
    t'.rows = insertRow key r t.rows := by
  unfold create at h; split at h <;> cases h; rfl

theorem find_of_create {t t' : Table key} {r : α} (h : t.create r = some t') : t.find (key r) = none := by
  cases hf : t.find (key r) with
  | none => rfl
  | some _ => rw [create_eq_none_iff.mpr (by simp [hf])] at h; cases h

theorem create_isSome {t : Table key} {r : α} (h : t.find (key r) = none) : (t.create r).isSome := by
  cases hc : t.create r with
  | none => rw [create_eq_none_iff, h] at hc; cases hc
  | some _ => rfl

theorem mem_insertRow_iff {r y : α} {xs : List α} : y ∈ insertRow key r xs ↔ y = r ∨ y ∈ xs := by
  refine ⟨mem_insertRow, ?_⟩
  induction xs with
  | nil => simp [insertRow]
  | cons x xs ih =>
    unfold insertRow
    split
    · simp
    · rintro (rfl | h)
      · exact List.mem_cons_of_mem _ (ih (.inl rfl))
      · rcases List.mem_cons.mp h with rfl | h
        · exact List.mem_cons_self _ _
        · exact List.mem_cons_of_mem _ (ih (.inr h))

theorem find_create {t t' : Table key} {r : α} (h : t.create r = some t') (k : κ) :
    t'.find k = if key r = k then some r else t.find k := by
  have hrows := create_eq_some h
  split
  · rename_i hk
    exact find_eq_some_iff.mpr ⟨by rw [hrows]; exact mem_insertRow_iff.mpr (.inl rfl), hk⟩
  · rename_i hk
    cases hf : t.find k with
    | none =>
      rw [find_eq_none_iff] at hf ⊢
      intro x hx
      rw [hrows] at hx
      rcases mem_insertRow hx with rfl | hx
      · exact hk
      · exact hf x hx
    | some y =>
      have := find_eq_some_iff.mp hf
      exact find_eq_some_iff.mpr ⟨by rw [hrows]; exact mem_insertRow_iff.mpr (.inr this.1), this.2⟩

theorem find_modify (t : Table key) (k k' : κ) (f : α → α) (hf : ∀ x, key (f x) = key x) :
    (t.modify k f hf).find k' = if k = k' then (t.find k).map f else t.find k' := by
  split
  · subst k'
    cases h : t.find k with
    | none =>
      rw [Option.map_none', find_eq_none_iff]
      rw [find_eq_none_iff] at h
      simp only [modify, List.mem_map]
      rintro _ ⟨x, hx, rfl⟩
      split <;> simp_all
    | some y =>
      have hy := find_eq_some_iff.mp h
      exact find_eq_some_iff.mpr ⟨List.mem_map.mpr ⟨y, hy.1, by simp [hy.2]⟩, by simp [hf, hy.2]⟩
  · rename_i hk
    cases h : t.find k' with
    | none =>
      rw [find_eq_none_iff] at h ⊢
      simp only [modify, List.mem_map]
      rintro _ ⟨x, hx, rfl⟩
      split <;> simp_all
    | some y =>
      have hy := find_eq_some_iff.mp h
      have hyk : key y ≠ k := fun e => hk (e ▸ hy.2)
      exact find_eq_some_iff.mpr ⟨List.mem_map.mpr ⟨y, hy.1, by simp [hyk]⟩, hy.2⟩

theorem find_remove (t : Table key) (k k' : κ) :
    (t.remove k).find k' = if k = k' then none else t.find k' := by
  split
  · subst k'; simp [find_eq_none_iff, remove]
  · rename_i hk
    cases h : t.find k' with
    | none => rw [find_eq_none_iff] at h ⊢; intro x hx; exact h x (List.mem_of_mem_filter hx)
    | some y =>
      have hy := find_eq_some_iff.mp h
      exact find_eq_some_iff.mpr ⟨List.mem_filter.mpr ⟨hy.1, by simp [hy.2, Ne.symm hk]⟩, hy.2⟩

theorem mem_modify_of_ne {t : Table key} {k : κ} {f : α → α} {hf : ∀ x, key (f x) = key x}
    {x : α} (hx : x ∈ t.rows) (hk : key x ≠ k) : x ∈ (t.modify k f hf).rows :=
  List.mem_map.mpr ⟨x, hx, by simp [hk]⟩

theorem mem_of_lowerBound {t : Table key} {k : κ} {x : α} (h : t.lowerBound k = some x) :
    x ∈ t.rows :=
  List.mem_of_find?_eq_some h

theorem length_modify (t : Table key) (k : κ) (f : α → α) (hf : ∀ x, key (f x) = key x) :
    (t.modify k f hf).rows.length = t.rows.length := by
  simp [modify]

theorem length_remove_lt {t : Table key} {x : α} (hx : x ∈ t.rows) :
    (t.remove (key x)).rows.length < t.rows.length := by
  simp only [remove]
  refine List.length_filter_lt_length_iff_exists.mpr ⟨x, hx, by simp⟩

theorem ext {t t' : Table key} (h : t.rows = t'.rows) : t = t' := by
  cases t; cases t'; cases h; rfl

/-- A property of every row survives a `create` of a row that has it. -/
theorem forall_mem_create {P : α → Prop} {t t' : Table key} {r : α} (h : t.create r = some t')
    (ht : ∀ x ∈ t.rows, P x) (hr : P r) : ∀ x ∈ t'.rows, P x := fun x hx => by
  rw [create_eq_some h] at hx
  rcases mem_insertRow hx with rfl | hx
  exacts [hr, ht x hx]

/-- A property of every row survives a `modify` that keeps it on the rows it changes. -/
theorem forall_mem_modify {P : α → Prop} {t : Table key} {k : κ} {f : α → α} (hf : ∀ x, key (f x) = key x)
    (ht : ∀ x ∈ t.rows, P x) (hk : ∀ x ∈ t.rows, key x = k → P (f x)) : ∀ x ∈ (t.modify k f hf).rows, P x := by
  intro x hx
  obtain ⟨y, hy, rfl⟩ := List.mem_map.mp hx
  split
  · exact hk y hy ‹_›
  · exact ht y hy

theorem mem_iff_find {t : Table key} {x : α} : x ∈ t.rows ↔ t.find (key x) = some x := by
  simp [find_eq_some_iff]

/-- A table is determined by what `find` returns at every key: its rows are the rows found, in
key order. -/
theorem ext_find {t t' : Table key} (h : ∀ k, t.find k = t'.find k) : t = t' := by
  have nodup : ∀ t : Table key, t.rows.Nodup := fun t => t.sorted.imp fun hlt => by
    rintro rfl; exact lt_irrefl _ hlt
  have : IsAntisymm α (fun a b => key a < key b) := ⟨fun _ _ h1 h2 => absurd (h1.trans h2) (lt_irrefl _)⟩
  refine ext (List.eq_of_perm_of_sorted ((List.perm_ext_iff_of_nodup (nodup t) (nodup t')).mpr fun x => ?_)
    t.sorted t'.sorted)
  rw [mem_iff_find, mem_iff_find, h]

/-- A row whose key follows every key of the rows goes last. -/
theorem insertRow_of_lt {r : α} : ∀ {ys : List α}, (∀ y ∈ ys, key y < key r) → insertRow key r ys = ys ++ [r]
  | [], _ => rfl
  | y :: ys, h => by
    simp only [List.mem_cons, forall_eq_or_imp] at h
    rw [insertRow, if_neg (lt_asymm h.1), insertRow_of_lt h.2, List.cons_append]

/-! ### Sums of a row measure over a table

The totals the manager keeps are sums over rows; these say how each store operation moves such a
sum. -/

section Sum

variable (g : α → Int)

theorem insertRow_perm (r : α) (xs : List α) : (insertRow key r xs).Perm (r :: xs) := by
  induction xs with
  | nil => rfl
  | cons y ys ih =>
    unfold insertRow
    split
    · rfl
    · exact (ih.cons y).trans (.swap r y ys)

theorem sum_map_create {t t' : Table key} {r : α} (h : t.create r = some t') :
    (t'.rows.map g).sum = g r + (t.rows.map g).sum := by
  rw [create_eq_some h, ((insertRow_perm r t.rows).map g).sum_eq, List.map_cons, List.sum_cons]

/-- `modify` moves a sum only at the row it rewrites. -/
theorem sum_map_modify_rows {xs : List α} (hs : xs.Pairwise (fun a b => key a < key b)) {x : α}
    (hx : x ∈ xs) (f : α → α) :
    ((xs.map fun y => if key y = key x then f y else y).map g).sum = (xs.map g).sum - g x + g (f x) := by
  induction xs with
  | nil => cases hx
  | cons y ys ih =>
    rw [List.pairwise_cons] at hs
    rcases List.mem_cons.mp hx with rfl | hx
    · have hys : ys.map (fun y => if key y = key x then f y else y) = ys := by
        conv_rhs => rw [← List.map_id ys]
        exact List.map_congr_left fun z hz => if_neg (hs.1 z hz).ne'
      simp only [List.map_cons, List.sum_cons, if_pos, hys]
      omega
    · have hne : key y ≠ key x := (hs.1 x hx).ne
      simp only [List.map_cons, List.sum_cons, hne, ite_false, ih hs.2 hx]
      omega

theorem sum_map_modify {t : Table key} {k : κ} {x : α} (f : α → α) (hf : ∀ x, key (f x) = key x)
    (hx : t.find k = some x) :
    ((t.modify k f hf).rows.map g).sum = (t.rows.map g).sum - g x + g (f x) := by
  obtain ⟨hmem, rfl⟩ := find_eq_some_iff.mp hx
  exact sum_map_modify_rows g t.sorted hmem f

/-- A `modify` that keeps the measure of the rows it can rewrite keeps the sum. -/
theorem sum_map_modify_of_forall (t : Table key) (k : κ) (f : α → α) (hf : ∀ x, key (f x) = key x)
    (h : ∀ x ∈ t.rows, key x = k → g (f x) = g x) :
    ((t.modify k f hf).rows.map g).sum = (t.rows.map g).sum := by
  simp only [modify, List.map_map]
  congr 1
  exact List.map_congr_left fun x hx => by
    simp only [Function.comp_apply]
    split
    · exact h x hx ‹_›
    · rfl

/-- A `remove` of rows of measure zero keeps the sum. -/
theorem sum_map_remove_of_forall (t : Table key) (k : κ) (h : ∀ x ∈ t.rows, key x = k → g x = 0) :
    ((t.remove k).rows.map g).sum = (t.rows.map g).sum := by
  obtain ⟨xs, hs⟩ := t
  simp only [remove] at h ⊢
  clear hs
  induction xs with
  | nil => rfl
  | cons y ys ih =>
    simp only [List.mem_cons, forall_eq_or_imp] at h
    rw [List.filter_cons]
    split
    · simp only [List.map_cons, List.sum_cons, ih h.2]
    · rename_i hy
      rw [ih h.2, List.map_cons, List.sum_cons, h.1 (by simpa using hy), zero_add]

end Sum

end Table

end Gstio
