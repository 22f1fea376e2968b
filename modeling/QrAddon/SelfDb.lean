import QrAddon.UserDb
import QrAddon.Lib.RowidTable

/-!
# The self database

`SelfDmList.db` is the log: one row per sighting, in the order of insertion, and
a trigger that deletes the oldest row once the table holds more than
`maxRowSelfDb` rows. `fitPose` averages the logged poses of one code.

A `select` without `ORDER BY` may visit the rows in any order. Such an order is
a `ScanOrder`, and what is proved of `fitPose` is proved for all of them.
-/

namespace QrAddon

structure SelfRow where
  dmId : UInt32
  pose : DmPose ℚ
  dmCnt : ℕ
  sloppyCnt : ℕ
  recommend : Bool
  enable : Bool
  haveSloppy : Bool
deriving DecidableEq, Repr

abbrev SelfTable := RowidTable SelfRow

/-- The order in which SQLite visits the rows of a table. -/
structure ScanOrder where
  visit : List SelfRow → List SelfRow
  perm : ∀ l, (visit l).Perm l

/-- The order of the row ids. -/
def ScanOrder.byRowid : ScanOrder := ⟨id, fun _ => .refl _⟩

/-- The rows of each code come in the order of their ids. -/
def ScanOrder.Stable (o : ScanOrder) : Prop :=
  ∀ l id, ((o.visit l).filter fun r => r.dmId = id) = l.filter fun r => r.dmId = id

theorem ScanOrder.byRowid_stable : ScanOrder.byRowid.Stable := fun _ _ => rfl

/-- The record of one call of `fitPose`: the table it ran on, the rows its query
handed to the callback, what it divided their sum by (nothing, if the query
failed) and the pose before and after. -/
structure FitCall where
  table : List SelfRow
  id : UInt32
  threshold : UInt16
  ok : Bool
  rows : List SelfRow
  divisor : Option ℕ
  before : DmPose ℚ
  after : DmPose ℚ
deriving DecidableEq, Repr

namespace SelfDb

/-- The row of `insert into DmList values (...)`. -/
def row [Doubles] (dm : DmInfo ℚ) : SelfRow :=
  ⟨dm.id, dm.pose.printed, dm.cnt.toNat, dm.sloppyCnt.toNat, dm.recommend, dm.enable,
    dm.haveSloppy⟩

/-- `SELECT ROWID FROM DmList ORDER BY ROWID ASC LIMIT 100`. -/
def oldestRowids (t : SelfTable) : List ℕ := t.rowids.take 100

/-- The trigger `keep_rows_size`. A subquery after `=` is a scalar: only its
first row counts. -/
def keepRowsSize (maxRowSelfDb : UInt32) (t : SelfTable) : SelfTable :=
  if maxRowSelfDb.toNat < t.rows.length then
    match (oldestRowids t).head? with
    | some i => t.delete i
    | none => t
  else t

/-- `addContent`. The trigger runs inside the insert. -/
def addContent [Doubles] (ok : Bool) (maxRowSelfDb : UInt32) (t : SelfTable) (dm : DmInfo ℚ) :
    SelfTable :=
  if ok then keepRowsSize maxRowSelfDb (t.insert (row dm)) else t

/-- `fitCallBack` adds the pose columns of a row to the accumulated pose. -/
def fitCallBack [Doubles] (acc : DmPose ℚ) (r : SelfRow) : DmPose ℚ :=
  ⟨Doubles.add acc.x (Doubles.realText r.pose.x), Doubles.add acc.y (Doubles.realText r.pose.y),
    Doubles.add acc.yaw (Doubles.realText r.pose.yaw)⟩

/-- The rows of `select * from DmList where DM_id = id limit threshold`. -/
def fitRows (scan : ScanOrder) (t : SelfTable) (id : UInt32) (threshold : UInt16) : List SelfRow :=
  ((scan.visit t.values).filter fun r => r.dmId = id).take threshold.toNat

def fitPose [Doubles] (ok : Bool) (scan : ScanOrder) (t : SelfTable) (threshold : UInt16)
    (dm : DmInfo ℚ) : DmInfo ℚ × FitCall :=
  let rows := fitRows scan t dm.id threshold
  let sum := rows.foldl fitCallBack 0
  if ok = false then
    (dm, ⟨t.values, dm.id, threshold, ok, rows, none, dm.pose, dm.pose⟩)
  else
    let pose := sum.over threshold.toNat
    ({ dm with pose := pose },
      ⟨t.values, dm.id, threshold, ok, rows, some threshold.toNat, dm.pose, pose⟩)

/-! ## What the statements do -/

/-- The logged rows of one code. -/
def rowsOf (id : UInt32) (l : List SelfRow) : List SelfRow := l.filter fun r => r.dmId = id

theorem values_keepRowsSize (cap : UInt32) (t : SelfTable) :
    (keepRowsSize cap t).values =
      if cap.toNat < t.values.length then t.values.tail else t.values := by
  unfold keepRowsSize
  rw [RowidTable.rows_length]
  split
  · have hhead : (oldestRowids t).head? = t.rowids.head? := by
      simp [oldestRowids, List.head?_take]
    rw [hhead]
    cases h : t.rowids.head? with
    | some i => exact RowidTable.values_delete_head h
    | none =>
      have hnil : t.values = [] := by
        simpa [RowidTable.rowids, RowidTable.values] using h
      simp [hnil]
  · rfl

/-- An insert adds one row at the end; past the cap the oldest row goes. -/
theorem values_addContent [Doubles] (ok : Bool) (cap : UInt32) (t : SelfTable) (dm : DmInfo ℚ) :
    (addContent ok cap t dm).values =
      if ok = false then t.values
      else if cap.toNat ≤ t.values.length then (t.values ++ [row dm]).tail
      else t.values ++ [row dm] := by
  unfold addContent
  cases ok with
  | false => simp
  | true =>
    simp only [if_true, values_keepRowsSize, RowidTable.values_insert, List.length_append,
      List.length_singleton, Nat.lt_succ_iff, Bool.true_eq_false, if_false]

theorem foldl_fitCallBack [Doubles] (acc : DmPose ℚ) (l : List SelfRow) :
    l.foldl fitCallBack acc = (l.map fun r => r.pose.read).foldl DmPose.plus acc := by
  rw [List.foldl_map]
  rfl

/-- The query selects as many rows as there are, up to the limit. -/
theorem length_fitRows (scan : ScanOrder) (t : SelfTable) (id : UInt32) (n : UInt16) :
    (fitRows scan t id n).length = min n.toNat (rowsOf id t.values).length := by
  have hperm := (scan.perm t.values).filter fun r => decide (r.dmId = id)
  rw [fitRows, List.length_take, hperm.length_eq, rowsOf]

/-- A table with exactly `n` rows of the code hands over all of them. -/
theorem fitRows_perm (scan : ScanOrder) {t : SelfTable} {id : UInt32} {n : UInt16}
    (h : (rowsOf id t.values).length = n.toNat) :
    (fitRows scan t id n).Perm (rowsOf id t.values) := by
  have hperm := (scan.perm t.values).filter fun r => decide (r.dmId = id)
  have hlen : ((scan.visit t.values).filter fun r => r.dmId = id).length = n.toNat := by
    rw [hperm.length_eq]
    exact h
  rw [fitRows, ← hlen, List.take_length]
  exact hperm

section

variable [Doubles]

/-- When the query hands over as many rows as the threshold says, `fitPose` stores
their mean as it is computed. -/
theorem fitPose_mean {scan : ScanOrder} {t : SelfTable} {n : UInt16} {dm : DmInfo ℚ}
    (h : (fitRows scan t dm.id n).length = n.toNat) :
    (fitPose true scan t n dm).1.pose =
      DmPose.computedMean ((fitRows scan t dm.id n).map fun r => r.pose.read) := by
  simp only [fitPose, DmPose.computedMean, foldl_fitCallBack, List.length_map, h,
    Bool.true_eq_false, if_false]

/-- What `fitPose` makes of logged poses: the sum of the first `n`, divided by `n`. -/
def fitted (n : UInt16) (poses : List (DmPose ℚ)) : DmPose ℚ :=
  (((poses.take n.toNat).map DmPose.read).foldl DmPose.plus 0).over n.toNat

/-- If the rows of the code are visited in the order of their ids, or are no more than the
threshold and added up in any order, `fitPose` stores what `fitted` makes of their poses. -/
theorem fitPose_fitted {scan : ScanOrder} {t : SelfTable} {n : UInt16} {dm : DmInfo ℚ}
    (h : scan.Stable ∨ Doubles.Unordered ∧ (rowsOf dm.id t.values).length ≤ n.toNat) :
    (fitPose true scan t n dm).1.pose = fitted n ((rowsOf dm.id t.values).map (·.pose)) := by
  have hsum : ((fitRows scan t dm.id n).map fun r => r.pose.read).foldl DmPose.plus 0 =
      ((((rowsOf dm.id t.values).map (·.pose)).take n.toNat).map DmPose.read).foldl
        DmPose.plus 0 := by
    rw [← List.map_take, List.map_map]
    rcases h with hstable | ⟨hadd, hle⟩
    · rw [fitRows, hstable, rowsOf]
      rfl
    · have hperm := (scan.perm t.values).filter fun r => decide (r.dmId = dm.id)
      have hle' : ((scan.visit t.values).filter fun r => r.dmId = dm.id).length ≤ n.toNat := by
        rw [hperm.length_eq]
        exact hle
      rw [fitRows, List.take_of_length_le hle', List.take_of_length_le hle]
      exact DoublesLemmas.foldl_plus_perm hadd (hperm.map _) 0
  simp only [fitPose, foldl_fitCallBack, hsum, fitted, Bool.true_eq_false, if_false]

/-- `fitPose` touches nothing but the pose. -/
theorem fitPose_dm (ok : Bool) (scan : ScanOrder) (t : SelfTable) (n : UInt16) (dm : DmInfo ℚ) :
    (fitPose ok scan t n dm).1 = { dm with pose := (fitPose ok scan t n dm).2.after } := by
  unfold fitPose
  cases ok <;> simp

end

end SelfDb

end QrAddon
