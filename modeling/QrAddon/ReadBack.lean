import QrAddon.UserDb
import QrAddon.Lib.Run

/-!
# What a look-up hands back

`retrieveUsrDb` gets its row through the global `whetherCb` and through a local whose id
is not initialised. Every exit leaves the flag cleared, so that no look-up sees the ones
before it. On its way through the table a pose becomes decimal text, and a counter a
literal of 64 bits that comes back through `atoi`, which keeps 32 of them.

Results:
1. `lookUp_independent`: after any history, a look-up finds the row of its id or leaves
   the `DM` alone.
2. `readsBack_iff`: what `addContent` or `updateDataBase` wrote reads back exactly when
   both counters are below 2^31.
3. `counter_lost`: the count 2^31 comes back as 2^64 - 2^31.
-/

namespace QrAddon

namespace UserDb

/-! ## A history of look-ups -/

section

variable [Doubles]

/-- A call of `retrieveUsrDb`: the table and the `DM` that it meets, and how its statement
ends. -/
structure Call where
  table : UserTable
  lookup : Lookup
  dm : DmInfo ℚ

def Call.retrieve (whetherCb : Bool) (c : Call) : Retrieved :=
  retrieveUsrDb c.table c.lookup whetherCb c.dm

/-- The global `whetherCb` after a history of calls. -/
def whetherCbAfter (history : List Call) : Bool :=
  Run.exec (fun whetherCb c => (c.retrieve whetherCb).whetherCb) false history

/-- The `DM` holds the columns of the row; a pose that survives the text is the stored
one. -/
structure Columns (r : UserRow) (d : DmInfo ℚ) : Prop where
  id : d.id = r.dmId
  pose : d.pose = r.pose.read
  exactPose : r.pose.Decimal → d.pose = r.pose
  cnt : d.cnt.toNat = r.dmCnt
  sloppyCnt : d.sloppyCnt.toNat = r.sloppyCnt
  recommend : d.recommend = r.recommend
  enable : d.enable = r.enable
  haveSloppy : d.haveSloppy = false

namespace ReadBackLemmas

theorem whetherCb_cleared (c : Call) : (c.retrieve false).whetherCb = false := by
  rw [Call.retrieve, retrieveUsrDb_eq]
  split <;> rfl

/-- The flag is down between calls. -/
theorem whetherCbAfter_eq (history : List Call) : whetherCbAfter history = false := by
  apply Run.exec_invariant (P := fun whetherCb => whetherCb = false) rfl
  intro v _ hv
  rw [hv]
  exact whetherCb_cleared v.2

theorem columns_loaded {r : UserRow} (hcnt : r.dmCnt < 2 ^ 31) (hsloppy : r.sloppyCnt < 2 ^ 31) :
    Columns r (loaded r) where
  id := rfl
  pose := rfl
  exactPose h := h.read
  cnt := readCounter_toNat hcnt
  sloppyCnt := readCounter_toNat hsloppy
  recommend := rfl
  enable := rfl
  haveSloppy := rfl

end ReadBackLemmas

open ReadBackLemmas

/-- After any history of look-ups, whatever the uninitialised id holds, and with counters
below 2^31: a look-up of a nonzero id returns true exactly when its statement succeeds
and the table has a row for the id. It then hands back the columns of that row without
`haveSloppy`, and otherwise it leaves the `DM` as it was. The flag is down before and
after it. -/
theorem lookUp_independent (history : List Call) (c : Call) (hid : c.dm.id ≠ 0)
    (hcounters : ∀ r ∈ c.table.rows, r.dmCnt < 2 ^ 31 ∧ r.sloppyCnt < 2 ^ 31) :
    let out := c.retrieve (whetherCbAfter history)
    (out.found = true ↔ c.lookup.rc = .ok ∧ (c.table.find? c.dm.id).isSome) ∧
      (out.found = true → ∃ r, c.table.find? c.dm.id = some r ∧ Columns r out.dm) ∧
      (out.found = false → out.dm = c.dm) ∧
      whetherCbAfter history = false ∧ out.whetherCb = false := by
  have hlooked : (lookedUp c.table c.lookup c.dm.id).isSome ↔
      c.lookup.rc = .ok ∧ (c.table.find? c.dm.id).isSome := by
    simp only [lookedUp, hid, ne_eq, not_false_eq_true, and_true]
    split
    · next h => simp [h]
    · next h => simp [h]
  simp only [whetherCbAfter_eq, Call.retrieve, retrieveUsrDb_eq]
  cases hrow : lookedUp c.table c.lookup c.dm.id with
  | none =>
    rw [hrow] at hlooked
    refine ⟨by simpa using hlooked, ?_, fun _ => rfl, trivial, rfl⟩
    intro h
    cases h
  | some r =>
    rw [hrow] at hlooked
    have hfound := (lookedUp_some hrow).1
    obtain ⟨hcnt, hsloppy⟩ := hcounters r (KeyedTable.find?_eq_some.mp hfound).1
    refine ⟨by simpa using hlooked, fun _ => ⟨r, hfound, columns_loaded hcnt hsloppy⟩, ?_,
      trivial, rfl⟩
    intro h
    cases h

end

open scoped Exact

/-- The code 7, whose id SQLite keeps and whose counts `atoi` reads back. -/
def exTable : UserTable :=
  ⟨[⟨7, ⟨5 / 4, -2, 0⟩, 3, 1, false, true⟩], List.nodup_singleton _⟩

/-- A hit, and a statement that fails after its callback ran. -/
def exHistory : List Call :=
  [⟨exTable, ⟨.ok, 0⟩, { id := 7, pose := 0 }⟩,
    ⟨exTable, ⟨.errorAfterCallback, 9⟩, { id := 7, pose := 0 }⟩]

/-- Behind that failure the code 8 is not found, although the uninitialised id looks like
one. -/
theorem lookUp_exHistory :
    ((Call.mk exTable ⟨.ok, 9⟩ { id := 8, pose := 0 }).retrieve
      (whetherCbAfter exHistory)).found = false := by
  have hcounters : ∀ r ∈ exTable.rows, r.dmCnt < 2 ^ 31 ∧ r.sloppyCnt < 2 ^ 31 := by decide
  have hiff := (lookUp_independent exHistory ⟨exTable, ⟨.ok, 9⟩, { id := 8, pose := 0 }⟩
    (by decide) hcounters).1
  have hnone : ¬ (exTable.find? 8).isSome := by decide
  exact Bool.eq_false_iff.mpr fun h => hnone (hiff.mp h).2

/-! ## Write and read -/

section

variable [Doubles]

/-- The look-up hands back what the `DM` held when it was written. -/
structure ReadsBack (dm : DmInfo ℚ) (out : Retrieved) : Prop where
  found : out.found = true
  id : out.dm.id = dm.id
  pose : out.dm.pose = dm.pose
  cnt : out.dm.cnt = dm.cnt
  sloppyCnt : out.dm.sloppyCnt = dm.sloppyCnt
  recommend : out.dm.recommend = dm.recommend
  enable : out.dm.enable = dm.enable

namespace ReadBackLemmas

omit [Doubles] in
/-- A counter reads back exactly when it fits an `int`. From 2^31 on, what `atoi` keeps is
below 2^31 or at least 2^64 - 2^31, and then the counter itself was below 2^63. -/
theorem readCounter_eq_iff (c : UInt64) : readCounter c.toNat = c ↔ c.toNat < 2 ^ 31 := by
  constructor
  · intro h
    have hrange := readCounter_range c.toNat
    rw [h] at hrange
    omega
  · intro h
    exact UInt64.toNat_inj.mp (readCounter_toNat h)

/-- A look-up of a row with the columns of a `DM`. -/
theorem readsBack_row_iff {dm asked : DmInfo ℚ} (hid : dm.id ≠ 0) (hasked : asked.id = dm.id)
    (hpose : dm.pose.Decimal) {t : UserTable} (ht : t.find? dm.id = some (row dm))
    (garbage : UInt32) :
    ReadsBack dm (retrieveUsrDb t ⟨.ok, garbage⟩ false asked) ↔
      dm.cnt.toNat < 2 ^ 31 ∧ dm.sloppyCnt.toNat < 2 ^ 31 := by
  have hout : retrieveUsrDb t ⟨.ok, garbage⟩ false asked = ⟨true, loaded (row dm), false⟩ := by
    rw [retrieveUsrDb_eq, lookedUp_ok rfl (hasked ▸ hid), hasked, ht]
  have hread : (loaded (row dm)).pose = dm.pose := by
    show dm.pose.printed.read = dm.pose
    rw [hpose.printed, hpose.read]
  rw [hout, ← readCounter_eq_iff dm.cnt, ← readCounter_eq_iff dm.sloppyCnt]
  constructor
  · intro h
    exact ⟨h.cnt, h.sloppyCnt⟩
  · rintro ⟨hcnt, hsloppy⟩
    exact ⟨rfl, rfl, hread, hcnt, hsloppy, rfl, rfl⟩

/-- `updateDataBase` names every column but the id, which the row has already. -/
theorem setColumns_eq {dm : DmInfo ℚ} {r : UserRow} (h : r.dmId = dm.id) :
    setColumns dm r = row dm := by
  simp only [setColumns, row, h]

end ReadBackLemmas

open ReadBackLemmas

/-- For a `DM` with a nonzero id and a pose with at most six decimals and fewer than 15
significant digits: after `addContent` into a table without the id, and after
`updateDataBase` of the row of the id, a look-up of the id hands back the written values
exactly when both counters are below 2^31. -/
theorem readsBack_iff (dm : DmInfo ℚ) (hid : dm.id ≠ 0) (hpose : dm.pose.Decimal)
    (t : UserTable) (garbage : UInt32) (asked : DmInfo ℚ) (hasked : asked.id = dm.id) :
    (t.find? dm.id = none →
      (ReadsBack dm (retrieveUsrDb (addContent true t dm) ⟨.ok, garbage⟩ false asked) ↔
        dm.cnt.toNat < 2 ^ 31 ∧ dm.sloppyCnt.toNat < 2 ^ 31)) ∧
    (t.find? dm.id ≠ none →
      (ReadsBack dm (retrieveUsrDb (updateDataBase true t dm) ⟨.ok, garbage⟩ false asked) ↔
        dm.cnt.toNat < 2 ^ 31 ∧ dm.sloppyCnt.toNat < 2 ^ 31)) := by
  constructor
  · intro hnew
    refine readsBack_row_iff hid hasked hpose ?_ garbage
    rw [find?_addContent, if_pos ⟨rfl, hnew, rfl⟩]
  · intro hold
    obtain ⟨r, hr⟩ := Option.ne_none_iff_exists'.mp hold
    refine readsBack_row_iff hid hasked hpose ?_ garbage
    rw [find?_updateDataBase, if_pos ⟨rfl, rfl⟩, hr, Option.map_some,
      setColumns_eq (KeyedTable.key_of_find? hr)]

end

open scoped Exact

/-- The code 7 with a pose of two decimals and counters at the edge. -/
def exEdge : DmInfo ℚ := ⟨7, ⟨5 / 4, -2, 0⟩, 2147483647, 2147483647, true, false, false⟩

theorem readsBack_exEdge :
    ReadsBack exEdge (retrieveUsrDb (addContent true (.empty _) exEdge) ⟨.ok, 9⟩ false exEdge) ∧
      ReadsBack exEdge (retrieveUsrDb (updateDataBase true exTable exEdge) ⟨.ok, 9⟩ false
        exEdge) := by
  have hpose : exEdge.pose.Decimal :=
    ⟨Exact.decimal ⟨⟨1250000, by norm_num [exEdge]⟩, 125, -2, by norm_num, by norm_num [exEdge]⟩,
      Exact.decimal ⟨⟨-2000000, by norm_num [exEdge]⟩, -2, 0, by norm_num, by norm_num [exEdge]⟩,
      Exact.decimal ⟨⟨0, by norm_num [exEdge]⟩, 0, 0, by norm_num, by norm_num [exEdge]⟩⟩
  have hid : exEdge.id ≠ 0 := by decide
  constructor
  · exact ((readsBack_iff exEdge hid hpose (.empty _) 9 exEdge rfl).1 rfl).mpr (by decide)
  · exact ((readsBack_iff exEdge hid hpose exTable 9 exEdge rfl).2 (by decide)).mpr (by decide)

/-- One sighting more: the count 2^31 is stored in full, and `atoi` reads it as -2^31,
which the `uint64_t` takes for 2^64 - 2^31. -/
theorem counter_lost :
    let dm := { exEdge with cnt := 2147483648 }
    let added := addContent true (.empty _) dm
    added.rows.map UserRow.dmCnt = [2147483648] ∧
      (retrieveUsrDb added ⟨.ok, 9⟩ false dm).dm.cnt = 18446744071562067968 ∧
      ¬ ReadsBack dm (retrieveUsrDb added ⟨.ok, 9⟩ false dm) := by
  refine ⟨by decide +kernel, by decide +kernel, ?_⟩
  intro h
  exact absurd h.cnt (by decide +kernel)

end UserDb

end QrAddon
