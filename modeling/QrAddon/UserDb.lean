import QrAddon.Doubles
import QrAddon.Lib.KeyedTable

/-!
# The user database

`DmList.db` holds one row per code. The program reads a row by its id
(`retrieveUsrDb`), inserts a row (`addContent`) and rewrites a row
(`updateDataBase`); the operator sets the `enable` column from outside.

A statement may fail. A failed insert or update has no effect and is only
logged. A failed look-up may have run its callback before it failed.
-/

namespace QrAddon

/-- One row of the user table. The counters are the literals that were written. -/
structure UserRow where
  dmId : UInt32
  pose : DmPose ℚ
  dmCnt : ℕ
  sloppyCnt : ℕ
  recommend : Bool
  enable : Bool
deriving DecidableEq, Repr

/-- `create table DmList(..., primary key(DM_id))`. -/
abbrev UserTable := KeyedTable UserRow.dmId

/-- How the `select` of a look-up ends. -/
inductive LookupRc
  | ok
  | error
  | errorAfterCallback
deriving DecidableEq, Repr

/-- A look-up: how its statement ends, and what the uninitialised
`localDmInfo.id` holds before it. -/
structure Lookup where
  rc : LookupRc
  garbage : UInt32
deriving DecidableEq, Repr

namespace UserDb

section

variable [Doubles]

/-- `retrieveCallBack`: every column of the row goes through `atoi` or `atof`. -/
def retrieveCallBack (local' : DmInfo ℚ) (r : UserRow) : DmInfo ℚ :=
  { local' with
    id := readId r.dmId.toNat
    pose := r.pose.read
    cnt := readCounter r.dmCnt
    sloppyCnt := readCounter r.sloppyCnt
    recommend := r.recommend
    enable := r.enable }

/-- What `retrieveUsrDb` returns, the `DM` it leaves and the global `whetherCb`. -/
structure Retrieved where
  found : Bool
  dm : DmInfo ℚ
  whetherCb : Bool
deriving DecidableEq, Repr

def retrieveUsrDb (t : UserTable) (q : Lookup) (whetherCb : Bool) (dm : DmInfo ℚ) : Retrieved :=
  -- the callback runs once for the row, unless the statement fails before it
  let row := if q.rc = .error then none else t.find? dm.id
  let localDmInfo : DmInfo ℚ := row.elim ⟨q.garbage, 0, 0, 0, false, false, false⟩
    (retrieveCallBack ⟨q.garbage, 0, 0, 0, false, false, false⟩)
  let whetherCb := whetherCb || row.isSome
  if q.rc ≠ .ok then ⟨false, dm, false⟩
  else if localDmInfo.id = 0 then ⟨false, dm, false⟩
  else if whetherCb = false then ⟨false, dm, whetherCb⟩
  else ⟨true, localDmInfo, false⟩

/-- The row of `insert into DmList values (...)`. -/
def row (dm : DmInfo ℚ) : UserRow :=
  ⟨dm.id, dm.pose.printed, dm.cnt.toNat, dm.sloppyCnt.toNat, dm.recommend, dm.enable⟩

/-- `addContent`. The primary key makes the insert fail for a known id. -/
def addContent (ok : Bool) (t : UserTable) (dm : DmInfo ℚ) : UserTable :=
  if ok then t.insert (row dm) else t

/-- The `set` list of `updateDataBase`: every column but the id. -/
def setColumns (dm : DmInfo ℚ) (r : UserRow) : UserRow :=
  { r with
    pose := dm.pose.printed
    dmCnt := dm.cnt.toNat
    sloppyCnt := dm.sloppyCnt.toNat
    recommend := dm.recommend
    enable := dm.enable }

def updateDataBase (ok : Bool) (t : UserTable) (dm : DmInfo ℚ) : UserTable :=
  if ok then t.modify dm.id (setColumns dm) fun _ => rfl else t

end

/-- The operator's statement: `update DmList set enable = b where DM_id = id`. -/
def setEnable (t : UserTable) (id : UInt32) (b : Bool) : UserTable :=
  t.modify id (fun r => { r with enable := b }) fun _ => rfl

/-! ## What the statements do -/

/-- The `DM` that a look-up makes of a row. -/
def loaded [Doubles] (r : UserRow) : DmInfo ℚ :=
  ⟨r.dmId, r.pose.read, readCounter r.dmCnt, readCounter r.sloppyCnt, r.recommend, r.enable, false⟩

/-- The row that a look-up of `id` hands back: none if the statement fails, and
none for the id 0, which `retrieveUsrDb` takes for an untouched `localDmInfo`. -/
def lookedUp (t : UserTable) (q : Lookup) (id : UInt32) : Option UserRow :=
  if q.rc = .ok ∧ id ≠ 0 then t.find? id else none

/-- The row that a look-up hands back is the row of the id it asked for. -/
theorem lookedUp_some {t : UserTable} {q : Lookup} {id : UInt32} {r : UserRow}
    (h : lookedUp t q id = some r) : t.find? id = some r ∧ r.dmId = id := by
  unfold lookedUp at h
  split at h
  · exact ⟨h, KeyedTable.key_of_find? h⟩
  · cases h

/-- A look-up of a nonzero id that does not fail reads the table. -/
theorem lookedUp_ok {t : UserTable} {q : Lookup} {id : UInt32} (hq : q.rc = .ok) (hid : id ≠ 0) :
    lookedUp t q id = t.find? id := if_pos ⟨hq, hid⟩

theorem retrieveCallBack_eq [Doubles] (g : UInt32) (r : UserRow) :
    retrieveCallBack ⟨g, 0, 0, 0, false, false, false⟩ r = loaded r := by
  simp [retrieveCallBack, loaded]

/-- A look-up in full: whatever the uninitialised id holds, it finds exactly the
row of `lookedUp`, and it leaves `whetherCb` cleared. -/
theorem retrieveUsrDb_eq [Doubles] (t : UserTable) (q : Lookup) (dm : DmInfo ℚ) :
    retrieveUsrDb t q false dm =
      match lookedUp t q dm.id with
      | some r => ⟨true, loaded r, false⟩
      | none => ⟨false, dm, false⟩ := by
  unfold retrieveUsrDb lookedUp
  cases hrc : q.rc with
  | error => simp
  | errorAfterCallback => simp
  | ok =>
    cases hrow : t.find? dm.id with
    | none => by_cases hg : q.garbage = 0 <;> simp [hg]
    | some r =>
      have hid : r.dmId = dm.id := KeyedTable.key_of_find? hrow
      by_cases h0 : dm.id = 0 <;> simp [retrieveCallBack_eq, loaded, hid, h0]

theorem find?_addContent [Doubles] (ok : Bool) (t : UserTable) (dm : DmInfo ℚ) (id : UInt32) :
    (addContent ok t dm).find? id =
      if ok = true ∧ t.find? dm.id = none ∧ id = dm.id then some (row dm) else t.find? id := by
  unfold addContent
  cases ok with
  | false => simp
  | true =>
    by_cases h : t.find? dm.id = none
    · have hrow : t.find? (row dm).dmId = none := h
      simp only [if_true, KeyedTable.find?_insert hrow, h, true_and]
      rfl
    · have hrow : t.find? (row dm).dmId ≠ none := h
      simp [KeyedTable.insert_of_found hrow, h]

theorem find?_updateDataBase [Doubles] (ok : Bool) (t : UserTable) (dm : DmInfo ℚ) (id : UInt32) :
    (updateDataBase ok t dm).find? id =
      if ok = true ∧ id = dm.id then (t.find? id).map (setColumns dm) else t.find? id := by
  unfold updateDataBase
  cases ok with
  | false => simp
  | true =>
    simp only [if_true, true_and]
    exact KeyedTable.find?_modify t dm.id _ _ id

theorem find?_setEnable (t : UserTable) (id : UInt32) (b : Bool) (id' : UInt32) :
    (setEnable t id b).find? id' =
      if id' = id then (t.find? id').map fun r => { r with enable := b } else t.find? id' :=
  KeyedTable.find?_modify t id _ _ id'

/-- An insert that the key or a failure stops leaves the table alone. -/
theorem addContent_blocked [Doubles] {ok : Bool} {t : UserTable} {dm : DmInfo ℚ}
    (h : ok = false ∨ t.find? dm.id ≠ none) : addContent ok t dm = t := by
  unfold addContent
  rcases h with rfl | h
  · simp
  · cases ok with
    | false => simp
    | true => simpa using KeyedTable.insert_of_found (t := t) (a := row dm) h

end UserDb

end QrAddon
