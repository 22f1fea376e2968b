import QrAddon.Loop

/-!
# Two databases, no transaction

An iteration writes the user table and the self table with one statement each,
without a transaction over the two, and an error is logged and forgotten. So each
table records a sighting on its own.

Results:
1. `insert_fails_row_logged`: the insert into the user table fails, and the self
   table has a row for a code that the user table does not know.
2. `records_apart`: what each table records, for every pattern of failures, and
   that both record the sighting or neither does as soon as both statements take
   effect or neither does. The fit query plays no part in it.
-/

namespace QrAddon

section

variable [Doubles]

/-- The user table counted a sighting of the code: its row was created, or the
count that `atoi` reads from it grew by one. Below `2 ^ 31` that is the stored
count. -/
def UserCounted (t t' : UserTable) (id : UInt32) : Prop :=
  (t.find? id = none ∧ ∃ r', t'.find? id = some r' ∧ r'.dmCnt = 1) ∨
  ∃ r r', t.find? id = some r ∧ t'.find? id = some r' ∧
    r'.dmCnt = (readCounter r.dmCnt + 1).toNat ∧ (r.dmCnt < 2 ^ 31 → r'.dmCnt = r.dmCnt + 1)

/-- The self table logged exactly one row, of this code; the retention trigger ran. -/
def SelfLogged (cap : UInt32) (t t' : SelfTable) (id : UInt32) : Prop :=
  ∃ row : SelfRow, row.dmId = id ∧ t' = SelfDb.keepRowsSize cap (t.insert row)

/-- Both databases recorded the sighting, or both are as before. -/
def BothOrNeither (cap : UInt32) (s s' : Main) (id : UInt32) : Prop :=
  UserCounted s.user s'.user id ∧ SelfLogged cap s.self s'.self id ∨
    s'.user = s.user ∧ s'.self = s.self

/-- The branch's write to the user table takes effect: it succeeds, and it is the
update of a row that the look-up found, or the insert of a row that is not there.
A look-up that fails on a known code leads to an insert that the key stops. -/
def UserWrites (s : Main) (env : BranchEnv) (id : UInt32) : Prop :=
  env.userOk = true ∧
    ((UserDb.lookedUp s.user env.lookup id).isSome ∨ s.user.find? id = none)

namespace AtomicityLemmas

variable {cfg : Config ℚ} {account : Account} {d : CustomerPackage ℚ} {env : BranchEnv}
  {mode : Mode} {t t' : Turn}

/-- A write that takes effect counts the sighting. -/
theorem branch_counted (h : BranchStep cfg account d env mode t t')
    (hw : UserWrites t.toMain env t.dm.id) : UserCounted t.user t'.user t.dm.id := by
  obtain ⟨hok, hw⟩ := hw
  rcases h.user_cases with ⟨hno, hcnt, huser⟩ | ⟨r, hrow, hcnt, huser⟩
  · rw [hno] at hw
    have hnew : t.user.find? t.dm.id = none := hw.resolve_left (by simp)
    refine .inl ⟨hnew, UserDb.row t'.dm, ?_, ?_⟩
    · rw [huser, UserDb.find?_addContent, h.dm_id]
      simp [hok, hnew]
    · simp [UserDb.row, hcnt]
  · have hfind := (UserDb.lookedUp_some hrow).1
    have hread : (UserDb.setColumns t'.dm r).dmCnt = (readCounter r.dmCnt + 1).toNat := by
      simp [UserDb.setColumns, hcnt]
    refine .inr ⟨r, UserDb.setColumns t'.dm r, hfind, ?_, hread, ?_⟩
    · rw [huser, UserDb.find?_updateDataBase, h.dm_id]
      simp [hok, hfind]
    · intro hlt
      rw [hread, readCounter_succ hlt]

/-- A write without effect leaves the table alone. -/
theorem branch_uncounted (h : BranchStep cfg account d env mode t t')
    (hw : ¬ UserWrites t.toMain env t.dm.id) : t'.user = t.user := by
  rcases h.user_cases with ⟨hno, hcnt, huser⟩ | ⟨r, hrow, hcnt, huser⟩
  · rw [huser]
    apply UserDb.addContent_blocked
    rw [h.dm_id]
    by_contra hn
    obtain ⟨hok, hnew⟩ := not_or.mp hn
    exact hw ⟨by simpa using hok, .inr (not_not.mp hnew)⟩
  · have hfail : env.userOk = false := by
      by_contra hok
      exact hw ⟨by simpa using hok, .inl (by rw [hrow]; rfl)⟩
    rw [huser, hfail]
    rfl

/-- The self table logs the sighting exactly when its insert succeeds. -/
theorem branch_logged (h : BranchStep cfg account d env mode t t') (hid : t.ori.id = t.dm.id) :
    (env.selfOk = true → SelfLogged cfg.maxRowSelfDb t.self t'.self t.dm.id) ∧
      (env.selfOk = false → t'.self = t.self) := by
  have hlog := h.logged
  constructor
  · intro hok
    refine ⟨SelfDb.row t'.ori, hlog.id.trans hid, ?_⟩
    rw [hlog.self, hok]
    rfl
  · intro hok
    rw [hlog.self, hok]
    rfl

end AtomicityLemmas

open AtomicityLemmas

variable (cfg : Config ℚ) (account : Account)

/-- What a sighting in a fixed mode leaves in the two databases, from every
reachable state and for every pattern of failures. The self table logs the
sighting exactly when its insert succeeds. The user table counts it exactly when
its write takes effect. Both record it or neither does if these two agree. -/
theorem records_apart (l : List Act) {i : Sighting} {m : Mode} (hm : i.Fixed m) :
    let s := runMain cfg account l
    let s' := (iterate cfg account s i).toMain
    let id := i.deviInfo.dmId
    ((i.env m).selfOk = true → SelfLogged cfg.maxRowSelfDb s.self s'.self id) ∧
      ((i.env m).selfOk = false → s'.self = s.self) ∧
      (UserWrites s (i.env m) id → UserCounted s.user s'.user id) ∧
      (¬ UserWrites s (i.env m) id → s'.user = s.user) ∧
      (∀ id', id' ≠ id → s'.user.find? id' = s.user.find? id') ∧
      (((i.env m).selfOk = true ↔ UserWrites s (i.env m) id) →
        BothOrNeither cfg.maxRowSelfDb s s' id) := by
  intro s s' id
  have hb : BranchStep cfg account i.body.deviInfo (i.env m) m (s.turn i)
      (iterate cfg account s i) := iterate_fixed cfg account (runMain_whetherCb cfg account l) hm
  have hid : (s.turn i).dm.id = id := hm.turn_id s
  have hself := branch_logged hb rfl
  have hcounted := branch_counted hb
  have huncounted := branch_uncounted hb
  rw [hid] at hself hcounted huncounted
  refine ⟨hself.1, hself.2, hcounted, huncounted, ?_, ?_⟩
  · intro id' hne
    apply hb.user_other
    rw [hid]
    exact hne
  · intro hagree
    by_cases hw : UserWrites s (i.env m) id
    · exact .inl ⟨hcounted hw, hself.1 (hagree.mpr hw)⟩
    · have hfail : (i.env m).selfOk = false := by
        by_contra hok
        exact hw (hagree.mp (by simpa using hok))
      exact .inr ⟨huncounted hw, hself.2 hfail⟩

end

open scoped Exact

/-- The code 7, recorded while `DmList.db` is locked. -/
def exLocked : Sighting :=
  { exSighting .recording 7 ⟨1, 2, 0⟩ with
    body := ⟨.recording, .recording, exPackage 7, { exEnv with userOk := false }, exEnv⟩ }

theorem records_apart_exLocked :
    SelfLogged 100 (runMain exConfig exAccount []).self
        (iterate exConfig exAccount (runMain exConfig exAccount []) exLocked).self 7 ∧
      (iterate exConfig exAccount (runMain exConfig exAccount []) exLocked).user =
        (runMain exConfig exAccount []).user := by
  obtain ⟨hself, _, _, huser, _⟩ := records_apart exConfig exAccount []
    (i := exLocked) (m := .recording) ⟨by decide, rfl, rfl, rfl, rfl⟩
  exact ⟨hself rfl, huser fun h => absurd h.1 (by decide)⟩

/-- The insert into the user table fails, the one into the self table succeeds: the
log has a row of a code that the user table does not have. -/
theorem insert_fails_row_logged :
    ¬ BothOrNeither exConfig.maxRowSelfDb (runMain exConfig exAccount [])
      (iterate exConfig exAccount (runMain exConfig exAccount []) exLocked).toMain
      exLocked.deviInfo.dmId := by
  have hnone : (iterate exConfig exAccount (runMain exConfig exAccount []) exLocked).user.find?
      exLocked.deviInfo.dmId = none := by decide +kernel
  have hlen : (iterate exConfig exAccount (runMain exConfig exAccount []) exLocked).self.values
      ≠ (runMain exConfig exAccount []).self.values := by decide +kernel
  rintro (⟨⟨_, r', hr', _⟩ | ⟨_, r', _, hr', _⟩, _⟩ | ⟨_, hself⟩)
  · rw [hnone] at hr'
    cases hr'
  · rw [hnone] at hr'
    cases hr'
  · exact hlen (congrArg RowidTable.values hself)

end QrAddon
