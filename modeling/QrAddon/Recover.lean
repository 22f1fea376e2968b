import QrAddon.Restart
import QrAddon.Backup
import QrAddon.Forward

/-!
# The backup and the user table over the lives of the program

Every start may copy the user database to `../Recover/UsrBackupDb.db`, and the operator may
put the copy in its place while the program is down. In between the machine runs its
statements, which may fail, and the operator toggles codes. A start that ends in
`checkDate` or `openDb` is one with the next one right behind it.

Result: `backup_behind`, the backup never leads the user table and never moves back, and
the user table moves back at a restoration only.
-/

namespace QrAddon

/-! ## Lives with backups -/

section

variable [Doubles]

/-- The running program, and what the starts have left on the disk beside the tables. -/
structure Store where
  machine : Machine
  lastBackupTime : String
  backup : UserTable

/-- A move, or the end of the program and a start on that date. Before the start, the
operator may restore the backup. -/
inductive Store.Op
  | move (m : Machine.Move)
  | boot (restored : Bool) (tmpDate : MyDate) (o : BackupOutcome)

namespace Store

def disk (s : Store) : Disk := ⟨s.lastBackupTime, s.machine.turn.user, s.backup⟩

/-- The tables that a start finds. -/
def found (s : Store) (restored : Bool) : Disk :=
  if restored then { s.disk with user := s.backup } else s.disk

def boot (s : Store) (restored : Bool) (tmpDate : MyDate) (o : BackupOutcome) : Store :=
  let disk := start tmpDate o (s.found restored)
  let main := s.machine.turn.toMain.restarted
  ⟨⟨{ main with user := disk.user }.opened, .retrieve, []⟩, disk.lastBackupTime, disk.backup⟩

section

variable (cfg : Config ℚ) (account : Account)

def op (s : Store) : Op → Store
  | .move m => { s with machine := s.machine.move cfg account m }
  | .boot restored tmpDate o => s.boot restored tmpDate o

end

/-- Empty tables, and a date from the installation. -/
def fresh (lastBackupTime : String) : Store :=
  ⟨Machine.start, lastBackupTime, KeyedTable.empty UserRow.dmId⟩

def Op.restores : Op → Bool
  | .move _ => false
  | .boot restored _ _ => restored

end Store

/-- What main is going to write over a row follows the row, and a new row counts 1. -/
def Machine.Follows (b : ℕ) (s : Machine) : Prop :=
  match s.pc with
  | .retrieve | .logNew _ => True
  | .insert _ => s.turn.dm.cnt = 1 ∧ s.turn.dm.sloppyCnt = 0
  | .log _ _ | .fit _ _ | .update _ =>
    ∃ r, s.turn.user.find? s.turn.dm.id = some r ∧
      r.Precedes (UserDb.setColumns s.turn.dm r) ∧
      (UserDb.setColumns s.turn.dm r).sloppyCnt ≤ (UserDb.setColumns s.turn.dm r).dmCnt ∧
      (UserDb.setColumns s.turn.dm r).dmCnt ≤ b

/-- The machine moves its table forward, with counts up to `b`. -/
structure Machine.Advances (b : ℕ) (s : Machine) : Prop where
  flag : s.turn.whetherCb = false
  counted : Counted b s.turn.user
  follows : s.Follows b

/-- A store whose backup is behind. -/
structure Store.Behind (b : ℕ) (s : Store) : Prop where
  machine : s.machine.Advances b
  backup : Counted b s.backup
  grows : ForwardLemmas.Grows s.backup s.machine.turn.user

namespace RecoverLemmas

open Machine ForwardLemmas InterferenceLemmas RestartLemmas

variable {cfg : Config ℚ} {account : Account} {b : ℕ} {s : Machine}

variable (cfg account) in
/-- The lines behind a look-up count a deviation or none. -/
theorem known_sloppyCnt (c : Branch) (t : Turn) :
    (c.known cfg account t).2.dm.sloppyCnt = t.dm.sloppyCnt ∨
      (c.known cfg account t).2.dm.sloppyCnt = t.dm.sloppyCnt + 1 := by
  cases c with
  | recording deviInfo env =>
    simp only [Branch.known]
    split
    · exact (checkDeviation_checked cfg _ _).sloppyCnt
    · split <;> exact .inl rfl
  | localization env =>
    simp only [Branch.known]
    split
    · exact (checkDeviation_checked cfg _ _).sloppyCnt
    · split <;> exact .inl rfl

theorem known_follows (hb : b < 2 ^ 31) {c : Branch} {t : Turn} {r : UserRow}
    (ht : t.dm = UserDb.loaded r) (hr : r.sloppyCnt ≤ r.dmCnt ∧ r.dmCnt ≤ b) :
    let d := (c.known cfg account t).2.dm
    r.Precedes (UserDb.setColumns d r) ∧
      (UserDb.setColumns d r).sloppyCnt ≤ (UserDb.setColumns d r).dmCnt ∧
      (UserDb.setColumns d r).dmCnt ≤ b + 1 := by
  intro d
  obtain ⟨hcnt, hrec⟩ := known_dm cfg account c t
  have hd : d.cnt.toNat = r.dmCnt + 1 := by
    show (c.known cfg account t).2.dm.cnt.toNat = _
    rw [hcnt, ht]
    exact readCounter_succ (by omega)
  have hs : d.sloppyCnt.toNat = r.sloppyCnt ∨ d.sloppyCnt.toNat = r.sloppyCnt + 1 := by
    have hcase := known_sloppyCnt cfg account c t
    rw [ht] at hcase
    rcases hcase with h | h
    · exact .inl ((congrArg UInt64.toNat h).trans (readCounter_toNat (by omega)))
    · exact .inr ((congrArg UInt64.toNat h).trans (readCounter_succ (by omega)))
  have hkeep : r.recommend = true → d.recommend = true := by
    intro h
    exact hrec.mpr (.inl (by rw [ht]; exact h))
  refine ⟨⟨rfl, ?_, ?_, hkeep⟩, ?_, ?_⟩ <;>
    simp only [UserDb.setColumns] <;>
    omega

theorem follows_mono (h : s.Follows b) : s.Follows (b + 1) := by
  obtain ⟨t, pc, rest⟩ := s
  cases pc with
  | retrieve | logNew env | insert env => exact h
  | log env _ | fit env _ | update env =>
    obtain ⟨r, hr, hprec, hsloppy, hle⟩ := h
    exact ⟨r, hr, hprec, hsloppy, Nat.le_succ_of_le hle⟩

variable (cfg account) in
theorem look_advances (hb : b < 2 ^ 31) {c : Branch} {bs : List Branch} {t : Turn}
    (h : Advances b ⟨t, .retrieve, c :: bs⟩) :
    (c.look cfg account t).2.user = t.user ∧
      Advances (b + 1) ⟨(c.look cfg account t).2, (c.look cfg account t).1, bs⟩ := by
  have hflag : (c.look cfg account t).2.whetherCb = false := look_flag h.flag
  have hcounted : Counted (b + 1) t.user := counted_mono h.counted (Nat.le_succ b)
  unfold Branch.look at hflag ⊢
  rw [retrieve_eq h.flag] at hflag ⊢
  cases hlook : UserDb.lookedUp t.user c.env.lookup t.dm.id with
  | none =>
    rw [hlook] at hflag
    have huser := (unknown_frame c { t with events := t.events ++ [.lookup c.mode t.dm] }).1
    refine ⟨huser, hflag, ?_, ?_⟩
    · simp only [huser]
      exact hcounted
    · cases c <;> exact ⟨rfl, rfl⟩
  | some r =>
    rw [hlook] at hflag
    simp only at hflag ⊢
    obtain ⟨hr, hid⟩ := UserDb.lookedUp_some hlook
    generalize hu : ({ t with
      dm := UserDb.loaded r, events := t.events ++ [.lookup c.mode t.dm] } : Turn) = u at hflag ⊢
    have hframe := known_frame cfg account c u
    have hdm : u.dm = UserDb.loaded r := by rw [← hu]
    have huser : (c.known cfg account u).2.user = t.user := by
      rw [hframe.user, ← hu]
    have hdmId : (c.known cfg account u).2.dm.id = t.dm.id := by
      rw [hframe.id, hdm]
      exact hid
    obtain ⟨hs, _, hle⟩ := h.counted _ r hr
    refine ⟨huser, hflag, ?_, r, ?_, known_follows hb hdm ⟨hs, hle⟩⟩
    · show Counted (b + 1) (c.known cfg account u).2.user
      rw [huser]
      exact hcounted
    · show (c.known cfg account u).2.user.find? (c.known cfg account u).2.dm.id = some r
      rw [huser, hdmId]
      exact hr

/-- An insert moves the table forward. -/
theorem insert_forward {t : UserTable} (ht : Counted b t) {d : DmInfo ℚ} (hcnt : d.cnt = 1)
    (hsloppy : d.sloppyCnt = 0) (ok : Bool) :
    Counted (b + 1) (UserDb.addContent ok t d) ∧ Grows t (UserDb.addContent ok t d) := by
  have hone : (UserDb.row d).dmCnt = 1 := congrArg UInt64.toNat hcnt
  have hzero : (UserDb.row d).sloppyCnt = 0 := congrArg UInt64.toNat hsloppy
  constructor
  · intro id r hr
    rw [UserDb.find?_addContent] at hr
    split at hr
    · obtain rfl := Option.some.inj hr
      omega
    · exact counted_mono ht (Nat.le_succ b) id r hr
  · intro id r hr
    refine ⟨r, ?_, precedes_refl r⟩
    rw [UserDb.find?_addContent, if_neg]
    · exact hr
    · rintro ⟨_, hnone, rfl⟩
      rw [hnone] at hr
      cases hr

/-- So does the write-back of a `DM` that follows its row. -/
theorem update_forward {t : UserTable} (ht : Counted b t) {d : DmInfo ℚ} {r : UserRow}
    (hr : t.find? d.id = some r) (hprec : r.Precedes (UserDb.setColumns d r))
    (hsloppy : (UserDb.setColumns d r).sloppyCnt ≤ (UserDb.setColumns d r).dmCnt)
    (hle : (UserDb.setColumns d r).dmCnt ≤ b) (ok : Bool) :
    Counted b (UserDb.updateDataBase ok t d) ∧ Grows t (UserDb.updateDataBase ok t d) := by
  have hpos := (ht _ r hr).2.1
  constructor
  · intro id w hw
    rw [UserDb.find?_updateDataBase] at hw
    split at hw
    · next hown =>
      rw [hown.2, hr] at hw
      obtain rfl := Option.some.inj hw
      exact ⟨hsloppy, hpos.trans hprec.dmCnt, hle⟩
    · exact ht id w hw
  · intro id w hw
    rw [UserDb.find?_updateDataBase]
    split
    · next hown =>
      rw [hown.2, hr] at hw
      obtain rfl := Option.some.inj hw
      rw [hown.2, hr]
      exact ⟨_, rfl, hprec⟩
    · exact ⟨w, hw, precedes_refl w⟩

theorem exec_advances (hb : b < 2 ^ 31) (h : s.Advances b) :
    (s.exec cfg account).Advances (b + 1) ∧
      Grows s.turn.user (s.exec cfg account).turn.user := by
  have hflag : (s.exec cfg account).turn.whetherCb = false := exec_flag h.flag
  have hcounted : Counted (b + 1) s.turn.user := counted_mono h.counted (Nat.le_succ b)
  obtain ⟨t, pc, rest⟩ := s
  have hfollows := follows_mono h.follows
  cases pc with
  | retrieve =>
    cases rest with
    | nil => exact ⟨⟨hflag, hcounted, trivial⟩, grows_refl _⟩
    | cons c bs =>
      obtain ⟨huser, hnext⟩ := look_advances cfg account hb h
      refine ⟨hnext, ?_⟩
      show Grows t.user (c.look cfg account t).2.user
      rw [huser]
      exact grows_refl _
  | insert env =>
    obtain ⟨hcnt, hsloppy⟩ := hfollows
    obtain ⟨hcounted', hgrows⟩ := insert_forward h.counted hcnt hsloppy env.userOk
    exact ⟨⟨hflag, hcounted', trivial⟩, hgrows⟩
  | logNew env => exact ⟨⟨hflag, hcounted, trivial⟩, grows_refl _⟩
  | log env fit => cases fit <;> exact ⟨⟨hflag, hcounted, hfollows⟩, grows_refl _⟩
  | fit env k =>
    obtain ⟨r, hr, hprec, hsloppy, hle⟩ := hfollows
    have hdm : (t.fit env k).dm = { t.dm with pose := (t.fit env k).dm.pose } := by
      simp only [Turn.fit]
      rw [SelfDb.fitPose_dm]
    refine ⟨⟨hflag, hcounted, r, ?_, ?_⟩, grows_refl _⟩
    · show t.user.find? (t.fit env k).dm.id = some r
      rw [hdm]
      exact hr
    · show r.Precedes (UserDb.setColumns (t.fit env k).dm r) ∧ _
      rw [show (exec cfg account ⟨t, .fit env k, rest⟩).turn.dm = (t.fit env k).dm from rfl, hdm]
      exact ⟨⟨hprec.id, hprec.dmCnt, hprec.sloppyCnt, hprec.recommend⟩, hsloppy, hle⟩
  | update env =>
    obtain ⟨r, hr, hprec, hsloppy, hle⟩ := hfollows
    obtain ⟨hcounted', hgrows⟩ := update_forward hcounted hr hprec hsloppy hle env.userOk
    exact ⟨⟨hflag, hcounted', trivial⟩, hgrows⟩

omit [Doubles] in
/-- The operator's update changes no row but in its `enable`. -/
theorem setEnable_find (t : UserTable) (id : UInt32) (enable : Bool) {id' : UInt32} {r : UserRow}
    (hr : t.find? id' = some r) : ∃ w, (UserDb.setEnable t id enable).find? id' = some w ∧
      w = { r with enable := w.enable } := by
  rw [UserDb.find?_setEnable]
  split
  · exact ⟨{ r with enable := enable }, by rw [hr]; rfl, rfl⟩
  · exact ⟨r, hr, rfl⟩

theorem operator_advances (h : s.Advances b) (id : UInt32) (enable : Bool) :
    (s.operator id enable).Advances b ∧
      Grows s.turn.user (s.operator id enable).turn.user := by
  obtain ⟨t, pc, rest⟩ := s
  refine ⟨⟨h.flag, ?_, ?_⟩, ?_⟩
  · intro id' w hw
    have hsame : (UserDb.setEnable t.user id enable).find? id' = some w := hw
    rw [UserDb.find?_setEnable] at hsame
    split at hsame
    · obtain ⟨r, hr, rfl⟩ := Option.map_eq_some_iff.mp hsame
      exact h.counted id' r hr
    · exact h.counted id' w hsame
  · have hfollows := h.follows
    cases pc with
    | retrieve | logNew env | insert env => exact hfollows
    | log env _ | fit env _ | update env =>
      obtain ⟨r, hr, hprec, hsloppy, hle⟩ := hfollows
      obtain ⟨w, hw, hwr⟩ := setEnable_find t.user id enable hr
      refine ⟨w, hw, ?_⟩
      rw [hwr]
      exact ⟨⟨hprec.id, hprec.dmCnt, hprec.sloppyCnt, hprec.recommend⟩, hsloppy, hle⟩
  · intro id' r hr
    obtain ⟨w, hw, hwr⟩ := setEnable_find t.user id enable hr
    refine ⟨w, hw, ?_⟩
    rw [hwr]
    exact ⟨rfl, le_rfl, le_rfl, fun h => h⟩

theorem package_advances (h : s.Advances b) (i : Sighting) :
    (s.package i).Advances b ∧ (s.package i).turn.user = s.turn.user := by
  have hflag := package_flag h.flag i
  unfold Machine.package at hflag ⊢
  split
  · next hpc _ =>
    refine ⟨⟨h.flag, h.counted, ?_⟩, rfl⟩
    unfold Machine.Follows
    rw [hpc]
    trivial
  · exact ⟨h, rfl⟩

theorem advances_mono (h : s.Advances b) : s.Advances (b + 1) :=
  ⟨h.flag, counted_mono h.counted (Nat.le_succ b), follows_mono h.follows⟩

variable (cfg account) in
/-- Every move of the machine moves its table forward. -/
theorem move_advances (hb : b < 2 ^ 31) (h : s.Advances b) (m : Machine.Move) :
    (s.move cfg account m).Advances (b + 1) ∧
      Grows s.turn.user (s.move cfg account m).turn.user := by
  cases m with
  | exec => exact exec_advances hb h
  | operator id enable =>
    obtain ⟨hnext, hgrows⟩ := operator_advances h id enable
    exact ⟨advances_mono hnext, hgrows⟩
  | package i =>
    obtain ⟨hnext, huser⟩ := package_advances h i
    refine ⟨advances_mono hnext, ?_⟩
    show Grows s.turn.user (s.package i).turn.user
    rw [huser]
    exact grows_refl _

omit [Doubles] in
/-- A start keeps the user table, and the backup or makes it a copy. -/
theorem start_tables (tmpDate : MyDate) (o : BackupOutcome) (disk : Disk) :
    (start tmpDate o disk).user = disk.user ∧
      ((start tmpDate o disk).backup = disk.backup ∨
        (start tmpDate o disk).backup = disk.user) := by
  by_cases hdue : disk.BackupDue tmpDate
  · rw [start_due hdue]
    refine ⟨rfl, ?_⟩
    by_cases hok : o.Succeeds
    · exact .inr (if_pos hok)
    · exact .inl (if_neg hok)
  · rw [start_not_due hdue]
    exact ⟨rfl, .inl rfl⟩

section

variable {s : Store}

theorem boot_behind (h : s.Behind b) (restored : Bool) (tmpDate : MyDate) (o : BackupOutcome) :
    (s.boot restored tmpDate o).Behind b ∧ Grows s.backup (s.boot restored tmpDate o).backup ∧
      (restored = false →
        Grows s.machine.turn.user (s.boot restored tmpDate o).machine.turn.user) := by
  obtain ⟨huser, hbackup⟩ := start_tables tmpDate o (s.found restored)
  -- the table that the start finds is ahead of the backup
  have hfound : Counted b (s.found restored).user ∧ Grows s.backup (s.found restored).user := by
    cases restored with
    | true => exact ⟨h.backup, grows_refl _⟩
    | false => exact ⟨h.machine.counted, h.grows⟩
  have hold : (s.found restored).backup = s.backup := by cases restored <;> rfl
  rw [hold] at hbackup
  have hnext : Counted b (s.boot restored tmpDate o).backup ∧
      Grows s.backup (s.boot restored tmpDate o).backup ∧
      Grows (s.boot restored tmpDate o).backup (s.found restored).user := by
    show Counted b (start tmpDate o (s.found restored)).backup ∧
      Grows s.backup (start tmpDate o (s.found restored)).backup ∧
      Grows (start tmpDate o (s.found restored)).backup (s.found restored).user
    rcases hbackup with hb | hb
    · rw [hb]
      exact ⟨h.backup, grows_refl _, hfound.2⟩
    · rw [hb]
      exact ⟨hfound.1, hfound.2, grows_refl _⟩
  have htable : (s.boot restored tmpDate o).machine.turn.user = (s.found restored).user := huser
  refine ⟨⟨⟨rfl, ?_, trivial⟩, hnext.1, ?_⟩, hnext.2.1, ?_⟩
  · rw [htable]
    exact hfound.1
  · rw [htable]
    exact hnext.2.2
  · rintro rfl
    rw [htable]
    exact grows_refl _

variable (cfg account) in
/-- Every operation keeps the backup behind, and moves it and the user table forward, but
for the table that a restoration replaces. -/
theorem op_behind (hb : b < 2 ^ 31) (h : s.Behind b) (o : Store.Op) :
    (s.op cfg account o).Behind (b + 1) ∧ Grows s.backup (s.op cfg account o).backup ∧
      (o.restores = false →
        Grows s.machine.turn.user (s.op cfg account o).machine.turn.user) := by
  have hbackup : Counted (b + 1) s.backup := counted_mono h.backup (Nat.le_succ b)
  cases o with
  | move m =>
    obtain ⟨hnext, hgrows⟩ := move_advances cfg account hb h.machine m
    exact ⟨⟨hnext, hbackup, grows_trans h.grows hgrows⟩, grows_refl _, fun _ => hgrows⟩
  | boot restored tmpDate outcome =>
    obtain ⟨hnext, hbackups, husers⟩ := boot_behind h restored tmpDate outcome
    exact ⟨⟨advances_mono hnext.machine, counted_mono hnext.backup (Nat.le_succ b), hnext.grows⟩,
      hbackups, husers⟩

variable (cfg account) in
/-- The counts stay below the number of operations. -/
theorem run_behind (lastBackupTime : String) {l : List Store.Op} (hlen : l.length < 2 ^ 31) :
    (Run.exec (Store.op cfg account) (.fresh lastBackupTime) l).Behind l.length := by
  induction l using List.reverseRecOn with
  | nil => exact ⟨⟨rfl, nofun, trivial⟩, nofun, nofun⟩
  | append_singleton l o ih =>
    rw [List.length_append, List.length_singleton] at hlen ⊢
    rw [Run.exec_snoc]
    exact (op_behind cfg account (by omega) (ih (by omega)) o).1

end

end RecoverLemmas

open RecoverLemmas ForwardLemmas

variable (cfg : Config ℚ) (account : Account)

/-- Over fewer than `2 ^ 31` statements, packages, updates of the operator, kills, starts on
any dates and restorations, in any order and with any failures: in every state each row of
the backup has a row in the user table that may follow it; no step moves the backup back;
and only a restoration moves the user table back. -/
theorem backup_behind (lastBackupTime : String) {l : List Store.Op} (hlen : l.length < 2 ^ 31) :
    ∀ v ∈ Run.visits (Store.op cfg account) (.fresh lastBackupTime) l,
      Forward v.1.backup v.1.machine.turn.user ∧
        Forward v.1.backup (v.1.op cfg account v.2).backup ∧
        (v.2.restores = false →
          Forward v.1.machine.turn.user (v.1.op cfg account v.2).machine.turn.user) := by
  intro v hv
  obtain ⟨pre, post, hl, hpre⟩ := Run.mem_visits hv
  have hprefix : pre.length < l.length := by
    rw [hl]
    simp
  have hbehind := run_behind cfg account lastBackupTime (l := pre) (by omega)
  rw [← hpre] at hbehind
  obtain ⟨hnext, hbackups, husers⟩ := op_behind cfg account (by omega) hbehind v.2
  exact ⟨forward_of_grows hbehind.grows hbehind.machine.counted,
    forward_of_grows hbackups hnext.backup,
    fun hno => forward_of_grows (husers hno) hnext.machine.counted⟩

end

open scoped Exact

/-- Code 7 is recorded, and a start copies the table. It is recorded once more, and the
operator restores the copy. -/
def exRestored : List Store.Op :=
  let seen := [.move (.package (exSighting .recording 7 0)), .move .exec, .move .exec,
    .move .exec, .move .exec]
  seen ++ .boot false ⟨2023, 5, 17⟩ ⟨true, true, true⟩ :: seen ++
    [.boot true ⟨2023, 5, 18⟩ ⟨true, true, true⟩]

theorem backup_behind_exRestored :
    exRestored.length = 12 ∧
      ∀ v ∈ Run.visits (Store.op exConfig exAccount) (.fresh "20230101") exRestored,
        Forward v.1.backup v.1.machine.turn.user ∧
          Forward v.1.backup (v.1.op exConfig exAccount v.2).backup ∧
          (v.2.restores = false →
            Forward v.1.machine.turn.user (v.1.op exConfig exAccount v.2).machine.turn.user) :=
  ⟨rfl, backup_behind exConfig exAccount "20230101" (by decide)⟩

end QrAddon
