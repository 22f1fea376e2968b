import QrAddon.UserDb

/-!
# The backup of the user database

At its start the program copies the user database, unless the date of the last copy in
`config.yaml` is recent. `checkDate` compares that date with today's and writes today's
into `config.yaml` when it answers true, before the copy is made.

Results:
1. `checkDate_eq`: what `checkDate` answers and writes, from the parsed date.
2. `tellsTruth_iff`: a start tells the truth in `config.yaml` exactly when it writes no new
   date, or the backup file opens, the backup is created and its step completes.
3. `not_tellsTruth`: a step that does not complete, and today's date in `config.yaml`.
-/

namespace QrAddon

structure MyDate where
  year : ℤ
  month : ℤ
  day : ℤ
deriving DecidableEq, Repr

/-! ## Dates as text -/

/-- The bytes of a text, each as the character of its number. -/
def textBytes (s : String) : List Char :=
  s.toList.flatMap fun c => (String.utf8EncodeChar c).map fun b => Char.ofNat b.toNat

/-- `std::string::substr`, which counts bytes; `none` where it throws. -/
def substr (s : String) (pos len : ℕ) : Option (List Char) :=
  if pos ≤ (textBytes s).length then some (((textBytes s).drop pos).take len) else none

/-- A digit is one byte. -/
theorem textBytes_digits {l : List Char} (h : ∀ c ∈ l, c.isDigit = true) :
    textBytes (String.ofList l) = l := by
  have hone : ∀ c ∈ l, (String.utf8EncodeChar c).map (fun b => Char.ofNat b.toNat) = [c] := by
    intro c hc
    have hdigit := Char.isDigit_iff_toNat.mp (h c hc)
    have hlt : c.val.toNat < 128 := lt_of_le_of_lt hdigit.2 (by decide)
    have hsize : c.utf8Size = 1 := by
      rw [Char.utf8Size, if_pos (UInt32.le_iff_toNat_le.mpr (Nat.le_of_lt_succ hlt))]
    have hbyte : c.val.toUInt8.toNat = c.toNat := by
      rw [UInt32.toNat_toUInt8, Nat.mod_eq_of_lt (by omega)]
      rfl
    rw [String.utf8EncodeChar_eq_singleton hsize, List.map_singleton, hbyte, Char.ofNat_toNat]
  rw [textBytes, String.toList_ofList, List.flatMap_congr hone, List.flatMap_singleton']

/-- `isspace`. -/
def isSpace (c : Char) : Bool := c = ' ' || 9 ≤ c.toNat && c.toNat ≤ 13

/-- The sign in front of a number, and what follows it. -/
def stoiSign : List Char → ℤ × List Char
  | '-' :: s => (-1, s)
  | '+' :: s => (1, s)
  | s => (1, s)

/-- `std::stoi`, `none` where it throws: blanks, a sign and the digits behind it. Four
characters, the most that `checkDate` passes, stay in the range of an `int`. -/
def stoi (s : List Char) : Option ℤ :=
  let (sign, rest) := stoiSign (s.dropWhile isSpace)
  let digits := rest.takeWhile Char.isDigit
  if digits = [] then none else some (sign * Nat.ofDigitChars 10 digits 0)

theorem isSpace_of_isDigit {c : Char} (h : c.isDigit = true) : isSpace c = false := by
  rw [Char.isDigit_iff_toNat] at h
  have hblank : c ≠ ' ' := by
    rintro rfl
    exact absurd h.1 (by decide)
  have hbelow : 48 ≤ c.toNat := h.1
  simp only [isSpace, hblank, decide_false, Bool.false_or, Bool.and_eq_false_iff,
    decide_eq_false_iff_not]
  omega

theorem stoiSign_of_isDigit {c : Char} (h : c.isDigit = true) (s : List Char) :
    stoiSign (c :: s) = (1, c :: s) := by
  unfold stoiSign
  split
  · next heq =>
    obtain ⟨rfl, _⟩ := List.cons.inj heq
    cases h
  · next heq =>
    obtain ⟨rfl, _⟩ := List.cons.inj heq
    cases h
  · rfl

/-- A text of digits is the number that it stands for. -/
theorem stoi_digits {s : List Char} (hs : s ≠ []) (h : ∀ c ∈ s, c.isDigit = true) :
    stoi s = some (Nat.ofDigitChars 10 s 0 : ℤ) := by
  obtain ⟨c, rest, rfl⟩ := List.exists_cons_of_ne_nil hs
  have hc := h c List.mem_cons_self
  have hdrop : (c :: rest).dropWhile isSpace = c :: rest :=
    List.dropWhile_cons_of_neg (by simp [isSpace_of_isDigit hc])
  have hdigits : (c :: rest).takeWhile Char.isDigit = c :: rest :=
    List.takeWhile_eq_self_iff.mpr h
  simp only [stoi, hdrop, stoiSign_of_isDigit hc, hdigits, hs, if_false, one_mul]

/-- The `originDate` of `checkDate`. -/
def MyDate.parse (lastDate : String) : Option MyDate := do
  let year ← stoi (← substr lastDate 0 4)
  let month ← stoi (← substr lastDate 4 2)
  let day ← stoi (← substr lastDate 6 2)
  return ⟨year, month, day⟩

/-- The `newTime` of `checkDate`. -/
def MyDate.newTime (d : MyDate) : String :=
  toString d.year ++
    (if d.month < 10 then "0" ++ toString d.month else toString d.month) ++
    (if d.day < 10 then "0" ++ toString d.day else toString d.day)

/-! ## A start of the program -/

/-- `checkDate` on the date that `getConfig` has read: its answer and the
`last_backup_time` in `config.yaml` behind it, or an exception. -/
def BackupDb.checkDate (tmpDate : MyDate) (lastDate : String) : Option (Bool × String) := do
  let originDate ← MyDate.parse lastDate
  if originDate.year ≠ tmpDate.year then
    return (true, tmpDate.newTime)
  if tmpDate.month - originDate.month > 1 then
    return (true, tmpDate.newTime)
  if tmpDate.day > originDate.day ∧ tmpDate.month - originDate.month = 1 then
    return (true, tmpDate.newTime)
  return (false, lastDate)

/-- What a start finds on the disk and leaves there. -/
structure Disk where
  lastBackupTime : String
  user : UserTable
  backup : UserTable

/-- How opening the backup file, `sqlite3_backup_init` and `sqlite3_backup_step` end. -/
structure BackupOutcome where
  openOk : Bool
  initOk : Bool
  stepDone : Bool

def BackupOutcome.Succeeds (o : BackupOutcome) : Prop :=
  o.openOk = true ∧ o.initOk = true ∧ o.stepDone = true

instance (o : BackupOutcome) : Decidable o.Succeeds := inferInstanceAs (Decidable (_ ∧ _))

/-- `backupUsrDb`. The result of the step is not looked at; `sqlite3_backup_finish` rolls
back what an incomplete step has written. -/
def BackupDb.backupUsrDb (o : BackupOutcome) (disk : Disk) : Disk :=
  if o.initOk then
    if o.stepDone then { disk with backup := disk.user } else disk
  else disk

/-- The start of `main`, from `getConfig` to the loop. The process may end on the way, in
an exception of `checkDate` or in `openDb`. -/
def start (tmpDate : MyDate) (o : BackupOutcome) (disk : Disk) : Disk :=
  match BackupDb.checkDate tmpDate disk.lastBackupTime with
  | none => disk
  | some (answer, lastBackupTime) =>
    let disk := { disk with lastBackupTime := lastBackupTime }
    if answer then
      -- the new date is on the disk by now; `openDb` may still end the process
      if o.openOk then BackupDb.backupUsrDb o disk else disk
    else disk

/-! ## When the date is true -/

/-- The tests of `checkDate`: another year, two months later, or a later day of the next
month. -/
def MyDate.Due (originDate tmpDate : MyDate) : Prop :=
  originDate.year ≠ tmpDate.year ∨ tmpDate.month - originDate.month > 1 ∨
    tmpDate.day > originDate.day ∧ tmpDate.month - originDate.month = 1

instance (originDate tmpDate : MyDate) : Decidable (MyDate.Due originDate tmpDate) :=
  inferInstanceAs (Decidable (_ ∨ _))

theorem checkDate_eq (tmpDate : MyDate) (lastDate : String) :
    BackupDb.checkDate tmpDate lastDate = (MyDate.parse lastDate).map fun originDate =>
      if MyDate.Due originDate tmpDate then (true, tmpDate.newTime) else (false, lastDate) := by
  unfold BackupDb.checkDate
  cases MyDate.parse lastDate with
  | none => rfl
  | some originDate =>
    unfold MyDate.Due
    by_cases hyear : originDate.year ≠ tmpDate.year
    · simp [hyear]
    · by_cases hmonth : tmpDate.month - originDate.month > 1
      · simp [hyear, hmonth]
      · by_cases hday : tmpDate.day > originDate.day ∧ tmpDate.month - originDate.month = 1
        · simp [hyear, hday]
        · simp [hyear, hmonth, hday]

/-- The start copies the database: the date on the disk is due. -/
def Disk.BackupDue (disk : Disk) (tmpDate : MyDate) : Prop :=
  ∃ originDate, MyDate.parse disk.lastBackupTime = some originDate ∧ MyDate.Due originDate tmpDate

/-- A start that finds its date due writes it, and copies the database if it can. -/
theorem start_due {disk : Disk} {tmpDate : MyDate} (h : disk.BackupDue tmpDate)
    (o : BackupOutcome) : start tmpDate o disk =
      { disk with
        lastBackupTime := tmpDate.newTime
        backup := if o.Succeeds then disk.user else disk.backup } := by
  obtain ⟨originDate, hparse, hdue⟩ := h
  have hcheck : BackupDb.checkDate tmpDate disk.lastBackupTime = some (true, tmpDate.newTime) := by
    rw [checkDate_eq, hparse, Option.map_some, if_pos hdue]
  unfold start BackupOutcome.Succeeds BackupDb.backupUsrDb
  rw [hcheck]
  obtain ⟨openOk, initOk, stepDone⟩ := o
  cases openOk <;> cases initOk <;> cases stepDone <;> simp

/-- Any other start leaves the disk as it is. -/
theorem start_not_due {disk : Disk} {tmpDate : MyDate} (h : ¬ disk.BackupDue tmpDate)
    (o : BackupOutcome) : start tmpDate o disk = disk := by
  unfold start
  rw [checkDate_eq]
  cases hparse : MyDate.parse disk.lastBackupTime with
  | none => rfl
  | some originDate =>
    have hdue : ¬ MyDate.Due originDate tmpDate := fun hdue => h ⟨originDate, hparse, hdue⟩
    rw [Option.map_some, if_neg hdue]
    rfl

/-- The start changed `last_backup_time` only if the backup file is a complete copy of the
user database, and a backup that fails leaves the old value. -/
def TellsTruth (disk : Disk) (tmpDate : MyDate) (o : BackupOutcome) : Prop :=
  let disk' := start tmpDate o disk
  (disk'.lastBackupTime ≠ disk.lastBackupTime → disk'.backup = disk'.user) ∧
    (¬ o.Succeeds → disk'.lastBackupTime = disk.lastBackupTime)

/-- A start tells the truth exactly when no backup is due, today's date is already there,
or the backup succeeds. -/
theorem tellsTruth_iff (disk : Disk) (tmpDate : MyDate) (o : BackupOutcome) :
    TellsTruth disk tmpDate o ↔
      (disk.BackupDue tmpDate → tmpDate.newTime = disk.lastBackupTime ∨ o.Succeeds) := by
  by_cases hdue : disk.BackupDue tmpDate
  · rw [TellsTruth, start_due hdue]
    by_cases ho : o.Succeeds
    · simp [ho]
    · simp only [ho, not_false_eq_true, if_false, forall_true_left, hdue, or_false]
      constructor
      · rintro ⟨_, hkeep⟩
        exact hkeep
      · intro hsame
        exact ⟨fun hne => absurd hsame hne, hsame⟩
  · rw [TellsTruth, start_not_due hdue]
    simp [hdue]

/-- A user database with a row, and a backup without one. -/
def exDisk : Disk :=
  ⟨"20230220", (KeyedTable.empty UserRow.dmId).insert ⟨7, 0, 1, 0, false, false⟩,
    KeyedTable.empty UserRow.dmId⟩

/-- The step of the backup does not complete: the date is today's, and the copy missing. -/
theorem not_tellsTruth : ¬ TellsTruth exDisk ⟨2023, 4, 1⟩ ⟨true, true, false⟩ := by
  intro h
  have hdate : (start ⟨2023, 4, 1⟩ ⟨true, true, false⟩ exDisk).lastBackupTime ≠
      exDisk.lastBackupTime := by decide +kernel
  have hrows : (start ⟨2023, 4, 1⟩ ⟨true, true, false⟩ exDisk).backup.rows ≠
      (start ⟨2023, 4, 1⟩ ⟨true, true, false⟩ exDisk).user.rows := by decide +kernel
  exact hrows (congrArg KeyedTable.rows (h.1 hdate))

end QrAddon
