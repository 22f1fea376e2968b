import QrAddon.Backup
import QrAddon.Lib.Calendar
import QrAddon.Lib.FixedWidth
import QrAddon.Lib.Run

/-!
# Backups and the calendar

`checkDate` compares the components of two dates, and never counts days. This module says
what its tests mean for the days between the two dates.

Results:
1. `onTime`: over starts on non-decreasing dates, a date that is not due is at most 31 days
   old, a date that is due stays due, and what a start writes is read back as its date.
2. `keepsBackup_iff`: 28 days lie between two backups, and a clock set back causes none,
   except across the end of a year.
3. `not_keepsBackup`: New Year's Eve and New Year's Day.
-/

namespace QrAddon

open FixedWidth

/-- What `localtime` fills in for a date. -/
def MyDate.ofDate (d : CalendarDate) : MyDate := ⟨d.year, d.month, d.day⟩

/-- The eight digits of a date. -/
def yyyymmdd (d : CalendarDate) : String :=
  String.ofList (fixed 4 d.year ++ (fixed 2 d.month ++ fixed 2 d.day))

/-- The tests of `checkDate` on two dates. -/
def DueOn (last today : CalendarDate) : Prop :=
  MyDate.Due (MyDate.ofDate last) (MyDate.ofDate today)

instance (last today : CalendarDate) : Decidable (DueOn last today) :=
  inferInstanceAs (Decidable (MyDate.Due _ _))

namespace BackupDateLemmas

variable {d e : CalendarDate}

/-! ### The text of a date -/

theorem stoi_fixed (w n : ℕ) : stoi (fixed w n) = some (n : ℤ) := by
  rw [stoi_digits fixed_ne_nil fun _ => isDigit_of_mem_fixed, ofDigitChars_fixed]

theorem parse_yyyymmdd (h : d.year < 10 ^ 4) :
    MyDate.parse (yyyymmdd d) = some (MyDate.ofDate d) := by
  have hyear : (fixed 4 d.year).length = 4 := length_fixed (by decide) h
  have hmonth : (fixed 2 d.month).length = 2 :=
    length_fixed (by decide) (d.month_le.trans_lt (by decide))
  have hday : (fixed 2 d.day).length = 2 :=
    length_fixed (by decide) (d.day_le_31.trans_lt (by decide))
  have hbytes : textBytes (yyyymmdd d) =
      fixed 4 d.year ++ (fixed 2 d.month ++ fixed 2 d.day) := by
    refine textBytes_digits fun c hc => ?_
    rcases List.mem_append.mp hc with hc | hc
    · exact isDigit_of_mem_fixed hc
    · rcases List.mem_append.mp hc with hc | hc <;> exact isDigit_of_mem_fixed hc
  have h0 : substr (yyyymmdd d) 0 4 = some (fixed 4 d.year) := by
    simp [substr, hbytes, List.take_left' hyear]
  have h4 : substr (yyyymmdd d) 4 2 = some (fixed 2 d.month) := by
    simp [substr, hbytes, List.drop_left' hyear, List.take_left' hmonth, hyear]
  have h6 : substr (yyyymmdd d) 6 2 = some (fixed 2 d.day) := by
    have hdrop : (fixed 4 d.year ++ (fixed 2 d.month ++ fixed 2 d.day)).drop 6 =
        fixed 2 d.day := by
      rw [← List.append_assoc, List.drop_left' (by rw [List.length_append, hyear, hmonth])]
    have htake : (fixed 2 d.day).take 2 = fixed 2 d.day := List.take_of_length_le hday.le
    simp [substr, hbytes, hdrop, hyear, hmonth, hday, htake]
  unfold MyDate.parse
  rw [h0, h4, h6]
  simp only [Option.bind_eq_bind, Option.bind_some, stoi_fixed]
  rfl

/-- The padding of `checkDate` is that of two digits. -/
theorem toString_padded {n : ℕ} (h : n < 10 ^ 2) :
    ((if (n : ℤ) < 10 then "0" ++ toString (n : ℤ) else toString (n : ℤ)) : String).toList =
      fixed 2 n := by
  have htext : (toString (n : ℤ)).toList = Nat.toDigits 10 n := Nat.toList_repr
  by_cases hn : n < 10
  · have hlen : (Nat.toDigits 10 n).length = 1 := by
      rw [Nat.toDigits_of_lt_base hn]
      rfl
    rw [if_pos (by omega), String.toList_append, htext, fixed, hlen]
    rfl
  · rw [if_neg (by omega), htext, fixed_of_le (by omega)]

/-- A date with a year of four digits is written as it will be read. -/
theorem newTime_eq (h : 10 ^ 3 ≤ d.year) : (MyDate.ofDate d).newTime = yyyymmdd d := by
  have hyear : (toString (d.year : ℤ)).toList = fixed 4 d.year := by
    rw [fixed_of_le h]
    exact Nat.toList_repr
  have hmonth := toString_padded (d.month_le.trans_lt (by decide))
  have hday := toString_padded (d.day_le_31.trans_lt (by decide))
  apply String.toList_injective
  rw [yyyymmdd, String.toList_ofList, ← hyear, ← hmonth, ← hday, ← String.toList_append,
    ← String.toList_append, ← String.append_assoc]
  rfl

/-! ### The tests between two dates -/

theorem dueOn_iff : DueOn d e ↔ d.year ≠ e.year ∨ d.month + 1 < e.month ∨
    d.day < e.day ∧ e.month = d.month + 1 := by
  simp only [DueOn, MyDate.Due, MyDate.ofDate]
  omega

/-- What `checkDate` makes of the text of a date. -/
theorem checkDate_yyyymmdd (h : d.year < 10 ^ 4) :
    BackupDb.checkDate (MyDate.ofDate e) (yyyymmdd d) =
      some (if DueOn d e then (true, (MyDate.ofDate e).newTime) else (false, yyyymmdd d)) := by
  rw [checkDate_eq, parse_yyyymmdd h, Option.map_some]
  rfl

/-- A date that is not due is at most 31 days old. -/
theorem sub_le_of_not_dueOn (hle : d ≤ e) (h : ¬ DueOn d e) :
    e.dayNumber ≤ d.dayNumber + 31 := by
  rw [dueOn_iff] at h
  rw [CalendarDate.le_iff] at hle
  by_cases hmonth : d.month = e.month
  · have hsame := CalendarDate.sub_le_of_same_month (by omega) hmonth
    omega
  · exact CalendarDate.sub_le_of_next_month (by omega) (by omega) (by omega)

/-- A date that is due stays due. -/
theorem dueOn_mono {later : CalendarDate} (hde : d ≤ e) (hle : e ≤ later) (h : DueOn d e) :
    DueOn d later := by
  rw [dueOn_iff] at h ⊢
  rw [CalendarDate.le_iff] at hde hle
  omega

theorem not_dueOn_self : ¬ DueOn d d := by
  rw [dueOn_iff]
  omega

end BackupDateLemmas

open BackupDateLemmas

/-! ## A backup is never overdue -/

/-- A start of the program: its date, how its backup ends, and the user database that it
finds. -/
structure Start where
  date : CalendarDate
  outcome : BackupOutcome
  user : UserTable

/-- The disk behind a start. -/
def Disk.next (disk : Disk) (i : Start) : Disk :=
  start (MyDate.ofDate i.date) i.outcome { disk with user := i.user }

/-- What a start finds on the disk is a date `last`, not after the start. If `checkDate`
answers false, at most 31 days have passed. If it answers true, it does so on every later
date, and what it writes is read back as the date of the start, on which it answers
false. -/
def OnTime (disk : Disk) (i : Start) : Prop :=
  ∃ last : CalendarDate, MyDate.parse disk.lastBackupTime = some (MyDate.ofDate last) ∧
    last ≤ i.date ∧
    ∃ answer lastBackupTime,
      BackupDb.checkDate (MyDate.ofDate i.date) disk.lastBackupTime =
        some (answer, lastBackupTime) ∧
      (disk.next i).lastBackupTime = lastBackupTime ∧
      (answer = false → i.date.dayNumber ≤ last.dayNumber + 31) ∧
      (answer = true →
        (∀ later, i.date ≤ later →
          ((BackupDb.checkDate (MyDate.ofDate later) disk.lastBackupTime).map Prod.fst) =
            some true) ∧
        MyDate.parse lastBackupTime = some (MyDate.ofDate i.date) ∧
        BackupDb.checkDate (MyDate.ofDate i.date) lastBackupTime = some (false, lastBackupTime))

namespace BackupDateLemmas

variable {disk : Disk} {i : Start} {last : CalendarDate}

/-- The disk holds a date that is not after `d`. -/
def Dated (disk : Disk) (d : CalendarDate) : Prop :=
  ∃ last : CalendarDate, last.year < 10 ^ 4 ∧ last ≤ d ∧ disk.lastBackupTime = yyyymmdd last

theorem next_lastBackupTime (h : last.year < 10 ^ 4) (hi : 10 ^ 3 ≤ i.date.year)
    (htext : disk.lastBackupTime = yyyymmdd last) :
    (disk.next i).lastBackupTime =
      if DueOn last i.date then yyyymmdd i.date else yyyymmdd last := by
  have hdate : Disk.BackupDue { disk with user := i.user } (MyDate.ofDate i.date) ↔
      DueOn last i.date := by
    simp [Disk.BackupDue, htext, parse_yyyymmdd h, DueOn]
  by_cases hdue : DueOn last i.date
  · rw [Disk.next, start_due (hdate.mpr hdue), if_pos hdue, newTime_eq hi]
  · rw [Disk.next, start_not_due (mt hdate.mp hdue), if_neg hdue, htext]

/-- One start on a dated disk is on time. -/
theorem onTime_of_dated (h : Dated disk i.date) (hi : 10 ^ 3 ≤ i.date.year)
    (hi' : i.date.year < 10 ^ 4) : OnTime disk i := by
  obtain ⟨last, hyear, hle, htext⟩ := h
  have hnext := next_lastBackupTime (i := i) hyear hi htext
  refine ⟨last, by rw [htext, parse_yyyymmdd hyear], hle, ?_⟩
  rw [hnext, htext]
  by_cases hdue : DueOn last i.date
  · refine ⟨true, yyyymmdd i.date, ?_, if_pos hdue, nofun, ?_⟩
    · rw [checkDate_yyyymmdd hyear, if_pos hdue, newTime_eq hi]
    · intro _
      refine ⟨?_, parse_yyyymmdd hi', ?_⟩
      · intro later hlater
        rw [checkDate_yyyymmdd hyear, if_pos (dueOn_mono hle hlater hdue)]
        rfl
      · rw [checkDate_yyyymmdd hi', if_neg not_dueOn_self]
  · refine ⟨false, yyyymmdd last, ?_, if_neg hdue, ?_, nofun⟩
    · rw [checkDate_yyyymmdd hyear, if_neg hdue]
    · exact fun _ => sub_le_of_not_dueOn hle hdue

/-- The disk is dated for the next start. -/
theorem dated_next {d : CalendarDate} (h : Dated disk i.date) (hi : 10 ^ 3 ≤ i.date.year)
    (hi' : i.date.year < 10 ^ 4) (hd : i.date ≤ d) : Dated (disk.next i) d := by
  obtain ⟨last, hyear, hle, htext⟩ := h
  have hnext := next_lastBackupTime (i := i) hyear hi htext
  by_cases hdue : DueOn last i.date
  · exact ⟨i.date, hi', hd, by rw [hnext, if_pos hdue]⟩
  · exact ⟨last, hyear, hle.trans hd, by rw [hnext, if_neg hdue]⟩

end BackupDateLemmas

/-- Over starts on non-decreasing dates with years of four digits, from a date not after
the first of them, every start is on time. -/
theorem onTime {last : CalendarDate} {disk : Disk} {l : List Start}
    (hdisk : disk.lastBackupTime = yyyymmdd last) (hlast : last.year < 10 ^ 4)
    (hyears : ∀ i ∈ l, 10 ^ 3 ≤ i.date.year ∧ i.date.year < 10 ^ 4)
    (hsorted : (last :: l.map Start.date).Pairwise (· ≤ ·)) :
    ∀ v ∈ Run.visits Disk.next disk l, OnTime v.1 v.2 := by
  rw [List.pairwise_cons] at hsorted
  have hdated : ∀ i ∈ l, Dated disk i.date := by
    intro i hi
    exact ⟨last, hlast, hsorted.1 _ (List.mem_map_of_mem hi), hdisk⟩
  have hdates := hsorted.2
  -- what the induction carries: the disk is dated for all the starts to come
  clear hdisk hsorted
  induction l generalizing disk with
  | nil => exact fun v hv => nomatch hv
  | cons i l ih =>
    rw [List.map_cons, List.pairwise_cons] at hdates
    obtain ⟨hi, hi'⟩ := hyears i List.mem_cons_self
    have hhere := hdated i List.mem_cons_self
    intro v hv
    rcases List.mem_cons.mp hv with rfl | hv
    · exact onTime_of_dated hhere hi hi'
    · refine ih (fun j hj => hyears j (List.mem_cons_of_mem i hj)) ?_ hdates.2 v hv
      intro j hj
      exact dated_next hhere hi hi' (hdates.1 _ (List.mem_map_of_mem hj))

/-- A first date, two starts on a day more than a month later, and a start in May. -/
def exDates : List CalendarDate :=
  [⟨2023, 2, 20, by decide, by decide, by decide, by decide⟩,
    ⟨2023, 3, 21, by decide, by decide, by decide, by decide⟩,
    ⟨2023, 3, 21, by decide, by decide, by decide, by decide⟩,
    ⟨2023, 5, 1, by decide, by decide, by decide, by decide⟩]

/-- The starts on all but the first of these dates. -/
def exStarts : List Start :=
  exDates.tail.map fun d => ⟨d, ⟨true, true, true⟩, KeyedTable.empty UserRow.dmId⟩

theorem onTime_exStarts : (Run.visits Disk.next exDisk exStarts).length = 3 ∧
    ∀ v ∈ Run.visits Disk.next exDisk exStarts, OnTime v.1 v.2 := by
  have hdisk : exDisk.lastBackupTime =
      yyyymmdd ⟨2023, 2, 20, by decide, by decide, by decide, by decide⟩ := by decide +kernel
  exact ⟨rfl, onTime hdisk (by decide) (by decide +kernel) (by decide +kernel)⟩

/-! ## A backup is not overwritten early -/

/-- From a date on, `checkDate` answers true only behind 28 days, and before that date it
answers false and leaves `config.yaml` as it is. -/
def KeepsBackup (last today : CalendarDate) : Prop :=
  (last ≤ today → ∀ lastBackupTime,
    BackupDb.checkDate (MyDate.ofDate today) (yyyymmdd last) = some (true, lastBackupTime) →
      last.dayNumber + 28 ≤ today.dayNumber) ∧
  (today < last → BackupDb.checkDate (MyDate.ofDate today) (yyyymmdd last) =
    some (false, yyyymmdd last))

namespace BackupDateLemmas

variable {last today : CalendarDate}

/-- `KeepsBackup` in terms of the tests. -/
theorem keepsBackup_iff_dueOn (h : last.year < 10 ^ 4) : KeepsBackup last today ↔
    (last ≤ today → DueOn last today → last.dayNumber + 28 ≤ today.dayNumber) ∧
      (today < last → ¬ DueOn last today) := by
  rw [KeepsBackup, checkDate_yyyymmdd h]
  by_cases hdue : DueOn last today <;> simp [hdue]

/-- Unless the year has turned from December to January, what is due is 28 days old. -/
theorem le_sub_of_dueOn (hle : last ≤ today) (hdue : DueOn last today)
    (h : ¬ (today.year = last.year + 1 ∧ last.month = 12 ∧ today.month = 1)) :
    last.dayNumber + 28 ≤ today.dayNumber := by
  rw [dueOn_iff] at hdue
  rw [CalendarDate.le_iff] at hle
  by_cases hyear : last.year = today.year
  · by_cases hmonth : last.month + 1 < today.month
    · have hlater := CalendarDate.le_sub_of_later_month hyear hmonth
      omega
    · have hnext := CalendarDate.le_sub_of_next_month hyear (by omega) (by omega)
      omega
  · exact CalendarDate.le_sub_of_later_year (by omega) h

end BackupDateLemmas

/-- The backup is kept exactly when the clock is not set back across the end of a year,
and the start is not in the January behind a December less than 28 days away. -/
theorem keepsBackup_iff {last today : CalendarDate} (h : last.year < 10 ^ 4) :
    KeepsBackup last today ↔ ¬ today.year < last.year ∧
      ¬ (today.year = last.year + 1 ∧ last.month = 12 ∧ today.month = 1 ∧
        today.day + 3 < last.day) := by
  rw [keepsBackup_iff_dueOn h]
  constructor
  · rintro ⟨hearly, hback⟩
    constructor
    · intro hyear
      refine hback (CalendarDate.lt_iff.mpr (.inl hyear)) ?_
      exact dueOn_iff.mpr (.inl hyear.ne')
    · rintro ⟨hyear, hdec, hjan, hday⟩
      have hturn := CalendarDate.dayNumber_turn_of_year hyear hdec hjan
      have hfar := hearly (CalendarDate.le_iff.mpr (.inl (by omega)))
        (dueOn_iff.mpr (.inl (by omega)))
      omega
  · rintro ⟨hclock, hturn⟩
    constructor
    · intro hle hdue
      -- closer than 28 days only from a December to the January behind it
      by_cases hnew : today.year = last.year + 1 ∧ last.month = 12 ∧ today.month = 1
      · have hdays := CalendarDate.dayNumber_turn_of_year hnew.1 hnew.2.1 hnew.2.2
        omega
      · exact le_sub_of_dueOn hle hdue hnew
    · intro hlt
      rw [CalendarDate.lt_iff] at hlt
      rw [dueOn_iff]
      omega

/-- A month and a day later. -/
theorem keepsBackup_exDates :
    KeepsBackup ⟨2023, 2, 20, by decide, by decide, by decide, by decide⟩
      ⟨2023, 3, 21, by decide, by decide, by decide, by decide⟩ :=
  (keepsBackup_iff (by decide)).mpr (by decide)

def exEve : CalendarDate := ⟨2022, 12, 31, by decide, by decide, by decide, by decide⟩

def exNewYear : CalendarDate := ⟨2023, 1, 1, by decide, by decide, by decide, by decide⟩

/-- The copy of New Year's Eve is overwritten on New Year's Day, and a clock set back from
there writes the day before. -/
theorem not_keepsBackup : ¬ KeepsBackup exEve exNewYear ∧ ¬ KeepsBackup exNewYear exEve := by
  constructor
  · intro h
    rw [keepsBackup_iff_dueOn (by decide)] at h
    have hfar : exEve.dayNumber + 28 ≤ exNewYear.dayNumber := h.1 (by decide) (by decide)
    have heve : exEve.day = 31 := rfl
    have hnew : exNewYear.day = 1 := rfl
    have hturn := CalendarDate.dayNumber_turn_of_year (d := exEve) (e := exNewYear) rfl rfl rfl
    omega
  · intro h
    rw [keepsBackup_iff_dueOn (by decide)] at h
    exact h.2 (by decide) (by decide)

end QrAddon
