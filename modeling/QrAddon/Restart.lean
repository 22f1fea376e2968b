import QrAddon.Interference
import QrAddon.Lifecycle

/-!
# The program is killed and started again

`sigHandler` leaves by `exit` from whatever thread the signal meets, and a failing thread
does the same. SQLite runs every statement alone, so an end of the program falls between
two statements of `Machine`: the tables are what they were, and the next start opens them
with all variables of `main` initialised.

`never_overlooked` is the result: no kill, no failing statement and no operator makes the
program step over the recommendation of a code.
-/

namespace QrAddon

section

variable [Doubles]

/-! ## Runs with kills -/

/-- What a new start makes of the state in which the last one ended. -/
def Main.restarted (s : Main) : Main := { Main.start with user := s.user, self := s.self }

namespace Machine

/-- A move of the machine, or its end and the next start. -/
inductive Op
  | move (m : Move)
  | kill

def restart (s : Machine) : Machine := ⟨s.turn.toMain.restarted.opened, .retrieve, []⟩

section

variable (cfg : Config ℚ) (account : Account)

def op (s : Machine) : Op → Machine
  | .move m => s.move cfg account m
  | .kill => s.restart

/-- The machine after the operations `l`, kills among them. -/
def lives (l : List Op) : Machine := Run.exec (op cfg account) start l

end

/-- A package whose branches are of mode `m`. What its statements return is free. -/
def Op.Only (m : Mode) : Op → Prop
  | .move (.package i) => ∀ b ∈ i.body.branches, b.mode = m
  | .move .exec | .move (.operator _ _) | .kill => True

/-- The operator disables a code. -/
def Op.disables : Op → Bool
  | .move (.operator _ enable) => !enable
  | .move (.package _) | .move .exec | .kill => false

end Machine

/-! ## The recommendation -/

/-- The count has come to the repeat number without the flag. LOCALIZATION does not flag
the codes that are enabled. -/
structure Overlooked (cfg : Config ℚ) (m : Mode) (cnt : ℕ) (recommend enable : Bool) : Prop where
  reached : (cfg.repeatNum m).toNat ≤ cnt
  unflagged : recommend = false
  due : m = .recording ∨ enable = false

/-- Main holds a `DM` that it is going to write. -/
def Pc.Writing : Pc → Prop
  | .insert _ | .log _ _ | .fit _ _ | .update _ => True
  | .retrieve | .logNew _ => False

/-- Neither a row nor the `DM` that main is going to write is overlooked. -/
structure Machine.Watched (cfg : Config ℚ) (m : Mode) (s : Machine) : Prop where
  flag : s.turn.whetherCb = false
  rest : ∀ b ∈ s.rest, b.mode = m
  rows : ∀ id r, s.turn.user.find? id = some r →
    ¬ Overlooked cfg m r.dmCnt r.recommend r.enable
  dm : s.pc.Writing →
    ¬ Overlooked cfg m s.turn.dm.cnt.toNat s.turn.dm.recommend s.turn.dm.enable

namespace RestartLemmas

open Machine InterferenceLemmas

variable {cfg : Config ℚ} {account : Account} {m : Mode} {s : Machine}

/-- What the deviation check keeps, and what it counts. -/
structure Checked (t u : Turn) : Prop where
  cnt : u.dm.cnt = t.dm.cnt
  recommend : u.dm.recommend = t.dm.recommend
  self : u.self = t.self
  ori : u.ori.id = t.ori.id
  sloppyCnt : u.dm.sloppyCnt = t.dm.sloppyCnt ∨ u.dm.sloppyCnt = t.dm.sloppyCnt + 1

theorem checkDeviation_checked (cfg : Config ℚ) (sloppy : Length ℚ) (t : Turn) :
    Checked t (t.checkDeviation cfg sloppy) := by
  by_cases hfar : sloppy.Exceeds cfg.locErrThreshold
  · rw [checkDeviation_far hfar]
    exact ⟨rfl, rfl, rfl, rfl, .inr rfl⟩
  · rw [checkDeviation_near hfar]
    exact ⟨rfl, rfl, rfl, rfl, .inl rfl⟩

variable (cfg account) in
/-- What the lines behind a look-up do to the count and to the flag of the `DM`. -/
theorem known_dm (b : Branch) (t : Turn) :
    (b.known cfg account t).2.dm.cnt = t.dm.cnt + 1 ∧
      ((b.known cfg account t).2.dm.recommend = true ↔ t.dm.recommend = true ∨
        if t.dm.enable = true then b.mode = .recording
        else (t.dm.cnt + 1).toNat = (cfg.repeatNum b.mode).toNat) := by
  have hcnt : t.dm.updateCnt.cnt = t.dm.cnt + 1 := rfl
  cases b with
  | recording deviInfo env =>
    have hn : cfg.repeatNum .recording = cfg.mappRepeatNum := rfl
    simp only [Branch.known, Branch.mode, DmInfo.updateCnt_enable, hcnt, hn]
    by_cases hon : t.dm.enable = true
    · rw [if_pos hon, if_pos hon]
      refine ⟨(checkDeviation_checked cfg _ _).cnt, ?_⟩
      simp only [(checkDeviation_checked cfg _ _).recommend]
      exact iff_of_true rfl (.inr trivial)
    · rw [if_neg hon, if_neg hon]
      split
      · next heq => exact ⟨rfl, iff_of_true rfl (.inr heq)⟩
      · next hne => exact ⟨rfl, (or_iff_left hne).symm⟩
  | localization env =>
    have hn : cfg.repeatNum .localization = cfg.locRepeatNum := rfl
    simp only [Branch.known, Branch.mode, DmInfo.updateCnt_enable, hcnt, hn]
    by_cases hon : t.dm.enable = true
    · rw [if_pos hon, if_pos hon]
      refine ⟨(checkDeviation_checked cfg _ _).cnt, ?_⟩
      simp only [(checkDeviation_checked cfg _ _).recommend]
      simp [Turn.post, Turn.getSessionId]
    · rw [if_neg hon, if_neg hon]
      split
      · next heq => exact ⟨rfl, iff_of_true rfl (.inr heq)⟩
      · next hne => exact ⟨rfl, (or_iff_left hne).symm⟩

omit [Doubles] in
/-- A count below the repeat number comes at most up to it. -/
theorem counted_le {n : ℕ} {N : UInt16} (h : n < N.toNat) :
    (readCounter n + 1).toNat ≤ N.toNat := by
  have hN := N.toNat_lt
  rw [readCounter_succ (by omega)]
  exact h

/-- Counting a row that is not overlooked does not overlook it. -/
theorem known_watched {b : Branch} (hb : b.mode = m) {t : Turn} {r : UserRow}
    (ht : t.dm = UserDb.loaded r) (hr : ¬ Overlooked cfg m r.dmCnt r.recommend r.enable) :
    ¬ Overlooked cfg m (b.known cfg account t).2.dm.cnt.toNat
      (b.known cfg account t).2.dm.recommend (b.known cfg account t).2.dm.enable := by
  rintro ⟨hreached, hflag, hdue⟩
  obtain ⟨hcnt, hrec⟩ := known_dm cfg account b t
  have henable : (b.known cfg account t).2.dm.enable = r.enable := by
    rw [(known_frame cfg account b t).enable, ht]
    rfl
  rw [hcnt, ht] at hreached
  rw [henable] at hdue
  rw [ht, hb] at hrec
  have hno := mt hrec.mpr (by simp [hflag])
  obtain ⟨hrow, htest⟩ := not_or.mp hno
  by_cases hon : r.enable = true
  · -- LOCALIZATION leaves it to the operator
    rw [if_pos (show (UserDb.loaded r).enable = true from hon)] at htest
    rcases hdue with hm | hoff
    · exact htest hm
    · rw [hon] at hoff
      cases hoff
  · rw [if_neg (show ¬ (UserDb.loaded r).enable = true from hon)] at htest
    have hoff : r.enable = false := by simpa using hon
    have hmiss : r.dmCnt < (cfg.repeatNum m).toNat := by
      by_contra hge
      exact hr ⟨not_lt.mp hge, Bool.eq_false_iff.mpr hrow, .inr hoff⟩
    exact htest (le_antisymm (counted_le hmiss) hreached)

theorem look_watched (hN : 2 ≤ (cfg.repeatNum m).toNat) {b : Branch} {bs : List Branch} {t : Turn}
    (h : Watched cfg m ⟨t, .retrieve, b :: bs⟩) :
    Watched cfg m ⟨(b.look cfg account t).2, (b.look cfg account t).1, bs⟩ := by
  have hrest : ∀ c ∈ bs, c.mode = m := fun c hc => h.rest c (List.mem_cons_of_mem _ hc)
  have hflag : (b.look cfg account t).2.whetherCb = false := look_flag h.flag
  unfold Branch.look at hflag ⊢
  rw [retrieve_eq h.flag] at hflag ⊢
  cases hlook : UserDb.lookedUp t.user b.env.lookup t.dm.id with
  | none =>
    rw [hlook] at hflag
    refine ⟨hflag, hrest, ?_, ?_⟩
    · simp only [(unknown_frame b _).1]
      exact h.rows
    · rintro - ⟨hreached, _, _⟩
      -- a new code is at 1
      have hone :
          (b.unknown { t with events := t.events ++ [.lookup b.mode t.dm] }).dm.cnt = 1 := by
        cases b <;> rfl
      simp only [hone] at hreached
      have h1 : (1 : UInt64).toNat = 1 := rfl
      omega
  | some r =>
    rw [hlook] at hflag
    obtain ⟨hr, _⟩ := UserDb.lookedUp_some hlook
    refine ⟨hflag, hrest, ?_, ?_⟩
    · simp only [(known_frame cfg account b _).user]
      exact h.rows
    · intro _
      exact known_watched (h.rest b List.mem_cons_self) rfl (h.rows _ _ hr)

theorem exec_watched (hN : 2 ≤ (cfg.repeatNum m).toNat) (h : s.Watched cfg m) :
    (s.exec cfg account).Watched cfg m := by
  have hflag : (s.exec cfg account).turn.whetherCb = false := exec_flag h.flag
  obtain ⟨t, pc, rest⟩ := s
  cases pc with
  | retrieve =>
    cases rest with
    | nil => exact h
    | cons b bs => exact look_watched hN h
  | insert env =>
    refine ⟨hflag, h.rest, ?_, False.elim⟩
    intro id r hr
    simp only [exec, Turn.emit, UserDb.find?_addContent] at hr
    split at hr
    · cases hr
      exact h.dm trivial
    · exact h.rows id r hr
  | logNew env => exact ⟨hflag, h.rest, h.rows, False.elim⟩
  | log env fit => cases fit <;> exact ⟨hflag, h.rest, h.rows, h.dm⟩
  | fit env n =>
    refine ⟨hflag, h.rest, ?_, ?_⟩
    · simp only [exec, (fit_frame env n t).user]
      exact h.rows
    · intro _
      have hdm := h.dm trivial
      simpa only [exec, Turn.fit, SelfDb.fitPose_dm] using hdm
  | update env =>
    refine ⟨hflag, h.rest, ?_, False.elim⟩
    intro id r hr
    simp only [exec, Turn.writeBack, UserDb.find?_updateDataBase] at hr
    split at hr
    · obtain ⟨w, _, rfl⟩ := Option.map_eq_some_iff.mp hr
      exact h.dm trivial
    · exact h.rows id r hr

omit [Doubles] in
theorem operator_watched (h : s.Watched cfg m) {id : UInt32} {enable : Bool}
    (hoff : m = .recording ∨ enable = true) : (s.operator id enable).Watched cfg m := by
  refine ⟨h.flag, h.rest, ?_, h.dm⟩
  intro id' r hr
  simp only [operator, UserDb.find?_setEnable] at hr
  split at hr
  · obtain ⟨w, hw, rfl⟩ := Option.map_eq_some_iff.mp hr
    rintro ⟨hreached, hflag, hdue⟩
    rcases hoff with hm | hon
    · exact h.rows id' w hw ⟨hreached, hflag, .inl hm⟩
    · rcases hdue with hm | hoff
      · exact h.rows id' w hw ⟨hreached, hflag, .inl hm⟩
      · rw [hon] at hoff
        cases hoff
  · exact h.rows id' r hr

omit [Doubles] in
variable (cfg m) in
theorem start_watched : Machine.start.Watched cfg m := ⟨rfl, nofun, nofun, nofun⟩

/-- Every operation keeps the machine from overlooking a code. -/
theorem op_watched (hN : 2 ≤ (cfg.repeatNum m).toNat) (h : s.Watched cfg m) {o : Op}
    (honly : o.Only m) (hoff : m = .recording ∨ o.disables = false) :
    (s.op cfg account o).Watched cfg m := by
  cases o with
  | kill => exact ⟨rfl, nofun, h.rows, nofun⟩
  | move mv =>
    cases mv with
    | exec => exact exec_watched hN h
    | operator id enable => exact operator_watched h (hoff.imp_right (by simp [Op.disables]))
    | package i =>
      have hflag := package_flag h.flag i
      show (s.package i).Watched cfg m
      unfold Machine.package at hflag ⊢
      split
      · next hpc _ => exact ⟨h.flag, honly, h.rows, by rw [hpc]; exact False.elim⟩
      · exact h

end RestartLemmas

open Machine RestartLemmas

variable (cfg : Config ℚ) (account : Account)

/-- A repeat number of at least 2, and packages of its mode only: whatever the statements
return, wherever the operator's updates fall and wherever the program is killed and started
again, every row whose count has come to the repeat number is recommended. In LOCALIZATION
this is so of the disabled rows, if the operator disables none. -/
theorem never_overlooked {m : Mode} (hN : 2 ≤ (cfg.repeatNum m).toNat) {l : List Op}
    (honly : ∀ o ∈ l, o.Only m) (hoff : m = .recording ∨ ∀ o ∈ l, o.disables = false) :
    ∀ r ∈ (lives cfg account l).turn.user.rows, (cfg.repeatNum m).toNat ≤ r.dmCnt →
      m = .recording ∨ r.enable = false → r.recommend = true := by
  have hrun : (lives cfg account l).Watched cfg m := by
    refine Run.exec_invariant (P := Machine.Watched cfg m) (start_watched cfg m) ?_
    intro v hv h
    have hmem : v.2 ∈ l := by
      obtain ⟨pre, post, hl, _⟩ := Run.mem_visits hv
      rw [hl]
      exact List.mem_append_right _ List.mem_cons_self
    exact op_watched hN h (honly _ hmem) (hoff.imp_right fun hoff => hoff _ hmem)
  intro r hr hreached hdue
  by_contra hflag
  exact hrun.rows r.dmId r (KeyedTable.find?_eq_some.mpr ⟨hr, rfl⟩)
    ⟨hreached, Bool.eq_false_iff.mpr hflag, hdue⟩

end

open scoped Exact

open Machine

/-- Code 7 is inserted and the program killed. It is started again, and meets the code once
more: that brings the count to the repeat number, with one row in the log. -/
def exKilled : List Op :=
  let seen := .move (.package (exSighting .recording 7 0))
  [seen, .move .exec, .move .exec, .kill, seen, .move .exec, .move .exec]

theorem exKilled_only : ∀ o ∈ exKilled, o.Only .recording := by
  have hseen : Op.Only .recording (.move (.package (exSighting .recording 7 0))) := by
    intro b hb
    cases List.mem_singleton.mp hb
    rfl
  simp only [exKilled, List.forall_mem_cons, List.not_mem_nil, false_implies, implies_true]
  exact ⟨hseen, trivial, trivial, trivial, hseen, trivial, trivial, trivial⟩

/-- The two statements behind it: the fit and the write-back. -/
def exFitted : List Op := exKilled ++ [.move .exec, .move .exec]

theorem exFitted_only : ∀ o ∈ exFitted, o.Only .recording := by
  intro o ho
  rcases List.mem_append.mp ho with ho | ho
  · exact exKilled_only o ho
  · rcases List.mem_pair.mp ho with rfl | rfl <;> exact trivial

theorem never_overlooked_exFitted :
    ((lives exConfig exAccount exFitted).turn.user.find? 7).map (·.dmCnt) = some 2 ∧
      ∀ r ∈ (lives exConfig exAccount exFitted).turn.user.rows,
        (exConfig.repeatNum .recording).toNat ≤ r.dmCnt →
          Mode.recording = .recording ∨ r.enable = false → r.recommend = true :=
  ⟨by decide,
    never_overlooked exConfig exAccount (by decide) exFitted_only (.inl rfl)⟩

end QrAddon
