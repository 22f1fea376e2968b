import QrAddon.Restart

/-!
# What a kill leaves in the databases

Over clean packages the log and the counts of a code differ by the kills that fell between
two statements of one branch. `Machine.Balanced` is the invariant, and the two results are
read off it.

Results:
1. `logged_counted`: by how much the log and the counts of a code disagree is the number of
   kills between its two statements.
2. `fit_complete_iff`: when a fit divides by the number of rows that it sums.
-/

namespace QrAddon

open Machine RestartLemmas

section

variable [Doubles] (cfg : Config ℚ) (account : Account)

/-- The statements of a branch succeed. -/
structure BranchEnv.Sound (env : BranchEnv) : Prop where
  lookup : env.lookup.rc = .ok
  user : env.userOk = true
  self : env.selfOk = true

namespace Machine

/-- Packages are clean. The operator and the kills are free. -/
def Op.Clean : Op → Prop
  | .move (.package i) => i.Clean
  | .move .exec | .move (.operator _ _) | .kill => True

def Op.isPackage : Op → Bool
  | .move (.package _) => true
  | .move .exec | .move (.operator _ _) | .kill => false

def Op.isKill : Op → Bool
  | .kill => true
  | .move _ => false

/-- The packages that arrive. -/
def packages (l : List Op) : ℕ := l.countP Op.isPackage

/-- How often a code is logged. -/
def logged (id : UInt32) (s : Machine) : ℕ := (SelfDb.rowsOf id s.turn.self.values).length

/-- How often a code is counted in its row. -/
def stored (id : UInt32) (s : Machine) : ℕ := (s.turn.user.find? id).elim 0 (·.dmCnt)

/-- 1 when main has inserted the row of `id` and is about to log it. -/
def unlogged (id : UInt32) (s : Machine) : ℕ :=
  match s.pc with
  | .logNew _ => if s.turn.dm.id = id then 1 else 0
  | .retrieve | .insert _ | .log _ _ | .fit _ _ | .update _ => 0

/-- 1 when main has logged the known code `id` and is about to fit it or to write its
count. -/
def uncounted (id : UInt32) (s : Machine) : ℕ :=
  match s.pc with
  | .fit _ _ | .update _ => if s.turn.dm.id = id then 1 else 0
  | .retrieve | .insert _ | .logNew _ | .log _ _ => 0

/-- What the kills of a run lose of such statements. -/
def lost (p : Machine → ℕ) (l : List Op) : ℕ :=
  ((Run.visits (op cfg account) start l).map fun v => if v.2.isKill then p v.1 else 0).sum

/-- The log statements to come. -/
def toLog (s : Machine) : ℕ :=
  s.rest.length + match s.pc with
    | .insert _ | .logNew _ | .log _ _ => 1
    | .retrieve | .fit _ _ | .update _ => 0

/-- The counts to come. -/
def toCount (s : Machine) : ℕ :=
  s.rest.length + match s.pc with
    | .insert _ | .log _ _ | .fit _ _ | .update _ => 1
    | .retrieve | .logNew _ => 0

/-- What the next statement relies on. -/
def Prepared (s : Machine) : Prop :=
  match s.pc with
  | .retrieve => True
  | .insert env =>
    env.Sound ∧ s.turn.user.find? s.turn.dm.id = none ∧ s.turn.dm.cnt = 1
  | .logNew env => env.Sound
  | .log env fit => env.Sound ∧ (∀ n ∈ fit, s.turn.dm.cnt.toNat = n.toNat) ∧
    ∃ r, s.turn.user.find? s.turn.dm.id = some r ∧ s.turn.dm.cnt = readCounter r.dmCnt + 1
  | .fit env n => env.Sound ∧ s.turn.dm.cnt.toNat = n.toNat ∧
    ∃ r, s.turn.user.find? s.turn.dm.id = some r ∧ s.turn.dm.cnt = readCounter r.dmCnt + 1
  | .update env => env.Sound ∧
    ∃ r, s.turn.user.find? s.turn.dm.id = some r ∧ s.turn.dm.cnt = readCounter r.dmCnt + 1

/-- Main works on one code that is not 0, and what it has logged and counted and what it
is going to do comes from `n` packages. -/
structure Tidy (n : ℕ) (s : Machine) : Prop where
  flag : s.turn.whetherCb = false
  ori : s.turn.ori.id = s.turn.dm.id
  rest : ∀ b ∈ s.rest, b.env.Sound ∧ s.turn.dm.id ≠ 0
  prepared : s.Prepared
  log : s.turn.self.values.length + s.toLog ≤ n
  count : ∀ id r, s.turn.user.find? id = some r → r.dmCnt + s.toCount ≤ n

/-- The log and the count of a code, given the kills so far between the two: `a` in front
of the log, which can be one at most, and `b` behind it. -/
structure Balanced (id : UInt32) (a b : ℕ) (s : Machine) : Prop where
  sum : s.logged id + a + s.unlogged id = s.stored id + b + s.uncounted id
  once : a + s.unlogged id ≤ (s.turn.user.find? id).elim 0 fun _ => 1

end Machine

namespace RestartLemmas

open InterferenceLemmas

variable {cfg : Config ℚ} {account : Account} {s : Machine} {n : ℕ}

variable (cfg account) in
/-- The lines behind a look-up keep the log and the code. -/
theorem known_keeps (b : Branch) (t : Turn) :
    (b.known cfg account t).2.self = t.self ∧ (b.known cfg account t).2.ori.id = t.ori.id := by
  cases b with
  | recording deviInfo env =>
    simp only [Branch.known]
    split
    · exact ⟨(checkDeviation_checked cfg _ _).self, (checkDeviation_checked cfg _ _).ori⟩
    · split <;> exact ⟨rfl, rfl⟩
  | localization env =>
    simp only [Branch.known]
    split
    · exact ⟨(checkDeviation_checked cfg _ _).self, (checkDeviation_checked cfg _ _).ori⟩
    · split <;> exact ⟨rfl, rfl⟩

/-- A fit is due at the repeat number only. -/
theorem known_fit {b : Branch} {t : Turn} {k : UInt16} (h : (b.known cfg account t).1 = some k) :
    (b.known cfg account t).2.dm.cnt.toNat = k.toNat := by
  cases b with
  | recording deviInfo env =>
    simp only [Branch.known] at h ⊢
    split at h
    · cases h
    · split at h
      · next hoff heq =>
        cases h
        rw [if_neg hoff, if_pos heq]
        exact heq
      · cases h
  | localization env =>
    simp only [Branch.known] at h ⊢
    split at h
    · cases h
    · split at h
      · next hoff heq =>
        cases h
        rw [if_neg hoff, if_pos heq]
        exact heq
      · cases h

theorem look_tidy {b : Branch} {bs : List Branch} {t : Turn}
    (h : Tidy n ⟨t, .retrieve, b :: bs⟩) :
    Tidy n ⟨(b.look cfg account t).2, (b.look cfg account t).1, bs⟩ := by
  obtain ⟨hsound, hid⟩ := h.rest b List.mem_cons_self
  have hflag : (b.look cfg account t).2.whetherCb = false := look_flag h.flag
  have hlog : t.self.values.length + (bs.length + 1) ≤ n := h.log
  have hcount : ∀ id r, t.user.find? id = some r → r.dmCnt + (bs.length + 1) ≤ n := h.count
  unfold Branch.look at hflag ⊢
  rw [retrieve_eq h.flag] at hflag ⊢
  rw [UserDb.lookedUp_ok hsound.lookup hid] at hflag ⊢
  cases hlook : t.user.find? t.dm.id with
  | none =>
    rw [hlook] at hflag
    simp only at hflag ⊢
    have hdm (u : Turn) : (b.unknown u).dm.id = u.dm.id ∧ (b.unknown u).dm.cnt = 1 ∧
        (b.unknown u).ori.id = u.ori.id ∧ (b.unknown u).self = u.self := by
      cases b <;> exact ⟨rfl, rfl, rfl, rfl⟩
    obtain ⟨hdmId, hcnt, hori, hself⟩ := hdm { t with events := t.events ++ [.lookup b.mode t.dm] }
    have huser := (unknown_frame b { t with events := t.events ++ [.lookup b.mode t.dm] }).1
    refine ⟨hflag, ?_, ?_, ⟨hsound, ?_, hcnt⟩, ?_, ?_⟩
    · rw [hori, hdmId]
      exact h.ori
    · rw [hdmId]
      exact fun c hc => h.rest c (List.mem_cons_of_mem _ hc)
    · rw [hdmId, huser]
      exact hlook
    · rw [hself]
      exact hlog
    · rw [huser]
      exact hcount
  | some r =>
    rw [hlook] at hflag
    simp only at hflag ⊢
    generalize hu : ({ t with
      dm := UserDb.loaded r, events := t.events ++ [.lookup b.mode t.dm] } : Turn) = u at hflag ⊢
    obtain ⟨hself, hori⟩ := known_keeps cfg account b u
    have hframe := known_frame cfg account b u
    have hrid : r.dmId = t.dm.id := KeyedTable.key_of_find? hlook
    have hdm : u.dm = UserDb.loaded r := by rw [← hu]
    have huser : u.user = t.user := by rw [← hu]
    have hdmId : (b.known cfg account u).2.dm.id = t.dm.id := by
      rw [hframe.id, hdm]
      exact hrid
    refine ⟨hflag, ?_, ?_, ⟨hsound, ?_, r, ?_, ?_⟩, ?_, ?_⟩
    · rw [hori, hdmId, ← hu]
      exact h.ori
    · rw [hdmId]
      exact fun c hc => h.rest c (List.mem_cons_of_mem _ hc)
    · exact fun k hk => known_fit hk
    · rw [hdmId, hframe.user, huser]
      exact hlook
    · rw [(known_dm cfg account b u).1, hdm]
      rfl
    · rw [hself, ← hu]
      exact hlog
    · rw [hframe.user, huser]
      exact hcount

variable (cfg) in
/-- A log statement that succeeds below the cap adds a row of the snapshot's code. -/
theorem logSelf_values {env : BranchEnv} (hsound : env.Sound) {t : Turn}
    (hcap : t.self.values.length < cfg.maxRowSelfDb.toNat) :
    (t.logSelf cfg env).self.values = t.self.values ++ [SelfDb.row t.ori] := by
  show (SelfDb.addContent env.selfOk cfg.maxRowSelfDb t.self t.ori).values = _
  rw [SelfDb.values_addContent, hsound.self, if_neg (by decide), if_neg (not_le.mpr hcap)]

theorem exec_tidy (h : s.Tidy n) (hcap : n ≤ cfg.maxRowSelfDb.toNat) (hlt : n < 2 ^ 31) :
    (s.exec cfg account).Tidy n := by
  have hflag : (s.exec cfg account).turn.whetherCb = false := exec_flag h.flag
  obtain ⟨t, pc, rest⟩ := s
  have hlog := h.log
  have hcount := h.count
  cases pc with
  | retrieve =>
    cases rest with
    | nil => exact h
    | cons b bs => exact look_tidy h
  | insert env =>
    obtain ⟨hsound, hnone, hcnt⟩ := h.prepared
    refine ⟨hflag, h.ori, h.rest, hsound, hlog, ?_⟩
    intro id r hr
    simp only [exec, Turn.emit, UserDb.find?_addContent] at hr
    split at hr
    · cases hr
      have hone : (UserDb.row t.dm).dmCnt = 1 := by
        simp only [UserDb.row]
        rw [hcnt]
        rfl
      simp only [toLog, toCount, exec] at hlog ⊢
      omega
    · have := hcount id r hr
      simp only [toCount, exec] at this ⊢
      omega
  | logNew env =>
    refine ⟨hflag, h.ori, h.rest, trivial, ?_, hcount⟩
    have hsound : env.Sound := h.prepared
    simp only [toLog] at hlog
    simp only [exec, toLog]
    rw [logSelf_values cfg hsound (by omega), List.length_append, List.length_singleton]
    omega
  | log env fit =>
    obtain ⟨hsound, hfit, r, hr, hcnt⟩ := h.prepared
    simp only [toLog] at hlog
    have hvalues := logSelf_values cfg hsound (t := t) (by omega)
    cases fit with
    | none =>
      refine ⟨hflag, h.ori, h.rest, ⟨hsound, r, hr, hcnt⟩, ?_, hcount⟩
      simp only [exec, toLog]
      rw [hvalues, List.length_append, List.length_singleton]
      omega
    | some k =>
      refine ⟨hflag, h.ori, h.rest, ⟨hsound, hfit k rfl, r, hr, hcnt⟩, ?_, hcount⟩
      simp only [exec, toLog]
      rw [hvalues, List.length_append, List.length_singleton]
      omega
  | fit env k =>
    obtain ⟨hsound, hk, r, hr, hcnt⟩ := h.prepared
    have hdm : (t.fit env k).dm = { t.dm with pose := (t.fit env k).dm.pose } := by
      simp only [Turn.fit]
      rw [SelfDb.fitPose_dm]
    refine ⟨hflag, ?_, ?_, ⟨hsound, r, ?_, ?_⟩, hlog, ?_⟩
    · show t.ori.id = (t.fit env k).dm.id
      rw [hdm]
      exact h.ori
    · show ∀ b ∈ rest, b.env.Sound ∧ (t.fit env k).dm.id ≠ 0
      rw [hdm]
      exact h.rest
    · show t.user.find? (t.fit env k).dm.id = some r
      rw [hdm]
      exact hr
    · show (t.fit env k).dm.cnt = _
      rw [hdm]
      exact hcnt
    · exact hcount
  | update env =>
    obtain ⟨hsound, r, hr, hcnt⟩ := h.prepared
    refine ⟨hflag, h.ori, h.rest, trivial, hlog, ?_⟩
    intro id w hw
    simp only [exec, Turn.writeBack, UserDb.find?_updateDataBase] at hw
    have hroom := hcount _ r hr
    split at hw
    · obtain ⟨v, _, rfl⟩ := Option.map_eq_some_iff.mp hw
      have hnew : (UserDb.setColumns t.dm v).dmCnt = r.dmCnt + 1 := by
        simp only [UserDb.setColumns]
        simp only [toCount] at hroom
        rw [hcnt, readCounter_succ (by omega)]
      simp only [toCount, exec] at hroom ⊢
      omega
    · have := hcount id w hw
      simp only [toCount, exec] at this ⊢
      omega

omit [Doubles] in
/-- The operator's update keeps every count. -/
theorem setEnable_dmCnt (t : UserTable) (id id' : UInt32) (enable : Bool) :
    ((UserDb.setEnable t id enable).find? id').map (·.dmCnt) =
      (t.find? id').map (·.dmCnt) := by
  rw [UserDb.find?_setEnable]
  split
  · rw [Option.map_map]
    rfl
  · rfl

omit [Doubles] in
theorem operator_tidy (h : s.Tidy n) (id : UInt32) (enable : Bool) :
    (s.operator id enable).Tidy n := by
  obtain ⟨t, pc, rest⟩ := s
  have hsome (id' : UInt32) (r : UserRow) (hr : t.user.find? id' = some r) :
      ∃ w, (UserDb.setEnable t.user id enable).find? id' = some w ∧ w.dmCnt = r.dmCnt := by
    have hcnt := setEnable_dmCnt t.user id id' enable
    rw [hr] at hcnt
    exact Option.map_eq_some_iff.mp hcnt
  have hnone (id' : UInt32) (hr : t.user.find? id' = none) :
      (UserDb.setEnable t.user id enable).find? id' = none := by
    have hcnt := setEnable_dmCnt t.user id id' enable
    rw [hr] at hcnt
    exact Option.map_eq_none_iff.mp hcnt
  refine ⟨h.flag, h.ori, h.rest, ?_, h.log, ?_⟩
  · have hprepared := h.prepared
    cases pc with
    | retrieve | logNew env => exact hprepared
    | insert env => exact ⟨hprepared.1, hnone _ hprepared.2.1, hprepared.2.2⟩
    | log env fit =>
      obtain ⟨hsound, hfit, r, hr, hcnt⟩ := hprepared
      obtain ⟨w, hw, hsame⟩ := hsome _ r hr
      exact ⟨hsound, hfit, w, hw, by rw [hsame]; exact hcnt⟩
    | fit env k =>
      obtain ⟨hsound, hfit, r, hr, hcnt⟩ := hprepared
      obtain ⟨w, hw, hsame⟩ := hsome _ r hr
      exact ⟨hsound, hfit, w, hw, by rw [hsame]; exact hcnt⟩
    | update env =>
      obtain ⟨hsound, r, hr, hcnt⟩ := hprepared
      obtain ⟨w, hw, hsame⟩ := hsome _ r hr
      exact ⟨hsound, w, hw, by rw [hsame]; exact hcnt⟩
  · intro id' w hw
    have hcnt := setEnable_dmCnt t.user id id' enable
    rw [show (UserDb.setEnable t.user id enable).find? id' = some w from hw] at hcnt
    obtain ⟨r, hr, hsame⟩ := Option.map_eq_some_iff.mp hcnt.symm
    have hsame : r.dmCnt = w.dmCnt := hsame
    rw [← hsame]
    exact h.count id' r hr

omit [Doubles] in
/-- A clean package brings one branch. -/
theorem clean_branches {i : Sighting} (hi : i.Clean) :
    ∃ b, i.body.branches = [b] ∧ b.env.Sound := by
  have hfixed := hi.fixed
  have hsound : (i.env i.mode).Sound := ⟨hi.lookup, hi.user, hi.self⟩
  cases hm : i.mode with
  | init => exact absurd hm hfixed.real
  | recording =>
    rw [hm] at hfixed hsound
    refine ⟨.recording i.body.deviInfo i.body.envRec, ?_, hsound⟩
    simp [BodyIn.branches, hfixed.mode3, hfixed.mode4]
  | localization =>
    rw [hm] at hfixed hsound
    refine ⟨.localization i.body.envLoc, ?_, hsound⟩
    simp [BodyIn.branches, hfixed.mode3, hfixed.mode4]

omit [Doubles] in
theorem tidy_mono (h : s.Tidy n) : s.Tidy (n + 1) :=
  ⟨h.flag, h.ori, h.rest, h.prepared, h.log.trans (Nat.le_succ n),
    fun id r hr => (h.count id r hr).trans (Nat.le_succ n)⟩

theorem package_tidy (h : s.Tidy n) {i : Sighting} (hi : i.Clean) :
    (s.package i).Tidy (n + 1) := by
  obtain ⟨t, pc, rest⟩ := s
  unfold Machine.package
  split
  · next hpc hrest =>
    simp only at hpc hrest
    subst hpc hrest
    obtain ⟨b, hb, hsound⟩ := clean_branches hi
    have hid : (t.toMain.turn i).dm.id ≠ 0 := by
      rw [hi.fixed.turn_id]
      exact hi.id
    have hlog : t.self.values.length + 0 ≤ n := h.log
    have hcount : ∀ id r, t.user.find? id = some r → r.dmCnt + 0 ≤ n := h.count
    refine ⟨h.flag, rfl, ?_, trivial, ?_, ?_⟩
    · rw [hb]
      intro c hc
      rw [List.mem_singleton.mp hc]
      exact ⟨hsound, hid⟩
    · simp only [toLog, hb]
      exact Nat.succ_le_succ hlog
    · intro id r hr
      simp only [toCount, hb]
      exact Nat.succ_le_succ (hcount id r hr)
  · exact tidy_mono h

omit [Doubles] in
theorem restart_tidy (h : s.Tidy n) : s.restart.Tidy n := by
  refine ⟨rfl, rfl, nofun, trivial, ?_, ?_⟩
  · exact (Nat.le_add_right _ _).trans h.log
  · exact fun id r hr => (Nat.le_add_right _ _).trans (h.count id r hr)

/-! ### The balance of a code -/

variable {id : UInt32} {a b : ℕ}

omit [Doubles] in
theorem restart_balanced (h : s.Balanced id a b) :
    s.restart.Balanced id (a + s.unlogged id) (b + s.uncounted id) := by
  constructor
  · have hsum := h.sum
    show s.logged id + _ + 0 = s.stored id + _ + 0
    omega
  · exact h.once

omit [Doubles] in
theorem operator_balanced (h : s.Balanced id a b) (id' : UInt32) (enable : Bool) :
    (s.operator id' enable).Balanced id a b := by
  have hcnt := setEnable_dmCnt s.turn.user id' id enable
  have hstored : (s.operator id' enable).stored id = s.stored id := by
    unfold stored Machine.operator
    simp only
    cases hr : s.turn.user.find? id with
    | none =>
      rw [hr] at hcnt
      rw [Option.map_eq_none_iff.mp hcnt]
    | some r =>
      rw [hr] at hcnt
      obtain ⟨w, hw, hsame⟩ := Option.map_eq_some_iff.mp hcnt
      rw [hw]
      exact hsame
  have hsame : ((s.operator id' enable).turn.user.find? id).elim 0 (fun _ => 1) =
      (s.turn.user.find? id).elim 0 fun _ => 1 := by
    have hone (o : Option UserRow) : o.elim 0 (fun _ => 1) =
        (o.map (·.dmCnt)).elim 0 fun _ => 1 := by cases o <;> rfl
    rw [hone, hone (s.turn.user.find? id), ← hcnt]
    rfl
  constructor
  · rw [hstored]
    exact h.sum
  · rw [hsame]
    exact h.once

theorem package_balanced (h : s.Balanced id a b) (i : Sighting) :
    (s.package i).Balanced id a b := by
  obtain ⟨t, pc, rest⟩ := s
  unfold Machine.package
  split
  · next hpc hrest =>
    simp only at hpc hrest
    subst hpc hrest
    exact ⟨h.sum, h.once⟩
  · exact h

theorem look_balanced {c : Branch} {bs : List Branch} {t : Turn} (hflag : t.whetherCb = false)
    (h : Balanced id a b ⟨t, .retrieve, c :: bs⟩) :
    Balanced id a b ⟨(c.look cfg account t).2, (c.look cfg account t).1, bs⟩ := by
  unfold Branch.look
  rw [retrieve_eq hflag]
  cases UserDb.lookedUp t.user c.env.lookup t.dm.id with
  | none =>
    have hself (u : Turn) : (c.unknown u).self = u.self := by cases c <;> rfl
    have hsum := h.sum
    have honce := h.once
    constructor
    · simp only [logged, stored, hself, (unknown_frame c _).1]
      exact hsum
    · simp only [(unknown_frame c _).1]
      exact honce
  | some r =>
    have hsum := h.sum
    have honce := h.once
    constructor
    · simp only [logged, stored, (known_keeps cfg account c _).1,
        (known_frame cfg account c _).user]
      exact hsum
    · simp only [(known_frame cfg account c _).user]
      exact honce

variable (cfg) in
/-- A row of the code of the snapshot comes to the log. -/
theorem logSelf_logged {env : BranchEnv} (hsound : env.Sound) {t : Turn}
    (hcap : t.self.values.length < cfg.maxRowSelfDb.toNat) (id : UInt32) :
    (SelfDb.rowsOf id (t.logSelf cfg env).self.values).length =
      (SelfDb.rowsOf id t.self.values).length + if t.ori.id = id then 1 else 0 := by
  rw [logSelf_values cfg hsound hcap, SelfDb.rowsOf, List.filter_append, List.length_append]
  congr 1
  by_cases hid : t.ori.id = id
  · have hrow : (SelfDb.row t.ori).dmId = id := hid
    simp [hrow, hid]
  · have hrow : (SelfDb.row t.ori).dmId ≠ id := hid
    simp [hrow, hid]

theorem exec_balanced (htidy : s.Tidy n) (hcap : n ≤ cfg.maxRowSelfDb.toNat) (hlt : n < 2 ^ 31)
    (h : s.Balanced id a b) : (s.exec cfg account).Balanced id a b := by
  obtain ⟨t, pc, rest⟩ := s
  have hlog := htidy.log
  have hori : t.ori.id = t.dm.id := htidy.ori
  have hsum := h.sum
  have honce := h.once
  cases pc with
  | retrieve =>
    cases rest with
    | nil => exact h
    | cons c bs => exact look_balanced htidy.flag h
  | insert env =>
    obtain ⟨hsound, hnone, hcnt⟩ := htidy.prepared
    have hfind : (UserDb.addContent env.userOk t.user t.dm).find? id =
        if t.dm.id = id then some (UserDb.row t.dm) else t.user.find? id := by
      rw [UserDb.find?_addContent, hsound.user, hnone]
      simp [eq_comm]
    have hone : (UserDb.row t.dm).dmCnt = 1 := by
      simp only [UserDb.row]
      rw [hcnt]
      rfl
    by_cases hid : t.dm.id = id
    · rw [if_pos hid] at hfind
      rw [hid] at hnone
      simp only [stored, logged, unlogged, uncounted, hnone, Option.elim_none] at hsum honce
      constructor <;>
        simp only [exec, Turn.emit, stored, logged, unlogged, uncounted, hfind, hid, if_true,
          Option.elim_some, hone] <;>
        omega
    · rw [if_neg hid] at hfind
      constructor <;>
        simp only [exec, Turn.emit, stored, logged, unlogged, uncounted, hfind, hid, if_false] <;>
        assumption
  | logNew env =>
    have hsound : env.Sound := htidy.prepared
    simp only [toLog] at hlog
    have hlogged := logSelf_logged cfg hsound (t := t) (by omega) id
    rw [hori] at hlogged
    simp only [stored, logged, unlogged, uncounted] at hsum honce
    constructor
    · show (SelfDb.rowsOf id (t.logSelf cfg env).self.values).length + a + 0 =
        (t.user.find? id).elim 0 (·.dmCnt) + b + 0
      rw [hlogged]
      omega
    · show a + 0 ≤ (t.user.find? id).elim 0 fun _ => 1
      omega
  | log env fit =>
    obtain ⟨hsound, _⟩ := htidy.prepared
    simp only [toLog] at hlog
    have hlogged := logSelf_logged cfg hsound (t := t) (by omega) id
    rw [hori] at hlogged
    simp only [stored, logged, unlogged, uncounted] at hsum
    have hnext : (SelfDb.rowsOf id (t.logSelf cfg env).self.values).length + a + 0 =
        (t.user.find? id).elim 0 (·.dmCnt) + b + if t.dm.id = id then 1 else 0 := by
      rw [hlogged]
      omega
    cases fit <;> exact ⟨hnext, honce⟩
  | fit env k =>
    have hid : (t.fit env k).dm.id = t.dm.id := (fit_frame env k t).id
    refine ⟨?_, honce⟩
    simp only [exec, stored, logged, unlogged, uncounted, hid] at hsum ⊢
    exact hsum
  | update env =>
    obtain ⟨hsound, r, hr, hcnt⟩ := htidy.prepared
    have hroom : r.dmCnt + (rest.length + 1) ≤ n := htidy.count _ r hr
    have hfind : (UserDb.updateDataBase env.userOk t.user t.dm).find? id =
        if t.dm.id = id then some (UserDb.setColumns t.dm r) else t.user.find? id := by
      rw [UserDb.find?_updateDataBase, hsound.user]
      by_cases hid : t.dm.id = id
      · simp [← hid, hr]
      · simp [hid, Ne.symm hid]
    have hnew : (UserDb.setColumns t.dm r).dmCnt = r.dmCnt + 1 := by
      simp only [UserDb.setColumns]
      rw [hcnt, readCounter_succ (by omega)]
    by_cases hid : t.dm.id = id
    · rw [if_pos hid] at hfind
      rw [hid] at hr
      simp only [stored, logged, unlogged, uncounted, hr, hid, if_true, Option.elim_some]
        at hsum honce
      constructor <;>
        simp only [exec, Turn.writeBack, stored, logged, unlogged, uncounted, hfind,
          Option.elim_some, hnew] <;>
        omega
    · rw [if_neg hid] at hfind
      simp only [stored, logged, unlogged, uncounted, hid, if_false] at hsum honce
      constructor <;>
        simp only [exec, Turn.writeBack, stored, logged, unlogged, uncounted, hfind] <;>
        assumption

variable (cfg account) in
/-- At the end of a run, the log and the counts are balanced by the kills. -/
theorem run_balanced {l : List Op} (hclean : ∀ o ∈ l, o.Clean)
    (hcap : packages l ≤ cfg.maxRowSelfDb.toNat) (hlt : packages l < 2 ^ 31) (id : UInt32) :
    (lives cfg account l).Tidy (packages l) ∧
      (lives cfg account l).Balanced id (lost cfg account (unlogged id) l)
        (lost cfg account (uncounted id) l) := by
  induction l using List.reverseRecOn with
  | nil => exact ⟨⟨rfl, rfl, nofun, trivial, le_rfl, nofun⟩, ⟨rfl, le_rfl⟩⟩
  | append_singleton l o ih =>
    have hpackages : packages (l ++ [o]) = packages l + if o.isPackage then 1 else 0 := by
      simp [packages, List.countP_append, List.countP_singleton]
    have hlives : lives cfg account (l ++ [o]) = (lives cfg account l).op cfg account o :=
      Run.exec_snoc _ l o
    have hlost (p : Machine → ℕ) : lost cfg account p (l ++ [o]) =
        lost cfg account p l + if o.isKill then p (lives cfg account l) else 0 := by
      simp [lost, lives]
    obtain ⟨htidy, hbal⟩ := ih (fun w hw => hclean w (List.mem_append_left _ hw))
      (by omega) (by omega)
    rw [hlives, hpackages, hlost, hlost]
    cases o with
    | kill => exact ⟨restart_tidy htidy, restart_balanced hbal⟩
    | move mv =>
      cases mv with
      | package i =>
        have hi : i.Clean := hclean (.move (.package i)) (by simp)
        exact ⟨package_tidy htidy hi, package_balanced hbal i⟩
      | exec =>
        have hn : packages l ≤ packages (l ++ [.move .exec]) := by omega
        exact ⟨exec_tidy htidy (hn.trans hcap) (hn.trans_lt hlt),
          exec_balanced htidy (hn.trans hcap) (hn.trans_lt hlt) hbal⟩
      | operator id' enable =>
        exact ⟨operator_tidy htidy id' enable, operator_balanced hbal id' enable⟩

end RestartLemmas

/-- Over clean packages, not more than the cap of the log and fewer than `2 ^ 31`, with the
operator's updates and kills at any points: a code is logged as often as its row says, but for
a kill between the insert of the row and its first log, of which there is at most one, and for
the kills between a later log and its count. -/
theorem logged_counted {l : List Op} (hclean : ∀ o ∈ l, o.Clean)
    (hcap : packages l ≤ cfg.maxRowSelfDb.toNat) (hlt : packages l < 2 ^ 31) (id : UInt32) :
    let s := lives cfg account l
    s.logged id + lost cfg account (unlogged id) l + s.unlogged id =
        s.stored id + lost cfg account (uncounted id) l + s.uncounted id ∧
      lost cfg account (unlogged id) l + s.unlogged id ≤ 1 := by
  intro s
  obtain ⟨_, hbal⟩ := run_balanced cfg account hclean hcap hlt id
  refine ⟨hbal.sum, hbal.once.trans ?_⟩
  cases (lives cfg account l).turn.user.find? id <;> simp

end

section

open scoped Exact

theorem exKilled_clean : ∀ o ∈ exKilled, o.Clean := by
  have hseen : (exSighting .recording 7 0).Clean :=
    exSighting_clean (by decide) (by decide) _
  simp only [exKilled, List.forall_mem_cons, List.not_mem_nil, false_implies, implies_true]
  exact ⟨hseen, trivial, trivial, trivial, hseen, trivial, trivial, trivial⟩

theorem logged_counted_exKilled :
    let s := lives exConfig exAccount exKilled
    s.logged 7 + lost exConfig exAccount (unlogged 7) exKilled + s.unlogged 7 =
        s.stored 7 + lost exConfig exAccount (uncounted 7) exKilled + s.uncounted 7 ∧
      lost exConfig exAccount (unlogged 7) exKilled + s.unlogged 7 ≤ 1 :=
  logged_counted exConfig exAccount exKilled_clean (by decide) (by decide) 7

end

section

variable [Doubles] (cfg : Config ℚ) (account : Account)

/-- In such a run, a fit that is about to start is handed as many rows as it divides their
sum by exactly when the kills behind a log of its code make up for those in front of one. -/
theorem fit_complete_iff {l : List Op} (hclean : ∀ o ∈ l, o.Clean)
    (hcap : packages l ≤ cfg.maxRowSelfDb.toNat) (hlt : packages l < 2 ^ 31) {env : BranchEnv}
    {n : UInt16} (hpc : (lives cfg account l).pc = .fit env n) :
    let t := (lives cfg account l).turn
    (SelfDb.fitRows env.scan t.self t.dm.id n).length = n.toNat ↔
      lost cfg account (unlogged t.dm.id) l ≤ lost cfg account (uncounted t.dm.id) l := by
  intro t
  obtain ⟨htidy, hbal⟩ := run_balanced cfg account hclean hcap hlt t.dm.id
  have hprepared := htidy.prepared
  unfold Prepared at hprepared
  rw [hpc] at hprepared
  obtain ⟨_, hn, r, hr, hcnt⟩ := hprepared
  have hroom := htidy.count _ r hr
  unfold toCount at hroom
  rw [hpc] at hroom
  have hcount : n.toNat = r.dmCnt + 1 := by
    rw [← hn, hcnt, readCounter_succ (by omega)]
  have hsum := hbal.sum
  have hstored : (lives cfg account l).stored t.dm.id = r.dmCnt := by
    unfold stored
    rw [hr]
    rfl
  have hunlogged : (lives cfg account l).unlogged t.dm.id = 0 := by
    unfold unlogged
    rw [hpc]
  have huncounted : (lives cfg account l).uncounted t.dm.id = 1 := by
    unfold uncounted
    rw [hpc]
    exact if_pos rfl
  rw [hstored, hunlogged, huncounted] at hsum
  rw [SelfDb.length_fitRows]
  have hlogged : (SelfDb.rowsOf t.dm.id t.self.values).length =
      (lives cfg account l).logged t.dm.id := rfl
  rw [hlogged]
  omega

end

open scoped Exact

/-- The fit divides the pose of one row by two. -/
theorem fit_complete_exKilled :
    lost exConfig exAccount (unlogged 7) exKilled = 1 ∧
      lost exConfig exAccount (uncounted 7) exKilled = 0 ∧
      let t := (lives exConfig exAccount exKilled).turn
      ((SelfDb.fitRows exEnv.scan t.self t.dm.id 2).length = (2 : UInt16).toNat ↔
        lost exConfig exAccount (unlogged t.dm.id) exKilled ≤
          lost exConfig exAccount (uncounted t.dm.id) exKilled) :=
  ⟨by decide, by decide,
    @fit_complete_iff _ exConfig exAccount exKilled exKilled_clean (by decide) (by decide) exEnv 2
      rfl⟩

end QrAddon
