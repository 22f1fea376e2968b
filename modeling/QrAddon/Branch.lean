import QrAddon.MainLoop

/-!
# What a branch of the main loop can do

The two mode branches differ in their repeat number, their request and the order
of their tests, and have the same five outcomes. `BranchStep` lists them with
the guards that select them and the exact effect on the databases, the `DM` and
the events; `recordingBranch_step` and `localizationBranch_step` are proved by
running the code once, and nothing after them unfolds a branch again.
-/

namespace QrAddon

/-- The repeat number of a mode. -/
def Config.repeatNum (cfg : Config ℚ) : Mode → UInt16
  | .recording => cfg.mappRepeatNum
  | _ => cfg.locRepeatNum

/-- RECORDING marks an enabled code as recommended, LOCALIZATION does not. -/
def markEnabled (mode : Mode) (d : DmInfo ℚ) : DmInfo ℚ :=
  if mode = .recording then d.setRecommend else d

@[simp] theorem markEnabled_id (mode : Mode) (d : DmInfo ℚ) : (markEnabled mode d).id = d.id := by
  unfold markEnabled; split <;> rfl
@[simp] theorem markEnabled_pose (mode : Mode) (d : DmInfo ℚ) :
    (markEnabled mode d).pose = d.pose := by
  unfold markEnabled; split <;> rfl
@[simp] theorem markEnabled_cnt (mode : Mode) (d : DmInfo ℚ) :
    (markEnabled mode d).cnt = d.cnt := by
  unfold markEnabled; split <;> rfl
@[simp] theorem markEnabled_sloppyCnt (mode : Mode) (d : DmInfo ℚ) :
    (markEnabled mode d).sloppyCnt = d.sloppyCnt := by
  unfold markEnabled; split <;> rfl
@[simp] theorem markEnabled_enable (mode : Mode) (d : DmInfo ℚ) :
    (markEnabled mode d).enable = d.enable := by
  unfold markEnabled; split <;> rfl

theorem markEnabled_recommend {mode : Mode} {d : DmInfo ℚ} (h : d.recommend = true) :
    (markEnabled mode d).recommend = true := by
  unfold markEnabled
  split
  · rfl
  · exact h

section

variable [Doubles]

/-- The request that a mode posts for an enabled code. -/
def requestOf (cfg : Config ℚ) (deviInfo : CustomerPackage ℚ) (env : BranchEnv) (t : Turn)
    (mode : Mode) (dmInfo : DmInfo ℚ) (rpcId : UInt64) : Event :=
  if mode = .recording then
    .addObservation (RpcClientGLA.writeJsonGLA "clientGlobalAlignAddObservation" rpcId dmInfo cfg
      deviInfo env.sessionId)
  else
    .setSeed (@RpcClientSetSeed.writeJsonSetSeed ℚ Doubles.toAdd _ "clientLocalizationSetSeed"
      rpcId dmInfo t.locStat t.rokitPose cfg env.sessionId)

/-- What all outcomes share: the log gets one row, with the id and the pose of the
snapshot whatever its other columns, and `whetherCb` is cleared. -/
structure Logged (cfg : Config ℚ) (env : BranchEnv) (t t' : Turn) : Prop where
  id : t'.ori.id = t.ori.id
  pose : t'.ori.pose = t.ori.pose
  self : t'.self = SelfDb.addContent env.selfOk cfg.maxRowSelfDb t.self t'.ori
  flag : t'.whetherCb = false

/-- The `DM` of a found row, counted. -/
def counted (r : UserRow) : DmInfo ℚ := (UserDb.loaded r).updateCnt

@[simp] theorem counted_id (r : UserRow) : (counted r).id = r.dmId := rfl
@[simp] theorem counted_pose (r : UserRow) : (counted r).pose = r.pose.read := rfl
@[simp] theorem counted_cnt (r : UserRow) : (counted r).cnt = readCounter r.dmCnt + 1 := rfl
@[simp] theorem counted_sloppyCnt (r : UserRow) :
    (counted r).sloppyCnt = readCounter r.sloppyCnt := rfl
@[simp] theorem counted_enable (r : UserRow) : (counted r).enable = r.enable := rfl

/-- The end of every known branch: the `DM` is written back, the snapshot is logged. -/
def Turn.finish (cfg : Config ℚ) (env : BranchEnv) (d o : DmInfo ℚ) (globalId : UInt64)
    (evs : List Event) (u : Turn) : Turn :=
  { u with
    user := UserDb.updateDataBase env.userOk u.user d
    self := SelfDb.addContent env.selfOk cfg.maxRowSelfDb u.self o
    dm := d
    ori := o
    globalId := globalId
    events := u.events ++ evs }

section

variable (cfg : Config ℚ) (account : Account) (deviInfo : CustomerPackage ℚ) (env : BranchEnv)

/-- The five outcomes of a branch. -/
inductive BranchStep (mode : Mode) (t t' : Turn) : Prop
  | unknown
      (hrow : UserDb.lookedUp t.user env.lookup t.dm.id = none)
      (hdm : t'.dm = t.dm.clearRemainingInfo.updateCnt)
      (huser : t'.user = UserDb.addContent env.userOk t.user t'.dm)
      (hlog : Logged cfg env t t')
      (hev : t'.events = t.events ++ [.lookup mode t.dm, .diag 1])
  | disabled (r : UserRow)
      (hrow : UserDb.lookedUp t.user env.lookup t.dm.id = some r) (hoff : r.enable = false)
      (hcnt : (counted r).cnt.toNat ≠ (cfg.repeatNum mode).toNat)
      (hdm : t'.dm = counted r)
      (huser : t'.user = UserDb.updateDataBase env.userOk t.user t'.dm)
      (hlog : Logged cfg env t t')
      (hev : t'.events = t.events ++ [.lookup mode t.dm])
  | recommended (r : UserRow)
      (hrow : UserDb.lookedUp t.user env.lookup t.dm.id = some r) (hoff : r.enable = false)
      (hcnt : (counted r).cnt.toNat = (cfg.repeatNum mode).toNat)
      (hdm : t'.dm = (SelfDb.fitPose env.fitOk env.scan t'.self (cfg.repeatNum mode)
        (counted r).setRecommend).1)
      (huser : t'.user = UserDb.updateDataBase env.userOk t.user t'.dm)
      (hlog : Logged cfg env t t')
      (hev : t'.events = t.events ++ [.lookup mode t.dm,
        .fit (SelfDb.fitPose env.fitOk env.scan t'.self (cfg.repeatNum mode)
          (counted r).setRecommend).2])
  | near (r : UserRow)
      (hrow : UserDb.lookedUp t.user env.lookup t.dm.id = some r) (hon : r.enable = true)
      (hnear : ¬ (planarDistance (counted r) t.ori).Exceeds cfg.locErrThreshold)
      (hdm : t'.dm = markEnabled mode (counted r))
      (huser : t'.user = UserDb.updateDataBase env.userOk t.user t'.dm)
      (hlog : Logged cfg env t t')
      (hev : t'.events = t.events ++ [.lookup mode t.dm,
        .login (RpcClientSessLogIn.writeJsonLogIn "sessionLogin" t.globalId account),
        requestOf cfg deviInfo env t mode (counted r) (t.globalId + 1)])
  | far (r : UserRow)
      (hrow : UserDb.lookedUp t.user env.lookup t.dm.id = some r) (hon : r.enable = true)
      (hfar : (planarDistance (counted r) t.ori).Exceeds cfg.locErrThreshold)
      (hdm : t'.dm = (markEnabled mode (counted r)).updateSloppyCnt)
      (huser : t'.user = UserDb.updateDataBase env.userOk t.user t'.dm)
      (hlog : Logged cfg env t t')
      (hev : t'.events = t.events ++ [.lookup mode t.dm,
        .login (RpcClientSessLogIn.writeJsonLogIn "sessionLogin" t.globalId account),
        requestOf cfg deviInfo env t mode (counted r) (t.globalId + 1), .diag 4])

variable {cfg account deviInfo env}

theorem retrieve_eq {t : Turn} (h : t.whetherCb = false) (mode : Mode) :
    t.retrieve env mode =
      match UserDb.lookedUp t.user env.lookup t.dm.id with
      | some r => (true, { t with
          dm := UserDb.loaded r, events := t.events ++ [.lookup mode t.dm] })
      | none => (false, { t with events := t.events ++ [.lookup mode t.dm] }) := by
  obtain ⟨⟨user, self, dm, locStat, rokitPose, globalId, whetherCb⟩, ori, events⟩ := t
  simp only at h
  subst h
  simp only [Turn.retrieve, UserDb.retrieveUsrDb_eq]
  cases UserDb.lookedUp user env.lookup dm.id <;> rfl

theorem checkDeviation_far {sloppy : Length ℚ} (h : sloppy.Exceeds cfg.locErrThreshold)
    (t : Turn) : t.checkDeviation cfg sloppy =
      { t with
        dm := t.dm.updateSloppyCnt
        ori := t.ori.updateSloppyCnt.setHaveSloppy
        events := t.events ++ [.diag 4] } := if_pos h

theorem checkDeviation_near {sloppy : Length ℚ} (h : ¬ sloppy.Exceeds cfg.locErrThreshold)
    (t : Turn) : t.checkDeviation cfg sloppy = t := if_neg h

/-! ## Running the branches -/

namespace BranchLemmas

section

variable {u : Turn}

theorem recordingKnown_disabled (hoff : u.dm.enable = false)
    (hcnt : u.dm.updateCnt.cnt.toNat ≠ cfg.mappRepeatNum.toNat) :
    recordingKnown cfg account deviInfo env u =
      u.finish cfg env u.dm.updateCnt u.ori u.globalId [] := by
  simp only [recordingKnown, DmInfo.updateCnt_enable, hoff, hcnt, false_and, if_false, if_true,
    Bool.false_eq_true]
  simp [Turn.finish, Turn.logSelf, Turn.writeBack]

theorem recordingKnown_recommended (hoff : u.dm.enable = false)
    (hcnt : u.dm.updateCnt.cnt.toNat = cfg.mappRepeatNum.toNat) :
    recordingKnown cfg account deviInfo env u =
      let f := SelfDb.fitPose env.fitOk env.scan
        (SelfDb.addContent env.selfOk cfg.maxRowSelfDb u.self u.ori.setRecommend)
        cfg.mappRepeatNum u.dm.updateCnt.setRecommend
      u.finish cfg env f.1 u.ori.setRecommend u.globalId [.fit f.2] := by
  simp only [recordingKnown, DmInfo.updateCnt_enable, hoff, hcnt, and_self, if_false, if_true,
    Bool.false_eq_true]
  rfl

/-- The distance checked after a request is the one from the stored pose. -/
theorem sloppy_recording {x : Turn}
    (hx : (({ u with dm := u.dm.updateCnt.setRecommend } : Turn).getSessionId account).post
      (requestOf cfg deviInfo env u .recording u.dm.updateCnt) = x) :
    RpcClientGLA.computeSloppy x.dm x.ori = planarDistance u.dm.updateCnt u.ori := by
  rw [← hx]
  rfl

variable (deviInfo) in
theorem sloppy_localization {x : Turn}
    (hx : (({ u with dm := u.dm.updateCnt, ori := u.ori.updateCnt } : Turn).getSessionId
      account).post (requestOf cfg deviInfo env u .localization u.dm.updateCnt) = x) :
    RpcClientSetSeed.computeSloppy x.dm x.ori = planarDistance u.dm.updateCnt u.ori := by
  rw [← hx]
  rfl

theorem recordingKnown_near (hon : u.dm.enable = true)
    (hnear : ¬ (planarDistance u.dm.updateCnt u.ori).Exceeds cfg.locErrThreshold) :
    recordingKnown cfg account deviInfo env u =
      u.finish cfg env u.dm.updateCnt.setRecommend u.ori.setRecommend (u.globalId + 1 + 1)
        [.login (RpcClientSessLogIn.writeJsonLogIn "sessionLogin" u.globalId account),
          requestOf cfg deviInfo env u .recording u.dm.updateCnt (u.globalId + 1)] := by
  simp only [recordingKnown, DmInfo.updateCnt_enable, hon, and_false, if_false, if_true,
    Bool.true_eq_false]
  generalize hx : Turn.post _ (Turn.getSessionId account _) = x
  rw [sloppy_recording hx, checkDeviation_near hnear, ← hx]
  simp [Turn.finish, Turn.logSelf, Turn.writeBack, Turn.getSessionId, Turn.post, requestOf]

theorem recordingKnown_far (hon : u.dm.enable = true)
    (hfar : (planarDistance u.dm.updateCnt u.ori).Exceeds cfg.locErrThreshold) :
    recordingKnown cfg account deviInfo env u =
      u.finish cfg env u.dm.updateCnt.setRecommend.updateSloppyCnt
        u.ori.updateSloppyCnt.setHaveSloppy.setRecommend (u.globalId + 1 + 1)
        [.login (RpcClientSessLogIn.writeJsonLogIn "sessionLogin" u.globalId account),
          requestOf cfg deviInfo env u .recording u.dm.updateCnt (u.globalId + 1), .diag 4] := by
  simp only [recordingKnown, DmInfo.updateCnt_enable, hon, and_false, if_false, if_true,
    Bool.true_eq_false]
  generalize hx : Turn.post _ (Turn.getSessionId account _) = x
  rw [sloppy_recording hx, checkDeviation_far hfar, ← hx]
  simp [Turn.finish, Turn.logSelf, Turn.writeBack, Turn.getSessionId, Turn.post, requestOf]

theorem localizationKnown_disabled (hoff : u.dm.enable = false)
    (hcnt : u.dm.updateCnt.cnt.toNat ≠ cfg.locRepeatNum.toNat) :
    localizationKnown cfg account env u =
      u.finish cfg env u.dm.updateCnt u.ori.updateCnt u.globalId [] := by
  simp only [localizationKnown, DmInfo.updateCnt_enable, hoff, hcnt, false_and, if_false, if_true,
    Bool.false_eq_true]
  simp [Turn.finish, Turn.logSelf, Turn.writeBack]

theorem localizationKnown_recommended (hoff : u.dm.enable = false)
    (hcnt : u.dm.updateCnt.cnt.toNat = cfg.locRepeatNum.toNat) :
    localizationKnown cfg account env u =
      let f := SelfDb.fitPose env.fitOk env.scan
        (SelfDb.addContent env.selfOk cfg.maxRowSelfDb u.self u.ori.updateCnt.setRecommend)
        cfg.locRepeatNum u.dm.updateCnt.setRecommend
      u.finish cfg env f.1 u.ori.updateCnt.setRecommend u.globalId [.fit f.2] := by
  simp only [localizationKnown, DmInfo.updateCnt_enable, hoff, hcnt, and_self, if_false, if_true,
    Bool.false_eq_true]
  rfl

variable (deviInfo) in
theorem localizationKnown_near (hon : u.dm.enable = true)
    (hnear : ¬ (planarDistance u.dm.updateCnt u.ori).Exceeds cfg.locErrThreshold) :
    localizationKnown cfg account env u =
      u.finish cfg env u.dm.updateCnt u.ori.updateCnt (u.globalId + 1 + 1)
        [.login (RpcClientSessLogIn.writeJsonLogIn "sessionLogin" u.globalId account),
          requestOf cfg deviInfo env u .localization u.dm.updateCnt (u.globalId + 1)] := by
  simp only [localizationKnown, DmInfo.updateCnt_enable, hon, and_false, if_false, if_true,
    Bool.true_eq_false]
  generalize hx : Turn.post _ (Turn.getSessionId account _) = x
  rw [sloppy_localization deviInfo hx, checkDeviation_near hnear, ← hx]
  simp [Turn.finish, Turn.logSelf, Turn.writeBack, Turn.getSessionId, Turn.post, requestOf]

variable (deviInfo) in
theorem localizationKnown_far (hon : u.dm.enable = true)
    (hfar : (planarDistance u.dm.updateCnt u.ori).Exceeds cfg.locErrThreshold) :
    localizationKnown cfg account env u =
      u.finish cfg env u.dm.updateCnt.updateSloppyCnt
        u.ori.updateCnt.updateSloppyCnt.setHaveSloppy (u.globalId + 1 + 1)
        [.login (RpcClientSessLogIn.writeJsonLogIn "sessionLogin" u.globalId account),
          requestOf cfg deviInfo env u .localization u.dm.updateCnt (u.globalId + 1), .diag 4] := by
  simp only [localizationKnown, DmInfo.updateCnt_enable, hon, and_false, if_false, if_true,
    Bool.true_eq_false]
  generalize hx : Turn.post _ (Turn.getSessionId account _) = x
  rw [sloppy_localization deviInfo hx, checkDeviation_far hfar, ← hx]
  simp [Turn.finish, Turn.logSelf, Turn.writeBack, Turn.getSessionId, Turn.post, requestOf]

end

variable (cfg account deviInfo env) in
/-- A function that treats a found row the way both modes do: it counts, recommends or
checks, and finishes with a snapshot of the same id and pose. -/
structure KnownBranch (mode : Mode) (known : Turn → Turn) : Prop where
  disabled : ∀ u : Turn, u.dm.enable = false →
    u.dm.updateCnt.cnt.toNat ≠ (cfg.repeatNum mode).toNat →
    ∃ o : DmInfo ℚ, o.id = u.ori.id ∧ o.pose = u.ori.pose ∧
      known u = u.finish cfg env u.dm.updateCnt o u.globalId []
  recommended : ∀ u : Turn, u.dm.enable = false →
    u.dm.updateCnt.cnt.toNat = (cfg.repeatNum mode).toNat →
    ∃ o : DmInfo ℚ, o.id = u.ori.id ∧ o.pose = u.ori.pose ∧
      known u =
        let f := SelfDb.fitPose env.fitOk env.scan
          (SelfDb.addContent env.selfOk cfg.maxRowSelfDb u.self o) (cfg.repeatNum mode)
          u.dm.updateCnt.setRecommend
        u.finish cfg env f.1 o u.globalId [.fit f.2]
  near : ∀ u : Turn, u.dm.enable = true →
    ¬ (planarDistance u.dm.updateCnt u.ori).Exceeds cfg.locErrThreshold →
    ∃ o : DmInfo ℚ, o.id = u.ori.id ∧ o.pose = u.ori.pose ∧
      known u = u.finish cfg env (markEnabled mode u.dm.updateCnt) o (u.globalId + 1 + 1)
        [.login (RpcClientSessLogIn.writeJsonLogIn "sessionLogin" u.globalId account),
          requestOf cfg deviInfo env u mode u.dm.updateCnt (u.globalId + 1)]
  far : ∀ u : Turn, u.dm.enable = true →
    (planarDistance u.dm.updateCnt u.ori).Exceeds cfg.locErrThreshold →
    ∃ o : DmInfo ℚ, o.id = u.ori.id ∧ o.pose = u.ori.pose ∧
      known u = u.finish cfg env (markEnabled mode u.dm.updateCnt).updateSloppyCnt o
        (u.globalId + 1 + 1)
        [.login (RpcClientSessLogIn.writeJsonLogIn "sessionLogin" u.globalId account),
          requestOf cfg deviInfo env u mode u.dm.updateCnt (u.globalId + 1), .diag 4]

variable (cfg account deviInfo env) in
theorem recordingKnown_branch : KnownBranch cfg account deviInfo env .recording
    (recordingKnown cfg account deviInfo env) where
  disabled u hoff hcnt := ⟨u.ori, rfl, rfl, recordingKnown_disabled hoff hcnt⟩
  recommended u hoff hcnt :=
    ⟨u.ori.setRecommend, rfl, rfl, recordingKnown_recommended hoff hcnt⟩
  near u hon hnear := ⟨u.ori.setRecommend, rfl, rfl, recordingKnown_near hon hnear⟩
  far u hon hfar :=
    ⟨u.ori.updateSloppyCnt.setHaveSloppy.setRecommend, rfl, rfl, recordingKnown_far hon hfar⟩

variable (cfg account deviInfo env) in
theorem localizationKnown_branch : KnownBranch cfg account deviInfo env .localization
    (localizationKnown cfg account env) where
  disabled u hoff hcnt := ⟨u.ori.updateCnt, rfl, rfl, localizationKnown_disabled hoff hcnt⟩
  recommended u hoff hcnt :=
    ⟨u.ori.updateCnt.setRecommend, rfl, rfl, localizationKnown_recommended hoff hcnt⟩
  near u hon hnear := ⟨u.ori.updateCnt, rfl, rfl, localizationKnown_near deviInfo hon hnear⟩
  far u hon hfar :=
    ⟨u.ori.updateCnt.updateSloppyCnt.setHaveSloppy, rfl, rfl,
      localizationKnown_far deviInfo hon hfar⟩

/-- Behind a look-up that finds a row, such a function makes the step of its mode. -/
theorem known_step {mode : Mode} {known : Turn → Turn}
    (hknown : KnownBranch cfg account deviInfo env mode known) {t : Turn}
    (h : t.whetherCb = false) {r : UserRow}
    (hrow : UserDb.lookedUp t.user env.lookup t.dm.id = some r) :
    BranchStep cfg account deviInfo env mode t
      (known { t with dm := UserDb.loaded r, events := t.events ++ [.lookup mode t.dm] }) := by
  generalize hu : ({ t with
    dm := UserDb.loaded r, events := t.events ++ [.lookup mode t.dm] } : Turn) = u
  have hdm : u.dm.updateCnt = counted r := by rw [← hu]; rfl
  have hori : u.ori = t.ori := by rw [← hu]
  have henable : u.dm.enable = r.enable := by rw [← hu]; rfl
  by_cases hon : r.enable = true
  · by_cases hfar : (planarDistance (counted r) t.ori).Exceeds cfg.locErrThreshold
    · obtain ⟨o, hid, hpose, heq⟩ :=
        hknown.far u (henable.trans hon) (by rw [hdm, hori]; exact hfar)
      rw [heq, hdm]
      subst hu
      refine .far r hrow hon hfar rfl rfl ⟨hid, hpose, rfl, h⟩ ?_
      simp [Turn.finish, requestOf]
    · obtain ⟨o, hid, hpose, heq⟩ :=
        hknown.near u (henable.trans hon) (by rw [hdm, hori]; exact hfar)
      rw [heq, hdm]
      subst hu
      refine .near r hrow hon hfar rfl rfl ⟨hid, hpose, rfl, h⟩ ?_
      simp [Turn.finish, requestOf]
  · have hoff : r.enable = false := by simpa using hon
    by_cases hcnt : (counted r).cnt.toNat = (cfg.repeatNum mode).toNat
    · obtain ⟨o, hid, hpose, heq⟩ :=
        hknown.recommended u (henable.trans hoff) (by rw [hdm]; exact hcnt)
      rw [heq, hdm]
      subst hu
      refine .recommended r hrow hoff hcnt rfl rfl ⟨hid, hpose, rfl, h⟩ ?_
      simp [Turn.finish]
    · obtain ⟨o, hid, hpose, heq⟩ :=
        hknown.disabled u (henable.trans hoff) (by rw [hdm]; exact hcnt)
      rw [heq, hdm]
      subst hu
      refine .disabled r hrow hoff hcnt rfl rfl ⟨hid, hpose, rfl, h⟩ ?_
      simp [Turn.finish]

end BranchLemmas

open BranchLemmas

theorem recordingBranch_step {t : Turn} (h : t.whetherCb = false) :
    BranchStep cfg account deviInfo env .recording t
      (recordingBranch cfg account deviInfo env t) := by
  unfold recordingBranch
  rw [retrieve_eq h]
  cases hrow : UserDb.lookedUp t.user env.lookup t.dm.id with
  | none =>
    refine .unknown hrow rfl rfl ⟨rfl, rfl, rfl, h⟩ ?_
    simp [recordingUnknown, Turn.emit, Turn.logSelf]
  | some r => exact known_step (recordingKnown_branch cfg account deviInfo env) h hrow

theorem localizationBranch_step {t : Turn} (h : t.whetherCb = false) :
    BranchStep cfg account deviInfo env .localization t
      (localizationBranch cfg account env t) := by
  unfold localizationBranch
  rw [retrieve_eq h]
  cases hrow : UserDb.lookedUp t.user env.lookup t.dm.id with
  | none =>
    refine .unknown hrow rfl rfl ⟨rfl, rfl, rfl, h⟩ ?_
    simp [localizationUnknown, Turn.emit, Turn.logSelf]
  | some r => exact known_step (localizationKnown_branch cfg account deviInfo env) h hrow

/-! ## Consequences -/

namespace BranchStep

variable {mode : Mode} {t t' : Turn}

theorem logged (h : BranchStep cfg account deviInfo env mode t t') : Logged cfg env t t' := by
  cases h <;> assumption

/-- A branch works on one code from its look-up to its last statement. -/
theorem dm_id (h : BranchStep cfg account deviInfo env mode t t') : t'.dm.id = t.dm.id := by
  cases h with
  | unknown hrow hdm huser hlog hev => rw [hdm]; rfl
  | disabled r hrow hoff hcnt hdm huser hlog hev =>
    rw [hdm]
    exact (UserDb.lookedUp_some hrow).2
  | recommended r hrow hoff hcnt hdm huser hlog hev =>
    rw [hdm, SelfDb.fitPose_dm]
    exact (UserDb.lookedUp_some hrow).2
  | near r hrow hon hnear hdm huser hlog hev =>
    rw [hdm, markEnabled_id]
    exact (UserDb.lookedUp_some hrow).2
  | far r hrow hon hfar hdm huser hlog hev =>
    rw [hdm, DmInfo.updateSloppyCnt_id, markEnabled_id]
    exact (UserDb.lookedUp_some hrow).2

/-- Either the look-up found nothing and the `DM` was inserted as new, or it found
a row, and the counted `DM` was written over it. -/
theorem user_cases (h : BranchStep cfg account deviInfo env mode t t') :
    (UserDb.lookedUp t.user env.lookup t.dm.id = none ∧ t'.dm.cnt = 1 ∧
      t'.user = UserDb.addContent env.userOk t.user t'.dm) ∨
    ∃ r, UserDb.lookedUp t.user env.lookup t.dm.id = some r ∧
      t'.dm.cnt = readCounter r.dmCnt + 1 ∧
      t'.user = UserDb.updateDataBase env.userOk t.user t'.dm := by
  cases h with
  | unknown hrow hdm huser hlog hev => exact .inl ⟨hrow, by rw [hdm]; rfl, huser⟩
  | disabled r hrow hoff hcnt hdm huser hlog hev =>
    exact .inr ⟨r, hrow, by rw [hdm]; rfl, huser⟩
  | recommended r hrow hoff hcnt hdm huser hlog hev =>
    exact .inr ⟨r, hrow, by rw [hdm, SelfDb.fitPose_dm]; rfl, huser⟩
  | near r hrow hon hnear hdm huser hlog hev =>
    exact .inr ⟨r, hrow, by rw [hdm, markEnabled_cnt]; rfl, huser⟩
  | far r hrow hon hfar hdm huser hlog hev =>
    exact .inr ⟨r, hrow, by rw [hdm, DmInfo.updateSloppyCnt_cnt, markEnabled_cnt]; rfl, huser⟩

/-- The counters and the flag that a branch writes over a found row. -/
theorem found (h : BranchStep cfg account deviInfo env mode t t') {r : UserRow}
    (hr : UserDb.lookedUp t.user env.lookup t.dm.id = some r) :
    t'.dm.enable = r.enable ∧ t'.dm.cnt = readCounter r.dmCnt + 1 ∧
      t'.dm.sloppyCnt = readCounter r.sloppyCnt +
        (if r.enable = true ∧ (planarDistance (counted r) t.ori).Exceeds cfg.locErrThreshold
          then 1 else 0) := by
  cases h with
  | unknown hrow hdm huser hlog hev =>
    rw [hrow] at hr
    cases hr
  | disabled r' hrow hoff hcnt hdm huser hlog hev =>
    obtain rfl : r' = r := Option.some.inj (hrow.symm.trans hr)
    rw [hdm]
    simp [hoff]
  | recommended r' hrow hoff hcnt hdm huser hlog hev =>
    obtain rfl : r' = r := Option.some.inj (hrow.symm.trans hr)
    rw [hdm, SelfDb.fitPose_dm]
    simp [hoff]
  | near r' hrow hon hnear hdm huser hlog hev =>
    obtain rfl : r' = r := Option.some.inj (hrow.symm.trans hr)
    rw [hdm]
    simp [hnear]
  | far r' hrow hon hfar hdm huser hlog hev =>
    obtain rfl : r' = r := Option.some.inj (hrow.symm.trans hr)
    rw [hdm]
    simp [hon, hfar]

/-- At the repeat number of its mode, a disabled code gets the pose of `fitPose`. -/
theorem found_fit (h : BranchStep cfg account deviInfo env mode t t') {r : UserRow}
    (hr : UserDb.lookedUp t.user env.lookup t.dm.id = some r) (hr' : r.enable = false)
    (hn : (counted r).cnt.toNat = (cfg.repeatNum mode).toNat) :
    t'.dm = (SelfDb.fitPose env.fitOk env.scan t'.self (cfg.repeatNum mode)
      (counted r).setRecommend).1 := by
  cases h with
  | unknown hrow hdm huser hlog hev =>
    rw [hrow] at hr
    cases hr
  | recommended r' hrow hoff hcnt hdm huser hlog hev =>
    obtain rfl : r' = r := Option.some.inj (hrow.symm.trans hr)
    exact hdm
  | disabled r' hrow hoff hcnt hdm huser hlog hev =>
    obtain rfl : r' = r := Option.some.inj (hrow.symm.trans hr)
    exact absurd hn hcnt
  | near r' hrow hon hnear hdm huser hlog hev | far r' hrow hon hfar hdm huser hlog hev =>
    obtain rfl : r' = r := Option.some.inj (hrow.symm.trans hr)
    rw [hr'] at hon
    cases hon

/-- An enabled row keeps its pose, and a recommended one its flag. -/
theorem found_keeps (h : BranchStep cfg account deviInfo env mode t t') {r : UserRow}
    (hr : UserDb.lookedUp t.user env.lookup t.dm.id = some r) :
    (r.enable = true → t'.dm.pose = r.pose.read) ∧
      (r.recommend = true → t'.dm.recommend = true) := by
  cases h with
  | unknown hrow hdm huser hlog hev =>
    rw [hrow] at hr
    cases hr
  | disabled r' hrow hoff hcnt hdm huser hlog hev =>
    obtain rfl : r' = r := Option.some.inj (hrow.symm.trans hr)
    rw [hdm]
    exact ⟨fun _ => rfl, id⟩
  | recommended r' hrow hoff hcnt hdm huser hlog hev =>
    obtain rfl : r' = r := Option.some.inj (hrow.symm.trans hr)
    rw [hdm, SelfDb.fitPose_dm, hoff]
    exact ⟨nofun, fun _ => rfl⟩
  | near r' hrow hon hnear hdm huser hlog hev =>
    obtain rfl : r' = r := Option.some.inj (hrow.symm.trans hr)
    rw [hdm]
    exact ⟨fun _ => by simp, fun hrec => markEnabled_recommend (d := counted r') hrec⟩
  | far r' hrow hon hfar hdm huser hlog hev =>
    obtain rfl : r' = r := Option.some.inj (hrow.symm.trans hr)
    rw [hdm]
    exact ⟨fun _ => by simp, fun hrec => markEnabled_recommend (d := counted r') hrec⟩

/-- No other code's row is touched. -/
theorem user_other (h : BranchStep cfg account deviInfo env mode t t') {id : UInt32}
    (hid : id ≠ t.dm.id) : t'.user.find? id = t.user.find? id := by
  have hne : id ≠ t'.dm.id := h.dm_id ▸ hid
  rcases h.user_cases with ⟨_, _, huser⟩ | ⟨r, _, _, huser⟩
  · rw [huser, UserDb.find?_addContent]
    simp [hne]
  · rw [huser, UserDb.find?_updateDataBase]
    simp [hne]

/-- The row of the branch's code is as before, or it is new and was inserted as such,
or it was found and the `DM` was written over it. -/
theorem user_own (h : BranchStep cfg account deviInfo env mode t t') :
    t'.user.find? t.dm.id = t.user.find? t.dm.id ∨
      t.user.find? t.dm.id = none ∧
        t'.user.find? t.dm.id = some (UserDb.row t.dm.clearRemainingInfo.updateCnt) ∨
      ∃ r, UserDb.lookedUp t.user env.lookup t.dm.id = some r ∧
        t.user.find? t.dm.id = some r ∧
        t'.user.find? t.dm.id = some (UserDb.setColumns t'.dm r) := by
  have hid := h.dm_id
  have hdm : UserDb.lookedUp t.user env.lookup t.dm.id = none →
      t'.dm = t.dm.clearRemainingInfo.updateCnt := by
    intro hnone
    cases h with
    | unknown _ hdm => exact hdm
    | disabled r hr | recommended r hr | near r hr | far r hr =>
      rw [hnone] at hr
      cases hr
  rcases h.user_cases with ⟨hnone, _, huser⟩ | ⟨r, hr, _, huser⟩
  · rw [huser, UserDb.find?_addContent, hid]
    split
    · next hok => exact .inr (.inl ⟨hok.2.1, by rw [hdm hnone]⟩)
    · exact .inl rfl
  · have hrow := (UserDb.lookedUp_some hr).1
    rw [huser, UserDb.find?_updateDataBase, hid]
    split
    · exact .inr (.inr ⟨r, hr, hrow, by rw [hrow]; rfl⟩)
    · exact .inl rfl

end BranchStep

end

end

end QrAddon
