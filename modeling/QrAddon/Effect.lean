import QrAddon.Loop

/-!
# A branch as a function

`BranchStep` lists what a branch may do. `effect` is the same as a function: it looks
the row up once and computes from it and from the snapshot everything that the branch
leaves. Both branches of the code are `effect` in their mode, and so is an iteration in
a fixed mode. What depends on a single column of a table is read off `effect`.
-/

namespace QrAddon

section

variable [Doubles]

section

variable (cfg : Config ℚ)

/-- The row is enabled, and the sighting lies further than the threshold from it. -/
def Far (r : UserRow) (ori : DmInfo ℚ) : Prop :=
  r.enable = true ∧ (planarDistance (counted r) ori).Exceeds cfg.locErrThreshold

/-- The row is disabled, and the sighting brings its count to the repeat number. -/
def Reaches (mode : Mode) (r : UserRow) : Prop :=
  r.enable = false ∧ (counted r).cnt.toNat = (cfg.repeatNum mode).toNat

instance (r : UserRow) (ori : DmInfo ℚ) : Decidable (Far cfg r ori) :=
  inferInstanceAs (Decidable (_ ∧ _))

instance (mode : Mode) (r : UserRow) : Decidable (Reaches cfg mode r) :=
  inferInstanceAs (Decidable (_ ∧ _))

/-- The snapshot as a branch logs it. Only a new code's snapshot is cleared of what the
`DM` still held. -/
def snapshot (mode : Mode) (ori : DmInfo ℚ) : Option UserRow → DmInfo ℚ
  | none =>
    if mode = .recording then ori.clearRemainingInfo.updateCnt else ori.clearRemainingInfo
  | some r =>
    let o := if mode = .recording then ori else ori.updateCnt
    let o := if Far cfg r ori then o.updateSloppyCnt.setHaveSloppy else o
    if Reaches cfg mode r ∨ r.enable = true ∧ mode = .recording then o.setRecommend else o

/-- The `DM` that a branch writes over a found row. -/
def rewritten (env : BranchEnv) (mode : Mode) (r : UserRow) (ori : DmInfo ℚ)
    (self : SelfTable) : DmInfo ℚ :=
  if Far cfg r ori then (markEnabled mode (counted r)).updateSloppyCnt
  else if r.enable = true then markEnabled mode (counted r)
  else if Reaches cfg mode r then
    (SelfDb.fitPose env.fitOk env.scan self (cfg.repeatNum mode) (counted r).setRecommend).1
  else counted r

variable (account : Account) (deviInfo : CustomerPackage ℚ) (env : BranchEnv)

/-- What a branch shows for a found row, behind the look-up. -/
def shown (mode : Mode) (t : Turn) (r : UserRow) (self : SelfTable) : List Event :=
  if r.enable = true then
    [.login (RpcClientSessLogIn.writeJsonLogIn "sessionLogin" t.globalId account),
      requestOf cfg deviInfo env t mode (counted r) (t.globalId + 1)] ++
      if Far cfg r t.ori then [.diag 4] else []
  else if Reaches cfg mode r then
    [.fit (SelfDb.fitPose env.fitOk env.scan self (cfg.repeatNum mode) (counted r).setRecommend).2]
  else []

/-- The branch of a mode. -/
def effect (mode : Mode) (t : Turn) : Turn :=
  let row := UserDb.lookedUp t.user env.lookup t.dm.id
  let ori := snapshot cfg mode t.ori row
  let self := SelfDb.addContent env.selfOk cfg.maxRowSelfDb t.self ori
  match row with
  | none =>
    let dm := t.dm.clearRemainingInfo.updateCnt
    { t with
      user := UserDb.addContent env.userOk t.user dm
      self := self
      dm := dm
      ori := ori
      events := t.events ++ [.lookup mode t.dm, .diag 1] }
  | some r =>
    let dm := rewritten cfg env mode r t.ori self
    { t with
      user := UserDb.updateDataBase env.userOk t.user dm
      self := self
      dm := dm
      ori := ori
      globalId := if r.enable = true then t.globalId + 1 + 1 else t.globalId
      events := t.events ++ .lookup mode t.dm :: shown cfg account deviInfo env mode t r self }

end

variable {cfg : Config ℚ} {account : Account} {deviInfo : CustomerPackage ℚ} {env : BranchEnv}

open BranchLemmas

namespace EffectLemmas

section

variable {mode : Mode} {r : UserRow} {ori : DmInfo ℚ}

theorem not_far_of_off (h : r.enable = false) : ¬ Far cfg r ori := by
  intro hf
  rw [hf.1] at h
  cases h

theorem not_reaches_of_on (h : r.enable = true) : ¬ Reaches cfg mode r := by
  intro hr
  rw [hr.1] at h
  cases h

/-! ### `snapshot` and `rewritten` in the four cases of a found row -/

theorem snapshot_far (h : Far cfg r ori) : snapshot cfg mode ori (some r) =
    if mode = .recording then ori.updateSloppyCnt.setHaveSloppy.setRecommend
    else ori.updateCnt.updateSloppyCnt.setHaveSloppy := by
  by_cases hm : mode = .recording <;> simp [snapshot, h, h.1, hm, not_reaches_of_on h.1]

theorem snapshot_near (h : ¬ Far cfg r ori) (hon : r.enable = true) :
    snapshot cfg mode ori (some r) =
      if mode = .recording then ori.setRecommend else ori.updateCnt := by
  by_cases hm : mode = .recording <;> simp [snapshot, h, hon, hm, not_reaches_of_on hon]

theorem snapshot_reaches (h : Reaches cfg mode r) : snapshot cfg mode ori (some r) =
    (if mode = .recording then ori else ori.updateCnt).setRecommend := by
  simp [snapshot, h, not_far_of_off h.1]

theorem snapshot_off (h : ¬ Reaches cfg mode r) (hoff : r.enable = false) :
    snapshot cfg mode ori (some r) = if mode = .recording then ori else ori.updateCnt := by
  simp [snapshot, h, hoff, not_far_of_off hoff]

theorem rewritten_far (h : Far cfg r ori) (self : SelfTable) :
    rewritten cfg env mode r ori self = (markEnabled mode (counted r)).updateSloppyCnt := if_pos h

theorem rewritten_near (h : ¬ Far cfg r ori) (hon : r.enable = true) (self : SelfTable) :
    rewritten cfg env mode r ori self = markEnabled mode (counted r) := by
  rw [rewritten, if_neg h, if_pos hon]

theorem rewritten_reaches (h : Reaches cfg mode r) (self : SelfTable) :
    rewritten cfg env mode r ori self =
      (SelfDb.fitPose env.fitOk env.scan self (cfg.repeatNum mode)
        (counted r).setRecommend).1 := by
  rw [rewritten, if_neg (not_far_of_off h.1), if_neg (by simp [h.1]), if_pos h]

theorem rewritten_off (h : ¬ Reaches cfg mode r) (hoff : r.enable = false) (self : SelfTable) :
    rewritten cfg env mode r ori self = counted r := by
  rw [rewritten, if_neg (not_far_of_off hoff), if_neg (by simp [hoff]), if_neg h]

end

/-- The end of a known branch in the terms of `effect`. -/
def knownEnd (cfg : Config ℚ) (account : Account) (deviInfo : CustomerPackage ℚ) (env : BranchEnv)
    (mode : Mode) (r : UserRow) (u : Turn) : Turn :=
  let ori := snapshot cfg mode u.ori (some r)
  let self := SelfDb.addContent env.selfOk cfg.maxRowSelfDb u.self ori
  u.finish cfg env (rewritten cfg env mode r u.ori self) ori
    (if r.enable = true then u.globalId + 1 + 1 else u.globalId)
    (shown cfg account deviInfo env mode u r self)

section

variable {mode : Mode} {r : UserRow} {u : Turn}

theorem knownEnd_far (h : Far cfg r u.ori) : knownEnd cfg account deviInfo env mode r u =
    u.finish cfg env (markEnabled mode (counted r)).updateSloppyCnt
      (if mode = .recording then u.ori.updateSloppyCnt.setHaveSloppy.setRecommend
        else u.ori.updateCnt.updateSloppyCnt.setHaveSloppy) (u.globalId + 1 + 1)
      [.login (RpcClientSessLogIn.writeJsonLogIn "sessionLogin" u.globalId account),
        requestOf cfg deviInfo env u mode (counted r) (u.globalId + 1), .diag 4] := by
  simp only [knownEnd, snapshot_far h, rewritten_far h, shown, h, h.1, if_true]
  rfl

theorem knownEnd_near (h : ¬ Far cfg r u.ori) (hon : r.enable = true) :
    knownEnd cfg account deviInfo env mode r u =
      u.finish cfg env (markEnabled mode (counted r))
        (if mode = .recording then u.ori.setRecommend else u.ori.updateCnt) (u.globalId + 1 + 1)
        [.login (RpcClientSessLogIn.writeJsonLogIn "sessionLogin" u.globalId account),
          requestOf cfg deviInfo env u mode (counted r) (u.globalId + 1)] := by
  simp only [knownEnd, snapshot_near h hon, rewritten_near h hon, shown, h, hon, if_true, if_false]
  rfl

theorem knownEnd_reaches (h : Reaches cfg mode r) : knownEnd cfg account deviInfo env mode r u =
    let o := (if mode = .recording then u.ori else u.ori.updateCnt).setRecommend
    let f := SelfDb.fitPose env.fitOk env.scan
      (SelfDb.addContent env.selfOk cfg.maxRowSelfDb u.self o) (cfg.repeatNum mode)
      (counted r).setRecommend
    u.finish cfg env f.1 o u.globalId [.fit f.2] := by
  simp only [knownEnd, snapshot_reaches h, rewritten_reaches h, shown, h, h.1, if_true, if_false,
    Bool.false_eq_true]

theorem knownEnd_off (h : ¬ Reaches cfg mode r) (hoff : r.enable = false) :
    knownEnd cfg account deviInfo env mode r u =
      u.finish cfg env (counted r) (if mode = .recording then u.ori else u.ori.updateCnt)
        u.globalId [] := by
  simp only [knownEnd, snapshot_off h hoff, rewritten_off h hoff, shown, h, hoff, if_false,
    Bool.false_eq_true]

end

variable {u : Turn} {r : UserRow}

theorem recordingKnown_end (hu : u.dm = UserDb.loaded r) :
    recordingKnown cfg account deviInfo env u =
      knownEnd cfg account deviInfo env .recording r u := by
  have hdm : u.dm.updateCnt = counted r := by rw [hu]; rfl
  have hen : u.dm.enable = r.enable := by rw [hu]; rfl
  by_cases hon : r.enable = true
  · by_cases hfar : Far cfg r u.ori
    · rw [knownEnd_far hfar, recordingKnown_far (hen.trans hon) (by rw [hdm]; exact hfar.2), hdm]
      rfl
    · rw [knownEnd_near hfar hon, recordingKnown_near (hen.trans hon)
        (by rw [hdm]; exact fun h => hfar ⟨hon, h⟩), hdm]
      rfl
  · have hoff : r.enable = false := by simpa using hon
    by_cases hr : Reaches cfg .recording r
    · rw [knownEnd_reaches hr, recordingKnown_recommended (hen.trans hoff)
        (by rw [hdm]; exact hr.2), hdm]
      rfl
    · rw [knownEnd_off hr hoff, recordingKnown_disabled (hen.trans hoff)
        (by rw [hdm]; exact fun h => hr ⟨hoff, h⟩), hdm]
      rfl

variable (deviInfo) in
theorem localizationKnown_end (hu : u.dm = UserDb.loaded r) :
    localizationKnown cfg account env u =
      knownEnd cfg account deviInfo env .localization r u := by
  have hdm : u.dm.updateCnt = counted r := by rw [hu]; rfl
  have hen : u.dm.enable = r.enable := by rw [hu]; rfl
  by_cases hon : r.enable = true
  · by_cases hfar : Far cfg r u.ori
    · rw [knownEnd_far hfar, localizationKnown_far deviInfo (hen.trans hon)
        (by rw [hdm]; exact hfar.2), hdm]
      rfl
    · rw [knownEnd_near hfar hon, localizationKnown_near deviInfo (hen.trans hon)
        (by rw [hdm]; exact fun h => hfar ⟨hon, h⟩), hdm]
      rfl
  · have hoff : r.enable = false := by simpa using hon
    by_cases hr : Reaches cfg .localization r
    · rw [knownEnd_reaches hr, localizationKnown_recommended (hen.trans hoff)
        (by rw [hdm]; exact hr.2), hdm]
      rfl
    · rw [knownEnd_off hr hoff, localizationKnown_disabled (hen.trans hoff)
        (by rw [hdm]; exact fun h => hr ⟨hoff, h⟩), hdm]
      rfl

end EffectLemmas

open EffectLemmas

theorem recordingBranch_eq {t : Turn} (h : t.whetherCb = false) :
    recordingBranch cfg account deviInfo env t = effect cfg account deviInfo env .recording t := by
  unfold recordingBranch effect
  rw [retrieve_eq h]
  cases hrow : UserDb.lookedUp t.user env.lookup t.dm.id with
  | none => simp [recordingUnknown, Turn.emit, Turn.logSelf, snapshot]
  | some r =>
    simp only
    rw [recordingKnown_end rfl]
    simp [knownEnd, Turn.finish, shown, requestOf]

theorem localizationBranch_eq {t : Turn} (h : t.whetherCb = false) :
    localizationBranch cfg account env t =
      effect cfg account deviInfo env .localization t := by
  unfold localizationBranch effect
  rw [retrieve_eq h]
  cases hrow : UserDb.lookedUp t.user env.lookup t.dm.id with
  | none => simp [localizationUnknown, Turn.emit, Turn.logSelf, snapshot]
  | some r =>
    simp only
    rw [localizationKnown_end deviInfo rfl]
    simp [knownEnd, Turn.finish, shown, requestOf]

variable (cfg) in
/-- The snapshot keeps its id and its pose. -/
theorem snapshot_frame (mode : Mode) (ori : DmInfo ℚ) (row : Option UserRow) :
    (snapshot cfg mode ori row).id = ori.id ∧ (snapshot cfg mode ori row).pose = ori.pose := by
  cases row with
  | none =>
    simp only [snapshot]
    split <;> exact ⟨rfl, rfl⟩
  | some r =>
    simp only [snapshot]
    split_ifs <;> exact ⟨rfl, rfl⟩

/-! ### The columns of a known code's snapshot

What a column gets does not depend on what the others hold, and no column is cleared. -/

section

variable {mode : Mode} {r : UserRow} {ori : DmInfo ℚ}

theorem snapshot_cnt : (snapshot cfg mode ori (some r)).cnt =
    if mode = .recording then ori.cnt else ori.cnt + 1 := by
  by_cases hm : mode = .recording <;> simp only [snapshot, hm] <;> split_ifs <;> simp

theorem snapshot_sloppyCnt : (snapshot cfg mode ori (some r)).sloppyCnt =
    ori.sloppyCnt + if Far cfg r ori then 1 else 0 := by
  by_cases hfar : Far cfg r ori <;> by_cases hm : mode = .recording <;>
    simp only [snapshot, hfar, hm] <;> split_ifs <;> simp

theorem snapshot_enable : (snapshot cfg mode ori (some r)).enable = ori.enable := by
  simp only [snapshot]
  split_ifs <;> rfl

/-- The flag is set by an occasion to recommend. -/
theorem snapshot_recommend : (snapshot cfg mode ori (some r)).recommend = true ↔
    (Reaches cfg mode r ∨ r.enable = true ∧ mode = .recording) ∨ ori.recommend = true := by
  simp only [snapshot]
  by_cases h : Reaches cfg mode r ∨ r.enable = true ∧ mode = .recording
  · rw [if_pos h]
    exact iff_of_true rfl (.inl h)
  · rw [if_neg h, or_iff_right h]
    split_ifs <;> rfl

/-- The flag is set by a deviation. -/
theorem snapshot_haveSloppy : (snapshot cfg mode ori (some r)).haveSloppy = true ↔
    Far cfg r ori ∨ ori.haveSloppy = true := by
  simp only [snapshot]
  split_ifs <;> simp [*]

end

/-! ## Reading `effect` -/

section

variable {mode : Mode} {t : Turn}

theorem effect_none (h : UserDb.lookedUp t.user env.lookup t.dm.id = none) :
    effect cfg account deviInfo env mode t =
      { t with
        user := UserDb.addContent env.userOk t.user t.dm.clearRemainingInfo.updateCnt
        self := SelfDb.addContent env.selfOk cfg.maxRowSelfDb t.self (snapshot cfg mode t.ori none)
        dm := t.dm.clearRemainingInfo.updateCnt
        ori := snapshot cfg mode t.ori none
        events := t.events ++ [.lookup mode t.dm, .diag 1] } := by
  simp only [effect, h]

theorem effect_some {r : UserRow} (h : UserDb.lookedUp t.user env.lookup t.dm.id = some r) :
    effect cfg account deviInfo env mode t =
      let ori := snapshot cfg mode t.ori (some r)
      let self := SelfDb.addContent env.selfOk cfg.maxRowSelfDb t.self ori
      let dm := rewritten cfg env mode r t.ori self
      { t with
        user := UserDb.updateDataBase env.userOk t.user dm
        self := self
        dm := dm
        ori := ori
        globalId := if r.enable = true then t.globalId + 1 + 1 else t.globalId
        events := t.events ++ .lookup mode t.dm ::
          shown cfg account deviInfo env mode t r self } := by
  simp only [effect, h]

/-- A function of events that sees nothing but the observations and the seeds. -/
structure Event.SeesPosts {β : Type} (f : Event → Option β) : Prop where
  lookup : ∀ mode dm, f (.lookup mode dm) = none
  login : ∀ q, f (.login q) = none
  diag : ∀ w, f (.diag w) = none
  fit : ∀ c, f (.fit c) = none

variable (cfg account deviInfo env mode t) in
/-- The posts of a branch: one behind a look-up of an enabled row, and none otherwise. -/
theorem effect_posts {β : Type} {f : Event → Option β} (hf : Event.SeesPosts f) :
    ((effect cfg account deviInfo env mode t).events.drop t.events.length).filterMap f =
      ((UserDb.lookedUp t.user env.lookup t.dm.id).filter (·.enable)).elim [] fun r =>
        (f (requestOf cfg deviInfo env t mode (counted r) (t.globalId + 1))).toList := by
  cases hrow : UserDb.lookedUp t.user env.lookup t.dm.id with
  | none => simp [effect_none hrow, hf.lookup, hf.diag]
  | some r =>
    rw [effect_some hrow]
    by_cases hon : r.enable = true
    · have hfilter : (some r).filter (·.enable) = some r := by simp [Option.filter, hon]
      rw [hfilter]
      by_cases hfar : Far cfg r t.ori <;>
        cases hpost : f (requestOf cfg deviInfo env t mode (counted r) (t.globalId + 1)) <;>
        simp [shown, hon, hfar, hf.lookup, hf.login, hf.diag, hpost]
    · have hfilter : (some r).filter (·.enable) = none := by simp [Option.filter, hon]
      rw [hfilter]
      by_cases hr : Reaches cfg mode r <;> simp [shown, hon, hr, hf.lookup, hf.fit]

theorem effect_ori : (effect cfg account deviInfo env mode t).ori =
    snapshot cfg mode t.ori (UserDb.lookedUp t.user env.lookup t.dm.id) := by
  unfold effect
  cases UserDb.lookedUp t.user env.lookup t.dm.id <;> rfl

theorem effect_whetherCb (h : t.whetherCb = false) :
    (effect cfg account deviInfo env mode t).whetherCb = false := by
  unfold effect
  cases UserDb.lookedUp t.user env.lookup t.dm.id <;> exact h

theorem effect_self : (effect cfg account deviInfo env mode t).self =
    SelfDb.addContent env.selfOk cfg.maxRowSelfDb t.self
      (effect cfg account deviInfo env mode t).ori := by
  unfold effect
  cases UserDb.lookedUp t.user env.lookup t.dm.id <;> rfl

end

/-! ### The columns of a rewritten row -/

section

variable {mode : Mode} {r : UserRow} {ori : DmInfo ℚ} {self : SelfTable}

theorem rewritten_id : (rewritten cfg env mode r ori self).id = r.dmId := by
  unfold rewritten
  split_ifs
  · simp
  · simp
  · rw [SelfDb.fitPose_dm]
    rfl
  · rfl

theorem rewritten_cnt :
    (rewritten cfg env mode r ori self).cnt = readCounter r.dmCnt + 1 := by
  unfold rewritten
  split_ifs
  · simp
  · simp
  · rw [SelfDb.fitPose_dm]
    rfl
  · rfl

theorem rewritten_sloppyCnt : (rewritten cfg env mode r ori self).sloppyCnt =
    readCounter r.sloppyCnt + if Far cfg r ori then 1 else 0 := by
  unfold rewritten
  split_ifs
  · simp
  · simp
  · rw [SelfDb.fitPose_dm]
    simp
  · simp

theorem rewritten_enable : (rewritten cfg env mode r ori self).enable = r.enable := by
  unfold rewritten
  split_ifs
  · simp
  · simp
  · rw [SelfDb.fitPose_dm]
    rfl
  · rfl

/-- Nothing but a fit moves the stored pose. -/
theorem rewritten_pose (h : ¬ Reaches cfg mode r) :
    (rewritten cfg env mode r ori self).pose = r.pose.read := by
  unfold rewritten
  split_ifs <;> simp

/-- A code becomes recommended when its count reaches the repeat number, or when
RECORDING meets it enabled. -/
theorem rewritten_recommend : (rewritten cfg env mode r ori self).recommend = true ↔
    r.recommend = true ∨ Reaches cfg mode r ∨ r.enable = true ∧ mode = .recording := by
  have hcounted : (counted r).recommend = r.recommend := rfl
  unfold rewritten
  split_ifs with hfar hon hr
  · cases mode <;> simp [markEnabled, hfar.1, not_reaches_of_on hfar.1, hcounted]
  · cases mode <;> simp [markEnabled, hon, not_reaches_of_on hon, hcounted]
  · rw [SelfDb.fitPose_dm]
    simp [hr]
  · simp [hr, hon, hcounted]

end

/-! ## An iteration in a mode that does not change -/

/-- All four reads of `*modePtr` return the mode `m`, which may be INIT. -/
structure Sighting.Steady (i : Sighting) (m : Mode) : Prop where
  mode1 : i.trig.mode1 = m
  mode2 : i.trig.mode2 = m
  mode3 : i.body.mode3 = m
  mode4 : i.body.mode4 = m

omit [Doubles] in
theorem Sighting.Steady.fixed {i : Sighting} {m : Mode} (h : i.Steady m) (hm : m ≠ .init) :
    i.Fixed m := ⟨hm, h.mode1, h.mode2, h.mode3, h.mode4⟩

variable {s : Main} {i : Sighting}

theorem iterate_eq : iterate cfg account s i =
    let t := if i.body.mode3 = .recording then
      recordingBranch cfg account i.body.deviInfo i.body.envRec (s.turn i) else s.turn i
    if i.body.mode4 = .localization then localizationBranch cfg account i.body.envLoc t else t :=
  rfl

variable (cfg account) in
/-- Outside INIT, an iteration is one branch. -/
theorem iterate_effect (h : s.whetherCb = false) {m : Mode} (hm : i.Fixed m) :
    iterate cfg account s i =
      effect cfg account i.body.deviInfo (i.env m) m (s.turn i) := by
  have hflag : (s.turn i).whetherCb = false := h
  rw [iterate_eq, hm.mode3, hm.mode4]
  cases m with
  | recording => exact recordingBranch_eq hflag
  | localization => exact localizationBranch_eq hflag
  | init => exact absurd rfl hm.real

variable (cfg account) in
/-- In INIT, an iteration does nothing. -/
theorem iterate_idle (hm : i.Steady .init) :
    (iterate cfg account s i).toMain = s ∧ (iterate cfg account s i).events = [] := by
  have hsource : i.trig.source = .init := by
    unfold TriggerIn.source
    rw [hm.mode1, hm.mode2]
    rfl
  have hturn : iterate cfg account s i = s.turn i := by
    rw [iterate_eq, hm.mode3, hm.mode4]
    rfl
  rw [hturn]
  refine ⟨?_, rfl⟩
  exact s.trigger_init hsource i.deviInfo

end

end QrAddon
