import QrAddon.Loop

/-!
# The operator writes between two statements of the main loop

No function of the program turns `enable` on: the operator does it with an update of
his own, which may commit between any two SQL statements of an iteration. Here the loop
is taken apart at its statements. A `Machine` is about to run one of them, and a
`Move` hands it a package, runs that statement, or is an update of the operator.

Results:
1. `exec_iterate`, `reaches_runMain`: undisturbed, the statements of a package add up to
   one `iterate`, so the machine also makes every run of `runMain`.
2. `enabled_kept_iff`: the row that the operator enables stays enabled, in every
   continuation in which he does not clear it, exactly when main is not behind a look-up
   that found this row disabled and in front of the `updateDataBase` that rewrites it
   (`Machine.Pending`).
3. `enable_overwritten`: a run in which it does not.
-/

namespace QrAddon

/-! ## The loop, statement by statement -/

section

variable [Doubles]

/-- A branch of the loop body that is still to run. -/
inductive Branch
  | recording (deviInfo : CustomerPackage ℚ) (env : BranchEnv)
  | localization (env : BranchEnv)

/-- Where main stands: the SQL statement it runs next. -/
inductive Pc
  /-- `userDB.retrieveUsrDb` of the next branch, or the next package -/
  | retrieve
  /-- `userDB.addContent` -/
  | insert (env : BranchEnv)
  /-- `selfDB.addContent` for a new code -/
  | logNew (env : BranchEnv)
  /-- `selfDB.addContent` for a known code, with the argument of the `fitPose` behind it -/
  | log (env : BranchEnv) (fit : Option UInt16)
  /-- `selfDB.fitPose` -/
  | fit (env : BranchEnv) (n : UInt16)
  /-- `userDB.updateDataBase` -/
  | update (env : BranchEnv)

namespace Branch

def mode : Branch → Mode
  | .recording _ _ => .recording
  | .localization _ => .localization

def env : Branch → BranchEnv
  | .recording _ env | .localization env => env

section

variable (cfg : Config ℚ) (account : Account)

/-- The branch as one step. -/
def run : Branch → Turn → Turn
  | .recording deviInfo env => recordingBranch cfg account deviInfo env
  | .localization env => localizationBranch cfg account env

/-- The lines of a branch between a look-up that found a row and the first statement
behind it: the count, and the requests or the recommendation. -/
def known (b : Branch) (t : Turn) : Option UInt16 × Turn :=
  match b with
  | .recording deviInfo env =>
    let t := { t with dm := t.dm.updateCnt }
    let dmInfo := t.dm
    if dmInfo.enable = true then
      let t := { t with dm := t.dm.setRecommend }
      let t := t.getSessionId account
      let t := t.post fun rpcId => .addObservation
        (RpcClientGLA.writeJsonGLA "clientGlobalAlignAddObservation" rpcId dmInfo cfg deviInfo
          env.sessionId)
      let t := t.checkDeviation cfg (RpcClientGLA.computeSloppy t.dm t.ori)
      (none, { t with ori := t.ori.setRecommend })
    else if dmInfo.cnt.toNat = cfg.mappRepeatNum.toNat then
      (some cfg.mappRepeatNum, { t with dm := t.dm.setRecommend, ori := t.ori.setRecommend })
    else (none, t)
  | .localization env =>
    let t := { t with dm := t.dm.updateCnt, ori := t.ori.updateCnt }
    let dmInfo := t.dm
    if dmInfo.enable = true then
      let t := t.getSessionId account
      let t := t.post fun rpcId => .setSeed
        (@RpcClientSetSeed.writeJsonSetSeed ℚ Doubles.toAdd _ "clientLocalizationSetSeed" rpcId
          dmInfo t.locStat t.rokitPose cfg env.sessionId)
      (none, t.checkDeviation cfg (RpcClientSetSeed.computeSloppy t.dm t.ori))
    else if dmInfo.cnt.toNat = cfg.locRepeatNum.toNat then
      (some cfg.locRepeatNum, { t with dm := t.dm.setRecommend, ori := t.ori.setRecommend })
    else (none, t)

/-- The same behind a look-up that found none. -/
def unknown (b : Branch) (t : Turn) : Turn :=
  match b with
  | .recording _ _ =>
    { t with
      dm := t.dm.clearRemainingInfo.updateCnt, ori := t.ori.clearRemainingInfo.updateCnt }
  | .localization _ =>
    { t with dm := t.dm.clearRemainingInfo.updateCnt, ori := t.ori.clearRemainingInfo }

/-- The look-up of a branch and the lines behind it. -/
def look (b : Branch) (t : Turn) : Pc × Turn :=
  match t.retrieve b.env b.mode with
  | (true, t) =>
    let r := b.known cfg account t
    (.log b.env r.1, r.2)
  | (false, t) => (.insert b.env, b.unknown t)

end

end Branch

/-- Main between two of its statements. -/
structure Machine where
  turn : Turn
  pc : Pc
  rest : List Branch

/-- What may happen next: a package arrives, main runs a statement, or the operator does. -/
inductive Machine.Move
  | package (i : Sighting)
  | exec
  | operator (id : UInt32) (enable : Bool)

/-- The branches that the loop body is going to run. -/
def BodyIn.branches (b : BodyIn) : List Branch :=
  (if b.mode3 = .recording then [.recording b.deviInfo b.envRec] else []) ++
    if b.mode4 = .localization then [.localization b.envLoc] else []

namespace Machine

def start : Machine := ⟨Main.start.opened, .retrieve, []⟩

section

variable (cfg : Config ℚ) (account : Account)

/-- Main runs its next statement. Without one it waits for a package. -/
def exec (s : Machine) : Machine :=
  match s.pc with
  | .retrieve =>
    match s.rest with
    | [] => s
    | b :: bs =>
      let r := b.look cfg account s.turn
      ⟨r.2, r.1, bs⟩
  | .insert env =>
    let t := { s.turn with user := UserDb.addContent env.userOk s.turn.user s.turn.dm }
    { s with turn := t.emit (.diag 1), pc := .logNew env }
  | .logNew env => { s with turn := s.turn.logSelf cfg env, pc := .retrieve }
  | .log env none => { s with turn := s.turn.logSelf cfg env, pc := .update env }
  | .log env (some n) => { s with turn := s.turn.logSelf cfg env, pc := .fit env n }
  | .fit env n => { s with turn := s.turn.fit env n, pc := .update env }
  | .update env => { s with turn := s.turn.writeBack env, pc := .retrieve }

/-- `dmTrigger` returns the next package, and the body takes its snapshot. Both happen
only behind the last statement of the previous iteration. -/
def package (s : Machine) (i : Sighting) : Machine :=
  match s.pc, s.rest with
  | .retrieve, [] => { s with turn := s.turn.toMain.turn i, rest := i.body.branches }
  | _, _ => s

def operator (s : Machine) (id : UInt32) (enable : Bool) : Machine :=
  { s with turn := { s.turn with user := UserDb.setEnable s.turn.user id enable } }

def move (s : Machine) : Move → Machine
  | .package i => s.package i
  | .exec => s.exec cfg account
  | .operator id enable => s.operator id enable

/-- The machine after the moves `l`, in any order. -/
def after (l : List Move) : Machine := Run.exec (move cfg account) start l

end

end Machine

/-- The known branch whose row is still to be rewritten. -/
def Pc.writer : Pc → Option BranchEnv
  | .log env _ | .fit env _ | .update env => some env
  | .retrieve | .insert _ | .logNew _ => none

/-- Main is behind a look-up that found the row of `id` disabled, and its `updateDataBase`
is still to come and will succeed. -/
def Machine.Pending (id : UInt32) (s : Machine) : Prop :=
  s.pc.writer.any (·.userOk) = true ∧ s.turn.dm.id = id ∧ s.turn.dm.enable = false

instance (id : UInt32) (s : Machine) : Decidable (s.Pending id) :=
  inferInstanceAs (Decidable (_ ∧ _))

/-- The user table has the row of `id`, and it is enabled. -/
def UserDb.Enabled (t : UserTable) (id : UInt32) : Prop :=
  (t.find? id).any (·.enable) = true

instance (t : UserTable) (id : UInt32) : Decidable (UserDb.Enabled t id) :=
  inferInstanceAs (Decidable (_ = true))

/-! ## Undisturbed statements make an iteration -/

namespace InterferenceLemmas

variable {cfg : Config ℚ} {account : Account}

theorem recordingKnown_eq (deviInfo : CustomerPackage ℚ) (env : BranchEnv) (t : Turn) :
    recordingKnown cfg account deviInfo env t =
      let r := (Branch.recording deviInfo env).known cfg account t
      let u := r.2.logSelf cfg env
      (r.1.elim u fun n => u.fit env n).writeBack env := by
  cases hon : t.dm.enable with
  | true =>
    simp only [recordingKnown, Branch.known, DmInfo.updateCnt_enable, hon, and_false, if_true,
      if_false, Bool.true_eq_false]
    rfl
  | false =>
    by_cases hcnt : t.dm.updateCnt.cnt.toNat = cfg.mappRepeatNum.toNat
    · simp only [recordingKnown, Branch.known, DmInfo.updateCnt_enable, hon, hcnt, and_true,
        if_true, if_false, Bool.false_eq_true]
      rfl
    · simp only [recordingKnown, Branch.known, DmInfo.updateCnt_enable, hon, hcnt, and_true,
        if_true, if_false, Bool.false_eq_true]
      rfl

theorem localizationKnown_eq (env : BranchEnv) (t : Turn) :
    localizationKnown cfg account env t =
      let r := (Branch.localization env).known cfg account t
      let u := r.2.logSelf cfg env
      (r.1.elim u fun n => u.fit env n).writeBack env := by
  cases hon : t.dm.enable with
  | true =>
    simp only [localizationKnown, Branch.known, DmInfo.updateCnt_enable, hon, and_false, if_true,
      if_false, Bool.true_eq_false]
    rfl
  | false =>
    by_cases hcnt : t.dm.updateCnt.cnt.toNat = cfg.locRepeatNum.toNat
    · simp only [localizationKnown, Branch.known, DmInfo.updateCnt_enable, hon, hcnt, and_true,
        if_true, if_false, Bool.false_eq_true]
      rfl
    · simp only [localizationKnown, Branch.known, DmInfo.updateCnt_enable, hon, hcnt, and_true,
        if_true, if_false, Bool.false_eq_true]
      rfl

/-- A branch is its look-up and the statements of the way it then takes. -/
theorem run_eq (b : Branch) (t : Turn) :
    b.run cfg account t =
      match t.retrieve b.env b.mode with
      | (true, t) =>
        let r := b.known cfg account t
        let u := r.2.logSelf cfg b.env
        (r.1.elim u fun n => u.fit b.env n).writeBack b.env
      | (false, t) =>
        let u := b.unknown t
        let u := { u with user := UserDb.addContent b.env.userOk u.user u.dm }
        (u.emit (.diag 1)).logSelf cfg b.env := by
  cases b with
  | recording deviInfo env =>
    simp only [Branch.run, recordingBranch, recordingKnown_eq]
    rfl
  | localization env =>
    simp only [Branch.run, localizationBranch, localizationKnown_eq]
    rfl

variable (cfg account) in
/-- A branch, statement by statement. -/
theorem exec_branch (b : Branch) (bs : List Branch) (t : Turn) :
    ∃ n, (Machine.exec cfg account)^[n] ⟨t, .retrieve, b :: bs⟩ =
      ⟨b.run cfg account t, .retrieve, bs⟩ := by
  rw [run_eq]
  cases hlook : t.retrieve b.env b.mode with
  | mk found u =>
    cases found with
    | false =>
      refine ⟨3, ?_⟩
      simp [Machine.exec, Branch.look, hlook]
    | true =>
      cases hfit : (b.known cfg account u).1 with
      | none =>
        refine ⟨3, ?_⟩
        simp [Machine.exec, Branch.look, hlook, hfit]
      | some n =>
        refine ⟨4, ?_⟩
        simp [Machine.exec, Branch.look, hlook, hfit]

variable (cfg account) in
theorem exec_branches (bs : List Branch) (t : Turn) :
    ∃ n, (Machine.exec cfg account)^[n] ⟨t, .retrieve, bs⟩ =
      ⟨bs.foldl (fun t b => b.run cfg account t) t, .retrieve, []⟩ := by
  induction bs generalizing t with
  | nil => exact ⟨0, rfl⟩
  | cons b bs ih =>
    obtain ⟨n, hn⟩ := exec_branch cfg account b bs t
    obtain ⟨m, hm⟩ := ih (b.run cfg account t)
    refine ⟨m + n, ?_⟩
    rw [Function.iterate_add_apply, hn, hm]
    rfl

/-- The branches of a package, one after the other, are the loop body. -/
theorem branches_run (s : Main) (i : Sighting) :
    i.body.branches.foldl (fun t b => b.run cfg account t) (s.turn i) =
      iterate cfg account s i := by
  unfold BodyIn.branches iterate loopBody
  by_cases h3 : i.body.mode3 = .recording
  · by_cases h4 : i.body.mode4 = .localization
    · simp only [h3, h4, if_true]
      rfl
    · simp only [h3, h4, if_true, if_false]
      rfl
  · by_cases h4 : i.body.mode4 = .localization
    · simp only [h3, h4, if_true, if_false]
      rfl
    · simp only [h3, h4, if_false]
      rfl

theorem exec_moves (s : Machine) (n : ℕ) :
    Run.exec (Machine.move cfg account) s (List.replicate n .exec) =
      (Machine.exec cfg account)^[n] s := by
  induction n generalizing s with
  | zero => rfl
  | succ n ih => exact ih _

end InterferenceLemmas

open InterferenceLemmas

variable (cfg : Config ℚ) (account : Account)

/-- A package and its statements, with nothing in between, are one iteration. -/
theorem exec_iterate (t : Turn) (i : Sighting) :
    ∃ n, Run.exec (Machine.move cfg account) ⟨t, .retrieve, []⟩
        (.package i :: List.replicate n .exec) =
      ⟨iterate cfg account t.toMain i, .retrieve, []⟩ := by
  obtain ⟨n, hn⟩ := exec_branches cfg account i.body.branches (t.toMain.turn i)
  refine ⟨n, ?_⟩
  rw [Run.exec_cons, exec_moves, ← branches_run]
  exact hn

/-- Every run of the loop is one of the machine. -/
theorem reaches_runMain (l : List Act) :
    ∃ moves t, Machine.after cfg account moves = ⟨t, .retrieve, []⟩ ∧
      t.toMain = runMain cfg account l := by
  induction l using List.reverseRecOn with
  | nil => exact ⟨[], _, rfl, rfl⟩
  | append_singleton l a ih =>
    obtain ⟨moves, t, hafter, hmain⟩ := ih
    unfold Machine.after at hafter ⊢
    unfold runMain at hmain ⊢
    rw [Run.exec_snoc, ← hmain]
    cases a with
    | sighting i =>
      obtain ⟨n, hn⟩ := exec_iterate cfg account t i
      refine ⟨moves ++ .package i :: List.replicate n .exec, _, ?_, rfl⟩
      rw [Run.exec_append, hafter, hn]
    | toggle id enable =>
      refine ⟨moves ++ [.operator id enable],
        { t with user := UserDb.setEnable t.user id enable }, ?_, rfl⟩
      rw [Run.exec_snoc, hafter]
      rfl

/-! ## What a statement does to an enabled row -/

/-- From `t` to `u` the user table stays, and the `DM` keeps the columns that decide whose
`enable` a write-back sets, and to what. -/
structure Turn.Frame (t u : Turn) : Prop where
  user : u.user = t.user
  id : u.dm.id = t.dm.id
  enable : u.dm.enable = t.dm.enable
  flag : u.whetherCb = t.whetherCb

/-- Nothing that main does by itself turns the row of `id` off. -/
structure Machine.Kept (id : UInt32) (s : Machine) : Prop where
  row : UserDb.Enabled s.turn.user id
  free : ¬ s.Pending id

namespace InterferenceLemmas

variable {cfg : Config ℚ} {account : Account} {id : UInt32} {s : Machine}

theorem checkDeviation_frame (cfg : Config ℚ) (sloppy : Length ℚ) (t : Turn) :
    t.Frame (t.checkDeviation cfg sloppy) := by
  by_cases hfar : sloppy.Exceeds cfg.locErrThreshold
  · rw [checkDeviation_far hfar]
    exact ⟨rfl, rfl, rfl, rfl⟩
  · rw [checkDeviation_near hfar]
    exact ⟨rfl, rfl, rfl, rfl⟩

theorem fit_frame (env : BranchEnv) (n : UInt16) (t : Turn) : t.Frame (t.fit env n) := by
  unfold Turn.fit
  simp only [SelfDb.fitPose_dm]
  exact ⟨rfl, rfl, rfl, rfl⟩

variable (cfg account) in
theorem known_frame (b : Branch) (t : Turn) : t.Frame (b.known cfg account t).2 := by
  cases b with
  | recording deviInfo env =>
    simp only [Branch.known]
    split
    · exact ⟨(checkDeviation_frame cfg _ _).user, (checkDeviation_frame cfg _ _).id,
        (checkDeviation_frame cfg _ _).enable, (checkDeviation_frame cfg _ _).flag⟩
    · split <;> exact ⟨rfl, rfl, rfl, rfl⟩
  | localization env =>
    simp only [Branch.known]
    split
    · exact ⟨(checkDeviation_frame cfg _ _).user, (checkDeviation_frame cfg _ _).id,
        (checkDeviation_frame cfg _ _).enable, (checkDeviation_frame cfg _ _).flag⟩
    · split <;> exact ⟨rfl, rfl, rfl, rfl⟩

omit [Doubles] in
theorem unknown_frame (b : Branch) (t : Turn) :
    (b.unknown t).user = t.user ∧ (b.unknown t).whetherCb = t.whetherCb := by
  cases b <;> exact ⟨rfl, rfl⟩

theorem look_flag {b : Branch} {t : Turn} (h : t.whetherCb = false) :
    (b.look cfg account t).2.whetherCb = false := by
  unfold Branch.look
  rw [retrieve_eq h]
  cases UserDb.lookedUp t.user b.env.lookup t.dm.id with
  | none => exact (unknown_frame b _).2.trans h
  | some r => exact (known_frame cfg account b _).flag.trans h

theorem exec_flag (h : s.turn.whetherCb = false) :
    (s.exec cfg account).turn.whetherCb = false := by
  obtain ⟨t, pc, rest⟩ := s
  cases pc with
  | retrieve =>
    cases rest with
    | nil => exact h
    | cons b bs => exact look_flag h
  | insert env | logNew env | update env => exact h
  | log env fit => cases fit <;> exact h
  | fit env n => exact (fit_frame env n t).flag.trans h

theorem package_flag (h : s.turn.whetherCb = false) (i : Sighting) :
    (s.package i).turn.whetherCb = false := by
  unfold Machine.package
  split <;> exact h

theorem move_flag (h : s.turn.whetherCb = false) (m : Machine.Move) :
    (s.move cfg account m).turn.whetherCb = false := by
  cases m with
  | package i => exact package_flag h i
  | exec => exact exec_flag h
  | operator id enable => exact h

variable (cfg account) in
/-- `whetherCb` is false between any two statements. -/
theorem after_flag (l : List Machine.Move) :
    (Machine.after cfg account l).turn.whetherCb = false :=
  Run.exec_invariant (P := fun s : Machine => s.turn.whetherCb = false) rfl
    fun v _ h => move_flag h v.2

omit [Doubles] in
theorem not_pending (h : s.pc.writer = none) : ¬ s.Pending id := by
  rintro ⟨hok, _⟩
  rw [h] at hok
  cases hok

/-- Behind a look-up of an enabled row, main is not about to disable it. -/
theorem look_kept {b : Branch} (bs : List Branch) {t : Turn} (hrow : UserDb.Enabled t.user id)
    (hflag : t.whetherCb = false) :
    Machine.Kept id ⟨(b.look cfg account t).2, (b.look cfg account t).1, bs⟩ := by
  unfold Branch.look
  rw [retrieve_eq hflag]
  cases hlook : UserDb.lookedUp t.user b.env.lookup t.dm.id with
  | none =>
    refine ⟨?_, not_pending rfl⟩
    unfold UserDb.Enabled
    rw [(unknown_frame b _).1]
    exact hrow
  | some r =>
    have hframe := known_frame cfg account b
      { t with dm := UserDb.loaded r, events := t.events ++ [.lookup b.mode t.dm] }
    obtain ⟨hr, hid⟩ := UserDb.lookedUp_some hlook
    refine ⟨?_, ?_⟩
    · unfold UserDb.Enabled
      rw [hframe.user]
      exact hrow
    · rintro ⟨_, hdm, hoff⟩
      -- the flag in the `DM` is the one of the row that the look-up read
      have hdm : r.dmId = id := hframe.id.symm.trans hdm
      have hoff : r.enable = false := hframe.enable.symm.trans hoff
      unfold UserDb.Enabled at hrow
      rw [← hdm, hid, hr] at hrow
      simp [hoff] at hrow

/-- An insert does not touch a row that exists. -/
theorem addContent_enabled {t : UserTable} (h : UserDb.Enabled t id) (ok : Bool) (dm : DmInfo ℚ) :
    UserDb.Enabled (UserDb.addContent ok t dm) id := by
  unfold UserDb.Enabled at h ⊢
  rw [UserDb.find?_addContent]
  split
  · next hnew =>
    rw [hnew.2.2, hnew.2.1] at h
    cases h
  · exact h

/-- A write-back leaves a row on that is not the `DM`'s, or whose flag is on in the `DM`. -/
theorem updateDataBase_enabled {t : UserTable} (h : UserDb.Enabled t id) {ok : Bool} {dm : DmInfo ℚ}
    (hdm : ¬ (ok = true ∧ dm.id = id ∧ dm.enable = false)) :
    UserDb.Enabled (UserDb.updateDataBase ok t dm) id := by
  unfold UserDb.Enabled at h ⊢
  rw [UserDb.find?_updateDataBase]
  split
  · next hown =>
    have hon : dm.enable = true := by
      by_contra hoff
      exact hdm ⟨hown.1, hown.2.symm, by simpa using hoff⟩
    cases hr : t.find? id with
    | none =>
      rw [hr] at h
      cases h
    | some r => simpa [UserDb.setColumns] using hon
  · exact h

theorem exec_kept (h : s.Kept id) (hflag : s.turn.whetherCb = false) :
    (s.exec cfg account).Kept id := by
  obtain ⟨t, pc, rest⟩ := s
  obtain ⟨hrow, hfree⟩ := h
  cases pc with
  | retrieve =>
    cases rest with
    | nil => exact ⟨hrow, hfree⟩
    | cons b bs => exact look_kept bs hrow hflag
  | insert env => exact ⟨addContent_enabled hrow env.userOk t.dm, not_pending rfl⟩
  | logNew env => exact ⟨hrow, not_pending rfl⟩
  | log env fit => cases fit <;> exact ⟨hrow, hfree⟩
  | fit env n =>
    have hframe := fit_frame env n t
    refine ⟨?_, ?_⟩
    · unfold UserDb.Enabled
      rw [Machine.exec, hframe.user]
      exact hrow
    · rintro ⟨hok, hid, hoff⟩
      exact hfree ⟨hok, hframe.id.symm.trans hid, hframe.enable.symm.trans hoff⟩
  | update env => exact ⟨updateDataBase_enabled hrow hfree, not_pending rfl⟩

theorem package_kept (h : s.Kept id) (i : Sighting) : (s.package i).Kept id := by
  unfold Machine.package
  split
  · next hpc _ => exact ⟨h.row, not_pending (by rw [hpc]; rfl)⟩
  · exact h

omit [Doubles] in
/-- Right behind the operator's update the row is on, and main keeps it so unless it is
about to write what it read before. -/
theorem operator_kept (hrow : s.turn.user.find? id ≠ none) (hfree : ¬ s.Pending id) :
    (s.operator id true).Kept id := by
  refine ⟨?_, hfree⟩
  obtain ⟨r, hr⟩ := Option.ne_none_iff_exists'.mp hrow
  unfold UserDb.Enabled Machine.operator
  rw [UserDb.find?_setEnable, if_pos rfl, hr]
  rfl

/-- A move keeps the row on, unless it is the operator's that turns it off. -/
theorem move_kept (h : s.Kept id) (hflag : s.turn.whetherCb = false) {m : Machine.Move}
    (hm : m ≠ .operator id false) : (s.move cfg account m).Kept id := by
  cases m with
  | package i => exact package_kept h i
  | exec => exact exec_kept h hflag
  | operator id' enable =>
    by_cases hid : id' = id
    · subst hid
      cases enable with
      | false => exact absurd rfl hm
      | true =>
        refine operator_kept ?_ h.free
        intro hnone
        have hrow := h.row
        unfold UserDb.Enabled at hrow
        rw [hnone] at hrow
        cases hrow
    · refine ⟨?_, h.free⟩
      unfold UserDb.Enabled Machine.move Machine.operator
      rw [UserDb.find?_setEnable, if_neg (Ne.symm hid)]
      exact h.row

/-- From a state that keeps the row on, every run does in which the operator does not
turn it off. -/
theorem run_kept (h : s.Kept id) (hflag : s.turn.whetherCb = false) {l : List Machine.Move}
    (hl : .operator id false ∉ l) : (Run.exec (Machine.move cfg account) s l).Kept id := by
  induction l generalizing s with
  | nil => exact h
  | cons m l ih =>
    rw [List.mem_cons, not_or] at hl
    exact ih (move_kept h hflag (Ne.symm hl.1)) (move_flag hflag m) hl.2

variable (cfg account) in
/-- Main, left alone, overwrites the row that it is about to rewrite as disabled. -/
theorem pending_overwrites (h : s.Pending id) :
    ∃ n, ¬ UserDb.Enabled ((Machine.exec cfg account)^[n] s).turn.user id := by
  have hupdate : ∀ (t : Turn) (env : BranchEnv) (rest : List Branch),
      Machine.Pending id ⟨t, .update env, rest⟩ →
      ¬ UserDb.Enabled (Machine.exec cfg account ⟨t, .update env, rest⟩).turn.user id := by
    rintro t env rest ⟨hok, hid, hoff⟩
    have hok : env.userOk = true := hok
    unfold UserDb.Enabled
    simp only [Machine.exec, Turn.writeBack]
    rw [UserDb.find?_updateDataBase, if_pos ⟨hok, hid.symm⟩]
    cases t.user.find? id with
    | none => simp
    | some r => simpa [UserDb.setColumns] using hoff
  have hfit : ∀ (t : Turn) (env : BranchEnv) (n : UInt16) (rest : List Branch),
      Machine.Pending id ⟨t, .fit env n, rest⟩ →
      Machine.Pending id ⟨t.fit env n, .update env, rest⟩ := by
    rintro t env n rest ⟨hok, hid, hoff⟩
    have hframe := fit_frame env n t
    exact ⟨hok, hframe.id.trans hid, hframe.enable.trans hoff⟩
  obtain ⟨t, pc, rest⟩ := s
  cases pc with
  | retrieve | insert env | logNew env => exact absurd h (not_pending rfl)
  | update env => exact ⟨1, hupdate t env rest h⟩
  | fit env n => exact ⟨2, hupdate _ env rest (hfit t env n rest h)⟩
  | log env fit =>
    cases fit with
    | none => exact ⟨2, hupdate (t.logSelf cfg env) env rest h⟩
    | some n => exact ⟨3, hupdate _ env rest (hfit (t.logSelf cfg env) env n rest h)⟩

end InterferenceLemmas

/-! ## The theorem -/

/-- The operator's update of an existing row commits behind any moves `pre`. The row is
enabled in every state from there on, whatever the moves `post`, as long as he does not
clear it, exactly when main was not between a look-up that found the row disabled and
its write-back. -/
theorem enabled_kept_iff (pre : List Machine.Move) (id : UInt32)
    (hrow : (Machine.after cfg account pre).turn.user.find? id ≠ none) :
    (∀ post, .operator id false ∉ post → UserDb.Enabled
        (Machine.after cfg account (pre ++ .operator id true :: post)).turn.user id) ↔
      ¬ (Machine.after cfg account pre).Pending id := by
  have hsplit : ∀ post, Machine.after cfg account (pre ++ .operator id true :: post) =
      Run.exec (Machine.move cfg account)
        ((Machine.after cfg account pre).operator id true) post := by
    intro post
    rw [Machine.after, Run.exec_append]
    rfl
  constructor
  · intro hkept hpend
    have hpend' : ((Machine.after cfg account pre).operator id true).Pending id := hpend
    obtain ⟨n, hoff⟩ := pending_overwrites cfg account hpend'
    apply hoff
    have hon := hkept (List.replicate n .exec) (by simp [List.mem_replicate])
    rw [hsplit, exec_moves] at hon
    exact hon
  · intro hfree post hpost
    rw [hsplit]
    exact (run_kept (operator_kept hrow hfree) (after_flag cfg account pre) hpost).row

/-! ## The failing run -/

end

open scoped Exact

/-- The code 7 is recorded. -/
def exRecorded : List Machine.Move :=
  [.package (exSighting .recording 7 ⟨0, 0, 0⟩), .exec, .exec, .exec]

/-- It is recorded once more, and main has just looked it up. -/
def exLookedUp : List Machine.Move :=
  exRecorded ++ [.package (exSighting .recording 7 ⟨0, 0, 0⟩), .exec]

/-- Between two sightings the operator's update lasts: the next one finds the code enabled
and writes it back so. -/
theorem enabled_kept_exRecorded : UserDb.Enabled
    (Machine.after exConfig exAccount
      (exRecorded ++ .operator 7 true :: exRecorded)).turn.user 7 :=
  (enabled_kept_iff exConfig exAccount exRecorded 7 (by decide +kernel)).mpr
    (by decide +kernel) exRecorded (by simp [exRecorded])

/-- The operator enables the code 7 while main holds its row as it was. The statements of
the second sighting end with the row disabled. -/
theorem enable_overwritten :
    ¬ ∀ (pre post : List Machine.Move) (id : UInt32),
      (Machine.after exConfig exAccount pre).turn.user.find? id ≠ none →
      .operator id false ∉ post → UserDb.Enabled
        (Machine.after exConfig exAccount (pre ++ .operator id true :: post)).turn.user id := by
  intro h
  refine absurd (h exLookedUp [.exec, .exec, .exec] 7 (by decide +kernel) (by simp)) ?_
  decide +kernel

end QrAddon
