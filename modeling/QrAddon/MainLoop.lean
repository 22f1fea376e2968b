import QrAddon.SelfDb
import QrAddon.Rpc
import QrAddon.Trigger
import QrAddon.Lib.Run

/-!
# The main loop

One iteration of the main `while`: `dmTrigger` forms the sighting, and the loop
body looks the code up, counts, recommends or checks it, and writes both
databases. The body reads `*modePtr` twice, once in front of each mode's branch,
and `*deviInfo` once more when it posts an observation.

Every statement of a branch may fail and every value that another thread or
ROKIT supplies is an input, so an iteration is a function of the state and the
inputs. `BranchStep` says in five cases what a branch can do; the results about
whole runs are derived from it.
-/

namespace QrAddon

/-- What an iteration shows to the outside, in order: its look-ups, its requests,
the diagnostic words it sends and its calls of `fitPose`. -/
inductive Event
  | lookup (mode : Mode) (dm : DmInfo ℚ)
  | login (r : SessionLogin)
  | addObservation (r : AddObservation ℚ)
  | setSeed (r : SetSeed ℚ)
  | diag (word : UInt32)
  | fit (c : FitCall)

/-- The variables of `main` that live across iterations. -/
structure Main where
  user : UserTable
  self : SelfTable
  dm : DmInfo ℚ
  locStat : ℤ
  rokitPose : DmInfo ℚ
  globalId : UInt64
  whetherCb : Bool

/-- Empty databases and the initial values of `main`. -/
def Main.start : Main where
  user := KeyedTable.empty UserRow.dmId
  self := RowidTable.empty
  dm := { id := 0, pose := 0 }
  locStat := 2
  rokitPose := { id := 0, pose := 0 }
  globalId := 1
  whetherCb := false

/-- The variables inside the loop body: `oriTriggerDmPtr` and what was sent. -/
structure Turn extends Main where
  ori : DmInfo ℚ
  events : List Event

/-- How the statements of one branch end, the order in which the fit query visits
the rows, and the session id that the branch's login leaves. -/
structure BranchEnv where
  lookup : Lookup
  fitOk : Bool
  scan : ScanOrder
  userOk : Bool
  selfOk : Bool
  sessionId : String

/-! ## Pieces of the two branches -/

namespace Turn

def emit (t : Turn) (e : Event) : Turn := { t with events := t.events ++ [e] }

/-- `selfDB.addContent(oriTriggerDmPtr)`. -/
def logSelf [Doubles] (cfg : Config ℚ) (env : BranchEnv) (t : Turn) : Turn :=
  { t with self := SelfDb.addContent env.selfOk cfg.maxRowSelfDb t.self t.ori }

/-- `selfDB.fitPose(n, dmPtr)`. -/
def fit [Doubles] (env : BranchEnv) (n : UInt16) (t : Turn) : Turn :=
  let r := SelfDb.fitPose env.fitOk env.scan t.self n t.dm
  { t with dm := r.1, events := t.events ++ [.fit r.2] }

/-- The four lines of the branch that brings a count to its repeat number. -/
def recommendAndFit [Doubles] (cfg : Config ℚ) (env : BranchEnv) (n : UInt16) (t : Turn) : Turn :=
  let t := { t with dm := t.dm.setRecommend, ori := t.ori.setRecommend }
  (t.logSelf cfg env).fit env n

/-- Posts a request under the next `globalId`. -/
def post (f : UInt64 → Event) (t : Turn) : Turn :=
  { t with globalId := t.globalId + 1, events := t.events ++ [f t.globalId] }

/-- `getSessionId` up to the login's reply, which is part of `BranchEnv`. -/
def getSessionId (account : Account) (t : Turn) : Turn :=
  t.post fun rpcId =>
    .login (RpcClientSessLogIn.writeJsonLogIn "sessionLogin" rpcId account)

/-- The deviation check behind both requests. -/
def checkDeviation [Doubles] (cfg : Config ℚ) (sloppy : Length ℚ) (t : Turn) : Turn :=
  if sloppy.Exceeds cfg.locErrThreshold then
    let t := { t with dm := t.dm.updateSloppyCnt, ori := t.ori.updateSloppyCnt.setHaveSloppy }
    t.emit (.diag 4)
  else t

/-- `userDB.updateDataBase(dmPtr)`. -/
def writeBack [Doubles] (env : BranchEnv) (t : Turn) : Turn :=
  { t with user := UserDb.updateDataBase env.userOk t.user t.dm }

/-- `userDB.retrieveUsrDb(dmPtr)`: whether it found a row, and the state after it. -/
def retrieve [Doubles] (env : BranchEnv) (mode : Mode) (t : Turn) : Bool × Turn :=
  let r := UserDb.retrieveUsrDb t.user env.lookup t.whetherCb t.dm
  (r.found, { t with
    dm := r.dm, whetherCb := r.whetherCb, events := t.events ++ [.lookup mode t.dm] })

end Turn

/-! ## The branches -/

section Branches

variable [Doubles] (cfg : Config ℚ) (account : Account) (deviInfo : CustomerPackage ℚ)
  (env : BranchEnv)

/-- RECORDING, the code is in the user table. -/
def recordingKnown (t : Turn) : Turn :=
  let t := { t with dm := t.dm.updateCnt }
  let dmInfo := t.dm
  let t :=
    if dmInfo.cnt.toNat = cfg.mappRepeatNum.toNat ∧ dmInfo.enable = false then
      t.recommendAndFit cfg env cfg.mappRepeatNum
    else if dmInfo.enable = false then t.logSelf cfg env
    else t
  let t :=
    if dmInfo.enable = true then
      let t := { t with dm := t.dm.setRecommend }
      let t := t.getSessionId account
      let t := t.post fun rpcId => .addObservation
        (RpcClientGLA.writeJsonGLA "clientGlobalAlignAddObservation" rpcId dmInfo cfg deviInfo
          env.sessionId)
      let t := t.checkDeviation cfg (RpcClientGLA.computeSloppy t.dm t.ori)
      let t := { t with ori := t.ori.setRecommend }
      t.logSelf cfg env
    else t
  t.writeBack env

/-- RECORDING, the code is new. -/
def recordingUnknown (t : Turn) : Turn :=
  let t := { t with
    dm := t.dm.clearRemainingInfo.updateCnt, ori := t.ori.clearRemainingInfo.updateCnt }
  let t := { t with user := UserDb.addContent env.userOk t.user t.dm }
  let t := t.emit (.diag 1)
  t.logSelf cfg env

def recordingBranch (t : Turn) : Turn :=
  match t.retrieve env .recording with
  | (true, t) => recordingKnown cfg account deviInfo env t
  | (false, t) => recordingUnknown cfg env t

/-- LOCALIZATION, the code is in the user table. -/
def localizationKnown (t : Turn) : Turn :=
  let t := { t with dm := t.dm.updateCnt, ori := t.ori.updateCnt }
  let dmInfo := t.dm
  let t :=
    if dmInfo.enable = true then
      let t := t.getSessionId account
      let t := t.post fun rpcId => .setSeed
        (@RpcClientSetSeed.writeJsonSetSeed ℚ Doubles.toAdd _ "clientLocalizationSetSeed" rpcId
          dmInfo t.locStat t.rokitPose cfg env.sessionId)
      let t := t.checkDeviation cfg (RpcClientSetSeed.computeSloppy t.dm t.ori)
      t.logSelf cfg env
    else t
  let t :=
    if dmInfo.cnt.toNat = cfg.locRepeatNum.toNat ∧ dmInfo.enable = false then
      t.recommendAndFit cfg env cfg.locRepeatNum
    else if dmInfo.enable = false then t.logSelf cfg env
    else t
  t.writeBack env

/-- LOCALIZATION, the code is new. The snapshot is not counted here. -/
def localizationUnknown (t : Turn) : Turn :=
  let t := { t with
    dm := t.dm.clearRemainingInfo.updateCnt, ori := t.ori.clearRemainingInfo }
  let t := { t with user := UserDb.addContent env.userOk t.user t.dm }
  let t := t.emit (.diag 1)
  t.logSelf cfg env

def localizationBranch (t : Turn) : Turn :=
  match t.retrieve env .localization with
  | (true, t) => localizationKnown cfg account env t
  | (false, t) => localizationUnknown cfg env t

end Branches

/-! ## One iteration -/

/-- What the loop body reads: `*modePtr` in front of each branch, `*deviInfo` when
it posts, and how the statements of each branch end. -/
structure BodyIn where
  mode3 : Mode
  mode4 : Mode
  deviInfo : CustomerPackage ℚ
  envRec : BranchEnv
  envLoc : BranchEnv

/-- The loop body, under `lockGuard7`. -/
def loopBody [Doubles] (cfg : Config ℚ) (account : Account) (i : BodyIn) (s : Main) : Turn :=
  let t : Turn := { s with ori := s.dm, events := [] }
  let t := if i.mode3 = .recording then recordingBranch cfg account i.deviInfo i.envRec t else t
  if i.mode4 = .localization then localizationBranch cfg account i.envLoc t else t

/-- `dmTrigger` on the variables of `main`. -/
def Main.trigger [Doubles] (s : Main) (i : TriggerIn ℚ) (deviInfo : CustomerPackage ℚ) : Main :=
  let r := @dmTrigger ℚ Doubles.toAdd i deviInfo ⟨s.dm, s.locStat, s.rokitPose⟩
  { s with dm := r.dm, locStat := r.locStat, rokitPose := r.rokitPose }

/-- The inputs of an iteration: the package it takes and what it reads. -/
structure Sighting where
  deviInfo : CustomerPackage ℚ
  trig : TriggerIn ℚ
  body : BodyIn

def iterate [Doubles] (cfg : Config ℚ) (account : Account) (s : Main) (i : Sighting) : Turn :=
  loopBody cfg account i.body (s.trigger i.trig i.deviInfo)

end QrAddon
