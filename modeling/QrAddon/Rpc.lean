import QrAddon.Doubles

/-!
# The JSON-RPC requests

The three requests that the program posts, as records with the members in the
order in which the writers emit them, and the error measure that two of them
share.
-/

namespace QrAddon

variable {R : Type}

/-- The distance of two positions in the plane. -/
def planarDistance (a b : DmInfo R) : Length R := ⟨a.pose.x, a.pose.y, b.pose.x, b.pose.y⟩

/-- `std::to_string` of an id. -/
def idText (id : UInt32) : String := toString id.toNat

/-! ## Login -/

/-- `writeJsonLogIn`. -/
structure SessionLogin where
  jsonrpc : String
  method : String
  timeoutValid : Bool
  timeoutTime : Int64
  timeoutResolution : ℤ
  userName : String
  password : String
  id : Int64
deriving DecidableEq

def RpcClientSessLogIn.writeJsonLogIn (method : String) (rpcId : UInt64) (account : Account) :
    SessionLogin :=
  ⟨"2.0", method, true, 30, 1, account.userName, account.passWord, rpcId.toInt64⟩

/-! ## Observation of an enabled code -/

/-- `writeJsonGLA`. -/
structure AddObservation (R : Type) where
  jsonrpc : String
  method : String
  sessionId : String
  landmarkName : String
  sensorName : String
  vehicleStaticCalibSensor : DmPose R
  sensorLandmark : DmPose R
  mapLandmark : DmPose R
  observationType : UInt16
  calibrationType : UInt16
  hasOrientation : Bool
  id : Int64
deriving DecidableEq

namespace RpcClientGLA

/-- The code's id and map pose come from `dmInfo`, the deviation from the shared
package `*deviInfo`. -/
def writeJsonGLA (method : String) (rpcId : UInt64) (dmInfo : DmInfo R) (cfg : Config R)
    (deviInfo : CustomerPackage R) (sessionId : String) : AddObservation R where
  jsonrpc := "2.0"
  method := method
  sessionId := sessionId
  landmarkName := sessionId
  sensorName := idText dmInfo.id
  vehicleStaticCalibSensor := ⟨cfg.laserStaticCalibSensor_x, cfg.laserStaticCalibSensor_y,
    cfg.laserStaticCalibSensor_yaw⟩
  sensorLandmark := deviInfo.pose
  mapLandmark := dmInfo.pose
  observationType := cfg.observationType
  calibrationType := cfg.calibrationType
  hasOrientation := cfg.hasOrientation
  id := rpcId.toInt64

def computeSloppy (dm oriDm : DmInfo R) : Length R := planarDistance dm oriDm

end RpcClientGLA

/-! ## Seed from an enabled code -/

/-- `writeJsonSetSeed`. -/
structure SetSeed (R : Type) where
  jsonrpc : String
  method : String
  sessionId : String
  enforceSeed : Bool
  uncertainSeed : Bool
  seedPose : DmPose R
  id : Int64
deriving DecidableEq

namespace RpcClientSetSeed

def computeSloppy (dm oriDm : DmInfo R) : Length R := planarDistance dm oriDm

/-- `enforceSeed` and `uncertainSeed`. -/
def seedArg [Measure R] (dmInfo : DmInfo R) (locStat : ℤ) (rokitPose : DmInfo R)
    (cfg : Config R) : Bool × Bool :=
  if locStat < 0 then
    if (computeSloppy rokitPose dmInfo).Exceeds cfg.seedSloppyThreshold then (true, false)
    else (false, true)
  else if locStat = 1 then (false, true)
  else (false, false)

/-- The stored code pose plus the sensor calibration, component by component. -/
def seedPose [Add R] (dmInfo : DmInfo R) (cfg : Config R) : DmPose R :=
  ⟨dmInfo.pose.x + cfg.laserStaticCalibSensor_x, dmInfo.pose.y + cfg.laserStaticCalibSensor_y,
    dmInfo.pose.yaw + cfg.laserStaticCalibSensor_yaw⟩

def writeJsonSetSeed [Add R] [Measure R] (method : String) (rpcId : UInt64) (dmInfo : DmInfo R)
    (locStat : ℤ) (rokitPose : DmInfo R) (cfg : Config R) (sessionId : String) : SetSeed R where
  jsonrpc := "2.0"
  method := method
  sessionId := sessionId
  enforceSeed := (seedArg dmInfo locStat rokitPose cfg).1
  uncertainSeed := (seedArg dmInfo locStat rokitPose cfg).2
  seedPose := seedPose dmInfo cfg
  id := rpcId.toInt64

end RpcClientSetSeed

end QrAddon
