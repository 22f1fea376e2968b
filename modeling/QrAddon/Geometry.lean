import QrAddon.Trigger
import QrAddon.Rpc
import QrAddon.Lib.Rigid

/-!
# Where a sighting and a seed place the code and the robot

`recCustomerPack` negates the three numbers of a package and `dmTrigger` adds them
to the robot pose. A seed adds the mounting to the stored code pose. As planar
motions neither is the composition that its name promises.

Results:
1. `sighting_pose_iff`: the `DM` pose is the code's true map pose exactly when the
   mounting does not turn and the code's heading moves the vector from the code to
   the robot by the mounting's offset.
2. `turned_code_misplaced`: a code that is turned by half a turn.
3. `seed_explains_iff`: a seed explains the sighting exactly when the mounting is the
   negated deviation, component by component.
4. `centred_seed_off`: the shipped mounting and a deviation.
5. `observation_composes_iff`: the three transforms of an observation compose exactly
  when the mounting does not turn and the robot's heading turns the mounting's offset and
  the deviation together into the deviation.
6. `turned_robot_splits`: a robot that is turned by half a turn.
-/

namespace QrAddon

/-- A pose as a rigid motion. -/
noncomputable def DmPose.motion (p : DmPose ℝ) : Rigid := ⟨⟨p.x, p.y⟩, Circle.exp p.yaw⟩

/-- The package of a lens that sees the code at `q` from the robot pose `p` through the
mounting `c`: the pose of the lens in the code's coordinate system. -/
def Prescribed (k : CustomerPackage ℝ) (q p c : DmPose ℝ) : Prop :=
  k.pose.motion = q.motion⁻¹ * p.motion * c.motion

/-! ## The code's map pose -/

/-- Adding the published package is the component-wise difference. -/
theorem shift_published_motion (p : DmPose ℝ) (k : CustomerPackage ℝ) :
    (p.shift k.published).motion = p.motion.sub k.pose.motion := by
  ext1
  · apply Complex.ext <;> simp [DmPose.motion, Rigid.sub, sub_eq_add_neg]
  · simp [DmPose.motion, Rigid.sub, Circle.exp_add]

/-- For every true code pose `q`, robot pose `p` and mounting `c`: the pose that a
completely read sighting puts into the `DM` is `q` exactly when the mounting does not
turn, and turning the vector from the code to the robot by the code's heading adds the
mounting's offset to it, as the robot's heading turns it. -/
theorem sighting_pose_iff {q p c : DmPose ℝ} {k : CustomerPackage ℝ} (hk : Prescribed k q p c)
    {i : TriggerIn ℝ} (hi : i.obtained = some p) (s : Triggered ℝ) :
    (dmTrigger i k.published s).dm.pose.motion = q.motion ↔
      c.motion.rot = 1 ∧ q.motion.rot * (p.motion.trans - q.motion.trans) =
        (p.motion.trans - q.motion.trans) + p.motion.rot * c.motion.trans := by
  rw [dmTrigger_pose hi, shift_published_motion, hk, Rigid.sub_relative]

open scoped Exact

/-- A completely read RECORDING message at `p`. -/
def exReadAt (p : DmPose ℝ) : TriggerIn ℝ := ⟨.recording, .recording, .complete p, .failed⟩

noncomputable def exDm : Triggered ℝ := ⟨{ id := 0, pose := 0 }, 2, { id := 0, pose := 0 }⟩

/-- A code at the origin that is not turned, seen from (1, 0). -/
theorem sighting_pose_straight :
    (dmTrigger (exReadAt ⟨1, 0, 0⟩) (CustomerPackage.published ⟨7, 1, 0, 0⟩) exDm).dm.pose.motion =
      (0 : DmPose ℝ).motion := by
  have hk : Prescribed ⟨7, 1, 0, 0⟩ 0 ⟨1, 0, 0⟩ 0 := by
    unfold Prescribed
    ext1
    · apply Complex.ext <;> simp [DmPose.motion]
    · simp [DmPose.motion]
  refine (sighting_pose_iff hk (i := exReadAt ⟨1, 0, 0⟩) rfl exDm).mpr ⟨by simp [DmPose.motion], ?_⟩
  apply Complex.ext <;> simp [DmPose.motion]

/-- A code at the origin with the heading π, seen from (1, 0) by a lens in the robot's
centre: the package is as prescribed, and the code is placed at (2, 0). -/
theorem turned_code_misplaced :
    Prescribed ⟨7, -1, 0, -Real.pi⟩ ⟨0, 0, Real.pi⟩ ⟨1, 0, 0⟩ 0 ∧
      (exReadAt ⟨1, 0, 0⟩).obtained = some ⟨1, 0, 0⟩ ∧
      (dmTrigger (exReadAt ⟨1, 0, 0⟩) (CustomerPackage.published ⟨7, -1, 0, -Real.pi⟩)
        exDm).dm.pose.motion ≠ (⟨0, 0, Real.pi⟩ : DmPose ℝ).motion := by
  refine ⟨?_, rfl, ?_⟩
  · unfold Prescribed
    ext1
    · apply Complex.ext <;> simp [DmPose.motion, Circle.coe_exp]
    · simp [DmPose.motion]
  · intro h
    have hx := congrArg (fun m => m.trans.re) h
    simp [dmTrigger, exReadAt, RecRead.pose, DmPose.motion] at hx

/-! ## The robot's seed pose -/

/-- A seed explains the sighting, that is `dmTrigger` with the seed as robot pose and the
same deviation finds the stored code pose, exactly when the mounting is the negated
deviation. -/
theorem seed_explains_iff {R : Type} [Field R] [Measure R] {method sessionId : String}
    {rpcId : UInt64} {dmInfo rokitPose : DmInfo R} {locStat : ℤ} {cfg : Config R}
    {i : TriggerIn R}
    (hi : i.obtained = some (RpcClientSetSeed.writeJsonSetSeed method rpcId dmInfo locStat
      rokitPose cfg sessionId).seedPose)
    (d : CustomerPackage R) (s : Triggered R) :
    (dmTrigger i d s).dm.pose = dmInfo.pose ↔
      cfg.laserStaticCalibSensor_x = -d.deviationX ∧
        cfg.laserStaticCalibSensor_y = -d.deviationY ∧
        cfg.laserStaticCalibSensor_yaw = -d.deviationA := by
  rw [dmTrigger_pose hi, DmPose.ext_iff]
  simp only [RpcClientSetSeed.writeJsonSetSeed, RpcClientSetSeed.seedPose, DmPose.shift_x,
    DmPose.shift_y, DmPose.shift_yaw, add_assoc, add_eq_left, add_eq_zero_iff_eq_neg]

open scoped Exact

/-- The shipped configuration: a lens in the robot's centre. -/
def exCentred : Config ℚ where
  mappRepeatNum := 2
  locRepeatNum := 4
  locErrThreshold := 1 / 50
  observationType := 2
  calibrationType := 0
  hasOrientation := true
  maxRowSelfDb := 3000
  seedSloppyThreshold := 1 / 5
  lastBackupDate := "20230220"
  laserStaticCalibSensor_x := 0
  laserStaticCalibSensor_y := 0
  laserStaticCalibSensor_yaw := 0

/-- A code stored at (5, 5) and enabled. -/
def exStored : DmInfo ℚ := { id := 7, pose := ⟨5, 5, 0⟩, enable := true }

def exIdle : Triggered ℚ := ⟨{ id := 0, pose := 0 }, 2, { id := 0, pose := 0 }⟩

/-- The seed for that code. -/
def exSeed : SetSeed ℚ :=
  RpcClientSetSeed.writeJsonSetSeed "clientLocalizationSetSeed" 2 exStored 2
    { id := 7, pose := ⟨4, 5, 0⟩ } exCentred "session"

/-- A sighting from the seed. -/
def exFromSeed : TriggerIn ℚ :=
  ⟨.localization, .localization, .broken 0, .message 2 exSeed.seedPose⟩

theorem seed_explains_centred :
    (dmTrigger exFromSeed ⟨7, 0, 0, 0⟩ exIdle).dm.pose = exStored.pose :=
  (seed_explains_iff (i := exFromSeed) rfl ⟨7, 0, 0, 0⟩ exIdle).mpr ⟨rfl, rfl, rfl⟩

/-- The code is seen at a deviation of 1: the seed puts the robot on the code, and from
there the code would be at (6, 5). -/
theorem centred_seed_off :
    exFromSeed.obtained = some exSeed.seedPose ∧
      (dmTrigger exFromSeed ⟨7, 1, 0, 0⟩ exIdle).dm.pose = ⟨6, 5, 0⟩ ∧
      (dmTrigger exFromSeed ⟨7, 1, 0, 0⟩ exIdle).dm.pose ≠ exStored.pose := by
  decide +kernel

/-! ## The transforms of an observation -/

/-- Adding a package is the component-wise sum. -/
theorem shift_motion (p : DmPose ℝ) (d : CustomerPackage ℝ) :
    (p.shift d).motion = p.motion.add d.pose.motion := by
  ext1
  · apply Complex.ext <;> simp [DmPose.motion, Rigid.add]
  · simp [DmPose.motion, Rigid.add, Circle.exp_add]

/-- For every robot pose `p`, deviation `d` and mounting: an observation of a code whose
stored pose `dmTrigger` formed from `p` and `d` carries transforms that compose,
`MAPlandmark = p * VEHICLEstaticCalibSENSOR * SENSORlandmark`, exactly when the mounting
does not turn, and the robot's heading turns the sum of the mounting's offset and the
deviation into the deviation. -/
theorem observation_composes_iff {p : DmPose ℝ} {d : CustomerPackage ℝ} {i : TriggerIn ℝ}
    (hi : i.obtained = some p) (s : Triggered ℝ) {dmInfo : DmInfo ℝ}
    (hstored : dmInfo.pose = (dmTrigger i d s).dm.pose) (method sessionId : String)
    (rpcId : UInt64) (cfg : Config ℝ) :
    let r := RpcClientGLA.writeJsonGLA method rpcId dmInfo cfg d sessionId
    r.mapLandmark.motion = p.motion * r.vehicleStaticCalibSensor.motion * r.sensorLandmark.motion ↔
      r.vehicleStaticCalibSensor.motion.rot = 1 ∧
        d.pose.motion.trans =
          p.motion.rot * (r.vehicleStaticCalibSensor.motion.trans + d.pose.motion.trans) := by
  intro r
  have hmap : r.mapLandmark.motion = p.motion.add d.pose.motion := by
    rw [← shift_motion, ← dmTrigger_pose hi d s, ← hstored]
    rfl
  rw [hmap]
  exact Rigid.add_eq_mul_iff _ _ _

/-- A lens in the robot's centre. -/
noncomputable def exCentre : Config ℝ where
  mappRepeatNum := 2
  locRepeatNum := 4
  locErrThreshold := 1
  observationType := 2
  calibrationType := 0
  hasOrientation := true
  maxRowSelfDb := 3000
  seedSloppyThreshold := 1
  lastBackupDate := ""
  laserStaticCalibSensor_x := 0
  laserStaticCalibSensor_y := 0
  laserStaticCalibSensor_yaw := 0

/-- The observation of a code that was stored from the robot pose `p` with the deviation
(1, 0, 0), at the same pose and deviation. -/
noncomputable def exObservation (p : DmPose ℝ) : AddObservation ℝ :=
  RpcClientGLA.writeJsonGLA "clientGlobalAlignAddObservation" 2
    (dmTrigger (exReadAt p) ⟨7, 1, 0, 0⟩ exDm).dm exCentre ⟨7, 1, 0, 0⟩ "session"

open scoped Exact

/-- With the robot at heading 0 the transforms compose. -/
theorem observation_composes_straight :
    (exObservation ⟨2, 3, 0⟩).mapLandmark.motion = (⟨2, 3, 0⟩ : DmPose ℝ).motion *
      (exObservation ⟨2, 3, 0⟩).vehicleStaticCalibSensor.motion *
      (exObservation ⟨2, 3, 0⟩).sensorLandmark.motion := by
  refine (observation_composes_iff (i := exReadAt ⟨2, 3, 0⟩) rfl exDm rfl _ _ _ exCentre).mpr
    ⟨?_, ?_⟩
  · simp [RpcClientGLA.writeJsonGLA, exCentre, DmPose.motion]
  · apply Complex.ext <;> simp [RpcClientGLA.writeJsonGLA, exCentre, DmPose.motion]

/-- With the heading π the code is stored at (1, 0), where the transforms compose to
(-1, 0). -/
theorem turned_robot_splits :
    (exReadAt ⟨0, 0, Real.pi⟩).obtained = some ⟨0, 0, Real.pi⟩ ∧
      (exObservation ⟨0, 0, Real.pi⟩).mapLandmark.motion ≠ (⟨0, 0, Real.pi⟩ : DmPose ℝ).motion *
        (exObservation ⟨0, 0, Real.pi⟩).vehicleStaticCalibSensor.motion *
        (exObservation ⟨0, 0, Real.pi⟩).sensorLandmark.motion := by
  refine ⟨rfl, ?_⟩
  intro h
  have hx := congrArg (fun m => m.trans.re) h
  simp [exObservation, RpcClientGLA.writeJsonGLA, exCentre, dmTrigger, exReadAt, RecRead.pose,
    DmPose.motion, Circle.coe_exp] at hx
  norm_num at hx

end QrAddon
