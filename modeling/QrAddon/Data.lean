import Mathlib

/-!
# The records of the add-on

The types of `main_logic.h` that travel between the two threads, the two
databases and ROKIT. A `double` is a value of a type `R`: the rationals where a
database prints it, the reals where a heading is a rotation, any ring where it
is only added. The decimal texts are in `QrAddon.Text`; what the processor makes
of sums, quotients, distances and texts is a parameter, in `QrAddon.Doubles`.

The class `DM` is a box around one `DmInfo` whose `getInfo` and `setInfo` copy
the record. The model uses the record itself, and `DM`'s methods act on it.
-/

namespace QrAddon

/-- The values that `listenMode` writes to `*modePtr`. -/
inductive Mode
  | recording
  | localization
  | init
deriving DecidableEq, Repr

/-- One record of the code reader: the code's id and the lens' position and
heading relative to the code. `*deviInfo` is one of these too. -/
structure CustomerPackage (R : Type) where
  dmId : UInt32
  deviationX : R
  deviationY : R
  deviationA : R
deriving DecidableEq, Repr

/-- A position and a heading. -/
@[ext] structure DmPose (R : Type) where
  x : R
  y : R
  yaw : R
deriving DecidableEq, Repr

/-- What the program knows of one code. -/
structure DmInfo (R : Type) where
  id : UInt32
  pose : DmPose R
  cnt : UInt64 := 0
  sloppyCnt : UInt64 := 0
  recommend : Bool := false
  enable : Bool := false
  haveSloppy : Bool := false
deriving DecidableEq, Repr

/-- `config.yaml`, as `Config::getConfig` reads it. -/
structure Config (R : Type) where
  mappRepeatNum : UInt16
  locRepeatNum : UInt16
  locErrThreshold : R
  observationType : UInt16
  calibrationType : UInt16
  hasOrientation : Bool
  maxRowSelfDb : UInt32
  seedSloppyThreshold : R
  lastBackupDate : String
  laserStaticCalibSensor_x : R
  laserStaticCalibSensor_y : R
  laserStaticCalibSensor_yaw : R

/-- The ROKIT account that every login sends. -/
structure Account where
  userName : String
  passWord : String
deriving DecidableEq, Repr

/-! ## Poses -/

variable {R : Type}

/-- Component-wise sum of a pose and a package's deviation. This is the only way
in which `dmTrigger` combines the two. -/
@[simps] def DmPose.shift [Add R] (p : DmPose R) (d : CustomerPackage R) : DmPose R :=
  ⟨p.x + d.deviationX, p.y + d.deviationY, p.yaw + d.deviationA⟩

/-- The deviation of a package as a pose. -/
@[simps] def CustomerPackage.pose (d : CustomerPackage R) : DmPose R :=
  ⟨d.deviationX, d.deviationY, d.deviationA⟩

/-- A pose with every component mapped. -/
@[simps] def DmPose.map {S : Type} (f : R → S) (p : DmPose R) : DmPose S :=
  ⟨f p.x, f p.y, f p.yaw⟩

instance [Zero R] : Zero (DmPose R) := ⟨⟨0, 0, 0⟩⟩
instance [Add R] : Add (DmPose R) := ⟨fun p q => ⟨p.x + q.x, p.y + q.y, p.yaw + q.yaw⟩⟩

@[simp] theorem DmPose.zero_x [Zero R] : (0 : DmPose R).x = 0 := rfl
@[simp] theorem DmPose.zero_y [Zero R] : (0 : DmPose R).y = 0 := rfl
@[simp] theorem DmPose.zero_yaw [Zero R] : (0 : DmPose R).yaw = 0 := rfl
@[simp] theorem DmPose.add_x [Add R] (p q : DmPose R) : (p + q).x = p.x + q.x := rfl
@[simp] theorem DmPose.add_y [Add R] (p q : DmPose R) : (p + q).y = p.y + q.y := rfl
@[simp] theorem DmPose.add_yaw [Add R] (p q : DmPose R) : (p + q).yaw = p.yaw + q.yaw := rfl

/-- Poses add like triples of numbers. -/
instance [AddCommMonoid R] : AddCommMonoid (DmPose R) where
  add_assoc p q r := by ext <;> simp [add_assoc]
  zero_add p := by ext <;> simp
  add_zero p := by ext <;> simp
  add_comm p q := by ext <;> simp [add_comm]
  nsmul := nsmulRec

/-! ## The methods of `DM` -/

namespace DmInfo

@[simps] def updateCnt (d : DmInfo R) : DmInfo R := { d with cnt := d.cnt + 1 }

@[simps] def updateSloppyCnt (d : DmInfo R) : DmInfo R :=
  { d with sloppyCnt := d.sloppyCnt + 1, haveSloppy := true }

@[simps] def setRecommend (d : DmInfo R) : DmInfo R := { d with recommend := true }

@[simps] def setHaveSloppy (d : DmInfo R) : DmInfo R := { d with haveSloppy := true }

/-- Everything but the id and the pose goes back to its default. -/
@[simps] def clearRemainingInfo (d : DmInfo R) : DmInfo R :=
  { d with cnt := 0, enable := false, haveSloppy := false, recommend := false, sloppyCnt := 0 }

end DmInfo

end QrAddon
