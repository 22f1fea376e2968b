import QrAddon.Data

/-!
# Forming a sighting

What the receiver puts into `*deviInfo`, and what `dmTrigger` makes of it once
it is woken: it takes the package, reads a pose from the interface of the
current mode and puts the id and the combined pose into the `DM`. The read loops
themselves are in `QrAddon.PoseRead`; here they are inputs.
-/

namespace QrAddon

variable {R : Type}

/-- The package as `recCustomerPack` publishes it: every deviation times `-1`. -/
@[simps] def CustomerPackage.published [Ring R] (p : CustomerPackage R) : CustomerPackage R :=
  ⟨p.dmId, p.deviationX * -1, p.deviationY * -1, p.deviationA * -1⟩

theorem CustomerPackage.published_eq [Ring R] (p : CustomerPackage R) :
    p.published = ⟨p.dmId, -p.deviationX, -p.deviationY, -p.deviationA⟩ := by
  simp only [CustomerPackage.published, mul_neg_one]

/-- What the RECORDING loop leaves in `message`: the pose of a message that was
received completely, or whatever a round with a failed read left there. The
code cannot tell the two apart. -/
inductive RecRead (R : Type)
  | complete (p : DmPose R)
  | broken (left : DmPose R)
deriving DecidableEq, Repr

def RecRead.pose : RecRead R → DmPose R
  | .complete p => p
  | .broken left => left

/-- How the LOCALIZATION loop ends: with a message, or with a negative result. -/
inductive LocRead (R : Type)
  | message (state : ℤ) (p : DmPose R)
  | failed
deriving DecidableEq, Repr

/-- What one run of `dmTrigger` reads: `*modePtr` twice and an interface. -/
structure TriggerIn (R : Type) where
  mode1 : Mode
  mode2 : Mode
  recRead : RecRead R
  locRead : LocRead R
deriving DecidableEq, Repr

/-- What `dmTrigger` writes. -/
structure Triggered (R : Type) where
  dm : DmInfo R
  locStat : ℤ
  rokitPose : DmInfo R
deriving DecidableEq, Repr

/-- The interface that `dmTrigger` takes the pose from, if it takes one. -/
def TriggerIn.source (i : TriggerIn R) : Mode :=
  if i.mode1 = .recording then .recording
  else if i.mode2 = .localization then .localization
  else .init

/-- `dmTrigger` after `myCond.wait`. -/
def dmTrigger [Add R] (i : TriggerIn R) (deviInfo : CustomerPackage R) (s : Triggered R) :
    Triggered R :=
  let localDmInfo : DmInfo R := { s.dm with id := deviInfo.dmId }
  if i.mode1 = .recording then
    { s with dm := { localDmInfo with pose := i.recRead.pose.shift deviInfo } }
  else if i.mode2 = .localization then
    match i.locRead with
    | .message state p =>
      let rokit : DmInfo R := { localDmInfo with pose := p }
      ⟨{ rokit with pose := rokit.pose.shift deviInfo }, state, rokit⟩
    -- the loop ends without a message, and the pose of the last sighting moves on
    | .failed => { s with dm := { localDmInfo with pose := localDmInfo.pose.shift deviInfo } }
  else s

/-- The pose that `dmTrigger` obtained from the interface of its mode, if a
message arrived completely. -/
def TriggerIn.obtained (i : TriggerIn R) : Option (DmPose R) :=
  match i.source with
  | .recording =>
    match i.recRead with
    | .complete p => some p
    | .broken _ => none
  | .localization =>
    match i.locRead with
    | .message _ p => some p
    | .failed => none
  | .init => none

theorem dmTrigger_init [Add R] {i : TriggerIn R} (h : i.source = .init)
    (d : CustomerPackage R) (s : Triggered R) : dmTrigger i d s = s := by
  unfold TriggerIn.source at h
  unfold dmTrigger
  split at h
  · cases h
  · split at h
    · cases h
    · next h1 h2 => simp [h1, h2]

/-- Outside INIT the `DM` gets the id of the package. -/
theorem dmTrigger_id [Add R] {i : TriggerIn R} (h : i.source ≠ .init)
    (d : CustomerPackage R) (s : Triggered R) : (dmTrigger i d s).dm.id = d.dmId := by
  unfold TriggerIn.source at h
  unfold dmTrigger
  split
  · rfl
  · next h1 =>
    split
    · cases i.locRead <;> rfl
    · next h2 => simp [h1, h2] at h

/-- A message that arrives completely gives the `DM` its pose plus the deviation. -/
theorem dmTrigger_pose [Add R] {i : TriggerIn R} {p : DmPose R} (h : i.obtained = some p)
    (d : CustomerPackage R) (s : Triggered R) : (dmTrigger i d s).dm.pose = p.shift d := by
  unfold TriggerIn.obtained TriggerIn.source at h
  unfold dmTrigger
  by_cases h1 : i.mode1 = .recording
  · rw [if_pos h1] at h ⊢
    cases hr : i.recRead <;> simp_all [RecRead.pose]
  · rw [if_neg h1] at h ⊢
    by_cases h2 : i.mode2 = .localization
    · rw [if_pos h2] at h ⊢
      cases hl : i.locRead <;> simp_all
    · rw [if_neg h2] at h
      simp at h

/-- `dmTrigger` changes nothing of the `DM` but the id and the pose. -/
theorem dmTrigger_frame [Add R] (i : TriggerIn R) (d : CustomerPackage R) (s : Triggered R) :
    (dmTrigger i d s).dm =
      { s.dm with id := (dmTrigger i d s).dm.id, pose := (dmTrigger i d s).dm.pose } := by
  unfold dmTrigger
  split
  · rfl
  · split
    · cases i.locRead <;> rfl
    · rfl

end QrAddon
