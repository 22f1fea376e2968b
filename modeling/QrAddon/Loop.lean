import QrAddon.Branch

/-!
# Runs of the main loop

A run starts from empty databases and is a list of sightings and of statements of
the operator in between. `loopBody_cases` splits an iteration into its at most two branches,
`iterate_fixed` says that an iteration whose mode does not change is exactly one
branch.
-/

namespace QrAddon

section

variable [Doubles]

/-- One step of a run: an iteration of the loop, or the operator's update. -/
inductive Act
  | sighting (i : Sighting)
  | toggle (id : UInt32) (enable : Bool)

section

variable (cfg : Config ℚ) (account : Account)

def act (s : Main) : Act → Main
  | .sighting i => (iterate cfg account s i).toMain
  | .toggle id enable => { s with user := UserDb.setEnable s.user id enable }

/-- The state after a run. -/
def runMain (l : List Act) : Main := Run.exec (act cfg account) Main.start l

/-- The steps of a run, each with the state it starts from. -/
def stepsMain (l : List Act) : List (Main × Act) := Run.visits (act cfg account) Main.start l

/-- What a step of a run shows to the outside. -/
def eventsOf (v : Main × Act) : List Event :=
  match v.2 with
  | .sighting i => (iterate cfg account v.1 i).events
  | .toggle _ _ => []

end

/-- The loop body before its first branch: the snapshot is taken. -/
def Main.opened (s : Main) : Turn := { s with ori := s.dm, events := [] }

/-- The turn in front of the first branch. -/
def Main.turn (s : Main) (i : Sighting) : Turn := (s.trigger i.trig i.deviInfo).opened

@[simp] theorem Main.turn_user (s : Main) (i : Sighting) : (s.turn i).user = s.user := rfl
@[simp] theorem Main.turn_self (s : Main) (i : Sighting) : (s.turn i).self = s.self := rfl
@[simp] theorem Main.turn_ori (s : Main) (i : Sighting) : (s.turn i).ori = (s.turn i).dm := rfl
@[simp] theorem Main.turn_events (s : Main) (i : Sighting) : (s.turn i).events = [] := rfl
@[simp] theorem Main.turn_whetherCb (s : Main) (i : Sighting) :
    (s.turn i).whetherCb = s.whetherCb := rfl

/-- In INIT `dmTrigger` does nothing. -/
theorem Main.trigger_init (s : Main) {i : TriggerIn ℚ} (h : i.source = .init)
    (d : CustomerPackage ℚ) : s.trigger i d = s := by
  rw [Main.trigger, @dmTrigger_init ℚ Doubles.toAdd _ h]

theorem Main.trigger_id (s : Main) {i : TriggerIn ℚ} (h : i.source ≠ .init)
    (d : CustomerPackage ℚ) : (s.trigger i d).dm.id = d.dmId :=
  @dmTrigger_id ℚ Doubles.toAdd _ h d _

theorem Main.trigger_pose (s : Main) {i : TriggerIn ℚ} {p : DmPose ℚ} (h : i.obtained = some p)
    (d : CustomerPackage ℚ) : (s.trigger i d).dm.pose = p.plus d.pose :=
  @dmTrigger_pose ℚ Doubles.toAdd _ _ h d _

/-- Outside INIT the turn is about the code of the package. -/
theorem Main.turn_id (s : Main) {i : Sighting} (h : i.trig.source ≠ .init) :
    (s.turn i).dm.id = i.deviInfo.dmId :=
  s.trigger_id h i.deviInfo

/-- All four reads of `*modePtr` return the mode `m`, which is not INIT. -/
structure Sighting.Fixed (i : Sighting) (m : Mode) : Prop where
  real : m ≠ .init
  mode1 : i.trig.mode1 = m
  mode2 : i.trig.mode2 = m
  mode3 : i.body.mode3 = m
  mode4 : i.body.mode4 = m

omit [Doubles] in
theorem Sighting.Fixed.source {i : Sighting} {m : Mode} (h : i.Fixed m) : i.trig.source = m := by
  unfold TriggerIn.source
  rw [h.mode1, h.mode2]
  cases m with
  | recording => rfl
  | localization => rfl
  | init => exact absurd rfl h.real

theorem Sighting.Fixed.turn_id {i : Sighting} {m : Mode} (h : i.Fixed m) (s : Main) :
    (s.turn i).dm.id = i.deviInfo.dmId := by
  apply s.turn_id
  rw [h.source]
  exact h.real

/-- How the statements of the branch of mode `m` end. -/
def Sighting.env (i : Sighting) (m : Mode) : BranchEnv :=
  if m = .recording then i.body.envRec else i.body.envLoc

variable {cfg : Config ℚ} {account : Account} {s : Main} {i : Sighting}

variable (cfg account) in
/-- The loop body runs the RECORDING branch or not, and then the LOCALIZATION branch
or not. -/
theorem loopBody_cases {b : BodyIn} (h : s.whetherCb = false) :
    ∃ t : Turn, t.whetherCb = false ∧
      (b.mode3 = .recording ∧
          BranchStep cfg account b.deviInfo b.envRec .recording s.opened t ∨
        b.mode3 ≠ .recording ∧ t = s.opened) ∧
      (b.mode4 = .localization ∧
          BranchStep cfg account b.deviInfo b.envLoc .localization t (loopBody cfg account b s) ∨
        b.mode4 ≠ .localization ∧ loopBody cfg account b s = t) := by
  have hopened : s.opened.whetherCb = false := h
  have heq : loopBody cfg account b s =
      let t := if b.mode3 = .recording then
        recordingBranch cfg account b.deviInfo b.envRec s.opened else s.opened
      if b.mode4 = .localization then localizationBranch cfg account b.envLoc t else t := rfl
  rw [heq]
  by_cases h3 : b.mode3 = .recording
  · have hstep : BranchStep cfg account b.deviInfo b.envRec .recording s.opened
        (recordingBranch cfg account b.deviInfo b.envRec s.opened) :=
      recordingBranch_step hopened
    refine ⟨_, hstep.logged.flag, .inl ⟨h3, hstep⟩, ?_⟩
    rw [if_pos h3]
    by_cases h4 : b.mode4 = .localization
    · rw [if_pos h4]
      exact .inl ⟨h4, localizationBranch_step hstep.logged.flag⟩
    · rw [if_neg h4]
      exact .inr ⟨h4, rfl⟩
  · refine ⟨_, hopened, .inr ⟨h3, rfl⟩, ?_⟩
    rw [if_neg h3]
    by_cases h4 : b.mode4 = .localization
    · rw [if_pos h4]
      exact .inl ⟨h4, localizationBranch_step hopened⟩
    · rw [if_neg h4]
      exact .inr ⟨h4, rfl⟩

/-- `whetherCb` is false again after the body. -/
theorem loopBody_whetherCb {b : BodyIn} (h : s.whetherCb = false) :
    (loopBody cfg account b s).whetherCb = false := by
  obtain ⟨t, ht, _, h4 | ⟨_, h4⟩⟩ := loopBody_cases cfg account (b := b) h
  · exact h4.2.logged.flag
  · rw [h4]
    exact ht

/-- What holds when the body opens and is kept by every branch holds at its end. -/
theorem loopBody_invariant {P : Turn → Prop} {b : BodyIn} (h : s.whetherCb = false)
    (hopened : P s.opened)
    (hbranch : ∀ env mode t t', BranchStep cfg account b.deviInfo env mode t t' → P t → P t') :
    P (loopBody cfg account b s) := by
  obtain ⟨t, _, h3, h4⟩ := loopBody_cases cfg account (b := b) h
  have ht : P t := by
    rcases h3 with ⟨_, h3⟩ | ⟨_, rfl⟩
    · exact hbranch _ _ _ _ h3 hopened
    · exact hopened
  rcases h4 with ⟨_, h4⟩ | ⟨_, h4⟩
  · exact hbranch _ _ _ _ h4 ht
  · rw [h4]
    exact ht

/-- The body works on the code that `dmTrigger` left in the `DM`. -/
theorem loopBody_dm_id {b : BodyIn} (h : s.whetherCb = false) :
    (loopBody cfg account b s).dm.id = s.dm.id :=
  loopBody_invariant (P := fun t => t.dm.id = s.dm.id) h rfl
    fun _ _ _ _ hb ht => hb.dm_id.trans ht

variable (cfg account) in
/-- An iteration in the same terms. -/
theorem iterate_cases (h : s.whetherCb = false) :
    ∃ t : Turn, t.whetherCb = false ∧
      (i.body.mode3 = .recording ∧
          BranchStep cfg account i.body.deviInfo i.body.envRec .recording (s.turn i) t ∨
        i.body.mode3 ≠ .recording ∧ t = s.turn i) ∧
      (i.body.mode4 = .localization ∧
          BranchStep cfg account i.body.deviInfo i.body.envLoc .localization t
            (iterate cfg account s i) ∨
        i.body.mode4 ≠ .localization ∧ iterate cfg account s i = t) :=
  loopBody_cases cfg account (s := s.trigger i.trig i.deviInfo) h

/-- `whetherCb` is false between iterations. -/
theorem iterate_whetherCb (h : s.whetherCb = false) :
    (iterate cfg account s i).whetherCb = false :=
  loopBody_whetherCb (s := s.trigger i.trig i.deviInfo) h

theorem act_whetherCb (h : s.whetherCb = false) (a : Act) :
    (act cfg account s a).whetherCb = false := by
  cases a with
  | sighting i => exact iterate_whetherCb h
  | toggle id enable => exact h

variable (cfg account) in
theorem runMain_whetherCb (l : List Act) : (runMain cfg account l).whetherCb = false :=
  Run.exec_invariant (P := fun s : Main => s.whetherCb = false) rfl fun v _ h => act_whetherCb h v.2

theorem stepsMain_whetherCb {l : List Act} {v : Main × Act} (h : v ∈ stepsMain cfg account l) :
    v.1.whetherCb = false :=
  Run.visits_invariant (P := fun s : Main => s.whetherCb = false) rfl
    (fun _ a h => act_whetherCb h a) v h

variable (cfg account) in
/-- With the mode fixed, an iteration is one branch on the code of the package. -/
theorem iterate_fixed (h : s.whetherCb = false) {m : Mode} (hm : i.Fixed m) :
    BranchStep cfg account i.body.deviInfo (i.env m) m (s.turn i) (iterate cfg account s i) := by
  obtain ⟨t, _, h3, h4⟩ := iterate_cases cfg account (i := i) h
  rw [hm.mode3] at h3
  rw [hm.mode4] at h4
  cases m with
  | recording =>
    obtain ⟨_, h3⟩ := h3.resolve_right fun h => h.1 rfl
    obtain ⟨_, h4⟩ := h4.resolve_left fun h => nomatch h.1
    rw [h4]
    exact h3
  | localization =>
    obtain ⟨_, h3⟩ := h3.resolve_left fun h => nomatch h.1
    obtain ⟨_, h4⟩ := h4.resolve_right fun h => h.1 rfl
    rw [h3] at h4
    exact h4
  | init => exact absurd rfl hm.real

/-! ## A small configuration

The inputs of the concrete runs in the modules below: a code seen straight under
the lens, every statement succeeding. -/

end

open scoped Exact

def exConfig : Config ℚ where
  mappRepeatNum := 2
  locRepeatNum := 3
  locErrThreshold := 1
  observationType := 0
  calibrationType := 0
  hasOrientation := true
  maxRowSelfDb := 100
  seedSloppyThreshold := 1
  lastBackupDate := ""
  laserStaticCalibSensor_x := 0
  laserStaticCalibSensor_y := 0
  laserStaticCalibSensor_yaw := 0

def exAccount : Account := ⟨"user", "word"⟩

def exEnv : BranchEnv := ⟨⟨.ok, 0⟩, true, .byRowid, true, true, "session"⟩

def exPackage (id : UInt32) : CustomerPackage ℚ := ⟨id, 0, 0, 0⟩

/-- The code `id`, seen in mode `m` at `p`. -/
def exSighting (m : Mode) (id : UInt32) (p : DmPose ℚ) : Sighting where
  deviInfo := exPackage id
  trig := ⟨m, m, .complete p, .message 0 p⟩
  body := ⟨m, m, exPackage id, exEnv, exEnv⟩

theorem exSighting_fixed {m : Mode} (hm : m ≠ .init) (id : UInt32) (p : DmPose ℚ) :
    (exSighting m id p).Fixed m := ⟨hm, rfl, rfl, rfl, rfl⟩

end QrAddon
