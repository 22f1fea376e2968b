import QrAddon.Effect
import QrAddon.Lifecycle

/-!
# What is sent to ROKIT

A request leaves the program only behind a look-up that returned an enabled row, and then
two do: the login, and the observation or the seed for the pose of that row. The ids come
from one counter, which nothing else advances.

Results:
1. `turn_requests`: the requests of one iteration, from whatever state.
2. `requests_run`: the requests of a run are the pairs of its validated sightings, in
   order and numbered through.
-/

namespace QrAddon

open LifecycleLemmas

section

variable [Doubles]

/-- A request to ROKIT. -/
def Event.isRequest : Event → Bool
  | .login _ | .addObservation _ | .setSeed _ => true
  | .lookup _ _ | .diag _ | .fit _ => false

/-- A sighting whose look-up returned the enabled row `row`, and the state it starts
from. -/
structure Validation where
  state : Main
  sighting : Sighting
  row : UserRow

/-- The four reads of `*modePtr` agree, in a sighting. -/
def Act.Steady : Act → Prop
  | .sighting i => i.Steady i.mode
  | .toggle _ _ => True

/-- The look-up of a step returns an enabled row. There is none in INIT. -/
def validation? (v : Main × Act) : Option Validation :=
  match v.2 with
  | .toggle _ _ => none
  | .sighting i =>
    if i.mode = .init then none
    else ((UserDb.lookedUp v.1.user (i.env i.mode).lookup (v.1.turn i).dm.id).filter
      (·.enable)).map fun r => ⟨v.1, i, r⟩

section

variable (cfg : Config ℚ) (account : Account)

/-- The requests of a run, in the order in which they are sent. -/
def requests (l : List Act) : List Event :=
  (stepsMain cfg account l).flatMap fun v => (eventsOf cfg account v).filter Event.isRequest

/-- The sightings of a run whose look-up returned an enabled row. -/
def validations (l : List Act) : List Validation :=
  (stepsMain cfg account l).filterMap validation?

/-- The login of the `k`-th validated sighting. -/
def loginOf (k : ℕ) : SessionLogin :=
  RpcClientSessLogIn.writeJsonLogIn "sessionLogin" (UInt64.ofNat (2 * k - 1)) account

/-- The observation or the seed of the `k`-th validated sighting. -/
def postOf (k : ℕ) (v : Validation) : Event :=
  requestOf cfg v.sighting.body.deviInfo (v.sighting.env v.sighting.mode)
    (v.state.turn v.sighting) v.sighting.mode (counted v.row) (UInt64.ofNat (2 * k))

/-- The request `e` carries the id `n` and the pose of the row, as the look-up returned
it: in RECORDING as the map pose, in LOCALIZATION behind the calibration. -/
def Event.Carries (v : Validation) (n : Int64) (e : Event) : Prop :=
  match v.sighting.mode with
  | .recording => ∃ q, e = .addObservation q ∧ q.method = "clientGlobalAlignAddObservation" ∧
      q.id = n ∧ q.mapLandmark = v.row.pose.read
  | .localization => ∃ q, e = .setSeed q ∧ q.method = "clientLocalizationSetSeed" ∧
      q.id = n ∧ q.seedPose = v.row.pose.read.plus ⟨cfg.laserStaticCalibSensor_x,
        cfg.laserStaticCalibSensor_y, cfg.laserStaticCalibSensor_yaw⟩
  | .init => False

end

namespace RequestLemmas

variable {cfg : Config ℚ} {account : Account}

theorem isRequest_requestOf (d : CustomerPackage ℚ) (env : BranchEnv) (t : Turn) (mode : Mode)
    (dm : DmInfo ℚ) (rpcId : UInt64) : (requestOf cfg d env t mode dm rpcId).isRequest = true := by
  unfold requestOf
  split <;> rfl

/-- For an enabled row a branch shows two requests, for any other none. -/
theorem shown_requests (d : CustomerPackage ℚ) (env : BranchEnv) (mode : Mode) (t : Turn)
    (r : UserRow) (self : SelfTable) :
    (shown cfg account d env mode t r self).filter Event.isRequest =
      if r.enable = true then
        [.login (RpcClientSessLogIn.writeJsonLogIn "sessionLogin" t.globalId account),
          requestOf cfg d env t mode (counted r) (t.globalId + 1)]
      else [] := by
  have hlogin : ∀ q, (Event.login q).isRequest = true := fun _ => rfl
  have hdiag : ∀ w, (Event.diag w).isRequest = false := fun _ => rfl
  have hfit : ∀ c, (Event.fit c).isRequest = false := fun _ => rfl
  unfold shown
  by_cases hon : r.enable = true
  · by_cases hfar : Far cfg r t.ori <;>
      simp [hon, hfar, isRequest_requestOf, hlogin, hdiag]
  · by_cases hr : Reaches cfg mode r <;> simp [hon, hr, hfit]

variable (cfg account) in
/-- The requests of a branch and the counter behind it. -/
theorem effect_requests (d : CustomerPackage ℚ) (env : BranchEnv) (mode : Mode) (t : Turn)
    (h0 : t.events = []) :
    match (UserDb.lookedUp t.user env.lookup t.dm.id).filter (·.enable) with
    | some r =>
      (effect cfg account d env mode t).events.filter Event.isRequest =
          [.login (RpcClientSessLogIn.writeJsonLogIn "sessionLogin" t.globalId account),
            requestOf cfg d env t mode (counted r) (t.globalId + 1)] ∧
        (effect cfg account d env mode t).globalId = t.globalId + 1 + 1
    | none =>
      (effect cfg account d env mode t).events.filter Event.isRequest = [] ∧
        (effect cfg account d env mode t).globalId = t.globalId := by
  have hlookup : ∀ dm, (Event.lookup mode dm).isRequest = false := fun _ => rfl
  have hdiag : ∀ w, (Event.diag w).isRequest = false := fun _ => rfl
  cases hrow : UserDb.lookedUp t.user env.lookup t.dm.id with
  | none => simp [effect_none hrow, h0, hlookup, hdiag]
  | some r =>
    by_cases hon : r.enable = true
    · have hfilter : (some r).filter (·.enable) = some r := by simp [Option.filter, hon]
      rw [hfilter]
      simp [effect_some hrow, h0, hlookup, shown_requests, hon]
    · have hfilter : (some r).filter (·.enable) = none := by simp [Option.filter, hon]
      rw [hfilter]
      simp [effect_some hrow, h0, hlookup, shown_requests, hon]

variable (cfg account) in
/-- A step of a run: its requests and the counter behind it. -/
theorem step_requests {s : Main} (h : s.whetherCb = false) {a : Act} (ha : a.Steady) :
    match validation? (s, a) with
    | some v =>
      (eventsOf cfg account (s, a)).filter Event.isRequest =
          [.login (RpcClientSessLogIn.writeJsonLogIn "sessionLogin" s.globalId account),
            requestOf cfg v.sighting.body.deviInfo (v.sighting.env v.sighting.mode)
              (v.state.turn v.sighting) v.sighting.mode (counted v.row) (s.globalId + 1)] ∧
        (act cfg account s a).globalId = s.globalId + 1 + 1
    | none =>
      (eventsOf cfg account (s, a)).filter Event.isRequest = [] ∧
        (act cfg account s a).globalId = s.globalId := by
  cases a with
  | toggle id b => exact ⟨rfl, rfl⟩
  | sighting i =>
    have ha : i.Steady i.mode := ha
    by_cases hm : i.mode = .init
    · have hidle := iterate_idle cfg account (s := s) (i := i) (by rw [← hm]; exact ha)
      simp [validation?, hm, eventsOf, act, hidle]
    · have hflag : (s.turn i).whetherCb = false := h
      have hstep := effect_requests cfg account i.body.deviInfo
        (i.env i.mode) i.mode (s.turn i) rfl
      rw [← iterate_effect cfg account h (ha.fixed hm)] at hstep
      simp only [validation?, hm, if_false]
      rw [Main.turn_user] at hstep
      generalize (UserDb.lookedUp s.user (i.env i.mode).lookup (s.turn i).dm.id).filter
        (·.enable) = row at hstep ⊢
      cases row with
      | none => exact hstep
      | some r => exact hstep

theorem validations_snoc (l : List Act) (a : Act) :
    validations cfg account (l ++ [a]) = validations cfg account l ++
      (validation? (runMain cfg account l, a)).toList := by
  have hlast : [(runMain cfg account l, a)].filterMap validation? =
      (validation? (runMain cfg account l, a)).toList := by
    cases hv : validation? (runMain cfg account l, a) <;> simp [hv]
  rw [← hlast]
  simp [validations, stepsMain, runMain, List.filterMap_append]

theorem requests_snoc (l : List Act) (a : Act) :
    requests cfg account (l ++ [a]) = requests cfg account l ++
      (eventsOf cfg account (runMain cfg account l, a)).filter Event.isRequest := by
  simp [requests, stepsMain, runMain, List.flatMap_append]

omit [Doubles] in
theorem ofNat_succ (n : ℕ) : UInt64.ofNat n + 1 = UInt64.ofNat (n + 1) := by
  rw [UInt64.ofNat_add]
  rfl

/-- The counter after a run: two ids for each validated sighting. -/
theorem globalId_run {l : List Act} (hl : ∀ a ∈ l, a.Steady) :
    (runMain cfg account l).globalId =
      UInt64.ofNat (2 * (validations cfg account l).length + 1) := by
  induction l using List.reverseRecOn with
  | nil => rfl
  | append_singleton l a ih =>
    have ih := ih fun b hb => hl b (List.mem_append_left _ hb)
    have hstep := step_requests cfg account
      (runMain_whetherCb cfg account l) (hl a (by simp))
    rw [runMain_snoc, validations_snoc]
    cases hv : validation? (runMain cfg account l, a) with
    | none =>
      simp only [hv] at hstep
      simp [hstep.2, ih]
    | some v =>
      simp only [hv] at hstep
      rw [hstep.2, ih, ofNat_succ, ofNat_succ]
      simp only [Option.toList_some, List.length_append, List.length_singleton]
      congr 1

/-- The requests of a run, one pair for each validated sighting. -/
theorem requests_eq {l : List Act} (hl : ∀ a ∈ l, a.Steady) :
    requests cfg account l = ((validations cfg account l).zipIdx 1).flatMap fun v =>
      [.login (loginOf account v.2), postOf cfg v.2 v.1] := by
  induction l using List.reverseRecOn with
  | nil => rfl
  | append_singleton l a ih =>
    have hpre : ∀ b ∈ l, b.Steady := fun b hb => hl b (List.mem_append_left _ hb)
    have hstep := step_requests cfg account
      (runMain_whetherCb cfg account l) (hl a (by simp))
    rw [requests_snoc, validations_snoc, ih hpre, List.zipIdx_append, List.flatMap_append]
    congr 1
    cases hv : validation? (runMain cfg account l, a) with
    | none =>
      simp only [hv] at hstep
      simp [hstep.1]
    | some v =>
      simp only [hv] at hstep
      rw [hstep.1, globalId_run hpre, ofNat_succ]
      simp only [Option.toList_some, List.zipIdx_singleton, List.flatMap_singleton, loginOf, postOf]
      have hodd : 2 * (validations cfg account l).length + 1 =
          2 * (1 + (validations cfg account l).length) - 1 := by omega
      have heven : 2 * (validations cfg account l).length + 1 + 1 =
          2 * (1 + (validations cfg account l).length) := by omega
      rw [heven, hodd]

/-- What the look-up of a validation returned. -/
theorem validation_row {s : Main} {a : Act} {v : Validation} (h : validation? (s, a) = some v) :
    v.state = s ∧ a = .sighting v.sighting ∧ v.sighting.mode ≠ .init ∧
      UserDb.lookedUp s.user (v.sighting.env v.sighting.mode).lookup
        (s.turn v.sighting).dm.id = some v.row ∧ v.row.enable = true := by
  cases a with
  | toggle id b => cases h
  | sighting i =>
    simp only [validation?] at h
    split at h
    · cases h
    · next hm =>
      obtain ⟨r, hr, rfl⟩ := Option.map_eq_some_iff.mp h
      obtain ⟨hlook, hon⟩ := Option.filter_eq_some_iff.mp hr
      exact ⟨rfl, rfl, hm, hlook, hon⟩

end RequestLemmas

open RequestLemmas

variable (cfg : Config ℚ) (account : Account)

/-- Only validated codes reach ROKIT. In a run in which every iteration has one mode, the
requests are the concatenation, over the sightings whose look-up returned an enabled row,
of two each: for the `k`-th a login with the id `2k - 1`, and the observation or the seed
with the id `2k` and the pose that the look-up returned. The ids are of type `Int64`; as
integers they are these numbers up to the largest one. -/
theorem requests_run {l : List Act} (hl : ∀ a ∈ l, a.Steady) :
    requests cfg account l = ((validations cfg account l).zipIdx 1).flatMap (fun v =>
        [.login (loginOf account v.2), postOf cfg v.2 v.1]) ∧
      ∀ v ∈ validations cfg account l,
        (v.state, Act.sighting v.sighting) ∈ stepsMain cfg account l ∧
        UserDb.lookedUp v.state.user (v.sighting.env v.sighting.mode).lookup
          (v.state.turn v.sighting).dm.id = some v.row ∧ v.row.enable = true ∧
        ∀ k, (loginOf account k).method = "sessionLogin" ∧
          (loginOf account k).id = Int64.ofNat (2 * k - 1) ∧
          (postOf cfg k v).Carries cfg v (Int64.ofNat (2 * k)) ∧
          (1 ≤ k → 2 * k < 2 ^ 63 → (Int64.ofNat (2 * k - 1)).toInt = 2 * k - 1 ∧
            (Int64.ofNat (2 * k)).toInt = 2 * k) := by
  refine ⟨requests_eq hl, ?_⟩
  intro v hv
  obtain ⟨⟨s, a⟩, hmem, hval⟩ := List.mem_filterMap.mp hv
  obtain ⟨rfl, rfl, hm, hlook, hon⟩ := validation_row hval
  refine ⟨hmem, hlook, hon, fun k => ⟨rfl, rfl, ?_, ?_⟩⟩
  · unfold Event.Carries postOf requestOf
    cases hmode : v.sighting.mode with
    | recording => exact ⟨_, if_pos rfl, rfl, rfl, rfl⟩
    | localization => exact ⟨_, if_neg (by decide), rfl, rfl, rfl⟩
    | init => exact absurd hmode hm
  · intro hpos hk
    constructor
    · rw [Int64.toInt_ofNat_of_lt]
      · omega
      · omega
    · rw [Int64.toInt_ofNat_of_lt]
      · omega
      · omega

end

open scoped Exact

/-- The code 7 is recorded and enabled, recorded again and located; the code 9 is new. -/
def exSent : List Act :=
  [.sighting (exSighting .recording 7 0), .toggle 7 true, .sighting (exSighting .recording 7 0),
    .sighting (exSighting .recording 9 0), .sighting (exSighting .localization 7 0)]

theorem requests_exSent :
    (requests exConfig exAccount exSent).length = 4 ∧
      requests exConfig exAccount exSent =
        ((validations exConfig exAccount exSent).zipIdx 1).flatMap fun v =>
          [.login (loginOf exAccount v.2), postOf exConfig v.2 v.1] := by
  have hsteady : ∀ a ∈ exSent, a.Steady := by
    intro a ha
    simp only [exSent, List.mem_cons, List.not_mem_nil, or_false] at ha
    rcases ha with rfl | rfl | rfl | rfl | rfl
    all_goals first | exact ⟨rfl, rfl, rfl, rfl⟩ | exact trivial
  exact ⟨by decide +kernel, (requests_run exConfig exAccount hsteady).1⟩

end QrAddon
