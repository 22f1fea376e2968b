import QrAddon.Effect

/-!
# When a seed is forced

In LOCALIZATION two distances are taken from the stored pose of a code. `main` takes the one
to the observed pose, ROKIT's pose plus the deviation, and counts a deviation by it.
`writeJsonSetSeed` takes the one to ROKIT's pose itself, and forces the seed by it.

Results:
1. `followsMain_iff`: the seed is forced by main's distance exactly when ROKIT's pose and
   the observed pose lie on the same side of the threshold.
2. `not_followsMain`: a code seen where it is stored, and a forced seed.
-/

namespace QrAddon

section

variable [Doubles]

/-- Whether a seed is forced. -/
def Event.enforceSeed? : Event → Option Bool
  | .setSeed q => some q.enforceSeed
  | .lookup _ _ | .login _ | .addObservation _ | .diag _ | .fit _ => none

section

variable (cfg : Config ℚ) (account : Account) (s : Main) (i : Sighting) (r : UserRow)

/-- The seeds that an iteration sends. -/
def seedsForced : List Bool := (iterate cfg account s i).events.filterMap Event.enforceSeed?

/-- The distance that `main` computes behind the look-up of `r`. -/
def mainDistance : Length ℚ := RpcClientSetSeed.computeSloppy (counted r) (s.turn i).ori

/-- The iteration sends one seed. It is forced if and only if main's distance exceeds the
threshold of the seed, and not if the code is seen where it is stored. -/
def FollowsMain : Prop :=
  ∃ enforceSeed, seedsForced cfg account s i = [enforceSeed] ∧
    (enforceSeed = true ↔ (mainDistance s i r).Exceeds cfg.seedSloppyThreshold) ∧
    ((s.turn i).dm.pose = r.pose.read → enforceSeed = false)

/-- `p` is further than the threshold from the stored pose, as the code computes it. -/
def Beyond (stored p : DmPose ℚ) : Prop :=
  (⟨stored.x, stored.y, p.x, p.y⟩ : Length ℚ).Exceeds cfg.seedSloppyThreshold

/-- ROKIT's pose and the observed pose are both beyond the threshold or both within it,
which is not negative if the observed pose is the stored one. -/
def SameSide : Prop :=
  (Beyond cfg r.pose.read (s.turn i).rokitPose.pose ↔ Beyond cfg r.pose.read (s.turn i).dm.pose) ∧
    ((s.turn i).dm.pose = r.pose.read → 0 ≤ cfg.seedSloppyThreshold)

end

namespace SeedCheckLemmas

variable {cfg : Config ℚ} {account : Account} {s : Main} {i : Sighting} {r : UserRow}

/-- A message gives ROKIT's pose, and the observed pose with the deviation. -/
theorem turn_message (hi : i.Fixed .localization) {state : ℤ} {p : DmPose ℚ}
    (h : i.trig.locRead = .message state p) : (s.turn i).rokitPose.pose = p ∧
      (s.turn i).dm.pose = p.plus i.deviInfo.pose ∧ (s.turn i).locStat = state := by
  have h1 : i.trig.mode1 ≠ .recording := by
    rw [hi.mode1]
    decide
  simp only [Main.turn, Main.opened, Main.trigger, dmTrigger, if_neg h1, if_pos hi.mode2, h]
  trivial

omit [Doubles] in
theorem enforceSeed?_posts : Event.SeesPosts Event.enforceSeed? :=
  ⟨fun _ _ => rfl, fun _ => rfl, fun _ => rfl, fun _ => rfl⟩

/-- Behind a look-up of an enabled row, LOCALIZATION sends one seed. -/
theorem seedsForced_eq (h : s.whetherCb = false) (hi : i.Fixed .localization)
    (hrow : UserDb.lookedUp s.user i.body.envLoc.lookup (s.turn i).dm.id = some r)
    (hon : r.enable = true) : seedsForced cfg account s i =
      [(RpcClientSetSeed.seedArg (counted r) (s.turn i).locStat (s.turn i).rokitPose cfg).1] := by
  have hposts := effect_posts cfg account i.body.deviInfo (i.env .localization) .localization
    (s.turn i) enforceSeed?_posts
  have hfilter : (UserDb.lookedUp (s.turn i).user (i.env .localization).lookup
      (s.turn i).dm.id).filter (·.enable) = some r :=
    Option.filter_eq_some_iff.mpr ⟨hrow, hon⟩
  rw [hfilter, Main.turn_events, List.length_nil, List.drop_zero] at hposts
  rw [seedsForced, iterate_effect cfg account h hi, hposts]
  rfl

/-- For a negative `locStat` the seed is forced by the distance of ROKIT's pose. -/
theorem seedArg_iff {dm rokitPose : DmInfo ℚ} {locStat : ℤ} (h : locStat < 0) :
    (RpcClientSetSeed.seedArg dm locStat rokitPose cfg).1 = true ↔
      (planarDistance rokitPose dm).Exceeds cfg.seedSloppyThreshold := by
  unfold RpcClientSetSeed.seedArg RpcClientSetSeed.computeSloppy
  rw [if_pos h]
  split <;> simp [*]

theorem exceeds_iff_beyond (a b : DmInfo ℚ) :
    (planarDistance a b).Exceeds cfg.seedSloppyThreshold ↔ Beyond cfg a.pose b.pose := Iff.rfl

theorem beyond_comm (p q : DmPose ℚ) : Beyond cfg p q ↔ Beyond cfg q p := by
  unfold Beyond Length.Exceeds
  rw [Doubles.exceeds_comm]

/-- Nothing lies beyond a threshold from itself, unless the threshold is negative. -/
theorem beyond_self (p : DmPose ℚ) : Beyond cfg p p ↔ cfg.seedSloppyThreshold < 0 := by
  unfold Beyond Length.Exceeds
  rw [Doubles.exceeds_self, decide_eq_true_eq]

end SeedCheckLemmas

open SeedCheckLemmas

/-- In every reachable state, for a LOCALIZATION sighting of an enabled code with a
negative `locStat`: the seed is forced by main's distance exactly when ROKIT's pose and the
observed pose lie on the same side of the threshold. -/
theorem followsMain_iff (cfg : Config ℚ) (account : Account) (l : List Act) {i : Sighting}
    {r : UserRow} (hi : i.Fixed .localization)
    (hrow : UserDb.lookedUp (runMain cfg account l).user i.body.envLoc.lookup
      ((runMain cfg account l).turn i).dm.id = some r)
    (hon : r.enable = true) (hstat : ((runMain cfg account l).turn i).locStat < 0) :
    FollowsMain cfg account (runMain cfg account l) i r ↔
      SameSide cfg (runMain cfg account l) i r := by
  generalize hs : runMain cfg account l = s at *
  have hcb : s.whetherCb = false := hs ▸ runMain_whetherCb cfg account l
  have hmain : (mainDistance s i r).Exceeds cfg.seedSloppyThreshold ↔
      Beyond cfg r.pose.read (s.turn i).dm.pose := exceeds_iff_beyond _ _
  have hseed : (RpcClientSetSeed.seedArg (counted r) (s.turn i).locStat
        (s.turn i).rokitPose cfg).1 = true ↔
      Beyond cfg r.pose.read (s.turn i).rokitPose.pose := by
    rw [seedArg_iff hstat, exceeds_iff_beyond, beyond_comm]
    rfl
  unfold FollowsMain SameSide
  simp only [seedsForced_eq hcb hi hrow hon, List.cons.injEq, and_true, exists_eq_left', hmain,
    hseed, ← Bool.not_eq_true]
  refine and_congr_right ?_
  intro hside
  refine forall_congr' ?_
  intro hseen
  rw [hside, hseen, beyond_self, not_lt]

/-- With the code centred under the lens, the two distances are the same. -/
theorem sameSide_of_centred {cfg : Config ℚ} {s : Main} {i : Sighting} {r : UserRow}
    (hi : i.Fixed .localization) {state : ℤ} {p : DmPose ℚ}
    (hmessage : i.trig.locRead = .message state p) (hx : i.deviInfo.deviationX = 0)
    (hy : i.deviInfo.deviationY = 0) (hthreshold : 0 ≤ cfg.seedSloppyThreshold) :
    SameSide cfg s i r := by
  obtain ⟨hrokit, hseen, _⟩ := turn_message (s := s) hi hmessage
  refine ⟨?_, fun _ => hthreshold⟩
  rw [hrokit, hseen]
  simp only [Beyond, DmPose.plus_x, DmPose.plus_y, CustomerPackage.pose, hx, hy, Doubles.add_zero]

end

open scoped Exact

/-- The code 7 is recorded at the origin and enabled. -/
def exAtOrigin : List Act := [.sighting (exSighting .recording 7 0), .toggle 7 true]

/-- The code 7, in LOCALIZATION at ROKIT's pose `p`, seen with a deviation of 10. -/
def exOffCentre (p : DmPose ℚ) : Sighting where
  deviInfo := ⟨7, 10, 0, 0⟩
  trig := ⟨.localization, .localization, .complete 0, .message (-1) p⟩
  body := ⟨.localization, .localization, ⟨7, 10, 0, 0⟩, exEnv, exEnv⟩

theorem exOffCentre_fixed (p : DmPose ℚ) : (exOffCentre p).Fixed .localization :=
  ⟨by decide, rfl, rfl, rfl, rfl⟩

/-- The row that the look-up of these sightings returns. -/
def exOriginRow : UserRow := ⟨7, 0, 1, 0, false, true⟩

/-- ROKIT is 5 away from the stored pose, and the code is seen 15 away from it. -/
theorem followsMain_exOffCentre :
    FollowsMain exConfig exAccount (runMain exConfig exAccount exAtOrigin) (exOffCentre ⟨5, 0, 0⟩)
      exOriginRow :=
  (followsMain_iff exConfig exAccount exAtOrigin (exOffCentre_fixed _) (by decide +kernel) rfl
    (by decide +kernel)).mpr (by
      refine ⟨iff_of_true ?_ ?_, fun _ => by decide +kernel⟩
      · exact decide_eq_true (.inr (by decide +kernel))
      · exact decide_eq_true (.inr (by decide +kernel)))

/-- The code is seen where it is stored, by the enabled row that the look-up returns, and
the seed is forced. -/
theorem not_followsMain :
    let s := runMain exConfig exAccount exAtOrigin
    let i := exOffCentre ⟨-10, 0, 0⟩
    UserDb.lookedUp s.user i.body.envLoc.lookup (s.turn i).dm.id = some exOriginRow ∧
      exOriginRow.enable = true ∧ (s.turn i).locStat < 0 ∧
        ¬ FollowsMain exConfig exAccount s i exOriginRow := by
  refine ⟨by decide +kernel, rfl, by decide +kernel, ?_⟩
  rintro ⟨enforceSeed, hsent, _, hseen⟩
  have hforced : seedsForced exConfig exAccount (runMain exConfig exAccount exAtOrigin)
      (exOffCentre ⟨-10, 0, 0⟩) = [true] := by decide +kernel
  have hsame : enforceSeed = true := by
    rw [hforced] at hsent
    exact (List.cons.inj hsent).1.symm
  have hkept : enforceSeed = false := hseen (by decide +kernel)
  rw [hsame] at hkept
  cases hkept

end QrAddon
