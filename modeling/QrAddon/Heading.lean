import QrAddon.SelfDb

/-!
# Averaging headings

`fitPose` averages the headings of the logged poses like lengths. A heading is an angle,
and the same heading has a representation in every turn. This module asks, in exact
arithmetic, what the stored heading makes of a change of representations.

Results:
1. `fitPose_exact`: `fitPose` is `exactFit` on the poses that it reads.
2. `fit_turned_iff`: turning the logged headings by whole turns turns the stored one by
   whole turns exactly when the number of observations divides the number of turns.
3. `not_fit_turned`: the headings 359 and 1, and the heading 180.
-/

namespace QrAddon

section

variable {R : Type} [Field R]

/-- `fitCallBack` without the texts. -/
def exactCallBack (acc p : DmPose R) : DmPose R := ⟨acc.x + p.x, acc.y + p.y, acc.yaw + p.yaw⟩

/-- `fitPose` without the texts: the sum of the first poses, divided by the threshold. -/
def exactFit (threshold : UInt16) (poses : List (DmPose R)) : DmPose R :=
  let sum := (poses.take threshold.toNat).foldl exactCallBack 0
  ⟨sum.x / threshold.toNat, sum.y / threshold.toNat, sum.yaw / threshold.toNat⟩

/-- The same pose with its heading `k` full turns on. -/
def DmPose.turned (T : R) (k : ℤ) (p : DmPose R) : DmPose R := { p with yaw := p.yaw + k * T }

namespace HeadingLemmas

theorem foldl_exactCallBack (acc : DmPose R) (l : List (DmPose R)) :
    l.foldl exactCallBack acc = acc + l.sum := by
  induction l generalizing acc with
  | nil => simp
  | cons p l ih =>
    have hstep : exactCallBack acc p = acc + p := rfl
    rw [List.foldl_cons, ih, hstep, List.sum_cons, add_assoc]

theorem sum_yaw (l : List (DmPose R)) : l.sum.yaw = (l.map DmPose.yaw).sum := by
  induction l with
  | nil => rfl
  | cons p l ih => rw [List.sum_cons, DmPose.add_yaw, ih, List.map_cons, List.sum_cons]

/-- The stored heading of as many poses as the threshold says. -/
theorem exactFit_yaw {n : UInt16} {l : List (DmPose R)} (h : l.length = n.toNat) :
    (exactFit n l).yaw = (l.map DmPose.yaw).sum / n.toNat := by
  simp only [exactFit, ← h, List.take_length, foldl_exactCallBack, zero_add, sum_yaw]

/-- The turns of the single headings add up. -/
theorem sum_turned (T : R) (l : List (DmPose R × ℤ)) :
    ((l.map fun p => p.1.turned T p.2).map DmPose.yaw).sum =
      ((l.map Prod.fst).map DmPose.yaw).sum + (l.map Prod.snd).sum * T := by
  induction l with
  | nil => simp
  | cons p l ih =>
    have hp : (p.1.turned T p.2).yaw = p.1.yaw + p.2 * T := rfl
    simp only [List.map_cons, List.sum_cons, ih, hp, Int.cast_add]
    ring

end HeadingLemmas

end

open HeadingLemmas

/-- Without rounding, `fitPose` does the exact computation on the poses that it reads, if it
visits the rows of the code in the order of their ids or hands over all of them. -/
theorem SelfDb.fitPose_exact [Doubles] (hexact : Doubles.Exact) {scan : ScanOrder} {t : SelfTable}
    {n : UInt16} {dm : DmInfo ℚ}
    (h : scan.Stable ∨ (rowsOf dm.id t.values).length ≤ n.toNat) :
    (fitPose true scan t n dm).1.pose =
      exactFit n ((rowsOf dm.id t.values).map fun r => r.pose.read) := by
  have hover (p : DmPose ℚ) (k : ℕ) : p.over k = ⟨p.x / k, p.y / k, p.yaw / k⟩ := by
    ext
    · exact hexact.div _ _
    · exact hexact.div _ _
    · exact hexact.div _ _
  rw [fitPose_fitted (h.imp_right fun hle => ⟨hexact.unordered, hle⟩), fitted,
    DoublesLemmas.foldl_plus_exact hexact, hover, zero_add, exactFit, foldl_exactCallBack,
    zero_add, List.map_take, List.map_map]
  rfl

/-- For every list of observations, as many as the threshold, and every choice of whole
turns: the stored heading changes by a whole number of turns exactly when the number of
observations divides the sum of the turns. -/
theorem fit_turned_iff {R : Type} [Field R] [CharZero R] {T : R} (hT : T ≠ 0) {n : UInt16}
    {l : List (DmPose R × ℤ)} (hn : 0 < n.toNat) (hl : l.length = n.toNat) :
    (∃ m : ℤ, (exactFit n (l.map fun p => p.1.turned T p.2)).yaw =
        (exactFit n (l.map Prod.fst)).yaw + m * T) ↔ (n.toNat : ℤ) ∣ (l.map Prod.snd).sum := by
  have hn0 : (n.toNat : R) ≠ 0 := Nat.cast_ne_zero.mpr hn.ne'
  rw [exactFit_yaw (by rw [List.length_map, hl]), exactFit_yaw (by rw [List.length_map, hl]),
    sum_turned]
  generalize ((l.map Prod.fst).map DmPose.yaw).sum = y
  generalize (l.map Prod.snd).sum = k
  -- the stored heading moves by `k / n` turns
  have hmove (m : ℤ) : (y + k * T) / n.toNat = y / n.toNat + m * T ↔ k = n.toNat * m := by
    rw [add_div, add_right_inj, div_eq_iff hn0, mul_right_comm, mul_left_inj' hT]
    constructor
    · intro h
      have hcast : ((k : ℤ) : R) = ((n.toNat * m : ℤ) : R) := by
        rw [h]
        push_cast
        ring
      exact Int.cast_injective hcast
    · intro h
      rw [h]
      push_cast
      ring
  simp only [hmove]
  rfl

open scoped Exact

/-- The headings 359 and 1 of a full turn of 360, with turns of their own. -/
def exHeadings (k k' : ℤ) : List (DmPose ℚ × ℤ) := [(⟨0, 0, 359⟩, k), (⟨0, 0, 1⟩, k')]

/-- Both headings turn once. -/
theorem fit_turned_exHeadings : ∃ m : ℤ,
    (exactFit 2 ((exHeadings 1 1).map fun p => p.1.turned 360 p.2)).yaw =
      (exactFit 2 ((exHeadings 1 1).map Prod.fst)).yaw + m * 360 :=
  (fit_turned_iff (by norm_num) (by decide) rfl).mpr (by decide)

/-- The heading 359 written as -1: the stored heading is 0 in place of 180. -/
theorem not_fit_turned : ¬ ∃ m : ℤ,
    (exactFit 2 ((exHeadings (-1) 0).map fun p => p.1.turned 360 p.2)).yaw =
      (exactFit 2 ((exHeadings (-1) 0).map Prod.fst)).yaw + m * 360 := by
  rintro ⟨m, hm⟩
  have hturned : (exactFit 2 ((exHeadings (-1) 0).map fun p => p.1.turned 360 p.2)).yaw = 0 := by
    decide +kernel
  have hplain : (exactFit 2 ((exHeadings (-1) 0).map Prod.fst)).yaw = 180 := by decide +kernel
  rw [hturned, hplain] at hm
  have hodd : ((2 * m + 1 : ℤ) : ℚ) = 0 := by
    push_cast
    linarith
  have hodd : 2 * m + 1 = 0 := by exact_mod_cast hodd
  omega

end QrAddon
