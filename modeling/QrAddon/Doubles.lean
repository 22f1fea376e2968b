import QrAddon.Text
import QrAddon.Lib.Rounding

/-!
# The doubles

A finite `double` stands for its value, a rational. What the processor makes of sums,
quotients and distances, and which double comes of a decimal text, is a parameter: `Doubles`.
Its laws are those of the correctly rounded operations of IEEE 754, as long as no result
overflows, and the 15 digits that SQLite promises.

In the instance of the namespace `Exact` nothing is rounded but the texts. It agrees with the
processor where all results are doubles, as they are in the examples of the development, which
open it.
-/

namespace QrAddon

/-- The distance of two positions in the plane, before it is computed. -/
structure Length (R : Type) where
  x₁ : R
  y₁ : R
  x₂ : R
  y₂ : R
deriving DecidableEq, Repr

/-- The test `computeSloppy(...) > t`, as the code computes it. -/
class Measure (R : Type) where
  exceeds : Length R → R → Bool

/-- The distance is greater than `t`. -/
def Length.Exceeds {R : Type} [Measure R] (l : Length R) (t : R) : Prop :=
  Measure.exceeds l t = true

instance {R : Type} [Measure R] (l : Length R) (t : R) : Decidable (l.Exceeds t) :=
  inferInstanceAs (Decidable (_ = true))

/-- What becomes of the numbers. -/
class Doubles extends Measure ℚ where
  /-- The sum of two doubles. -/
  add : ℚ → ℚ → ℚ
  /-- A double divided by a counter. -/
  div : ℚ → ℕ → ℚ
  /-- The double that a decimal literal stands for. -/
  literal : ℚ → ℚ
  /-- What `atof` gets for a double that SQLite stores as a `REAL` and renders by `%!.15g`. -/
  realText : ℚ → ℚ
  /-- The distance of a position from itself is 0. -/
  exceeds_self : ∀ x y t, exceeds ⟨x, y, x, y⟩ t = decide (t < 0)
  exceeds_comm : ∀ x₁ y₁ x₂ y₂ t, exceeds ⟨x₁, y₁, x₂, y₂⟩ t = exceeds ⟨x₂, y₂, x₁, y₁⟩ t
  add_zero : ∀ a, add a 0 = a
  add_near : Rounding.NearAdd (2⁻¹ ^ 53) add
  div_near : Rounding.NearDiv (2⁻¹ ^ 53) (2⁻¹ ^ 1075) div
  /-- Printed with six decimals, the double of a short decimal is still the same. -/
  literal_toString6 : ∀ q, ShortDecimal q → literal (toString6 (literal q)) = literal q
  /-- 15 significant digits come back as they were. -/
  realText_literal : ∀ q, ShortDecimal q → realText (literal q) = literal q

/-! ## Sums and means of poses -/

section

variable [Doubles]

/-- The sum of two poses. -/
@[simps] def DmPose.plus (p q : DmPose ℚ) : DmPose ℚ :=
  ⟨Doubles.add p.x q.x, Doubles.add p.y q.y, Doubles.add p.yaw q.yaw⟩

/-- The sum of two doubles, where a definition leaves the type of the numbers open. -/
@[reducible] def Doubles.toAdd : Add ℚ := ⟨Doubles.add⟩

/-- A pose divided by a counter. -/
@[simps] def DmPose.over (p : DmPose ℚ) (n : ℕ) : DmPose ℚ :=
  ⟨Doubles.div p.x n, Doubles.div p.y n, Doubles.div p.yaw n⟩

/-- The mean as a program computes it: the poses are added from the left, and the sum is
divided by their number. -/
def DmPose.computedMean (l : List (DmPose ℚ)) : DmPose ℚ := (l.foldl DmPose.plus 0).over l.length

/-- A pose as the insert and update statements print it and SQLite stores it. -/
def DmPose.printed (p : DmPose ℚ) : DmPose ℚ := p.map fun q => Doubles.literal (toString6 q)

/-- A stored pose as the callbacks read it. -/
def DmPose.read (p : DmPose ℚ) : DmPose ℚ := p.map Doubles.realText

/-- The order of the summands does not matter. -/
def Doubles.Unordered : Prop :=
  ∀ a b c : ℚ, Doubles.add (Doubles.add a b) c = Doubles.add (Doubles.add a c) b

/-- No sum and no quotient is rounded. -/
structure Doubles.Exact : Prop where
  add : ∀ a b : ℚ, Doubles.add a b = a + b
  div : ∀ (a : ℚ) (n : ℕ), Doubles.div a n = a / n

theorem Doubles.Exact.unordered (h : Doubles.Exact) : Doubles.Unordered := by
  intro a b c
  rw [h.add, h.add, h.add, h.add, add_right_comm]

end

/-- The arithmetic mean of a list of poses, component by component. -/
def DmPose.mean (l : List (DmPose ℚ)) : DmPose ℚ :=
  ⟨l.sum.x / l.length, l.sum.y / l.length, l.sum.yaw / l.length⟩

/-- `q` is the mean of the numbers `l` up to the rounding of its sums and its quotient. -/
def NearMean (l : List ℚ) (q : ℚ) : Prop :=
  |q - l.sum / l.length| ≤ 2⁻¹ ^ 36 * ((l.map abs).sum / l.length) + 2⁻¹ ^ 1075

theorem NearMean.perm {l m : List ℚ} (h : m.Perm l) {q : ℚ} (hq : NearMean m q) :
    NearMean l q := by
  unfold NearMean at hq ⊢
  rw [h.sum_eq, (h.map abs).sum_eq, h.length_eq] at hq
  exact hq

/-- `p` is what a program computes for the mean of the poses `l`, added in some order: their
arithmetic mean up to that rounding. -/
structure DmPose.Averages [Doubles] (p : DmPose ℚ) (l : List (DmPose ℚ)) : Prop where
  computed : ∃ m, m.Perm l ∧ p = DmPose.computedMean m
  x : NearMean (l.map DmPose.x) p.x
  y : NearMean (l.map DmPose.y) p.y
  yaw : NearMean (l.map DmPose.yaw) p.yaw

/-! ## Poses that survive a read and a write -/

section

variable [Doubles]

/-- The double of a short decimal. -/
def Decimal (x : ℚ) : Prop := ∃ q, ShortDecimal q ∧ x = Doubles.literal q

/-- A pose each of whose components is. -/
def DmPose.Decimal (p : DmPose ℚ) : Prop :=
  QrAddon.Decimal p.x ∧ QrAddon.Decimal p.y ∧ QrAddon.Decimal p.yaw

/-- Such a number survives the text of a statement, and the text of a stored column. -/
theorem Decimal.printed {x : ℚ} (h : Decimal x) : Doubles.literal (toString6 x) = x := by
  obtain ⟨q, hq, rfl⟩ := h
  exact Doubles.literal_toString6 q hq

theorem Decimal.read {x : ℚ} (h : Decimal x) : Doubles.realText x = x := by
  obtain ⟨q, hq, rfl⟩ := h
  exact Doubles.realText_literal q hq

theorem DmPose.Decimal.printed {p : DmPose ℚ} (h : p.Decimal) : p.printed = p := by
  obtain ⟨hx, hy, hyaw⟩ := h
  ext
  · exact hx.printed
  · exact hy.printed
  · exact hyaw.printed

theorem DmPose.Decimal.read {p : DmPose ℚ} (h : p.Decimal) : p.read = p := by
  obtain ⟨hx, hy, hyaw⟩ := h
  ext
  · exact hx.read
  · exact hy.read
  · exact hyaw.read

theorem DmPose.Decimal.printed_read {p : DmPose ℚ} (h : p.Decimal) : p.read.printed = p := by
  rw [h.read, h.printed]

end

namespace DoublesLemmas

section

variable [Doubles]

/-- A component of a sum is the sum of the components. -/
theorem foldl_plus {f : DmPose ℚ → ℚ}
    (hf : ∀ p q : DmPose ℚ, f (p.plus q) = Doubles.add (f p) (f q)) (l : List (DmPose ℚ))
    (p : DmPose ℚ) : f (l.foldl DmPose.plus p) = (l.map f).foldl Doubles.add (f p) := by
  induction l generalizing p with
  | nil => rfl
  | cons q l ih => rw [List.foldl_cons, ih, hf, List.map_cons, List.foldl_cons]

/-- Fewer than `2 ^ 16` numbers: their sum, divided by their number. -/
theorem nearMean_div {l : List ℚ} (hpos : 0 < l.length) (hl : l.length < 2 ^ 16) :
    NearMean l (Doubles.div (l.foldl Doubles.add 0) l.length) := by
  have hlen : (l.length : ℚ) + 1 ≤ 2 ^ 16 := by exact_mod_cast hl
  have herr := Rounding.mean_error Doubles.add_near Doubles.div_near (by positivity) l hpos
    (by norm_num at hlen ⊢; linarith)
  have hmean : 0 ≤ (l.map abs).sum / (l.length : ℚ) :=
    div_nonneg (Rounding.sum_abs_nonneg l) (Nat.cast_nonneg _)
  refine herr.trans (add_le_add_left ?_ _)
  apply mul_le_mul_of_nonneg_right _ hmean
  norm_num at hlen ⊢
  linarith

/-- The computed mean of fewer than `2 ^ 16` poses, in any order. -/
theorem averages_of_perm {l m : List (DmPose ℚ)} (h : m.Perm l) (hpos : 0 < l.length)
    (hl : l.length < 2 ^ 16) : (DmPose.computedMean m).Averages l := by
  rw [← h.length_eq] at hpos hl
  have hcomp {f : DmPose ℚ → ℚ} (hplus : ∀ p q : DmPose ℚ, f (p.plus q) = Doubles.add (f p) (f q))
      (hover : ∀ (p : DmPose ℚ) (n : ℕ), f (p.over n) = Doubles.div (f p) n) (hzero : f 0 = 0) :
      NearMean (l.map f) (f (DmPose.computedMean m)) := by
    apply NearMean.perm (h.map f)
    have hnear := nearMean_div (l := m.map f) (by rwa [List.length_map])
      (by rwa [List.length_map])
    rw [DmPose.computedMean, hover, foldl_plus hplus, hzero, ← List.length_map f]
    exact hnear
  exact ⟨⟨m, h, rfl⟩, hcomp (fun _ _ => rfl) (fun _ _ => rfl) rfl,
    hcomp (fun _ _ => rfl) (fun _ _ => rfl) rfl, hcomp (fun _ _ => rfl) (fun _ _ => rfl) rfl⟩

/-- Sums whose order does not matter. -/
theorem foldl_plus_perm (hadd : Doubles.Unordered) {l m : List (DmPose ℚ)} (h : l.Perm m)
    (p : DmPose ℚ) : l.foldl DmPose.plus p = m.foldl DmPose.plus p := by
  refine h.foldl_eq' ?_ p
  intro a _ b _ c
  ext
  · exact hadd _ _ _
  · exact hadd _ _ _
  · exact hadd _ _ _

theorem foldl_plus_exact (h : Doubles.Exact) (l : List (DmPose ℚ)) (p : DmPose ℚ) :
    l.foldl DmPose.plus p = p + l.sum := by
  have hplus (p q : DmPose ℚ) : p.plus q = p + q := by
    ext
    · exact h.add _ _
    · exact h.add _ _
    · exact h.add _ _
  induction l generalizing p with
  | nil => rw [List.foldl_nil, List.sum_nil, add_zero]
  | cons q l ih => rw [List.foldl_cons, ih, hplus, List.sum_cons, add_assoc]

/-- Without rounding, the mean that is computed is the arithmetic mean, whatever the order. -/
theorem averages_exact (h : Doubles.Exact) {p : DmPose ℚ} {l : List (DmPose ℚ)}
    (hp : p.Averages l) : p = DmPose.mean l := by
  obtain ⟨m, hperm, rfl⟩ := hp.computed
  rw [DmPose.computedMean, foldl_plus_exact h, zero_add, hperm.sum_eq, hperm.length_eq]
  ext
  · exact h.div _ _
  · exact h.div _ _
  · exact h.div _ _

end

end DoublesLemmas

/-! ## Exact arithmetic -/

namespace Exact

/-- `√((x₁ - x₂)² + (y₁ - y₂)²) > t`. -/
def Exceeds {R : Type} [Field R] [LinearOrder R] (l : Length R) (t : R) : Prop :=
  t < 0 ∨ t ^ 2 < (l.x₁ - l.x₂) ^ 2 + (l.y₁ - l.y₂) ^ 2

instance {R : Type} [Field R] [LinearOrder R] (l : Length R) (t : R) : Decidable (Exceeds l t) :=
  inferInstanceAs (Decidable (t < 0 ∨ _))

theorem exceeds_iff_sqrt (l : Length ℝ) (t : ℝ) :
    Exceeds l t ↔ t < √((l.x₁ - l.x₂) ^ 2 + (l.y₁ - l.y₂) ^ 2) := by
  unfold Exceeds
  rcases lt_or_ge t 0 with ht | ht
  · exact ⟨fun _ => lt_of_lt_of_le ht (Real.sqrt_nonneg _), fun _ => .inl ht⟩
  · rw [Real.lt_sqrt ht]
    exact ⟨fun h => h.resolve_left (not_lt.mpr ht), .inr⟩

/-- 15 significant digits, ties up. -/
def realText (q : ℚ) : ℚ :=
  let k : ℤ := 14 - Int.log 10 |q|
  (if q < 0 then -1 else 1) * (⌊|q| * 10 ^ k + 1 / 2⌋ / 10 ^ k)

theorem realText_short {q : ℚ} (h : ShortDecimal q) : realText q = q := by
  obtain ⟨_, m, e, hm, hq⟩ := h
  rcases eq_or_ne q 0 with h0 | h0
  · simp only [realText, h0]
    norm_num
  have habs : |q| = (|m| : ℤ) * 10 ^ e := by
    rw [hq, abs_mul, Int.cast_abs, abs_of_pos (by positivity : (0 : ℚ) < 10 ^ e)]
  have hlog : Int.log 10 |q| < 14 + e := by
    rw [← Int.lt_zpow_iff_log_lt (by norm_num) (abs_pos.mpr h0), habs,
      zpow_add₀ (by norm_num), Nat.cast_ofNat]
    have h14 : ((|m| : ℤ) : ℚ) < 10 ^ (14 : ℤ) := by exact_mod_cast hm
    exact mul_lt_mul_of_pos_right h14 (by positivity)
  -- the digits that are printed make up an integer
  obtain ⟨j, hj⟩ : ∃ j : ℕ, e + (14 - Int.log 10 |q|) = j :=
    ⟨(e + (14 - Int.log 10 |q|)).toNat, by omega⟩
  have hint : |q| * 10 ^ (14 - Int.log 10 |q|) = (|m| * 10 ^ j : ℤ) := by
    generalize Int.log 10 |q| = L at hj ⊢
    rw [habs, mul_assoc, ← zpow_add₀ (by norm_num), hj]
    push_cast
    rw [zpow_natCast]
  have hfloor : ⌊|q| * 10 ^ (14 - Int.log 10 |q|) + 1 / 2⌋ = |m| * 10 ^ j := by
    rw [hint, Int.floor_intCast_add]
    norm_num
  have hsign : (if q < 0 then -1 else 1) * |q| = q := by
    split_ifs with hneg
    · rw [abs_of_neg hneg]
      ring
    · rw [abs_of_nonneg (not_lt.mp hneg), one_mul]
  simp only [realText]
  rw [hfloor, ← hint, mul_div_cancel_right₀ _ (by positivity), hsign]

/-- Nothing is rounded but the texts. -/
scoped instance doubles : Doubles where
  exceeds l t := decide (Exceeds l t)
  add a b := a + b
  div a n := a / n
  literal q := q
  realText := realText
  exceeds_self x y t := by simp [Exceeds, sq_nonneg, not_lt.mpr]
  exceeds_comm x₁ y₁ x₂ y₂ t :=
    decide_eq_decide.mpr (by simp only [Exceeds, sub_sq_comm x₁ x₂, sub_sq_comm y₁ y₂])
  add_zero a := Rat.add_zero a
  add_near a b := by
    rw [sub_self, abs_zero]
    positivity
  div_near a n _ := by
    rw [sub_self, abs_zero]
    positivity
  literal_toString6 _ hq := hq.toString6_eq
  realText_literal _ hq := realText_short hq

theorem decimal {q : ℚ} (h : ShortDecimal q) : Decimal q := ⟨q, h, rfl⟩

theorem unordered : Doubles.Unordered := Doubles.Exact.unordered ⟨fun _ _ => rfl, fun _ _ => rfl⟩

end Exact

end QrAddon
