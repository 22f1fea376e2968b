import Mathlib.Algebra.Order.Field.Basic
import Mathlib.Algebra.Order.BigOperators.Group.List
import Mathlib.Tactic.Linarith
import Mathlib.Tactic.Positivity
import Mathlib.Tactic.Ring

/-!
# Sums and quotients that are rounded

An addition whose result is off by at most the fraction `u` of the exact sum, and a division
that is off by at most the fraction `u` and `η`. `foldl_error` bounds what a list of summands
accumulates, and `mean_error` what remains of it in their mean.
-/

namespace Rounding

variable {K : Type*} [Field K] [LinearOrder K] [IsStrictOrderedRing K]

/-- The sum of any two numbers is off by at most the fraction `u`. -/
def NearAdd (u : K) (add : K → K → K) : Prop := ∀ a b, |add a b - (a + b)| ≤ u * |a + b|

/-- A quotient by a counter is off by at most the fraction `u`, and `η`. -/
def NearDiv (u η : K) (div : K → ℕ → K) : Prop :=
  ∀ a n, 0 < n → |div a n - a / n| ≤ u * |a / n| + η

variable {u η : K} {add : K → K → K} {div : K → ℕ → K}

theorem abs_sum_le (l : List K) : |l.sum| ≤ (l.map abs).sum := by
  induction l with
  | nil => simp
  | cons a l ih =>
    rw [List.sum_cons, List.map_cons, List.sum_cons]
    exact (abs_add_le a l.sum).trans (by linarith)

theorem sum_abs_nonneg (l : List K) : 0 ≤ (l.map abs).sum :=
  (abs_nonneg _).trans (abs_sum_le l)

/-- Summing from the left. As long as `2 * u` times the number of summands stays below one, the
error is at most that part of the sum of the absolute values. -/
theorem foldl_error (hadd : NearAdd u add) (hu : 0 ≤ u) (l : List K)
    (hl : 2 * u * l.length ≤ 1) :
    |l.foldl add 0 - l.sum| ≤ 2 * u * l.length * (l.map abs).sum := by
  induction l using List.reverseRecOn with
  | nil => simp
  | append_singleton l a ih =>
    simp only [List.length_append, List.length_singleton, Nat.cast_add, Nat.cast_one,
      List.foldl_append, List.foldl_cons, List.foldl_nil, List.sum_append, List.sum_cons,
      List.sum_nil, add_zero, List.map_append, List.map_cons, List.map_nil] at hl ⊢
    have hlen : 2 * u * l.length ≤ 1 := by linarith
    have hprev := ih hlen
    generalize l.foldl add 0 = s at hprev ⊢
    have hsum := abs_sum_le l
    have hpos := sum_abs_nonneg l
    generalize (l.map abs).sum = A at hprev hsum hpos ⊢
    generalize l.sum = t at hprev hsum ⊢
    have ha := abs_nonneg a
    -- the partial sum is at most twice as large as the summands
    have hsmall : |s - t| ≤ A := hprev.trans (by
      calc 2 * u * l.length * A ≤ 1 * A := mul_le_mul_of_nonneg_right hlen hpos
        _ = A := one_mul A)
    have hsize : |s + a| ≤ 2 * (A + |a|) := by
      have heq : s + a = (s - t) + t + a := by ring
      have h1 := abs_add_le ((s - t) + t) a
      have h2 := abs_add_le (s - t) t
      rw [heq]
      linarith
    have hstep : |add s a - (s + a)| ≤ u * (2 * (A + |a|)) :=
      (hadd s a).trans (mul_le_mul_of_nonneg_left hsize hu)
    have hgrow : 2 * u * l.length * A ≤ 2 * u * l.length * (A + |a|) :=
      mul_le_mul_of_nonneg_left (by linarith) (by positivity)
    have hsplit : add s a - (t + a) = (add s a - (s + a)) + (s - t) := by ring
    calc |add s a - (t + a)| ≤ |add s a - (s + a)| + |s - t| := by
          rw [hsplit]
          exact abs_add_le _ _
      _ ≤ u * (2 * (A + |a|)) + 2 * u * l.length * (A + |a|) :=
          add_le_add hstep (hprev.trans hgrow)
      _ = 2 * u * (l.length + 1) * (A + |a|) := by ring

/-- The mean of a list: the error of the sum, one more rounding, and `η`. -/
theorem mean_error (hadd : NearAdd u add) (hdiv : NearDiv u η div) (hu : 0 ≤ u) (l : List K)
    (hpos : 0 < l.length) (hl : 2 * u * l.length ≤ 1) :
    |div (l.foldl add 0) l.length - l.sum / l.length| ≤
      2 * u * (l.length + 1) * ((l.map abs).sum / l.length) + η := by
  have herr := foldl_error hadd hu l hl
  generalize l.foldl add 0 = s at herr ⊢
  have hsum := abs_sum_le l
  have hnonneg := sum_abs_nonneg l
  generalize (l.map abs).sum = A at herr hsum hnonneg ⊢
  generalize l.sum = t at herr hsum ⊢
  generalize l.length = n at hpos hl herr ⊢
  have hn : (0 : K) ≤ n := Nat.cast_nonneg n
  have hsmall : |s - t| ≤ A := herr.trans (by
    calc 2 * u * n * A ≤ 1 * A := mul_le_mul_of_nonneg_right hl hnonneg
      _ = A := one_mul A)
  have hsize : |s| ≤ 2 * A := by
    have heq : s = (s - t) + t := by ring
    have h1 := abs_add_le (s - t) t
    rw [heq]
    linarith
  have hquot : |s / n| ≤ 2 * A / n := by
    rw [abs_div, Nat.abs_cast]
    exact div_le_div_of_nonneg_right hsize hn
  have hexact : |s / n - t / n| ≤ 2 * u * n * A / n := by
    rw [← sub_div, abs_div, Nat.abs_cast]
    exact div_le_div_of_nonneg_right herr hn
  have hsplit : div s n - t / n = (div s n - s / n) + (s / n - t / n) := by ring
  calc |div s n - t / n| ≤ |div s n - s / n| + |s / n - t / n| := by
        rw [hsplit]
        exact abs_add_le _ _
    _ ≤ (u * (2 * A / n) + η) + 2 * u * n * A / n :=
        add_le_add ((hdiv s n hpos).trans (by linarith [mul_le_mul_of_nonneg_left hquot hu])) hexact
    _ = 2 * u * (n + 1) * (A / n) + η := by ring

end Rounding
