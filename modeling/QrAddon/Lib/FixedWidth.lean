import Mathlib

/-!
# Decimal numbers of a fixed width

`fixed w n` is `n` in decimal, with zeros in front up to `w` characters. What is shorter
than `10 ^ w` fits, and `Nat.ofDigitChars` reads it back.
-/

namespace FixedWidth

variable {w n : ℕ}

def fixed (w n : ℕ) : List Char :=
  List.replicate (w - (Nat.toDigits 10 n).length) '0' ++ Nat.toDigits 10 n

theorem length_fixed (hw : 0 < w) (h : n < 10 ^ w) : (fixed w n).length = w := by
  have hle := (Nat.length_toDigits_le_iff (by decide : 1 < 10) hw).mpr h
  rw [fixed, List.length_append, List.length_replicate]
  omega

theorem fixed_ne_nil : fixed w n ≠ [] :=
  List.append_ne_nil_of_right_ne_nil _ Nat.toDigits_ne_nil

theorem isDigit_of_mem_fixed {c : Char} (h : c ∈ fixed w n) : c.isDigit = true := by
  rcases List.mem_append.mp h with h | h
  · rw [List.eq_of_mem_replicate h]
    rfl
  · exact Nat.isDigit_of_mem_toDigits (by decide) (by decide) h

theorem ofDigitChars_fixed : Nat.ofDigitChars 10 (fixed w n) 0 = n := by
  rw [fixed, Nat.ofDigitChars_append, Nat.ofDigitChars_replicate_zero, Nat.mul_zero,
    Nat.ofDigitChars_ten_toDigits]

/-- A number with at least `w` digits needs no zeros. -/
theorem fixed_of_le (h : 10 ^ w ≤ n) : fixed (w + 1) n = Nat.toDigits 10 n := by
  have hlen : w + 1 ≤ (Nat.toDigits 10 n).length := by
    rcases Nat.eq_zero_or_pos w with rfl | hw
    · exact Nat.length_toDigits_pos
    · by_contra hlt
      have hshort : (Nat.toDigits 10 n).length ≤ w := by omega
      exact Nat.not_lt.mpr h ((Nat.length_toDigits_le_iff (by decide) hw).mp hshort)
  rw [fixed, Nat.sub_eq_zero_of_le hlen, List.replicate_zero, List.nil_append]

end FixedWidth
