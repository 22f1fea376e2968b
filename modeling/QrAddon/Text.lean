import QrAddon.Data

/-!
# Numbers as text

Both databases are written and read through decimal text. A `double` is printed
by `std::to_string`, which keeps six decimals; what SQLite makes of the literal,
and `atof` of the text of the column, is a matter of `QrAddon.Doubles`. A counter
is printed in full, stored as an `INTEGER` when it fits 63 bits and as a `REAL`
otherwise, and read back by `atoi`, which keeps the low 32 bits of the number.
-/

namespace QrAddon

/-- The integer nearest to `q`, the even one of two. -/
def roundEven (q : ℚ) : ℤ :=
  if q - ⌊q⌋ < 1 / 2 then ⌊q⌋
  else if 1 / 2 < q - ⌊q⌋ then ⌊q⌋ + 1
  else if ⌊q⌋ % 2 = 0 then ⌊q⌋ else ⌊q⌋ + 1

/-- `std::to_string(double)`: `%f`, six decimals. -/
def toString6 (q : ℚ) : ℚ := roundEven (q * 10 ^ 6) / 10 ^ 6

/-- `atoi` on the decimal text of `n`: the low 32 bits, as an `int`. -/
def atoi (n : ℕ) : ℤ := Int.bmod n (2 ^ 32)

/-- `atoi` on the text of a counter column that holds the literal `n`. From
`2 ^ 63` on the column is a `REAL` in exponent notation, of which `atoi` sees
the leading digit only. -/
def atoiCounter (n : ℕ) : ℤ :=
  if n < 2 ^ 63 then atoi n
  -- the doubles there are the multiples of 2048, and from `10 ^ 19 - 5120` on the nearest
  -- one prints as 1.0e+19
  else if n + 5120 < 10 ^ 19 then 9 else 1

/-- A counter column after its trip through `atoi` into a `uint64_t`. -/
def readCounter (n : ℕ) : UInt64 := UInt64.ofInt (atoiCounter n)

/-- An id column after its trip through `atoi` into a `uint32_t`. -/
def readId (n : ℕ) : UInt32 := UInt32.ofInt (atoi n)

/-- Below `2 ^ 31` a counter reads back as it was written. -/
theorem readCounter_toNat {n : ℕ} (h : n < 2 ^ 31) : (readCounter n).toNat = n := by
  have hn : atoiCounter n = (n : ℤ) := by
    unfold atoiCounter atoi
    rw [if_pos (by omega)]
    exact Int.bmod_eq_of_le (by omega) (by omega)
  have hlt : n < 2 ^ 64 := by omega
  rw [readCounter, hn]
  simp only [UInt64.ofInt, UInt64.toNat_ofNat', Nat.reducePow] at hlt ⊢
  omega

/-- Counting up after a read: no wrap below `2 ^ 31`. -/
theorem readCounter_succ {n : ℕ} (h : n < 2 ^ 31) : (readCounter n + 1).toNat = n + 1 := by
  rw [UInt64.toNat_add, readCounter_toNat h]
  simp only [UInt64.reduceToNat]
  omega

/-- `atoi` returns an `int`. -/
theorem atoiCounter_range (n : ℕ) : -2 ^ 31 ≤ atoiCounter n ∧ atoiCounter n < 2 ^ 31 ∧
    (atoiCounter n < 0 → n < 2 ^ 63) := by
  have hlow : -(((2 ^ 32 : ℕ) : ℤ) / 2) ≤ Int.bmod n (2 ^ 32) := Int.le_bmod (by norm_num)
  have hhigh : Int.bmod n (2 ^ 32) < (((2 ^ 32 : ℕ) : ℤ) + 1) / 2 := Int.bmod_lt (by norm_num)
  unfold atoiCounter atoi
  split_ifs with h1 h2
  · exact ⟨by omega, by omega, fun _ => h1⟩
  · omega
  · omega

/-- A counter comes back below `2 ^ 31`, or as a negative `int` would. -/
theorem readCounter_range (n : ℕ) :
    (readCounter n).toNat < 2 ^ 31 ∨ 2 ^ 64 - 2 ^ 31 ≤ (readCounter n).toNat ∧ n < 2 ^ 63 := by
  obtain ⟨h1, h2, h3⟩ := atoiCounter_range n
  have hto : (readCounter n).toNat = (atoiCounter n % 2 ^ 64).toNat := by
    simp only [readCounter, UInt64.ofInt, UInt64.toNat_ofNat', Nat.reducePow]
    omega
  rw [hto]
  omega

/-- No counter comes back as the next one. -/
theorem readCounter_ne_succ (n : ℕ) : (readCounter n).toNat ≠ n + 1 := by
  intro h
  rcases readCounter_range n with hsmall | ⟨hbig, hn⟩
  · have hn : n < 2 ^ 31 := by omega
    rw [readCounter_toNat hn] at h
    omega
  · omega

/-- A counter grows by one exactly when `atoi` reads it back. -/
theorem readCounter_succ_iff (n : ℕ) : (readCounter n + 1).toNat = n + 1 ↔ n < 2 ^ 31 := by
  constructor
  · intro h
    rw [UInt64.toNat_add] at h
    simp only [UInt64.reduceToNat] at h
    rcases readCounter_range n with hsmall | ⟨hbig, hn⟩
    · omega
    · have hlt := (readCounter n).toNat_lt
      omega
  · exact readCounter_succ

/-- Every id reads back as it was written: `atoi` may return a negative `int`,
but the conversion to `uint32_t` undoes that. -/
@[simp] theorem readId_toNat (i : UInt32) : readId i.toNat = i := by
  have hi : i.toNat < 2 ^ 32 := i.toNat_lt
  apply UInt32.toNat_inj.mp
  have hm : Int.bmod i.toNat (2 ^ 32) % 2 ^ 32 = i.toNat := by
    have h : Int.bmod i.toNat (2 ^ 32) % ((2 ^ 32 : ℕ) : ℤ) = i.toNat % ((2 ^ 32 : ℕ) : ℤ) :=
      Int.bmod_emod
    omega
  unfold readId atoi
  simp only [UInt32.ofInt, UInt32.toNat_ofNat']
  rw [hm]
  omega

/-! ## Short decimals -/

/-- At most six decimals, and fewer than 15 significant digits. -/
def ShortDecimal (q : ℚ) : Prop :=
  (∃ k : ℤ, q * 10 ^ 6 = k) ∧ ∃ m e : ℤ, |m| < 10 ^ 14 ∧ q = m * 10 ^ e

theorem roundEven_intCast (k : ℤ) : roundEven k = k := by
  unfold roundEven
  rw [if_pos (by simp), Int.floor_intCast]

/-- Six decimals are printed as they are. -/
theorem ShortDecimal.toString6_eq {q : ℚ} (h : ShortDecimal q) : toString6 q = q := by
  obtain ⟨⟨k, hk⟩, _⟩ := h
  rw [toString6, hk, roundEven_intCast, ← hk]
  exact mul_div_cancel_right₀ q (by norm_num)

end QrAddon
