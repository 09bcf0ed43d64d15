import ImpHost.Double.Basic
import Mathlib.Algebra.GroupWithZero.Nat

/-!
Integers in double precision (`Double.toInt?_ofQuotient`).

An integer of more than 53 bits is rounded to a multiple of a power of two that leaves 53 bits of
it (`Double.rounded`), so an integer that is only a little beyond a power of two becomes that power.
For 64 bits the power is 2048, and 1024 integers beyond become the one at the boundary
(`Double.rounded_le_iff`).
-/

namespace ImpHost.Double

/-- The distance of two neighbours of the size of `n`, an integer of at least 53 bits. -/
def spacing (n : Nat) : Nat :=
  2 ^ (Nat.log2 n - 52)

/-- The integer that is nearest to `n` among the multiples of their spacing. -/
def rounded (n : Nat) : Nat :=
  roundQuotient n (spacing n) * spacing n

variable {negative : Bool} {n : Nat}

theorem div_le_roundQuotient (a b : Nat) : a / b ≤ roundQuotient a b := by
  unfold roundQuotient
  dsimp only
  split <;> omega

theorem hiddenBit_eq : hiddenBit = 2 ^ 52 :=
  rfl

theorem ne_zero_of_large (large : hiddenBit ≤ n) : n ≠ 0 :=
  Nat.ne_of_gt (Nat.lt_of_lt_of_le (by decide) large)

theorem log2_of_large (large : hiddenBit ≤ n) : 52 ≤ Nat.log2 n :=
  (Nat.le_log2 (ne_zero_of_large large)).2 large

theorem hiddenBit_mul_spacing (large : hiddenBit ≤ n) :
    hiddenBit * spacing n = 2 ^ Nat.log2 n := by
  rw [hiddenBit_eq, spacing, ← Nat.pow_add, Nat.add_sub_of_le (log2_of_large large)]

/-- Without its last bits a number has 53 bits. -/
theorem hiddenBit_le_div_spacing (large : hiddenBit ≤ n) : hiddenBit ≤ n / spacing n := by
  have positive : 0 < spacing n := Nat.two_pow_pos _
  rw [Nat.le_div_iff_mul_le positive, hiddenBit_mul_spacing large]
  exact Nat.log2_self_le (ne_zero_of_large large)

/-- A number with at least 53 bits is rounded to a multiple of its spacing. Only with more than 1023
bits it may be too great. -/
theorem ofQuotient_of_large (large : hiddenBit ≤ n) :
    (ofQuotient negative n 1 = .infinite negative ∧ 1023 ≤ Nat.log2 n) ∨
      ∃ m e : Nat, ofQuotient negative n 1 = .finite negative m e ∧ m * 2 ^ e = rounded n := by
  obtain ⟨e, found⟩ := Nat.exists_eq_add_of_le (log2_of_large large)
  have estimate : (Nat.log2 n : Int) - Nat.log2 1 - 52 = (e : Int) := by
    have one : Nat.log2 1 = 0 := by decide
    omega
  have isScaled : scaled n 1 e = (n, spacing n) := by
    rw [scaled, if_pos (Int.natCast_nonneg e), Int.toNat_natCast, Nat.one_mul, spacing, found,
      Nat.add_sub_cancel_left]
    rfl
  have noLess : ¬ n < hiddenBit * spacing n :=
    Nat.not_lt.2 ((Nat.le_div_iff_mul_le (Nat.two_pow_pos _)).1 (hiddenBit_le_div_spacing large))
  have above : max (e : Int) minExponent = e := Int.max_eq_left (by unfold minExponent; omega)
  have power : spacing n = 2 ^ e := by rw [spacing, found, Nat.add_sub_cancel_left]
  unfold ofQuotient
  dsimp only
  rw [if_neg (ne_zero_of_large large), estimate, isScaled, if_neg noLess, above, isScaled]
  by_cases carried : roundQuotient n (spacing n) = 2 * hiddenBit
  · rw [if_pos carried]
    dsimp only
    by_cases beyond : maxExponent < (e : Int) + 1
    · exact .inl ⟨if_pos beyond, by unfold maxExponent at beyond; omega⟩
    · refine .inr ⟨hiddenBit, e + 1, if_neg beyond, ?_⟩
      rw [rounded, carried, power, Nat.pow_succ', ← Nat.mul_assoc, Nat.mul_comm hiddenBit]
  · rw [if_neg carried]
    dsimp only
    by_cases beyond : maxExponent < (e : Int)
    · exact .inl ⟨if_pos beyond, by unfold maxExponent at beyond; omega⟩
    · exact .inr ⟨_, e, if_neg beyond, by rw [rounded, power]⟩

theorem toInt?_finite (m e : Nat) : toInt? (.finite negative m e) =
    some (if negative then -((m * 2 ^ e : Nat) : Int) else ((m * 2 ^ e : Nat) : Int)) := by
  rw [toInt?, if_pos (Int.natCast_nonneg e)]
  rfl

/-- A great integer becomes the one that it is rounded to, or it is too great. -/
theorem toInt?_ofQuotient (negative : Bool) (large : hiddenBit ≤ n) :
    (ofQuotient negative n 1 = .infinite negative ∧ 1023 ≤ Nat.log2 n) ∨
      (ofQuotient negative n 1).toInt? =
        some (if negative then -(rounded n : Int) else (rounded n : Int)) := by
  rcases ofQuotient_of_large large with infinite | ⟨m, e, finite, value⟩
  · exact .inl infinite
  · rw [finite, toInt?_finite, value]
    exact .inr rfl

/-- Rounding does not go below a power of two. -/
theorem le_rounded {k : Nat} (bits : 52 ≤ k) (large : 2 ^ k ≤ n) : 2 ^ k ≤ rounded n := by
  have hidden : hiddenBit ≤ n := by
    rw [hiddenBit_eq]
    exact Nat.le_trans (Nat.pow_le_pow_right Nat.two_pos bits) large
  have size : k ≤ Nat.log2 n := (Nat.le_log2 (ne_zero_of_large hidden)).2 large
  have quotient : hiddenBit ≤ roundQuotient n (spacing n) :=
    Nat.le_trans (hiddenBit_le_div_spacing hidden) (div_le_roundQuotient _ _)
  calc 2 ^ k ≤ 2 ^ Nat.log2 n := Nat.pow_le_pow_right Nat.two_pos size
    _ = hiddenBit * spacing n := (hiddenBit_mul_spacing hidden).symm
    _ ≤ rounded n := Nat.mul_le_mul_right _ quotient

/-- Of the integers from 2 to the power of 63 on, the next 1024 are rounded to the first. -/
theorem rounded_le_iff (large : 2 ^ 63 ≤ n) : rounded n ≤ 2 ^ 63 ↔ n ≤ 2 ^ 63 + 1024 := by
  by_cases word : n < 2 ^ 64
  · have positive : n ≠ 0 := by omega
    have bits : Nat.log2 n = 63 := (Nat.log2_eq_iff positive).2 ⟨large, word⟩
    have step : spacing n = 2048 := by simp [spacing, bits]
    rw [rounded, step]
    unfold roundQuotient
    dsimp only
    split <;> omega
  · have beyond := le_rounded (by decide) (Nat.not_lt.1 word)
    omega

end ImpHost.Double
