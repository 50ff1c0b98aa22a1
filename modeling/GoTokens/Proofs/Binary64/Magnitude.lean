import GoTokens.Binary64.Basic
import Mathlib.Algebra.Order.Field.Power
import Mathlib.Data.Rat.Cast.Order
import Mathlib.Order.Monotone.Basic
import Mathlib.Tactic.Linarith
import Mathlib.Tactic.Positivity
import Mathlib.Tactic.Ring

/-!
What the code of a floating-point number stands for, as a rational. Magnitudes grow with
their codes (`strictMono_magnitude`). Seen from the unit of the last place of one number, all
others are whole multiples of the unit, or less than the least number with that unit
(`magnitude_onGrid`).
-/

namespace GoTokens.Binary64

/-- The magnitude of a code. Those from the code of infinity on go on as if there were greater
exponents. -/
def magnitude (code : Nat) : ℚ := (parts code).1 * 2 ^ ((parts code).2 - 1074 : ℤ)

theorem unit_pos (e : ℤ) : (0 : ℚ) < 2 ^ e := by positivity

/-- A code is an exponent field and a fraction with its leading bit. -/
theorem parts_cases (code : Nat) :
    ∃ f m, parts code = (m, f) ∧ code = f * 2 ^ 52 + m ∧ m < 2 ^ 53 ∧ (f = 0 ∨ 2 ^ 52 ≤ m) := by
  by_cases h : code < 2 ^ 52
  · have hparts : parts code = (code, 0) := if_pos h
    exact ⟨0, code, hparts, by omega, by omega, .inl rfl⟩
  · have hparts : parts code = (2 ^ 52 + code % 2 ^ 52, code / 2 ^ 52 - 1) := if_neg h
    exact ⟨_, _, hparts, by omega, by omega, .inr (by omega)⟩

/-- The same fields with a carry out of the fraction. -/
theorem magnitude_of_fields {f m : Nat} (hm : m ≤ 2 ^ 53) (hlead : f = 0 ∨ 2 ^ 52 ≤ m) :
    magnitude (f * 2 ^ 52 + m) = m * 2 ^ (f - 1074 : ℤ) := by
  obtain ⟨f', m', hparts, hcode, hm', hlead'⟩ := parts_cases (f * 2 ^ 52 + m)
  rw [magnitude, hparts]
  by_cases hcarry : m = 2 ^ 53
  · obtain ⟨rfl, rfl⟩ : f' = f + 1 ∧ m' = 2 ^ 52 := by omega
    have hexponent : ((f + 1 : Nat) - 1074 : ℤ) = 1 + (f - 1074) := by push_cast; ring
    rw [hcarry, hexponent, zpow_add₀ two_ne_zero, zpow_one]
    push_cast
    ring
  · obtain ⟨rfl, rfl⟩ : f' = f ∧ m' = m := by omega
    rfl

theorem strictMono_magnitude : StrictMono magnitude := by
  refine strictMono_nat_of_lt_succ fun code => ?_
  obtain ⟨f, m, hparts, hcode, hm, hlead⟩ := parts_cases code
  have hnext : magnitude (code + 1) = (m + 1 : Nat) * 2 ^ (f - 1074 : ℤ) := by
    rw [hcode, Nat.add_assoc]
    exact magnitude_of_fields (by omega) (by omega)
  rw [hnext, magnitude, hparts]
  exact mul_lt_mul_of_pos_right (by exact_mod_cast Nat.lt_succ_self m) (unit_pos _)

theorem magnitude_zero : magnitude 0 = 0 := by
  simp [magnitude, parts]

theorem magnitude_nonneg (code : Nat) : 0 ≤ magnitude code := by
  rw [← magnitude_zero]
  exact strictMono_magnitude.monotone (Nat.zero_le code)

/-- Every magnitude is a multiple of a unit, or less than the least number with that unit. -/
theorem magnitude_onGrid (f code : Nat) :
    (∃ j : Nat, magnitude code = j * 2 ^ (f - 1074 : ℤ)) ∨
      0 < f ∧ magnitude code < 2 ^ 52 * 2 ^ (f - 1074 : ℤ) := by
  obtain ⟨f', m, hparts, -, hm, -⟩ := parts_cases code
  rw [magnitude, hparts]
  by_cases hf : f ≤ f'
  · left
    refine ⟨m * 2 ^ (f' - f), ?_⟩
    have hexponent : (f' - 1074 : ℤ) = ((f' - f : Nat) : ℤ) + (f - 1074) := by omega
    show (m : ℚ) * 2 ^ (f' - 1074 : ℤ) = _
    rw [hexponent, zpow_add₀ two_ne_zero, zpow_natCast]
    push_cast
    ring
  · right
    refine ⟨by omega, ?_⟩
    have hfraction : (m : ℚ) < 2 ^ 53 := by exact_mod_cast hm
    have hexponent : (f - 1074 : ℤ) = 1 + (f - 1 - 1074) := by ring
    calc (m : ℚ) * 2 ^ (f' - 1074 : ℤ)
        < 2 ^ 53 * 2 ^ (f' - 1074 : ℤ) := mul_lt_mul_of_pos_right hfraction (unit_pos _)
      _ ≤ 2 ^ 53 * 2 ^ (f - 1 - 1074 : ℤ) := by
          refine mul_le_mul_of_nonneg_left (zpow_le_zpow_right₀ (by norm_num) ?_) (by positivity)
          omega
      _ = 2 ^ 52 * 2 ^ (f - 1074 : ℤ) := by
          rw [hexponent, zpow_add₀ two_ne_zero, zpow_one]
          ring

end GoTokens.Binary64
