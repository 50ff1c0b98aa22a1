import GoTokens.Proofs.Binary64.Magnitude
import Mathlib.Algebra.Order.Field.Basic
import Mathlib.Data.Nat.Cast.Order.Field
import Mathlib.Tactic.FieldSimp

/-!
Rounding a quotient. Rounding it to a whole number in the unit of the last place finds the code of
the nearest magnitude, since the magnitudes between two powers of two are the multiples of one unit
(`NearestCode.of_roundsTo`). The unit is that of the power of two at or below the quotient
(`floorLog2_spec`), so the code that is computed is the nearest, up to that of infinity
(`codeOfRatio_eq_min`).
-/

namespace GoTokens.Binary64

/-- A whole number is nearest to a rational, and even if it is half way to the next. -/
structure RoundsTo (t : ℚ) (m : Nat) : Prop where
  near : |(m : ℚ) - t| ≤ 1 / 2
  even : |(m : ℚ) - t| = 1 / 2 → m % 2 = 0

theorem roundHalfEven_roundsTo (num : Nat) {den : Nat} (hden : 0 < den) :
    RoundsTo (num / den) (roundHalfEven num den) := by
  have hden' : (0 : ℚ) < den := by exact_mod_cast hden
  have hquotient : (num : ℚ) / den = (num / den : Nat) + (num % den : Nat) / den := by
    rw [div_eq_iff hden'.ne', add_mul, div_mul_cancel₀ _ hden'.ne']
    exact_mod_cast (Nat.div_add_mod' num den).symm
  rw [hquotient]
  unfold roundHalfEven
  have hrem : num % den < den := Nat.mod_lt _ hden
  generalize num / den = q at *
  generalize num % den = r at *
  -- The distance is the remainder or what it leaves to a whole unit.
  have hdown : |(q : ℚ) - (q + r / den)| = r / den := by
    have hpos : (0 : ℚ) ≤ r / den := by positivity
    rw [sub_add_cancel_left, abs_neg, abs_of_nonneg hpos]
  have hup : |((q + 1 : Nat) : ℚ) - (q + r / den)| = 1 - r / den := by
    have hone : (r : ℚ) / den < 1 := (div_lt_one hden').mpr (by exact_mod_cast hrem)
    rw [Nat.cast_succ, add_sub_add_left_eq_sub, abs_of_pos (by linarith)]
  dsimp only
  split
  · rename_i hlow
    have hhalf : (r : ℚ) / den < 1 / 2 := by
      rw [div_lt_iff₀ hden']
      have hlow' : (2 * r : ℚ) < den := by exact_mod_cast hlow
      linarith
    exact ⟨hdown.trans_le hhalf.le, fun h => absurd (hdown.symm.trans h) hhalf.ne⟩
  · split
    · rename_i hhigh
      have hhalf : 1 / 2 < (r : ℚ) / den := by
        rw [lt_div_iff₀ hden']
        have hhigh' : (den : ℚ) < 2 * r := by exact_mod_cast hhigh
        linarith
      exact ⟨by rw [hup]; linarith, fun h => by rw [hup] at h; linarith⟩
    · have hmiddle : (r : ℚ) / den = 1 / 2 := by
        have htwice : (2 * r : ℚ) = den := by exact_mod_cast (show 2 * r = den by omega)
        rw [div_eq_iff hden'.ne']
        linarith
      refine ⟨?_, fun _ => by omega⟩
      obtain hq | hq := Nat.mod_two_eq_zero_or_one q
      · rw [hq, Nat.add_zero, hdown, hmiddle]
      · rw [hq, hup, hmiddle]
        norm_num

namespace RoundsTo

variable {t : ℚ} {m : Nat}

theorem half_le (h : RoundsTo t m) {j : Nat} (hj : j ≠ m) : 1 / 2 ≤ |(j : ℚ) - t| := by
  have hapart : (1 : ℚ) ≤ |(j : ℚ) - m| := by
    have hne : (j : ℤ) - m ≠ 0 := by omega
    exact_mod_cast Int.one_le_abs hne
  have htriangle := abs_sub_le (j : ℚ) t m
  rw [abs_sub_comm t] at htriangle
  linarith [h.near]

theorem nearest (h : RoundsTo t m) (j : Nat) : |(m : ℚ) - t| ≤ |(j : ℚ) - t| := by
  by_cases hj : j = m
  · rw [hj]
  · exact h.near.trans (h.half_le hj)

theorem even_of_tie (h : RoundsTo t m) {j : Nat} (hj : j ≠ m)
    (htie : |(j : ℚ) - t| = |(m : ℚ) - t|) : m % 2 = 0 := by
  have hhalf := h.half_le hj
  rw [htie] at hhalf
  exact h.even (h.near.antisymm hhalf)

theorem le_of_lt (h : RoundsTo t m) {k : Nat} (hk : t < k) : m ≤ k := by
  have hnear := (abs_le.mp h.near).2
  have hlt : (m : ℚ) < (k + 1 : Nat) := by push_cast; linarith
  exact Nat.lt_succ_iff.mp (by exact_mod_cast hlt)

theorem ge_of_le (h : RoundsTo t m) {k : Nat} (hk : (k : ℚ) ≤ t) : k ≤ m := by
  have hnear := (abs_le.mp h.near).1
  have hlt : (k : ℚ) < (m + 1 : Nat) := by push_cast; linarith
  exact Nat.lt_succ_iff.mp (by exact_mod_cast hlt)

end RoundsTo

/-! ## Codes -/

/-- No code is nearer to a rational, and another as near only to an even code. -/
structure NearestCode (q : ℚ) (code : Nat) : Prop where
  near : ∀ other, |magnitude code - q| ≤ |magnitude other - q|
  even : ∀ other ≠ code, |magnitude other - q| = |magnitude code - q| → code % 2 = 0

theorem abs_units_sub (j t : ℚ) (e : ℤ) :
    |j * 2 ^ e - t * 2 ^ e| = |j - t| * 2 ^ e := by
  rw [← sub_mul, abs_mul, abs_of_pos (unit_pos e)]

/-- Rounding in the unit of an exponent to which the rational belongs finds the nearest code:
the other magnitudes are multiples of the unit, or less than all numbers of the exponent. -/
theorem NearestCode.of_roundsTo {t : ℚ} {f m : Nat} (hm : RoundsTo t m)
    (hlead : f = 0 ∨ 2 ^ 52 ≤ t) (hmax : t < 2 ^ 53) :
    NearestCode (t * 2 ^ (f - 1074 : ℤ)) (f * 2 ^ 52 + m) := by
  have hlead' : f = 0 ∨ 2 ^ 52 ≤ m := hlead.imp_right fun h => hm.ge_of_le (by exact_mod_cast h)
  have hcode := magnitude_of_fields (hm.le_of_lt (by exact_mod_cast hmax)) hlead'
  have hbelow (x : ℚ) (hf : 0 < f) (hx : x < 2 ^ 52 * 2 ^ (f - 1074 : ℤ)) :
      |magnitude (f * 2 ^ 52 + m) - t * 2 ^ (f - 1074 : ℤ)| < |x - t * 2 ^ (f - 1074 : ℤ)| := by
    have ht : (2 : ℚ) ^ 52 ≤ t := hlead.resolve_left hf.ne'
    have hpower := mul_le_mul_of_nonneg_right ht (unit_pos (f - 1074)).le
    have hleast : |(m : ℚ) - t| ≤ t - 2 ^ 52 := by
      have hnear := hm.nearest (2 ^ 52)
      rwa [Nat.cast_pow, Nat.cast_ofNat, abs_sub_comm (2 ^ 52 : ℚ),
        abs_of_nonneg (sub_nonneg.mpr ht)] at hnear
    have hfar : |x - t * 2 ^ (f - 1074 : ℤ)| = t * 2 ^ (f - 1074 : ℤ) - x := by
      rw [abs_sub_comm, abs_of_pos (by linarith)]
    rw [hcode, abs_units_sub, hfar]
    calc |(m : ℚ) - t| * 2 ^ (f - 1074 : ℤ)
        ≤ (t - 2 ^ 52) * 2 ^ (f - 1074 : ℤ) :=
          mul_le_mul_of_nonneg_right hleast (unit_pos _).le
      _ < t * 2 ^ (f - 1074 : ℤ) - x := by rw [sub_mul]; linarith
  constructor
  · intro other
    obtain ⟨j, hj⟩ | ⟨hf, hlt⟩ := magnitude_onGrid f other
    · rw [hcode, hj, abs_units_sub, abs_units_sub]
      exact mul_le_mul_of_nonneg_right (hm.nearest j) (unit_pos _).le
    · exact (hbelow _ hf hlt).le
  · intro other hother htie
    obtain ⟨j, hj⟩ | ⟨hf, hlt⟩ := magnitude_onGrid f other
    · rw [hcode, hj, abs_units_sub, abs_units_sub] at htie
      have hne : j ≠ m := by
        rintro rfl
        exact hother (strictMono_magnitude.injective (hj.trans hcode.symm))
      have heven := hm.even_of_tie hne (mul_right_cancel₀ (unit_pos _).ne' htie)
      omega
    · exact absurd htie (hbelow _ hf hlt).ne'

theorem nearestCode_zero : NearestCode 0 0 where
  near other := by
    rw [magnitude_zero, sub_zero, abs_zero]
    exact abs_nonneg _
  even _ _ _ := rfl

/-! ## Quotients -/

theorem cast_pow_toNat (base : Nat) {e : ℤ} (he : 0 ≤ e) :
    ((Nat.pow base e.toNat : Nat) : ℚ) = (base : ℚ) ^ e := by
  rw [Nat.pow_eq, Nat.cast_pow, ← zpow_natCast, Int.toNat_of_nonneg he]

theorem pow_le_quotient (num : Nat) {den : Nat} (hden : 0 < den) (k : ℤ) :
    (if 0 ≤ k then decide (den * Nat.pow 2 k.toNat ≤ num)
      else decide (den ≤ num * Nat.pow 2 (-k).toNat)) = decide ((2 : ℚ) ^ k ≤ num / den) := by
  have hden' : (0 : ℚ) < den := by exact_mod_cast hden
  rw [eq_comm, ← Nat.cast_two]
  split
  · rename_i hk
    rw [decide_eq_decide, le_div_iff₀ hden', ← cast_pow_toNat 2 hk, mul_comm]
    norm_cast
  · rename_i hk
    have hpower := cast_pow_toNat 2 (show 0 ≤ -k by omega)
    rw [zpow_neg] at hpower
    rw [decide_eq_decide, le_div_iff₀ hden', ← le_inv_mul_iff₀ (by positivity), ← hpower, mul_comm]
    norm_cast

theorem floorLog2_spec {num den : Nat} (hnum : 0 < num) (hden : 0 < den) :
    (2 : ℚ) ^ floorLog2 num den ≤ num / den ∧ (num / den : ℚ) < 2 ^ (floorLog2 num den + 1) := by
  have hden' : (0 : ℚ) < den := by exact_mod_cast hden
  have hlow : (2 : ℚ) ^ ((num.log2 : ℤ) - den.log2 - 1) ≤ num / den := by
    have hupper : (den : ℚ) ≤ 2 ^ ((den.log2 : ℤ) + 1) := by exact_mod_cast Nat.lt_log2_self.le
    rw [le_div_iff₀ hden']
    calc (2 : ℚ) ^ ((num.log2 : ℤ) - den.log2 - 1) * den
        ≤ 2 ^ ((num.log2 : ℤ) - den.log2 - 1) * 2 ^ ((den.log2 : ℤ) + 1) :=
          mul_le_mul_of_nonneg_left hupper (unit_pos _).le
      _ = 2 ^ (num.log2 : ℤ) := by rw [← zpow_add₀ two_ne_zero]; congr 1; ring
      _ ≤ num := by exact_mod_cast Nat.log2_self_le hnum.ne'
  have hhigh : (num / den : ℚ) < 2 ^ ((num.log2 : ℤ) - den.log2 + 1) := by
    have hlower : (2 : ℚ) ^ (den.log2 : ℤ) ≤ den := by exact_mod_cast Nat.log2_self_le hden.ne'
    rw [div_lt_iff₀ hden']
    calc (num : ℚ)
        < 2 ^ ((num.log2 : ℤ) + 1) := by exact_mod_cast Nat.lt_log2_self
      _ = 2 ^ ((num.log2 : ℤ) - den.log2 + 1) * 2 ^ (den.log2 : ℤ) := by
          rw [← zpow_add₀ two_ne_zero]; congr 1; ring
      _ ≤ 2 ^ ((num.log2 : ℤ) - den.log2 + 1) * den :=
          mul_le_mul_of_nonneg_left hlower (unit_pos _).le
  unfold floorLog2
  simp only [pow_le_quotient num hden, decide_eq_true_eq]
  split
  · rename_i hreached
    exact ⟨hreached, hhigh⟩
  · rename_i hreached
    rw [sub_add_cancel]
    exact ⟨hlow, lt_of_not_ge hreached⟩

/-- A quotient is rounded in the unit of an exponent by scaling one of its terms. -/
theorem roundsTo_scaled (num : Nat) {den : Nat} (hden : 0 < den) (e : ℤ) :
    RoundsTo (num / den / 2 ^ e)
      (if 0 ≤ e then roundHalfEven num (den * Nat.pow 2 e.toNat)
        else roundHalfEven (num * Nat.pow 2 (-e).toNat) den) := by
  split
  · rename_i he
    have hpos : 0 < den * Nat.pow 2 e.toNat := Nat.mul_pos hden (Nat.two_pow_pos _)
    have hscaled := roundHalfEven_roundsTo num hpos
    rwa [Nat.cast_mul, cast_pow_toNat 2 he, Nat.cast_two, ← div_div] at hscaled
  · rename_i he
    have hscaled := roundHalfEven_roundsTo (num * Nat.pow 2 (-e).toNat) hden
    rwa [Nat.cast_mul, cast_pow_toNat 2 (show 0 ≤ -e by omega), Nat.cast_two, zpow_neg,
      ← div_eq_mul_inv, div_right_comm] at hscaled

/-- The code that is computed for a quotient is the nearest, up to that of infinity. -/
theorem codeOfRatio_eq_min (num : Nat) {den : Nat} (hden : 0 < den) :
    ∃ code, NearestCode (num / den) code ∧ codeOfRatio num den = min code infinityCode := by
  unfold codeOfRatio
  split
  · rename_i hnum
    refine ⟨0, ?_, (Nat.zero_min _).symm⟩
    rw [hnum, Nat.cast_zero, zero_div]
    exact nearestCode_zero
  · rename_i hnum
    obtain ⟨hlow, hhigh⟩ := floorLog2_spec (Nat.pos_of_ne_zero hnum) hden
    refine ⟨_, ?_, rfl⟩
    have hround := roundsTo_scaled num hden (max (floorLog2 num den - 52) (-1074))
    generalize hexp : max (floorLog2 num den - 52) (-1074) = e at hround ⊢
    have hfield : (((e + 1074).toNat : ℤ) - 1074) = e := by omega
    have hquotient : (num / den : ℚ) = num / den / 2 ^ e * 2 ^ e :=
      (div_mul_cancel₀ _ (unit_pos e).ne').symm
    have hlead : (e + 1074).toNat = 0 ∨ 2 ^ 52 ≤ (num / den / 2 ^ e : ℚ) := by
      obtain hsmall | hlarge := le_total (floorLog2 num den - 52) (-1074)
      · left; omega
      · right
        have hfloor : floorLog2 num den = 52 + e := by omega
        rw [hfloor, zpow_add₀ two_ne_zero] at hlow
        rw [le_div_iff₀ (unit_pos e)]
        exact_mod_cast hlow
    have hmax : (num / den / 2 ^ e : ℚ) < 2 ^ 53 := by
      rw [div_lt_iff₀ (unit_pos e)]
      calc (num / den : ℚ)
          < 2 ^ (floorLog2 num den + 1) := hhigh
        _ ≤ 2 ^ ((53 : ℤ) + e) := zpow_le_zpow_right₀ one_le_two (by omega)
        _ = 2 ^ 53 * 2 ^ e := by rw [zpow_add₀ two_ne_zero]; norm_cast
    have hnearest := NearestCode.of_roundsTo hround hlead hmax
    rwa [hfield, ← hquotient] at hnearest

end GoTokens.Binary64
