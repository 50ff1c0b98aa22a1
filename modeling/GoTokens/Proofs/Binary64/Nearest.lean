import GoTokens.Proofs.Binary64.Rounding

/-!
The number nearest to a rational, by comparison with all finite numbers (`IsNearest`). There is
no other such number (`IsNearest.unique`), and reading a decimal gives it
(`ofDecimal_isNearest`), also where the size of the power of ten settles the result.
-/

namespace GoTokens.Binary64

def IsFinite (x : Binary64) : Prop := x.code < infinityCode

def toRat (x : Binary64) : ℚ := if x.isNegative then -magnitude x.code else magnitude x.code

/-- Half way between the greatest number and the power of two above it. -/
def overflowAt : ℚ := (2 ^ 54 - 1) * 2 ^ 970

/-- The number that a rational that is not negative is rounded to: none of the finite numbers is
nearer, and if another is equally near, the last bit is zero. From `overflowAt` on it is
infinity. -/
structure IsNearest (x : Binary64) (q : ℚ) : Prop where
  positive : x.isNegative = false
  overflow : overflowAt ≤ q → x.isInfinite = true
  finite : q < overflowAt → x.IsFinite
  near : q < overflowAt → ∀ y : Binary64, y.IsFinite → |x.toRat - q| ≤ |y.toRat - q|
  even : q < overflowAt → ∀ y : Binary64, y.IsFinite → y.toRat ≠ x.toRat →
    |y.toRat - q| = |x.toRat - q| → x.code % 2 = 0

theorem bits_ofCode {n : Nat} (h : n < 2 ^ 63) : (ofCode n).bits.toNat = n := by
  show (UInt64.ofNat n).toNat = n
  rw [UInt64.toNat_ofNat', Nat.mod_eq_of_lt (by omega)]

theorem code_ofCode {n : Nat} (h : n < 2 ^ 63) : (ofCode n).code = n := by
  rw [code, bits_ofCode h, Nat.pow_eq, Nat.mod_eq_of_lt h]

theorem isNegative_ofCode {n : Nat} (h : n < 2 ^ 63) : (ofCode n).isNegative = false := by
  rw [isNegative, bits_ofCode h, Nat.pow_eq]
  exact decide_eq_false (by omega)

theorem toRat_of_positive {x : Binary64} (h : x.isNegative = false) :
    x.toRat = magnitude x.code := by
  rw [toRat, h, if_neg Bool.false_ne_true]

theorem toRat_ofCode {n : Nat} (h : n < 2 ^ 63) : (ofCode n).toRat = magnitude n := by
  rw [toRat_of_positive (isNegative_ofCode h), code_ofCode h]

theorem eq_ofCode {x : Binary64} (h : x.isNegative = false) : x = ofCode x.code := by
  have hbits : x.bits.toNat < 2 ^ 63 := by
    have hsign := of_decide_eq_false h
    rw [Nat.pow_eq] at hsign
    omega
  rw [code, Nat.pow_eq, Nat.mod_eq_of_lt hbits, ofCode, UInt64.ofNat_toNat]

theorem infinityCode_lt : infinityCode < 2 ^ 63 := by decide

theorem magnitude_infinity : magnitude infinityCode = 2 ^ 54 * 2 ^ 970 := by
  have hfields := magnitude_of_fields (show 2 ^ 52 ≤ 2 ^ 53 by norm_num)
    (show 2046 = 0 ∨ 2 ^ 52 ≤ 2 ^ 52 from .inr le_rfl)
  have hexponent : ((2046 : Nat) - 1074 : ℤ) = 2 + (970 : Nat) := by norm_num
  rw [hexponent, zpow_add₀ two_ne_zero, zpow_natCast] at hfields
  refine hfields.trans ?_
  rw [← mul_assoc]
  norm_num

/-- The greatest number is two units below the power of two where infinity would be, of which the
point of overflow is one unit below. -/
theorem magnitude_greatest : magnitude (infinityCode - 1) = (2 ^ 54 - 2) * 2 ^ 970 := by
  have hfields := magnitude_of_fields (show 2 ^ 53 - 1 ≤ 2 ^ 53 by norm_num)
    (show 2045 = 0 ∨ 2 ^ 52 ≤ 2 ^ 53 - 1 from .inr (by norm_num))
  have hexponent : ((2045 : Nat) - 1074 : ℤ) = 1 + (970 : Nat) := by norm_num
  rw [hexponent, zpow_add₀ two_ne_zero, zpow_natCast] at hfields
  refine hfields.trans ?_
  rw [← mul_assoc]
  norm_num

/-! ## The nearest code -/

namespace NearestCode

variable {q : ℚ} {code other : Nat}

theorem two_mul_le (h : NearestCode q code) (hlt : code < other) :
    2 * q ≤ magnitude code + magnitude other := by
  by_contra hbeyond
  have hgrows := strictMono_magnitude hlt
  have hnear := h.near other
  rw [abs_sub_comm, abs_of_nonneg (by linarith)] at hnear
  have hcloser : |magnitude other - q| < q - magnitude code :=
    abs_lt.mpr ⟨by linarith, by linarith⟩
  linarith

theorem le_two_mul (h : NearestCode q code) (hlt : other < code) :
    magnitude other + magnitude code ≤ 2 * q := by
  by_contra hbefore
  have hgrows := strictMono_magnitude hlt
  have hnear := h.near other
  rw [abs_of_nonneg (by linarith)] at hnear
  have hcloser : |magnitude other - q| < magnitude code - q :=
    abs_lt.mpr ⟨by linarith, by linarith⟩
  linarith

/-- The nearest code is a number's as long as the rational is before the point of overflow.
There the power of two is as near as the greatest number, whose code is odd. -/
theorem infinityCode_le (h : NearestCode q code) : infinityCode ≤ code ↔ overflowAt ≤ q := by
  have hgreatest := magnitude_greatest
  have hinfinity := magnitude_infinity
  unfold overflowAt
  generalize (2 : ℚ) ^ 970 = unit at *
  have hpos : 0 < infinityCode := by decide
  constructor
  · intro hcode
    have hbetween := h.le_two_mul (show infinityCode - 1 < code by omega)
    have hgrows := strictMono_magnitude.monotone hcode
    linarith
  · intro hq
    by_contra hcode
    have hbetween := h.two_mul_le (Nat.lt_of_not_le hcode)
    have hgrows := strictMono_magnitude.monotone (show code ≤ infinityCode - 1 by omega)
    have hlast : code = infinityCode - 1 := by
      refine strictMono_magnitude.injective (le_antisymm hgrows ?_)
      linarith
    have hmiddle : q = (2 ^ 54 - 1) * unit := by
      rw [hlast] at hbetween
      linarith
    have htie : |magnitude infinityCode - q| = |magnitude code - q| := by
      rw [hlast, hgreatest, hinfinity, hmiddle, ← sub_mul, ← sub_mul, ← abs_neg, ← neg_mul]
      norm_num
    have heven := h.even infinityCode (by omega) htie
    rw [hlast] at heven
    revert heven
    decide

end NearestCode

/-- A rational that is not negative is nearer to a number than to its negative. -/
theorem abs_magnitude_sub_le {q : ℚ} (hq : 0 ≤ q) (y : Binary64) :
    |magnitude y.code - q| ≤ |y.toRat - q| := by
  have hmagnitude := magnitude_nonneg y.code
  unfold toRat
  split
  · rw [← neg_add', abs_neg, abs_of_nonneg (add_nonneg hmagnitude hq)]
    exact abs_le.mpr ⟨by linarith, by linarith⟩
  · exact le_rfl

theorem NearestCode.isNearest {q : ℚ} {code : Nat} (h : NearestCode q code) (hq : 0 ≤ q) :
    (ofCode (min code infinityCode)).IsNearest q := by
  have hlt : min code infinityCode < 2 ^ 63 := (min_le_right _ _).trans_lt infinityCode_lt
  have hcode (hbelow : q < overflowAt) : code < infinityCode ∧ min code infinityCode = code := by
    have hfinite := Nat.lt_of_not_le (mt h.infinityCode_le.mp hbelow.not_ge)
    exact ⟨hfinite, Nat.min_eq_left hfinite.le⟩
  constructor
  case positive => exact isNegative_ofCode hlt
  case overflow =>
    intro hbeyond
    rw [isInfinite, code_ofCode hlt, Nat.min_eq_right (h.infinityCode_le.mpr hbeyond)]
    exact beq_self_eq_true _
  case finite =>
    intro hbelow
    obtain ⟨hfinite, hmin⟩ := hcode hbelow
    rwa [IsFinite, code_ofCode hlt, hmin]
  case near =>
    intro hbelow y _
    rw [toRat_ofCode hlt, (hcode hbelow).2]
    exact (h.near y.code).trans (abs_magnitude_sub_le hq y)
  case even =>
    intro hbelow y _ hne htie
    rw [toRat_ofCode hlt, (hcode hbelow).2] at hne htie
    rw [code_ofCode hlt, (hcode hbelow).2]
    have hother := abs_magnitude_sub_le hq y
    rw [htie] at hother
    by_cases hsame : y.code = code
    · -- The negative of a number is as near only if both are zero.
      have hnegative : y.toRat = -magnitude code := by
        unfold toRat at hne ⊢
        split at hne
        · rename_i hsign
          rw [if_pos hsign, hsame]
        · exact absurd (congrArg magnitude hsame) hne
      have hmagnitude := magnitude_nonneg code
      have hzero := h.near 0
      rw [magnitude_zero, zero_sub, abs_neg, abs_of_nonneg hq] at hzero
      rw [hnegative, ← neg_add', abs_neg, abs_of_nonneg (add_nonneg hmagnitude hq)] at htie
      rw [hnegative] at hne
      exact absurd (by linarith) hne
    · exact h.even y.code hsame (hother.antisymm (h.near y.code))

/-- Of two numbers equally near, the codes would both be even, and a number between them would
be nearer. -/
theorem IsNearest.code_le {x y : Binary64} {q : ℚ} (hx : x.IsNearest q) (hy : y.IsNearest q)
    (hbelow : q < overflowAt) : y.code ≤ x.code := by
  by_contra hle
  have hlt : x.code < y.code := Nat.lt_of_not_le hle
  have hxfinite := hx.finite hbelow
  have hyfinite : y.code < infinityCode := hy.finite hbelow
  have hgrows := strictMono_magnitude hlt
  have htie := (hx.near hbelow y hyfinite).antisymm (hy.near hbelow x hxfinite)
  have hxeven := hx.even hbelow y hyfinite
  have hyeven := hy.even hbelow x hxfinite
  rw [toRat_of_positive hx.positive, toRat_of_positive hy.positive] at htie hxeven hyeven
  have hbetween : x.code + 1 < y.code := by
    have hx2 := hxeven hgrows.ne' htie.symm
    have hy2 := hyeven hgrows.ne htie
    omega
  have hcode : x.code + 1 < 2 ^ 63 := (hbetween.trans hyfinite).trans infinityCode_lt
  have hnear := hx.near hbelow (ofCode (x.code + 1))
    (by rw [IsFinite, code_ofCode hcode]; exact hbetween.trans hyfinite)
  rw [toRat_of_positive hx.positive, toRat_ofCode hcode] at hnear
  have habove := strictMono_magnitude (Nat.lt_add_one x.code)
  have hbefore := strictMono_magnitude hbetween
  obtain heq | hmiddle := abs_eq_abs.mp htie
  · linarith
  · rw [abs_sub_comm, abs_of_nonneg (by linarith)] at hnear
    have hcloser : |magnitude (x.code + 1) - q| < q - magnitude x.code :=
      abs_lt.mpr ⟨by linarith, by linarith⟩
    linarith

theorem IsNearest.unique {x y : Binary64} {q : ℚ} (hx : x.IsNearest q) (hy : y.IsNearest q) :
    x = y := by
  rw [eq_ofCode hx.positive, eq_ofCode hy.positive]
  congr 1
  obtain hbelow | hbeyond := lt_or_ge q overflowAt
  · exact (hy.code_le hx hbelow).antisymm (hx.code_le hy hbelow)
  · exact (eq_of_beq (hx.overflow hbeyond)).trans (eq_of_beq (hy.overflow hbeyond)).symm

theorem IsNearest.isFinite_iff {x : Binary64} {q : ℚ} (h : x.IsNearest q) :
    x.IsFinite ↔ q < overflowAt := by
  refine ⟨fun hfinite => ?_, h.finite⟩
  by_contra hbeyond
  have hcode : x.code = infinityCode := eq_of_beq (h.overflow (not_lt.mp hbeyond))
  rw [IsFinite, hcode] at hfinite
  exact absurd hfinite (Nat.lt_irrefl _)

/-! ## Decimals -/

theorem isNearest_infinity {q : ℚ} (h : overflowAt ≤ q) : (ofCode infinityCode).IsNearest q where
  positive := isNegative_ofCode infinityCode_lt
  overflow _ := by
    rw [isInfinite, code_ofCode infinityCode_lt]
    exact beq_self_eq_true _
  finite hbelow := absurd h hbelow.not_ge
  near hbelow := absurd h hbelow.not_ge
  even hbelow := absurd h hbelow.not_ge

/-- Up to half of the least number, nothing is nearer than zero. -/
theorem nearestCode_tiny {q : ℚ} (hq : 0 ≤ q) (h : 2 * q ≤ magnitude 1) : NearestCode q 0 where
  near other := by
    rw [magnitude_zero, zero_sub, abs_neg, abs_of_nonneg hq]
    obtain rfl | hpos := Nat.eq_zero_or_pos other
    · rw [magnitude_zero, zero_sub, abs_neg, abs_of_nonneg hq]
    · have hleast := strictMono_magnitude.monotone (Nat.succ_le_of_lt hpos)
      rw [abs_of_nonneg (by linarith)]
      linarith
  even _ _ _ := rfl

theorem pow_two_le_pow_ten (n : Nat) : (2 : ℚ) ^ (3 * n) ≤ 10 ^ n := by
  rw [pow_mul]
  exact pow_le_pow_left₀ (by norm_num) (by norm_num) n

theorem overflowAt_le {m : Nat} (hm : 0 < m) {e : ℤ} (he : 400 < e) :
    overflowAt ≤ (m : ℚ) * 10 ^ e := by
  have hone : (1 : ℚ) ≤ m := by exact_mod_cast hm
  calc overflowAt
      ≤ 2 ^ 54 * 2 ^ 970 := mul_le_mul_of_nonneg_right (by norm_num) (by positivity)
    _ = 2 ^ 1024 := (pow_add _ _ _).symm
    _ ≤ 2 ^ (3 * 401) := pow_le_pow_right₀ one_le_two (by norm_num)
    _ ≤ 10 ^ 401 := pow_two_le_pow_ten 401
    _ = (10 : ℚ) ^ ((401 : Nat) : ℤ) := (zpow_natCast _ _).symm
    _ ≤ 10 ^ e := zpow_le_zpow_right₀ (by norm_num) (by omega)
    _ ≤ m * 10 ^ e := le_mul_of_one_le_left (by positivity) hone

theorem two_mul_le_magnitude_one {m : Nat} {e : ℤ} (he : e < -((m.log2 : ℤ) + 400)) :
    2 * ((m : ℚ) * 10 ^ e) ≤ magnitude 1 := by
  obtain ⟨n, rfl⟩ : ∃ n : Nat, e = -n := ⟨(-e).toNat, by omega⟩
  have hm : (m : ℚ) ≤ 2 ^ (m.log2 + 1) := by exact_mod_cast Nat.lt_log2_self.le
  have hpower : (10 : ℚ) ^ (-n : ℤ) ≤ (2 ^ (3 * n))⁻¹ := by
    rw [zpow_neg, zpow_natCast]
    exact inv_anti₀ (by positivity) (pow_two_le_pow_ten n)
  calc 2 * ((m : ℚ) * 10 ^ (-n : ℤ))
      ≤ 2 * (2 ^ (m.log2 + 1) * (2 ^ (3 * n))⁻¹) := by gcongr
    _ = 2 ^ (m.log2 + 2) * (2 ^ (3 * n))⁻¹ := by ring
    _ = 2 ^ (((m.log2 + 2 : Nat) : ℤ) - (3 * n : Nat)) := by
        rw [zpow_sub₀ two_ne_zero, zpow_natCast, zpow_natCast, div_eq_mul_inv]
    _ ≤ 2 ^ (-1074 : ℤ) := zpow_le_zpow_right₀ one_le_two (by omega)
    _ = magnitude 1 := by
        rw [magnitude, show parts 1 = (1, 0) from rfl]
        norm_num

/-- Reading a decimal rounds it correctly. -/
theorem ofDecimal_isNearest (m : Nat) (e : ℤ) : (ofDecimal m e).IsNearest (m * 10 ^ e) := by
  have hq : (0 : ℚ) ≤ m * 10 ^ e := by positivity
  unfold ofDecimal
  split
  · rename_i hm
    rw [hm, Nat.cast_zero, zero_mul]
    exact nearestCode_zero.isNearest le_rfl
  · rename_i hm
    split
    · rename_i hlarge
      exact isNearest_infinity (overflowAt_le (Nat.pos_of_ne_zero hm) hlarge)
    · split
      · rename_i hsmall
        exact (nearestCode_tiny hq (two_mul_le_magnitude_one hsmall)).isNearest hq
      · split
        · rename_i he
          obtain ⟨code, hnear, hcode⟩ :=
            codeOfRatio_eq_min (m * Nat.pow 10 e.toNat) (show 0 < 1 from one_pos)
          rw [Nat.cast_mul, cast_pow_toNat 10 he, Nat.cast_one, div_one] at hnear
          rw [hcode]
          exact hnear.isNearest hq
        · rename_i he
          obtain ⟨code, hnear, hcode⟩ :=
            codeOfRatio_eq_min m (show 0 < Nat.pow 10 (-e).toNat from Nat.pow_pos (by decide))
          rw [cast_pow_toNat 10 (show 0 ≤ -e by omega), zpow_neg, div_inv_eq_mul] at hnear
          rw [hcode]
          exact hnear.isNearest hq

end GoTokens.Binary64
