import GoTokens.Binary64.Text
import GoTokens.Proofs.Json.Grammar
import Mathlib.Data.Nat.Digits.Lemmas

/-!
The text of a finite number, in any style, is a number as JSON has it (`isNumber_finiteText`):
no digit is missing, and no zero stands before others. The last is what the digits of the
shortest decimal give, which are not all zero.
-/

namespace GoTokens

open Json (IsDigits IsWhole IsFraction IsExponent IsNumber)

namespace Json

theorem isDigits_toDigits (n : Nat) : IsDigits (Nat.toDigits 10 n) where
  digits _ hc := Nat.isDigit_of_mem_toDigits (by decide) le_rfl hc
  someDigit := Nat.toDigits_ne_nil

theorem isDigits_toString (n : Nat) : IsDigits (toString n).toList := by
  rw [Nat.toString_eq_ofList_toDigits, String.toList_ofList]
  exact isDigits_toDigits n

theorem head?_toDigits {n : Nat} (h : n ≠ 0) : (Nat.toDigits 10 n).head? ≠ some '0' := by
  induction n using Nat.strong_induction_on with
  | _ n ih =>
    obtain hlt | hle := Nat.lt_or_ge n 10
    · rw [Nat.toDigits_of_lt_base hlt]
      intro hzero
      exact h (Nat.digitChar_eq_zero.mp (Option.some.inj hzero))
    · rw [Nat.toDigits_of_base_le (by decide) hle, List.head?_append_of_ne_nil _ Nat.toDigits_ne_nil]
      exact ih (n / 10) (by omega) (by omega)

theorem isWhole_toDigits (n : Nat) : IsWhole (Nat.toDigits 10 n) where
  toIsDigits := isDigits_toDigits n
  noZeroBefore hzero := by
    by_cases h : n = 0
    · rw [h]
      rfl
    · exact absurd hzero (head?_toDigits h)

theorem IsDigits.append {ds es : List Char} (hds : IsDigits ds)
    (hes : ∀ c ∈ es, c.isDigit = true) : IsDigits (ds ++ es) where
  digits := List.forall_mem_append.mpr ⟨hds.digits, hes⟩
  someDigit := by simp [hds.someDigit]

theorem isDigit_of_mem_zeros {n : Nat} {c : Char} (h : c ∈ List.replicate n '0') :
    c.isDigit = true := by
  rw [List.eq_of_mem_replicate h]
  rfl

end Json

namespace Binary64

/-! ## The digits of the shortest decimal -/

theorem low_pos {code : Nat} (h : code ≠ 0) : 0 < (neighbourhood code).low := by
  have hpos : 0 < (parts code).1 := by
    unfold parts
    dsimp only
    split
    · exact Nat.pos_of_ne_zero h
    · exact Nat.add_pos_left (Nat.two_pow_pos 52) _
  unfold neighbourhood
  dsimp only
  split <;> omega

namespace Neighbourhood

variable {a : Neighbourhood}

theorem contains_zero (hlow : 0 < a.low) (hnum : 0 < a.num) (k : Int) : a.contains 0 k = false := by
  have hgt : a.compareAt a.low 0 k = .gt := by
    rw [compareAt, Nat.compare_eq_gt, Nat.zero_mul, Nat.zero_mul]
    exact Nat.mul_pos (Nat.mul_pos hlow hnum) (Nat.pow_pos (by decide))
  rw [contains, hgt]

theorem digits_pos_of_onGrid? {tie : Tie} {count : Nat} {d : Decimal} (hlow : 0 < a.low)
    (hnum : 0 < a.num) (h : a.onGrid? tie count = some d) : 0 < d.digits := by
  unfold onGrid? at h
  dsimp only at h
  generalize a.leadingExponent + 1 - count = k at h
  generalize a.middle * a.num * Nat.pow 10 (-k).toNat / (Nat.pow 10 k.toNat * a.den) = n at h
  have hpos (hn : a.contains n k = true) : 0 < n := by
    by_contra hzero
    rw [Nat.eq_zero_of_not_pos hzero, contains_zero hlow hnum] at hn
    cases hn
  split at h
  · rename_i hbelow _
    have hn := hpos hbelow
    split at h
    · cases h
      exact hn
    · cases h
      exact Nat.succ_pos n
    · cases h
      exact Nat.succ_pos n
    · cases h
      exact Nat.add_pos_left hn _
  · rename_i hbelow _
    cases h
    exact hpos hbelow
  · cases h
    exact Nat.succ_pos n
  · cases h

end Neighbourhood

/-- The digits are zero only if no decimal is found, and then there is no power of ten. -/
theorem shortest_exponent {tie : Tie} {code : Nat} (hcode : code ≠ 0)
    (h : (shortest tie code).digits = 0) : (shortest tie code).exponent = 0 := by
  unfold shortest at h ⊢
  dsimp only at h ⊢
  generalize hfound : (List.range 17).findSome?
    (fun i => (neighbourhood code).onGrid? tie (i + 1)) = found at h ⊢
  cases found with
  | none => rfl
  | some d =>
    obtain ⟨i, -, hi⟩ := List.exists_of_findSome?_eq_some hfound
    have hpos := Neighbourhood.digits_pos_of_onGrid? (low_pos hcode) (Nat.two_pow_pos _) hi
    rw [Option.getD_some] at h
    split at h
    · cases h
    · omega

/-- Digits in place, with a point or without. A zero may stand alone before the point, but not
before other digits. -/
theorem positionalText_parts (pointZero : Bool) {digits : List Char} {lead : Int}
    (hdigits : IsDigits digits) (hfirst : digits.head? = some '0' → digits = ['0'] ∧ lead ≤ 0) :
    ∃ whole fraction, positionalText pointZero digits lead = whole ++ fraction ∧ IsWhole whole ∧
      IsFraction fraction := by
  unfold positionalText
  dsimp only
  split
  · refine ⟨['0'], _, rfl, Json.isWhole_toDigits 0, .point ⟨?_, by simp [hdigits.someDigit]⟩⟩
    exact List.forall_mem_append.mpr ⟨fun _ => Json.isDigit_of_mem_zeros, hdigits.digits⟩
  · rename_i hlead
    split
    · refine ⟨_, _, rfl, ⟨hdigits.append fun _ => Json.isDigit_of_mem_zeros, ?_⟩, ?_⟩
      · intro hzero
        rw [List.head?_append_of_ne_nil _ hdigits.someDigit] at hzero
        obtain ⟨rfl, hsmall⟩ := hfirst hzero
        obtain rfl : lead = 0 := by omega
        rfl
      · split
        · exact .point ⟨List.all_eq_true.mp rfl, by simp⟩
        · exact .missing
    · rename_i hlonger
      have hsplit := List.take_append_drop (lead.toNat + 1) digits
      refine ⟨_, _, rfl, ⟨⟨?_, ?_⟩, ?_⟩, .point ⟨?_, ?_⟩⟩
      · exact fun c hc => hdigits.digits c (List.mem_of_mem_take hc)
      · rw [ne_eq, List.take_eq_nil_iff, not_or]
        exact ⟨Nat.succ_ne_zero _, hdigits.someDigit⟩
      · intro hzero
        rw [List.head?_take, if_neg (Nat.succ_ne_zero _)] at hzero
        obtain ⟨rfl, -⟩ := hfirst hzero
        exact absurd hlonger (by simp)
      · exact fun c hc => hdigits.digits c (List.mem_of_mem_drop hc)
      · rw [ne_eq, List.drop_eq_nil_iff]
        exact hlonger

theorem exponentText_parts {digits : List Char} (hdigits : IsDigits digits) (lead : Int) :
    ∃ whole fraction exponent, exponentText digits lead = whole ++ (fraction ++ exponent) ∧
      IsWhole whole ∧ IsFraction fraction ∧ IsExponent exponent := by
  have hexponent : IsExponent
      ('e' :: ([if lead < 0 then '-' else '+'] ++ Nat.toDigits 10 lead.natAbs)) := by
    refine .marked (.inl rfl) ?_ (Json.isDigits_toDigits _)
    split
    · exact .inr (.inr rfl)
    · exact .inr (.inl rfl)
  have hwhole (d : Char) (ds : List Char) (h : digits = d :: ds) : IsWhole [d] := by
    refine ⟨⟨fun c hc => ?_, List.cons_ne_nil _ _⟩, fun hzero => ?_⟩
    · rw [List.mem_singleton.mp hc]
      exact hdigits.digits d (h ▸ List.mem_cons_self ..)
    · rw [Option.some.inj hzero]
  unfold exponentText
  cases digits with
  | nil => exact absurd rfl hdigits.someDigit
  | cons d ds =>
    cases ds with
    | nil => exact ⟨[d], [], _, rfl, hwhole d _ rfl, .missing, hexponent⟩
    | cons d' ds =>
      refine ⟨[d], '.' :: d' :: ds, _, rfl, hwhole d _ rfl, .point ⟨?_, by simp⟩, hexponent⟩
      exact fun c hc => hdigits.digits c (List.mem_cons_of_mem _ hc)

/-- The text of a finite number is a number in JSON, whatever the style. -/
theorem isNumber_finiteText (style : TextStyle) (x : Binary64) :
    IsNumber (finiteText style x) := by
  unfold finiteText
  dsimp only
  generalize hminus : (if x.isNegative then ['-'] else []) = sign
  have hsign : sign = [] ∨ sign = ['-'] := by
    rw [← hminus]
    split
    · exact .inr rfl
    · exact .inl rfl
  have hplaced (digits : List Char) (lead : Int) (hdigits : IsDigits digits)
      (hfirst : digits.head? = some '0' → digits = ['0'] ∧ lead ≤ 0) :
      IsNumber (sign ++ positionalText style.pointZero digits lead) := by
    obtain ⟨whole, fraction, htext, hwhole, hfraction⟩ :=
      positionalText_parts style.pointZero hdigits hfirst
    rw [htext, ← List.append_nil fraction]
    exact .parts hsign hwhole hfraction .missing
  split
  · exact hplaced ['0'] 0 (Json.isDigits_toDigits 0) fun _ => ⟨rfl, le_rfl⟩
  · rename_i hcode
    have hdigits := Json.isDigits_toDigits (shortest style.tie x.code).digits
    split
    · refine hplaced _ _ hdigits fun hzero => ?_
      have hnone : (shortest style.tie x.code).digits = 0 := by
        by_contra hne
        exact Json.head?_toDigits hne hzero
      rw [shortest_exponent hcode hnone, hnone]
      exact ⟨rfl, le_rfl⟩
    · obtain ⟨whole, fraction, exponent, htext, hwhole, hfraction, hexponent⟩ :=
        exponentText_parts hdigits
          ((shortest style.tie x.code).exponent +
            (Nat.toDigits 10 (shortest style.tie x.code).digits).length - 1)
      rw [htext]
      exact .parts hsign hwhole hfraction hexponent

end Binary64

end GoTokens
