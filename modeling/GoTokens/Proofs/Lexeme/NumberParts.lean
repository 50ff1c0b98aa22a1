import GoTokens.Proofs.Binary64.Nearest
import GoTokens.Proofs.Lexeme.Number
import Mathlib.Data.Nat.Digits.Defs

/-!
Numbers by their parts. What belongs to a number at the front of a text is told by longest runs
of digits and the characters between them (`NumberAt`), whether it has a value and which one by
the positional values of the runs (`Valid`, `Denotes`). Reading finds these parts
(`numberAt_iff`) and this value (`NumberAt.value?_spec`).
-/

namespace GoTokens

open Lookahead

namespace Numeral

/-- The value of digits by their positions, the most significant first. -/
def positional (base : Nat) (digits : List Char) : Nat :=
  Nat.ofDigits base (digits.map fun c => (digitValue? c).getD 0).reverse

theorem positional_append (base : Nat) (as bs : List Char) :
    positional base (as ++ bs) = positional base as * base ^ bs.length + positional base bs := by
  rw [positional, List.map_append, List.reverse_append, Nat.ofDigits_append, List.length_reverse,
    List.length_map, Nat.mul_comm, Nat.add_comm]
  rfl

theorem valueOf_eq (base : Nat) (digits : List Char) :
    valueOf base digits = positional base digits := by
  induction digits using List.reverseRecOn with
  | nil => rfl
  | append_singleton digits c ih =>
    rw [positional_append, ← ih, valueOf, List.foldl_append]
    simp [positional, valueOf]

theorem digitValue?_digitChar {d : Nat} (h : d < 16) :
    digitValue? (Nat.digitChar d) = some d := by
  have hall : ∀ d : Fin 16, digitValue? (Nat.digitChar d) = some d.val := by decide +kernel
  exact hall ⟨d, h⟩

theorem positional_toDigits (n : Nat) : positional 10 (Nat.toDigits 10 n) = n := by
  have hdigit {d : Nat} (hd : d < 10) : positional 10 [Nat.digitChar d] = d := by
    simp [positional, digitValue?_digitChar (by omega : d < 16)]
  induction n using Nat.strong_induction_on with
  | _ n ih =>
    obtain hlt | hle := Nat.lt_or_ge n 10
    · rw [Nat.toDigits_of_lt_base hlt, hdigit hlt]
    · rw [Nat.toDigits_of_base_le (by decide) hle, positional_append, ih (n / 10) (by omega),
        hdigit (Nat.mod_lt n (by decide)), List.length_singleton, pow_one]
      exact Nat.div_add_mod' n 10

theorem valueBelow?_eq_some {base limit n : Nat} {digits : List Char} :
    valueBelow? base limit digits = some n ↔
      digits ≠ [] ∧ (∀ c ∈ digits, isDigitOf base c = true) ∧ positional base digits < limit ∧
        positional base digits = n := by
  unfold valueBelow?
  dsimp only
  rw [valueOf_eq]
  constructor
  · intro h
    split at h
    · cases h
    · rename_i hdigits
      split at h
      · rename_i hlimit
        simp only [Bool.or_eq_true, List.isEmpty_iff, Bool.not_eq_true', not_or,
          Bool.not_eq_false, List.all_eq_true] at hdigits
        exact ⟨hdigits.1, hdigits.2, hlimit, Option.some.inj h⟩
      · cases h
  · rintro ⟨hne, hall, hlimit, rfl⟩
    rw [if_neg (by simp [hne, List.all_eq_true.mpr hall]), if_pos hlimit]

theorem isDigitOf_ten {c : Char} (h : c.isDigit = true) : isDigitOf 10 c = true := by
  have hbounds : '0' ≤ c ∧ c ≤ '9' := by
    simp only [Char.isDigit, ge_iff_le, Bool.and_eq_true, decide_eq_true_eq] at h
    exact h
  have hnine : c.toNat ≤ 57 := hbounds.2
  rw [isDigitOf, digitValue?, if_pos hbounds, Option.any_some, decide_eq_true_iff]
  show c.toNat - 48 < 10
  omega

end Numeral

/-! ## Parts -/

/-- A run of characters at the front of a text that cannot be longer, and what it leaves. -/
structure LongestRun (p : Char → Bool) (cs run rest : List Char) : Prop where
  split : cs = run ++ rest
  all : ∀ c ∈ run, p c = true
  stops : ∀ c, rest.head? = some c → p c = false

theorem longestRun_iff {p : Char → Bool} {cs run rest : List Char} :
    LongestRun p cs run rest ↔ run = cs.takeWhile p ∧ cs = run ++ rest := by
  constructor
  · rintro ⟨rfl, hall, hstops⟩
    exact ⟨(takeWhile_append_eq.mpr ⟨hall, hstops⟩).symm, rfl⟩
  · rintro ⟨hrun, rfl⟩
    obtain ⟨hall, hstops⟩ := takeWhile_append_eq.mp hrun.symm
    exact ⟨rfl, hall, hstops⟩

def Radix.letters : Radix → List Char
  | binary => ['b', 'B']
  | octal => ['o', 'O']
  | hexadecimal => ['x', 'X']

/-- A fraction at the front of a text: a point and digits, or none without a point. -/
inductive FractionAt : List Char → Option (List Char) → List Char → Prop
  | missing {cs : List Char} : cs.head? ≠ some '.' → FractionAt cs none cs
  | point {cs digits rest : List Char} : LongestRun Char.isDigit cs digits rest →
      FractionAt ('.' :: cs) (some digits) rest

inductive SignAt : List Char → Option Char → List Char → Prop
  | missing {cs : List Char} : cs.head? ≠ some '+' → cs.head? ≠ some '-' → SignAt cs none cs
  | plus {cs : List Char} : SignAt ('+' :: cs) (some '+') cs
  | minus {cs : List Char} : SignAt ('-' :: cs) (some '-') cs

/-- An exponent at the front of a text: its letter, a sign and digits, or none without the
letter. -/
inductive ExponentAt : List Char → Option Exponent → List Char → Prop
  | missing {cs : List Char} : cs.head? ≠ some 'e' → cs.head? ≠ some 'E' → ExponentAt cs none cs
  | marked {mark : Char} {cs after digits rest : List Char} {sign : Option Char} :
      mark = 'e' ∨ mark = 'E' → SignAt cs sign after → LongestRun Char.isDigit after digits rest →
      ExponentAt (mark :: cs) (some ⟨mark, sign, digits⟩) rest

/-- A number at the front of a text, and what it leaves. -/
inductive NumberAt : List Char → NumberShape → List Char → Prop
  | based {radix : Radix} {letter : Char} {cs digits rest : List Char} :
      letter ∈ radix.letters → LongestRun radix.takes cs digits rest →
      NumberAt ('0' :: letter :: cs) (.based radix letter digits) rest
  | decimal {cs whole afterWhole afterFraction rest : List Char} {fraction : Option (List Char)}
      {exponent : Option Exponent} :
      (∀ radix, ∀ letter ∈ Radix.letters radix, ¬ ['0', letter] <+: cs) →
      LongestRun Char.isDigit cs whole afterWhole → FractionAt afterWhole fraction afterFraction →
      ExponentAt afterFraction exponent rest → NumberAt cs (.decimal whole fraction exponent) rest

/-- What two readers find one after the other, the first finds at the front and the second in
what that leaves. -/
theorem andThen_iff {α β : Type} {first : List Char → α} {second : List Char → β}
    {text₁ : α → List Char} {text₂ : β → List Char} {a : α} {b : β} {cs rest : List Char} :
    (a, b) = andThen first text₁ second cs ∧ cs = text₁ a ++ (text₂ b ++ rest) ↔
      ∃ after, (a = first cs ∧ cs = text₁ a ++ after) ∧
        (b = second after ∧ after = text₂ b ++ rest) := by
  constructor
  · rintro ⟨hread, hcs⟩
    obtain ⟨ha, hb⟩ := Prod.mk.inj hread
    rw [← ha, hcs, List.drop_left] at hb
    exact ⟨_, ⟨ha, hcs⟩, hb, rfl⟩
  · rintro ⟨after, ⟨ha, hcs⟩, hb, hafter⟩
    have hdrop : cs.drop (text₁ (first cs)).length = after := by
      rw [← ha, hcs, List.drop_left]
    rw [andThen, hdrop, ← ha, ← hb, ← hafter]
    exact ⟨rfl, hcs⟩

theorem Radix.ofLetter?_eq_some {radix : Radix} {letter : Char} :
    ofLetter? letter = some radix ↔ letter ∈ radix.letters := by
  constructor
  · intro h
    unfold ofLetter? at h
    split at h
    · cases h
      simpa [letters]
    · split at h
      · cases h
        simpa [letters]
      · split at h
        · cases h
          simpa [letters]
        · cases h
  · intro h
    cases radix <;> obtain rfl | rfl := List.mem_pair.mp h <;> rfl

theorem fractionAt_iff {cs rest : List Char} {fraction : Option (List Char)} :
    FractionAt cs fraction rest ↔ fraction = NumberShape.fraction? cs ∧
      cs = NumberShape.fractionText fraction ++ rest := by
  constructor
  · intro h
    cases h with
    | missing hpoint =>
      refine ⟨(NumberShape.fraction?_eq_none.mpr fun d hd => ?_).symm, rfl⟩
      rintro rfl
      exact hpoint hd
    | point hrun =>
      obtain ⟨hdigits, hsplit⟩ := longestRun_iff.mp hrun
      exact ⟨congrArg some hdigits, congrArg ('.' :: ·) hsplit⟩
  · rintro ⟨hfraction, hcs⟩
    cases fraction with
    | none =>
      obtain rfl : cs = rest := hcs
      exact .missing fun hd => NumberShape.fraction?_eq_none.mp hfraction.symm _ hd rfl
    | some digits =>
      obtain rfl : cs = '.' :: (digits ++ rest) := hcs
      exact .point (longestRun_iff.mpr ⟨Option.some.inj hfraction, rfl⟩)

theorem signAt_iff {cs rest : List Char} {sign : Option Char} :
    SignAt cs sign rest ↔ sign = Exponent.sign? cs ∧ cs = sign.toList ++ rest := by
  constructor
  · intro h
    cases h with
    | missing hplus hminus =>
      refine ⟨(Exponent.sign?_eq_none.mpr fun d hd => ?_).symm, rfl⟩
      rintro (rfl | rfl)
      · exact hplus hd
      · exact hminus hd
    | plus => exact ⟨rfl, rfl⟩
    | minus => exact ⟨rfl, rfl⟩
  · rintro ⟨hsign, hcs⟩
    cases sign with
    | none =>
      obtain rfl : cs = rest := hcs
      have hnone := Exponent.sign?_eq_none.mp hsign.symm
      exact .missing (fun hd => hnone _ hd (.inl rfl)) fun hd => hnone _ hd (.inr rfl)
    | some c =>
      obtain rfl : cs = c :: rest := hcs
      have hc : c = '+' ∨ c = '-' := by
        by_contra hc
        simp [Exponent.sign?, hc] at hsign
      obtain rfl | rfl := hc
      · exact .plus
      · exact .minus

theorem exponentAt_iff {cs rest : List Char} {exponent : Option Exponent} :
    ExponentAt cs exponent rest ↔ exponent = Exponent.atFront? cs ∧
      cs = Exponent.optionText exponent ++ rest := by
  constructor
  · intro h
    cases h with
    | missing hlower hupper =>
      refine ⟨(Exponent.atFront?_eq_none.mpr fun d hd => ?_).symm, rfl⟩
      rintro (rfl | rfl)
      · exact hlower hd
      · exact hupper hd
    | @marked mark cs after digits rest sign hmark hsign hrun =>
      have hdigits : digits = after.takeWhile Char.isDigit ∧ after = id digits ++ rest :=
        longestRun_iff.mp hrun
      obtain ⟨htail, hcs⟩ := andThen_iff.mpr ⟨after, signAt_iff.mp hsign, hdigits⟩
      have htail' : Exponent.tail cs = (sign, digits) := htail.symm
      rw [Exponent.atFront?_cons, if_pos hmark, htail', hcs]
      exact ⟨rfl, by simp [Exponent.optionText, Exponent.text]⟩
  · rintro ⟨hexponent, hcs⟩
    cases exponent with
    | none =>
      obtain rfl : cs = rest := hcs
      have hnone := Exponent.atFront?_eq_none.mp hexponent.symm
      exact .missing (fun hd => hnone _ hd (.inl rfl)) fun hd => hnone _ hd (.inr rfl)
    | some e =>
      obtain ⟨mark, sign, digits⟩ := e
      have hcs' : cs = mark :: (sign.toList ++ (digits ++ rest)) := by
        simpa [Exponent.optionText, Exponent.text] using hcs
      rw [hcs', Exponent.atFront?_cons] at hexponent
      split at hexponent
      · rename_i hmark
        obtain ⟨-, hsign, hdigits⟩ := Exponent.mk.inj (Option.some.inj hexponent)
        obtain ⟨after, hsignAt, hrun⟩ :=
          andThen_iff.mp ⟨Prod.ext hsign hdigits, (rfl : _ = sign.toList ++ (id digits ++ rest))⟩
        rw [hcs']
        exact .marked hmark (signAt_iff.mpr hsignAt) (longestRun_iff.mpr hrun)
      · cases hexponent

theorem decimalParts_iff {cs rest whole : List Char} {fraction : Option (List Char)}
    {exponent : Option Exponent} :
    (whole, fraction, exponent) = NumberShape.decimalParts cs ∧
        cs = (NumberShape.decimal whole fraction exponent).text ++ rest ↔
      ∃ afterWhole afterFraction, LongestRun Char.isDigit cs whole afterWhole ∧
        FractionAt afterWhole fraction afterFraction ∧
        ExponentAt afterFraction exponent rest := by
  have houter := @andThen_iff _ _ (List.takeWhile Char.isDigit)
    (andThen NumberShape.fraction? NumberShape.fractionText Exponent.atFront?) id
    (fun r => NumberShape.fractionText r.1 ++ Exponent.optionText r.2) whole (fraction, exponent)
    cs rest
  simp only [longestRun_iff, fractionAt_iff, exponentAt_iff, NumberShape.text_decimal]
  rw [List.append_assoc]
  constructor
  · intro h
    obtain ⟨afterWhole, hwhole, hlast, hafter⟩ := houter.mp h
    rw [List.append_assoc] at hafter
    obtain ⟨afterFraction, hfraction, hexponent⟩ := andThen_iff.mp ⟨hlast, hafter⟩
    exact ⟨afterWhole, afterFraction, hwhole, hfraction, hexponent⟩
  · rintro ⟨afterWhole, afterFraction, hwhole, hfraction, hexponent⟩
    obtain ⟨hlast, hafter⟩ := andThen_iff.mpr ⟨afterFraction, hfraction, hexponent⟩
    rw [← List.append_assoc] at hafter
    exact houter.mpr ⟨afterWhole, hwhole, hlast, hafter⟩

/-- The number at the front of a text is the one that is read there. -/
theorem numberAt_iff {cs rest : List Char} {shape : NumberShape} :
    NumberAt cs shape rest ↔ shape = NumberShape.atFront cs ∧ cs = shape.text ++ rest := by
  rw [NumberShape.atFront_eq]
  constructor
  · intro h
    cases h with
    | @based radix letter cs digits rest hletter hrun =>
      obtain ⟨hdigits, hsplit⟩ := longestRun_iff.mp hrun
      have hannounced : NumberShape.announced? ('0' :: letter :: cs) = some (radix, letter) := by
        simp [NumberShape.announced?, Radix.ofLetter?_eq_some.mpr hletter]
      rw [hannounced]
      exact ⟨congrArg (NumberShape.based radix letter) hdigits,
        congrArg ('0' :: letter :: ·) hsplit⟩
    | decimal hplain hrun hfraction hexponent =>
      have hannounced : NumberShape.announced? cs = none := by
        by_contra hsome
        obtain ⟨⟨radix, letter⟩, ha⟩ := Option.ne_none_iff_exists'.mp hsome
        obtain ⟨more, rfl, hletter⟩ := NumberShape.announced?_eq_some ha
        exact hplain radix letter (Radix.ofLetter?_eq_some.mp hletter) ⟨more, rfl⟩
      obtain ⟨hparts, hcs⟩ := decimalParts_iff.mpr ⟨_, _, hrun, hfraction, hexponent⟩
      rw [hannounced]
      exact ⟨by rw [NumberShape.decimalAtFront_eq, ← hparts], hcs⟩
  · rintro ⟨hshape, hcs⟩
    split at hshape
    · rename_i radix letter ha
      subst hshape
      obtain ⟨more, rfl, hletter⟩ := NumberShape.announced?_eq_some ha
      have hmore : more = more.takeWhile radix.takes ++ rest := by
        simpa [NumberShape.text] using hcs
      exact .based (Radix.ofLetter?_eq_some.mp hletter) (longestRun_iff.mpr ⟨rfl, hmore⟩)
    · rename_i ha
      rw [NumberShape.decimalAtFront_eq] at hshape
      subst hshape
      obtain ⟨afterWhole, afterFraction, hrun, hfraction, hexponent⟩ :=
        decimalParts_iff.mp ⟨rfl, hcs⟩
      refine .decimal (fun radix letter hletter hannounced => ?_) hrun hfraction hexponent
      obtain ⟨more, rfl⟩ := hannounced
      simp [NumberShape.announced?, Radix.ofLetter?_eq_some.mpr hletter] at ha

/-- One number stands at the front of a text, and leaves the rest of it. -/
theorem numberAt_atFront (cs : List Char) :
    ∃ rest, cs = (NumberShape.atFront cs).text ++ rest ∧
      ∀ shape rest', NumberAt cs shape rest' ↔ shape = NumberShape.atFront cs ∧ rest' = rest := by
  obtain ⟨rest, hrest⟩ := NumberShape.text_atFront cs
  refine ⟨rest, hrest, fun shape rest' => numberAt_iff.trans ?_⟩
  constructor
  · rintro ⟨rfl, hcs⟩
    exact ⟨rfl, List.append_cancel_left (hcs.symm.trans hrest)⟩
  · rintro ⟨rfl, rfl⟩
    exact ⟨rfl, hrest⟩

/-! ## Values -/

namespace Exponent

def power (e : Exponent) : ℤ :=
  if e.sign = some '-' then -Numeral.positional 10 e.digits else Numeral.positional 10 e.digits

end Exponent

namespace NumberShape

/-- Whether a number has a value. Integers need digits of their base and have to be small
enough, other numbers need digits in their exponent. -/
def Valid : NumberShape → Prop
  | based radix _ digits =>
    digits ≠ [] ∧ (∀ c ∈ digits, Numeral.isDigitOf radix.base c = true) ∧
      Numeral.positional radix.base digits < 2 ^ 64
  | decimal whole fraction exponent =>
    if fraction = none ∧ exponent = none then Numeral.positional 10 whole < 2 ^ 64
    else ∀ e ∈ exponent, e.digits ≠ []

instance : (shape : NumberShape) → Decidable shape.Valid
  | based _ _ _ => inferInstanceAs (Decidable (_ ∧ _ ∧ _))
  | decimal whole fraction exponent =>
    inferInstanceAs (Decidable
      (if fraction = none ∧ exponent = none then Numeral.positional 10 whole < 2 ^ 64
        else ∀ e ∈ exponent, e.digits ≠ []))

/-- The rational that a decimal with a fraction or an exponent stands for. -/
def rational (whole : List Char) (fraction : Option (List Char)) (exponent : Option Exponent) :
    ℚ :=
  let digits := fraction.getD []
  (Numeral.positional 10 whole + Numeral.positional 10 digits / 10 ^ digits.length) *
    10 ^ exponent.elim 0 Exponent.power

/-- What a valid number means: an integer its positional value, any other the floating-point
number nearest to the decimal. -/
def Denotes : NumberShape → TokenValue → Prop
  | based radix _ digits, value => value = .int (Numeral.positional radix.base digits)
  | decimal whole fraction exponent, value =>
    if fraction = none ∧ exponent = none then value = .int (Numeral.positional 10 whole)
    else ∃ x : Binary64, x.IsNearest (rational whole fraction exponent) ∧ value = .float x

theorem Denotes.unique {shape : NumberShape} {v w : TokenValue} (hv : shape.Denotes v)
    (hw : shape.Denotes w) : v = w := by
  cases shape with
  | based radix letter digits => exact hv.trans hw.symm
  | decimal whole fraction exponent =>
    simp only [Denotes] at hv hw
    split at hv
    · rename_i hplain
      rw [if_pos hplain] at hw
      exact hv.trans hw.symm
    · rename_i hplain
      rw [if_neg hplain] at hw
      obtain ⟨x, hx, rfl⟩ := hv
      obtain ⟨y, hy, rfl⟩ := hw
      rw [hx.unique hy]

theorem Denotes.int_or_float {shape : NumberShape} {value : TokenValue}
    (h : shape.Denotes value) :
    (∃ n, value = .int n) ∨ ∃ x, value = .float x := by
  cases shape with
  | based radix letter digits => exact .inl ⟨_, h⟩
  | decimal whole fraction exponent =>
    simp only [Denotes] at h
    split at h
    · exact .inl ⟨_, h⟩
    · obtain ⟨x, -, rfl⟩ := h
      exact .inr ⟨x, rfl⟩

end NumberShape

theorem Exponent.value_eq (e : Exponent) : e.value = e.power := by
  unfold value power
  rw [Numeral.valueOf_eq]

/-- The digits of the fraction go on from those before the point, and are taken back by the power
of ten. -/
theorem NumberShape.rational_eq (whole : List Char) (fraction : Option (List Char))
    (exponent : Option Exponent) :
    rational whole fraction exponent =
      (Numeral.valueOf 10 (whole ++ fraction.getD []) : ℚ) *
        10 ^ ((exponent.map Exponent.value).getD 0 - ((fraction.getD []).length : ℤ)) := by
  have hpower : (exponent.map Exponent.value).getD 0 = exponent.elim 0 Exponent.power := by
    cases exponent with
    | none => rfl
    | some e => exact e.value_eq
  rw [hpower, zpow_sub₀ (by norm_num), zpow_natCast, Numeral.valueOf_eq, Numeral.positional_append]
  unfold rational
  push_cast
  field_simp

theorem NumberAt.whole {c : Char} {cs whole rest : List Char} {fraction : Option (List Char)}
    {exponent : Option Exponent} (h : NumberAt (c :: cs) (.decimal whole fraction exponent) rest)
    (hc : c.isDigit = true) : whole ≠ [] ∧ ∀ d ∈ whole, d.isDigit = true := by
  cases h with
  | decimal hplain hrun hfraction hexponent =>
    refine ⟨?_, hrun.all⟩
    rw [(longestRun_iff.mp hrun).1, List.takeWhile_cons_of_pos hc]
    exact List.cons_ne_nil _ _

theorem NumberShape.value?_decimal {whole : List Char} {fraction : Option (List Char)}
    {exponent : Option Exponent} (h : ¬ (fraction = none ∧ exponent = none)) :
    value? (decimal whole fraction exponent) =
      if exponent.any (·.digits.isEmpty) then none
      else some (.float (.ofDecimal (Numeral.valueOf 10 (whole ++ fraction.getD []))
        ((exponent.map Exponent.value).getD 0 - (fraction.getD []).length))) := by
  cases fraction with
  | some digits => rfl
  | none =>
    cases exponent with
    | some e => rfl
    | none => exact absurd ⟨rfl, rfl⟩ h

/-- A number has a value if it is valid, and denotes that value. -/
theorem NumberAt.value?_spec {c : Char} {cs rest : List Char} {shape : NumberShape}
    (h : NumberAt (c :: cs) shape rest) (hc : c.isDigit = true) :
    match shape.value? with
    | none => ¬ shape.Valid
    | some value => shape.Valid ∧ shape.Denotes value := by
  cases shape with
  | based radix letter digits =>
    rw [NumberShape.value?]
    cases hvalue : Numeral.valueBelow? radix.base NumberShape.intLimit digits with
    | none =>
      rintro ⟨hne, hall, hlimit⟩
      have hsome := Numeral.valueBelow?_eq_some.mpr ⟨hne, hall, hlimit, rfl⟩
      exact Option.some_ne_none _ (hsome.symm.trans hvalue)
    | some n =>
      obtain ⟨hne, hall, hlimit, rfl⟩ := Numeral.valueBelow?_eq_some.mp hvalue
      exact ⟨⟨hne, hall, hlimit⟩, rfl⟩
  | decimal whole fraction exponent =>
    by_cases hplain : fraction = none ∧ exponent = none
    · obtain ⟨hne, hdigits⟩ := h.whole hc
      have hall : ∀ d ∈ whole, Numeral.isDigitOf 10 d = true := by
        intro d hd
        exact Numeral.isDigitOf_ten (hdigits d hd)
      obtain ⟨rfl, rfl⟩ := hplain
      rw [NumberShape.value?]
      cases hvalue : Numeral.valueBelow? 10 NumberShape.intLimit whole with
      | none =>
        intro hlimit
        have hsome := Numeral.valueBelow?_eq_some.mpr ⟨hne, hall, hlimit, rfl⟩
        exact Option.some_ne_none _ (hsome.symm.trans hvalue)
      | some n =>
        obtain ⟨-, -, hlimit, rfl⟩ := Numeral.valueBelow?_eq_some.mp hvalue
        exact ⟨hlimit, rfl⟩
    · rw [NumberShape.value?_decimal hplain]
      simp only [NumberShape.Valid, NumberShape.Denotes, if_neg hplain]
      by_cases hmissing : exponent.any (·.digits.isEmpty) = true
      · rw [if_pos hmissing]
        obtain ⟨e, rfl, he⟩ := (Option.any_eq_true _ _).mp hmissing
        exact fun hvalid => hvalid e rfl (List.isEmpty_iff.mp he)
      · rw [if_neg hmissing]
        refine ⟨fun e he hempty => hmissing ?_, _, ?_, rfl⟩
        · exact (Option.any_eq_true _ _).mpr ⟨e, he, List.isEmpty_iff.mpr hempty⟩
        · rw [NumberShape.rational_eq]
          exact Binary64.ofDecimal_isNearest _ _

end GoTokens
