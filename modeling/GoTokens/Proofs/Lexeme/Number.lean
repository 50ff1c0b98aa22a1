import GoTokens.Lexeme.Number
import GoTokens.Proofs.Lookahead
import GoTokens.Text.Blank

/-!
The shape of a number is the text it stands for: reading takes exactly that text off the
front (`NumberShape.text_atFront`) and depends on at most one character after it
(`NumberShape.atFront_kept`). The parts of a number are read one after the other, so both
follow from the same facts about each part. A blank ends all of them.
-/

namespace GoTokens

open Lookahead Text

theorem Numeral.digitValue?_of_isBlank {c : Char} (h : isBlank c = true) :
    digitValue? c = none := by
  have hn : ¬ (48 ≤ c.toNat ∧ c.toNat ≤ 57) ∧ ¬ (97 ≤ c.toNat ∧ c.toNat ≤ 122) ∧
      ¬ (65 ≤ c.toNat ∧ c.toNat ≤ 90) :=
    blank_cases (fun n => ¬ (48 ≤ n ∧ n ≤ 57) ∧ ¬ (97 ≤ n ∧ n ≤ 122) ∧ ¬ (65 ≤ n ∧ n ≤ 90))
      (by decide) h
  obtain ⟨hdigit, hlower, hupper⟩ := hn
  simp only [digitValue?, Char.le_def, UInt32.le_iff_toNat_le]
  exact (if_neg hdigit).trans ((if_neg hlower).trans (if_neg hupper))

theorem Radix.takes_of_isBlank (radix : Radix) {c : Char} (h : isBlank c = true) :
    radix.takes c = false := by
  cases radix
  · exact isDigit_of_isBlank h
  · exact isDigit_of_isBlank h
  · simp [takes, Numeral.isDigitOf, Numeral.digitValue?_of_isBlank h]

theorem Radix.ofLetter?_of_isBlank {c : Char} (h : isBlank c = true) : ofLetter? c = none := by
  have hne (d : Char) (hd : isBlank d = false) : c ≠ d := ne_of_isBlank h hd
  simp [ofLetter?, hne 'x' (by decide), hne 'X' (by decide), hne 'o' (by decide),
    hne 'O' (by decide), hne 'b' (by decide), hne 'B' (by decide)]

abbrev Blank (c : Char) : Prop := isBlank c = true

theorem reads_digits : Reads Blank (List.takeWhile Char.isDigit) id :=
  reads_takeWhile fun _ h => isDigit_of_isBlank h

namespace Exponent

def sign? : List Char → Option Char
  | [] => none
  | c :: _ => if c = '+' ∨ c = '-' then some c else none

theorem sign?_eq_none {cs : List Char} :
    sign? cs = none ↔ ∀ d, cs.head? = some d → ¬ (d = '+' ∨ d = '-') := by
  cases cs <;> simp [sign?]

theorem reads_sign : Reads Blank sign? Option.toList where
  taken cs := by
    cases cs with
    | nil => exact ⟨[], rfl⟩
    | cons c cs =>
      by_cases hc : c = '+' ∨ c = '-'
      · exact ⟨cs, by simp [sign?, hc]⟩
      · exact ⟨c :: cs, by simp [sign?, hc]⟩
  kept := by
    intro a old new h hf
    cases a with
    | some c => simpa [sign?] using h
    | none =>
      refine sign?_eq_none.mpr (hf.head (fun d hd => ?_) (sign?_eq_none.mp h))
      exact not_or.mpr ⟨ne_of_isBlank hd (by decide), ne_of_isBlank hd (by decide)⟩

/-- What follows the letter: a sign or none, and digits. -/
def tail : List Char → Option Char × List Char :=
  andThen sign? Option.toList (List.takeWhile Char.isDigit)

theorem reads_tail : Reads Blank tail fun r => r.1.toList ++ id r.2 :=
  reads_sign.andThen reads_digits

theorem atFront?_cons (mark : Char) (cs : List Char) :
    atFront? (mark :: cs) =
      if mark = 'e' ∨ mark = 'E' then some ⟨mark, (tail cs).1, (tail cs).2⟩ else none := by
  simp only [atFront?]
  split
  · cases cs with
    | nil => rfl
    | cons c cs => by_cases hc : c = '+' ∨ c = '-' <;> simp [tail, andThen, sign?, hc]
  · rfl

theorem atFront?_eq_none {cs : List Char} :
    atFront? cs = none ↔ ∀ d, cs.head? = some d → ¬ (d = 'e' ∨ d = 'E') := by
  cases cs with
  | nil => simp [atFront?]
  | cons c cs => simp [atFront?_cons]

def optionText (e : Option Exponent) : List Char := (e.map text).getD []

theorem reads_exponent : Reads Blank atFront? optionText where
  taken cs := by
    cases cs with
    | nil => exact ⟨[], rfl⟩
    | cons mark cs =>
      rw [atFront?_cons]
      split
      · obtain ⟨rest, hrest⟩ := reads_tail.taken cs
        exact ⟨rest, by simpa [optionText, text] using hrest⟩
      · exact ⟨mark :: cs, rfl⟩
  kept := by
    intro a old new h hf
    cases a with
    | some e =>
      simp only [optionText, text, Option.map_some, Option.getD_some, List.cons_append,
        atFront?_cons] at h ⊢
      split at h
      · rename_i hmark
        have he := Option.some.inj h
        have hold : tail (e.sign.toList ++ e.digits ++ old) = (e.sign, e.digits) :=
          Prod.ext (congrArg Exponent.sign he) (congrArg Exponent.digits he)
        have hnew := reads_tail.kept (a := (e.sign, e.digits)) hold hf
        rw [if_pos hmark, show tail (e.sign.toList ++ e.digits ++ new) = _ from hnew]
      · cases h
    | none =>
      refine atFront?_eq_none.mpr (hf.head (fun d hd => ?_) (atFront?_eq_none.mp h))
      exact not_or.mpr ⟨ne_of_isBlank hd (by decide), ne_of_isBlank hd (by decide)⟩

end Exponent

namespace NumberShape

theorem fraction?_cons (c : Char) (cs : List Char) :
    fraction? (c :: cs) = if c = '.' then some (cs.takeWhile Char.isDigit) else none := by
  by_cases hc : c = '.'
  · subst hc; rfl
  · rw [if_neg hc, fraction?.eq_2]
    rintro cs' heq
    cases heq
    exact hc rfl

theorem fraction?_eq_none {cs : List Char} :
    fraction? cs = none ↔ ∀ d, cs.head? = some d → d ≠ '.' := by
  cases cs with
  | nil => simp [fraction?]
  | cons c cs => simp [fraction?_cons]

theorem reads_fraction : Reads Blank fraction? fractionText where
  taken cs := by
    cases cs with
    | nil => exact ⟨[], rfl⟩
    | cons c cs =>
      rw [fraction?_cons]
      split
      · rename_i hc
        subst hc
        exact ⟨cs.dropWhile Char.isDigit, by simp [fractionText]⟩
      · exact ⟨c :: cs, rfl⟩
  kept := by
    intro a old new h hf
    cases a with
    | some digits =>
      simp only [fractionText, List.cons_append, fraction?_cons, if_true, Option.some.injEq] at h ⊢
      exact reads_digits.kept h hf
    | none =>
      exact fraction?_eq_none.mpr
        (hf.head (fun d hd => ne_of_isBlank hd (by decide)) (fraction?_eq_none.mp h))

/-- The parts of a decimal, one after the other. -/
def decimalParts : List Char → List Char × Option (List Char) × Option Exponent :=
  andThen (List.takeWhile Char.isDigit) id (andThen fraction? fractionText Exponent.atFront?)

theorem reads_decimal :
    Reads Blank decimalParts fun r => id r.1 ++ (fractionText r.2.1 ++ Exponent.optionText r.2.2) :=
  reads_digits.andThen (reads_fraction.andThen Exponent.reads_exponent)

theorem decimalAtFront_eq (cs : List Char) :
    decimalAtFront cs =
      decimal (decimalParts cs).1 (decimalParts cs).2.1 (decimalParts cs).2.2 := by
  simp only [decimalAtFront, decimalParts, andThen, id, drop_length_takeWhile]

theorem text_decimal (whole : List Char) (fraction : Option (List Char))
    (exponent : Option Exponent) :
    text (decimal whole fraction exponent) =
      whole ++ (fractionText fraction ++ Exponent.optionText exponent) := by
  rw [text, List.append_assoc]
  rfl

/-- The base that a text announces by its first two characters, and the second of them. -/
def announced? : List Char → Option (Radix × Char)
  | zero :: letter :: _ =>
    if zero = '0' then (Radix.ofLetter? letter).map fun radix => (radix, letter) else none
  | _ => none

theorem atFront_eq (cs : List Char) :
    atFront cs =
      match announced? cs with
      | some (radix, letter) => based radix letter ((cs.drop 2).takeWhile radix.takes)
      | none => decimalAtFront cs := by
  unfold atFront
  split
  · rename_i zero letter cs
    by_cases hz : zero = '0'
    · cases hr : Radix.ofLetter? letter <;> simp [announced?, hz, hr]
    · simp [announced?, hz]
  · rename_i hshort
    rcases cs with _ | ⟨a, _ | ⟨b, cs⟩⟩
    · rfl
    · rfl
    · exact absurd rfl (hshort a b cs)

theorem announced?_eq_some {cs : List Char} {radix : Radix} {letter : Char}
    (h : announced? cs = some (radix, letter)) :
    ∃ rest, cs = '0' :: letter :: rest ∧ Radix.ofLetter? letter = some radix := by
  unfold announced? at h
  split at h
  · rename_i zero letter' rest
    split at h
    · rename_i hz
      obtain ⟨radix', hr, heq⟩ := Option.map_eq_some_iff.mp h
      cases heq
      exact ⟨rest, by rw [hz], hr⟩
    · cases h
  · cases h

/-- Whether a base is announced is decided within the text of a number and the character
after it. -/
theorem announced?_kept {body old new : List Char} (hbody : body ≠ [])
    (h : announced? (body ++ old) = none) (hf : Follows Blank old new) :
    announced? (body ++ new) = none := by
  rcases body with _ | ⟨zero, _ | ⟨letter, body⟩⟩
  · exact absurd rfl hbody
  · cases new with
    | nil => rfl
    | cons d new =>
      rcases hf d rfl with hd | hd
      · cases old with
        | nil => cases hd
        | cons e old =>
          cases hd
          simpa [announced?] using h
      · simp [announced?, Radix.ofLetter?_of_isBlank hd]
  · simpa [announced?] using h

theorem text_atFront (cs : List Char) : ∃ rest, cs = (atFront cs).text ++ rest := by
  rw [atFront_eq]
  split
  · rename_i radix letter ha
    obtain ⟨rest, rfl, _⟩ := announced?_eq_some ha
    refine ⟨rest.dropWhile radix.takes, ?_⟩
    simp [text]
  · obtain ⟨rest, hrest⟩ := reads_decimal.taken cs
    exact ⟨rest, by rwa [decimalAtFront_eq, text_decimal]⟩

/-- The shape stays the same when something else follows its text. -/
theorem atFront_kept {shape : NumberShape} {old new : List Char} (hne : shape.text ≠ [])
    (h : atFront (shape.text ++ old) = shape) (hf : Follows Blank old new) :
    atFront (shape.text ++ new) = shape := by
  rw [atFront_eq] at h ⊢
  cases shape with
  | based radix letter digits =>
    split at h
    · rename_i radix' letter' ha
      have hdigits := (based.inj h).2.2
      obtain ⟨rfl, rfl, -⟩ := based.inj h
      have hnew : announced? (text (based radix' letter' digits) ++ new) =
          some (radix', letter') := by
        simpa [text, announced?] using ha
      rw [hnew]
      have hkept := (reads_takeWhile fun _ hd => radix'.takes_of_isBlank hd).kept hdigits hf
      exact congrArg (based radix' letter') hkept
    · rw [decimalAtFront_eq] at h
      cases h
  | decimal whole fraction exponent =>
    split at h
    · cases h
    · rename_i ha
      rw [announced?_kept hne ha hf]
      rw [decimalAtFront_eq] at h ⊢
      obtain ⟨hwhole, hfraction, hexponent⟩ := decimal.inj h
      have hparts : decimalParts (text (decimal whole fraction exponent) ++ old) =
          (whole, fraction, exponent) :=
        Prod.ext hwhole (Prod.ext hfraction hexponent)
      rw [text_decimal] at hparts ⊢
      have hkept := reads_decimal.kept (a := (whole, fraction, exponent)) hparts hf
      simp only [id] at hkept
      rw [hkept]

end NumberShape

end GoTokens
