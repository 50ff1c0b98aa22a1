import GoTokens.Proofs.Json.Grammar
import GoTokens.Proofs.Lookahead

/-!
Whether a text is a number in JSON, decided part by part from the front: a sign, digits, a
fraction, an exponent (`isNumber_iff`). The character behind a part never belongs to it.
-/

namespace GoTokens.Json

open Lookahead

def isDigits (cs : List Char) : Bool := !cs.isEmpty && cs.all Char.isDigit

def isExponent : List Char → Bool
  | [] => true
  | mark :: cs =>
    let unsigned := if cs.head? = some '+' ∨ cs.head? = some '-' then cs.tail else cs
    (mark == 'e' || mark == 'E') && isDigits unsigned

def isFractional (cs : List Char) : Bool :=
  if cs.head? = some '.' then
    isDigits (cs.tail.takeWhile Char.isDigit) && isExponent (cs.tail.dropWhile Char.isDigit)
  else isExponent cs

def isWhole (cs : List Char) : Bool := isDigits cs && (cs.head? != some '0' || cs == ['0'])

def isUnsigned (cs : List Char) : Bool :=
  isWhole (cs.takeWhile Char.isDigit) && isFractional (cs.dropWhile Char.isDigit)

def isNumber (cs : List Char) : Bool := isUnsigned (if cs.head? = some '-' then cs.tail else cs)

theorem isDigits_iff {cs : List Char} : isDigits cs = true ↔ IsDigits cs := by
  rw [isDigits, Bool.and_eq_true, List.all_eq_true, Bool.not_eq_true', List.isEmpty_eq_false_iff]
  exact ⟨fun h => ⟨h.2, h.1⟩, fun h => ⟨h.someDigit, h.digits⟩⟩

theorem isWhole_iff {cs : List Char} : isWhole cs = true ↔ IsWhole cs := by
  rw [isWhole, Bool.and_eq_true, isDigits_iff, Bool.or_eq_true, bne_iff_ne, beq_iff_eq]
  exact ⟨fun h => ⟨h.1, h.2.neg_resolve_left⟩, fun h => ⟨h.toIsDigits, not_or_of_imp h.noZeroBefore⟩⟩

theorem IsDigits.head_ne {cs : List Char} (h : IsDigits cs) {c : Char} (hc : c.isDigit = false) :
    cs.head? ≠ some c := by
  intro hhead
  have hdigit := h.digits c (List.mem_of_head? hhead)
  rw [hc] at hdigit
  cases hdigit

theorem isExponent_iff {cs : List Char} : isExponent cs = true ↔ IsExponent cs := by
  constructor
  · intro h
    cases cs with
    | nil => exact .missing
    | cons mark cs =>
      obtain ⟨hmark, hdigits⟩ := Bool.and_eq_true_iff.mp h
      have hmark' : mark = 'e' ∨ mark = 'E' := by simpa using hmark
      by_cases hsign : cs.head? = some '+' ∨ cs.head? = some '-'
      · rw [if_pos hsign, isDigits_iff] at hdigits
        obtain hplus | hminus := hsign
        · obtain ⟨ds, rfl⟩ := List.head?_eq_some_iff.mp hplus
          exact .marked hmark' (.inr (.inl rfl)) hdigits
        · obtain ⟨ds, rfl⟩ := List.head?_eq_some_iff.mp hminus
          exact .marked hmark' (.inr (.inr rfl)) hdigits
      · rw [if_neg hsign, isDigits_iff] at hdigits
        exact .marked hmark' (.inl rfl) hdigits
  · intro h
    cases h with
    | missing => rfl
    | @marked mark sign ds hmark hsign hdigits =>
      refine Bool.and_eq_true_iff.mpr ⟨by simpa using hmark, ?_⟩
      obtain rfl | rfl | rfl := hsign
      · rw [List.nil_append, if_neg, isDigits_iff]
        · exact hdigits
        · exact not_or.mpr ⟨hdigits.head_ne (by decide), hdigits.head_ne (by decide)⟩
      · exact isDigits_iff.mpr hdigits
      · exact isDigits_iff.mpr hdigits

theorem IsExponent.head {cs : List Char} (h : IsExponent cs) {d : Char} (hd : cs.head? = some d) :
    d = 'e' ∨ d = 'E' := by
  cases h with
  | missing => cases hd
  | marked hmark => cases hd; exact hmark

theorem takeWhile_isDigit {ds rest : List Char} (h : ∀ c ∈ ds, c.isDigit = true)
    (hrest : ∀ d, rest.head? = some d → d.isDigit = false) :
    (ds ++ rest).takeWhile Char.isDigit = ds ∧ (ds ++ rest).dropWhile Char.isDigit = rest := by
  have htake := takeWhile_append_eq.mpr ⟨h, hrest⟩
  exact ⟨htake, dropWhile_append_eq htake⟩

theorem isFractional_iff {cs : List Char} : isFractional cs = true ↔
    ∃ fraction exponent, cs = fraction ++ exponent ∧ IsFraction fraction ∧
      IsExponent exponent := by
  unfold isFractional
  constructor
  · intro h
    split at h
    · rename_i hpoint
      obtain ⟨cs, rfl⟩ := List.head?_eq_some_iff.mp hpoint
      obtain ⟨hdigits, hexponent⟩ := Bool.and_eq_true_iff.mp h
      refine ⟨'.' :: cs.takeWhile Char.isDigit, cs.dropWhile Char.isDigit, ?_,
        .point (isDigits_iff.mp hdigits), isExponent_iff.mp hexponent⟩
      rw [List.cons_append, List.takeWhile_append_dropWhile]
    · exact ⟨[], cs, rfl, .missing, isExponent_iff.mp h⟩
  · rintro ⟨fraction, exponent, rfl, hfraction, hexponent⟩
    cases hfraction with
    | missing =>
      rw [List.nil_append, if_neg, isExponent_iff]
      · exact hexponent
      · intro hpoint
        obtain hd | hd := hexponent.head hpoint <;> exact absurd hd (by decide)
    | @point ds hdigits =>
      obtain ⟨htake, hdrop⟩ := takeWhile_isDigit hdigits.digits fun d hd => by
        obtain rfl | rfl := hexponent.head hd <;> rfl
      rw [List.cons_append, if_pos (List.head?_cons), List.tail_cons, htake, hdrop,
        Bool.and_eq_true, isDigits_iff, isExponent_iff]
      exact ⟨hdigits, hexponent⟩

theorem fractional_head {fraction exponent : List Char} (hfraction : IsFraction fraction)
    (hexponent : IsExponent exponent) {d : Char} (hd : (fraction ++ exponent).head? = some d) :
    d.isDigit = false := by
  cases hfraction with
  | missing => obtain rfl | rfl := hexponent.head hd <;> rfl
  | point hdigits => cases hd; rfl

theorem isUnsigned_iff {cs : List Char} : isUnsigned cs = true ↔
    ∃ whole fraction exponent, cs = whole ++ (fraction ++ exponent) ∧ IsWhole whole ∧
      IsFraction fraction ∧ IsExponent exponent := by
  unfold isUnsigned
  constructor
  · intro h
    obtain ⟨hwhole, hrest⟩ := Bool.and_eq_true_iff.mp h
    obtain ⟨fraction, exponent, hsplit, hfraction, hexponent⟩ := isFractional_iff.mp hrest
    refine ⟨_, fraction, exponent, ?_, isWhole_iff.mp hwhole, hfraction, hexponent⟩
    rw [← hsplit, List.takeWhile_append_dropWhile]
  · rintro ⟨whole, fraction, exponent, rfl, hwhole, hfraction, hexponent⟩
    obtain ⟨htake, hdrop⟩ := takeWhile_isDigit hwhole.digits fun _ =>
      fractional_head hfraction hexponent
    rw [htake, hdrop, Bool.and_eq_true, isWhole_iff, isFractional_iff]
    exact ⟨hwhole, fraction, exponent, rfl, hfraction, hexponent⟩

theorem isNumber_iff {cs : List Char} : isNumber cs = true ↔ IsNumber cs := by
  unfold isNumber
  constructor
  · intro h
    split at h
    · rename_i hsign
      obtain ⟨ds, rfl⟩ := List.head?_eq_some_iff.mp hsign
      obtain ⟨whole, fraction, exponent, hds, hwhole, hfraction, hexponent⟩ := isUnsigned_iff.mp h
      rw [show ds = _ from hds]
      exact .parts (.inr rfl) hwhole hfraction hexponent
    · obtain ⟨whole, fraction, exponent, rfl, hwhole, hfraction, hexponent⟩ :=
        isUnsigned_iff.mp h
      exact .parts (.inl rfl) hwhole hfraction hexponent
  · intro h
    cases h with
    | @parts sign whole fraction exponent hsign hwhole hfraction hexponent =>
      have hunsigned := isUnsigned_iff.mpr ⟨_, _, _, rfl, hwhole, hfraction, hexponent⟩
      obtain rfl | rfl := hsign
      · rw [List.nil_append, if_neg]
        · exact hunsigned
        · rw [List.head?_append, Option.or_of_isSome (by simpa using hwhole.someDigit)]
          exact hwhole.head_ne (by decide)
      · exact hunsigned

end GoTokens.Json
