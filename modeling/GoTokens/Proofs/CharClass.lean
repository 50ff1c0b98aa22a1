import GoTokens.Proofs.Lexeme.Quoted
import GoTokens.Lexeme
import GoTokens.Punct

/-!
The class of a character tells which of the tests on characters it passes, and the classes
of digits, quotes and operators are those tests. The characters that begin operators are
listed twice, once as a class and once with the operators, and the lists agree
(`isPunctuation_eq_isSome`).
-/

namespace GoTokens

open Text

theorem CharClass.isWordStart_of_class {c : Char} (h : CharClass.of c = .wordStart) :
    isWordStart c = true := by
  rw [CharClass.of] at h
  repeat' split at h
  all_goals first | assumption | cases h

theorem CharClass.of_eq_wordStart {c : Char} :
    CharClass.of c = .wordStart ↔ isWordStart c = true := by
  refine ⟨isWordStart_of_class, fun h => ?_⟩
  have hblank : ¬ isBlank c = true := fun hblank => by
    rw [isWordStart_of_isBlank hblank] at h
    cases h
  rw [CharClass.of, if_neg hblank, if_pos h]

theorem CharClass.of_eq_quote {c : Char} : CharClass.of c = .quote ↔ isQuote c = true := by
  refine ⟨isQuote_of_class, fun h => ?_⟩
  obtain rfl | rfl | rfl := isQuote_cases h <;> decide +kernel

theorem CharClass.of_eq_digit {c : Char} : CharClass.of c = .digit ↔ c.isDigit = true := by
  refine ⟨Lexeme.isDigit_of_class, fun h => ?_⟩
  have hlow : 48 ≤ c.toNat ∧ c.toNat ≤ 57 := by
    simpa [Char.isDigit, UInt32.le_iff_toNat_le] using h
  have hall : ∀ n : Fin 10, CharClass.of (Char.ofNat (48 + n)) = .digit := by decide +kernel
  have hc := hall ⟨c.toNat - 48, by omega⟩
  rwa [show 48 + (c.toNat - 48) = c.toNat by omega, Char.ofNat_toNat] at hc

theorem isPunctuation_eq_isSome (c : Char) : isPunctuation c = (Punct.ofChar? c).isSome := by
  rw [Bool.eq_iff_iff]
  constructor
  · intro h
    have hall : punctuation.all (fun d => (Punct.ofChar? d).isSome) = true := by decide +kernel
    exact List.all_eq_true.mp hall c (List.contains_iff_mem.mp h)
  · intro h
    unfold Punct.ofChar? at h
    split at h <;> first | rfl | cases h

theorem CharClass.isPunctuation_of_class {c : Char} (h : CharClass.of c = .punctuation) :
    isPunctuation c = true := by
  rw [CharClass.of] at h
  repeat' split at h
  all_goals first | assumption | cases h

theorem CharClass.of_eq_punctuation {c : Char} :
    CharClass.of c = .punctuation ↔ isPunctuation c = true := by
  refine ⟨isPunctuation_of_class, fun h => ?_⟩
  have hall : GoTokens.punctuation.all (fun d => CharClass.of d = .punctuation) = true := by
    decide +kernel
  simpa using List.all_eq_true.mp hall c (List.contains_iff_mem.mp h)

end GoTokens
