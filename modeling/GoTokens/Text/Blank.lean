import GoTokens.Text.Alphabetic
import GoTokens.Text.Numeric

/-!
The property White_Space of Unicode, which separates lexemes and is trimmed off
the end of comments and literals. The file, group, record and unit separators
U+001C to U+001F, the zero width space and the byte order mark do not have it.
No blank is a letter or a digit, so a blank always ends a word and a number.
-/

namespace GoTokens.Text

/-- Code points with the property White_Space. -/
def blankRanges : List (Nat × Nat) := [
  (0x9, 0xD), (0x20, 0x20), (0x85, 0x85), (0xA0, 0xA0), (0x1680, 0x1680), (0x2000, 0x200A),
  (0x2028, 0x2029), (0x202F, 0x202F), (0x205F, 0x205F), (0x3000, 0x3000)]

def isBlank (c : Char) : Bool := CharSet.inRanges blankRanges c.toNat

/-- A fact about all blanks holds as soon as it holds of the twenty-five of them. -/
theorem blank_cases (P : Nat → Prop)
    (h : ∀ r ∈ blankRanges, ∀ k ∈ List.range (r.2 + 1 - r.1), P (r.1 + k))
    {c : Char} (hc : isBlank c = true) : P c.toNat := by
  simp only [isBlank, CharSet.inRanges, List.any_eq_true, Bool.and_eq_true,
    decide_eq_true_eq] at hc
  obtain ⟨r, hr, hlo, hhi⟩ := hc
  have := h r hr (c.toNat - r.1) (by simp; omega)
  rwa [Nat.add_sub_cancel' hlo] at this

theorem isAlphabetic_of_isBlank {c : Char} (h : isBlank c = true) : isAlphabetic c = false :=
  blank_cases (fun n => alphabeticSet.contains n = false) (by decide +kernel) h

theorem isNumeric_of_isBlank {c : Char} (h : isBlank c = true) : isNumeric c = false :=
  blank_cases (fun n => numericSet.contains n = false) (by decide +kernel) h

theorem isDigit_of_isBlank {c : Char} (h : isBlank c = true) : c.isDigit = false := by
  have hn : ¬ (48 ≤ c.toNat ∧ c.toNat ≤ 57) :=
    blank_cases (fun n => ¬ (48 ≤ n ∧ n ≤ 57)) (by decide) h
  rw [← Bool.not_eq_true, Char.isDigit, Bool.and_eq_true, decide_eq_true_eq, decide_eq_true_eq]
  simpa [UInt32.le_iff_toNat_le] using hn

theorem ne_of_isBlank {c d : Char} (h : isBlank c = true) (hd : isBlank d = false) : c ≠ d := by
  rintro rfl
  rw [h] at hd
  cases hd

def trimEnd (cs : List Char) : List Char := (cs.reverse.dropWhile isBlank).reverse

theorem trimEnd_append_blanks (cs : List Char) {ws : List Char} (h : ∀ w ∈ ws, isBlank w = true) :
    trimEnd (cs ++ ws) = trimEnd cs := by
  simp only [trimEnd, List.reverse_append]
  rw [List.dropWhile_append_of_pos (by simpa using h)]

theorem trimEnd_append_singleton (cs : List Char) {c : Char} (h : isBlank c = false) :
    trimEnd (cs ++ [c]) = cs ++ [c] := by
  simp [trimEnd, h]

end GoTokens.Text
