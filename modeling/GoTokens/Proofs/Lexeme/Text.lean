import GoTokens.Proofs.Binary64.Text
import GoTokens.Proofs.Json.Reader
import GoTokens.Proofs.Lexeme.Meaning

/-!
The text of a token is one line (`notMem_text`). A word, a number or an operator has no line end
in its lexeme, and a line comment stops before one. Literals and block comments may have some,
which their texts spell out.
-/

namespace GoTokens

open Text

theorem LongestRun.isBlank_of_mem {p : Char → Bool} {cs run rest : List Char}
    (h : LongestRun p cs run rest) (hp : ∀ d, isBlank d = true → p d = false) {d : Char}
    (hd : d ∈ run) : isBlank d = false := by
  by_contra hblank
  have hstop := hp d (Bool.not_eq_false _ ▸ hblank)
  rw [h.all d hd] at hstop
  cases hstop

section

variable {cs rest : List Char} {d : Char}

theorem FractionAt.isBlank_of_mem {fraction : Option (List Char)}
    (h : FractionAt cs fraction rest) (hd : d ∈ NumberShape.fractionText fraction) :
    isBlank d = false := by
  cases h with
  | missing => cases hd
  | point hrun =>
    obtain rfl | hd := List.mem_cons.mp hd
    · rfl
    · exact hrun.isBlank_of_mem (fun _ => isDigit_of_isBlank) hd

theorem SignAt.isBlank_of_mem {sign : Option Char} (h : SignAt cs sign rest)
    (hd : d ∈ sign.toList) : isBlank d = false := by
  cases h with
  | missing => cases hd
  | plus =>
    rw [List.mem_singleton.mp hd]
    rfl
  | minus =>
    rw [List.mem_singleton.mp hd]
    rfl

theorem ExponentAt.isBlank_of_mem {exponent : Option Exponent} (h : ExponentAt cs exponent rest)
    (hd : d ∈ Exponent.optionText exponent) : isBlank d = false := by
  cases h with
  | missing => cases hd
  | marked hmark hsign hrun =>
    obtain rfl | hd := List.mem_cons.mp hd
    · obtain rfl | rfl := hmark <;> rfl
    · obtain hd | hd := List.mem_append.mp hd
      · exact hsign.isBlank_of_mem hd
      · exact hrun.isBlank_of_mem (fun _ => isDigit_of_isBlank) hd

theorem NumberAt.isBlank_of_mem_text {shape : NumberShape} (h : NumberAt cs shape rest)
    (hd : d ∈ shape.text) : isBlank d = false := by
  cases h with
  | @based radix letter cs digits rest hletter hrun =>
    obtain rfl | hd := List.mem_cons.mp hd
    · rfl
    · obtain rfl | hd := List.mem_cons.mp hd
      · cases radix <;> obtain rfl | rfl := List.mem_pair.mp hletter <;> rfl
      · exact hrun.isBlank_of_mem (fun _ => radix.takes_of_isBlank) hd
  | decimal hplain hrun hfraction hexponent =>
    rw [NumberShape.text_decimal, List.mem_append, List.mem_append] at hd
    obtain hd | hd | hd := hd
    · exact hrun.isBlank_of_mem (fun _ => isDigit_of_isBlank) hd
    · exact hfraction.isBlank_of_mem hd
    · exact hexponent.isBlank_of_mem hd

end

namespace TokenValue

theorem text_ofWord (word : String) : (ofWord word).text = word := by
  unfold ofWord
  split
  · rename_i k hk
    exact Keyword.ofSpelling?_eq_some.mp hk
  · rfl

theorem notMem_text_int (n : Nat) : '\n' ∉ (int n).text.toList := by
  intro hmem
  exact absurd ((Json.isDigits_toString n).digits _ hmem) (by decide)

theorem notMem_text_float (x : Binary64) : '\n' ∉ (float x).text.toList := by
  show '\n' ∉ x.text.toList
  unfold Binary64.text
  split
  · decide
  · split
    · split <;> decide
    · rw [String.toList_ofList]
      intro hmem
      exact absurd ((Binary64.isNumber_finiteText _ x).bare _ hmem) (by decide)

end TokenValue

theorem Text.mem_of_mem_trimEnd {cs : List Char} {d : Char} (h : d ∈ trimEnd cs) : d ∈ cs :=
  List.mem_reverse.mp ((List.dropWhile_sublist _).mem (List.mem_reverse.mp h))

theorem Comment.notMem_onOneLine (cs : List Char) : '\n' ∉ onOneLine cs := by
  intro h
  obtain ⟨c, -, hc⟩ := List.mem_flatMap.mp h
  split at hc
  · simp at hc
  · rename_i hline
    split at hc
    · simp at hc
    · exact hline (List.mem_singleton.mp hc).symm

namespace Lexeme

variable {c : Char} {cs : List Char} {value : TokenValue} {n : Nat}

theorem Means.notMem_text (h : Means c cs value n) : '\n' ∉ value.text.toList := by
  cases h with
  | word hc hrun =>
    rw [TokenValue.text_ofWord, String.toList_ofList]
    intro hmem
    exact absurd (hrun.isBlank_of_mem (fun _ => isWordPart_of_isBlank) hmem) (by decide)
  | number hc hnumber hvalid hdenotes hi =>
    obtain ⟨n, rfl⟩ | ⟨x, rfl⟩ := hdenotes.int_or_float
    · exact TokenValue.notMem_text_int n
    · exact TokenValue.notMem_text_float x
  | imaginary hc hnumber hvalid hi =>
    rw [TokenValue.text, String.toList_ofList, List.mem_append]
    intro hmem
    obtain hmem | hmem := hmem
    · exact absurd (hnumber.isBlank_of_mem_text hmem) (by decide)
    · exact absurd (List.mem_singleton.mp hmem) (by decide)
  | quoted hc hsplit hpending =>
    rw [Quoted.text_value, String.toList_ofList, Quoted.storedText, List.mem_append]
    intro hmem
    obtain hmem | hmem := hmem
    · exact Quoted.notMem_onOneLine _ (mem_of_mem_trimEnd hmem)
    · obtain rfl := List.mem_singleton.mp hmem
      cases hc
  | lineComment hc hcs hrun =>
    rw [TokenValue.text, String.toList_ofList]
    intro hmem
    exact absurd (hrun.all _ (mem_of_mem_trimEnd hmem)) (by decide)
  | blockComment hc hcs hsplit hbody =>
    rw [TokenValue.text, String.toList_ofList]
    exact Comment.notMem_onOneLine _
  | @operator p hline hblock hlongest =>
    rw [TokenValue.text, Punct.text, String.toList_ofList]
    cases p <;> decide

/-- The text of a token has no line end. -/
theorem notMem_text (h : atFront c cs = token value n) : '\n' ∉ value.text.toList :=
  (atFront_means h).notMem_text

end Lexeme

end GoTokens
