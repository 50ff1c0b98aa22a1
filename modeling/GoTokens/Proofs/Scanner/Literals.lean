import GoTokens.Proofs.Lexeme.Closing
import GoTokens.Proofs.Scanner.Outcome

/-!
Numbers, strings and runes where a scanner stands. What is read there depends on the text ahead
alone (`next_outcome`), and is told from it without following the reader: a number and its value
from the longest runs of digits (`next_number`), where a literal ends from the backslashes before
its mark (`next_quoted`).
-/

namespace GoTokens

open Text

namespace Scanner

/-- A scanner in front of a lexeme hands out that lexeme. -/
theorem next_outcome {s : Scanner} {c : Char} {cs : List Char} (hf : s.failed = false)
    (hrest : s.cursor.rest = c :: cs) (hclass : CharClass.of c ≠ .blank) :
    s.next.1 = some ((Lexeme.atFront c cs).outcome s.cursor).1 ∧
      s.next.2.cursor = ((Lexeme.atFront c cs).outcome s.cursor).2 := by
  have hc : isBlank c = false := Bool.not_eq_true _ ▸ mt CharClass.of_eq_blank.mpr hclass
  have hout := handsOut_outcome hf hrest hc
  exact ⟨hout.next, hout.cursor⟩

/-- **Numbers.** One number stands at the front of a text that begins with a digit. Without a value
it is refused where it begins, and all of it is passed. With a value, it is imaginary if the letter
for that follows, which is passed too, and else what its parts denote. The scanner hands
this out, and so does the reader that goes from part to part and cuts out the text behind them. -/
theorem next_number (s : Scanner) {c : Char} {cs : List Char}
    (hrest : s.cursor.rest = c :: cs) (hc : c.isDigit = true) :
    let outcome := (Lexeme.number (c :: cs)).outcome s.cursor
    (∃! parts : NumberShape × List Char, NumberAt (c :: cs) parts.1 parts.2) ∧
    (∀ shape rest, NumberAt (c :: cs) shape rest →
      let text := shape.text
      let last := s.cursor.skip text.length
      c :: cs = text ++ rest ∧ last.rest = rest ∧
      (¬ shape.Valid →
        outcome = (.error ⟨.malformedNumber (String.ofList text), s.cursor.position⟩, last)) ∧
      (shape.Valid → rest.head? = some 'i' →
        outcome = (.ok ⟨.imag (String.ofList (text ++ ['i'])), s.cursor.position,
          last.advance.position⟩, last.advance)) ∧
      (shape.Valid → rest.head? ≠ some 'i' →
        ∃ value, (∀ v, shape.Denotes v ↔ v = value) ∧
          outcome = (.ok ⟨value, s.cursor.position, last.position⟩, last))) ∧
    (s.failed = false → s.next.1 = some outcome.1 ∧ s.next.2.cursor = outcome.2) ∧
    (s.cursor.Proper → s.cursor.head.number? = some (outcome.1, outcome.2.head)) := by
  intro outcome
  refine ⟨?_, fun shape rest hnumber => ?_, fun hf => ?_, fun hproper => ?_⟩
  · obtain ⟨rest, -, hall⟩ := numberAt_atFront (c :: cs)
    refine ⟨(NumberShape.atFront (c :: cs), rest), (hall _ _).mpr ⟨rfl, rfl⟩, fun parts hparts => ?_⟩
    obtain ⟨hshape, hleft⟩ := (hall _ _).mp hparts
    exact Prod.ext hshape hleft
  · intro text last
    obtain ⟨hshape, htext⟩ := numberAt_iff.mp hnumber
    have hlast : last.rest = rest := by rw [Cursor.skip_rest, hrest, htext, List.drop_left]
    have houtcome : outcome = (Lexeme.ofShape shape rest.head?).outcome s.cursor := by
      show (Lexeme.number (c :: cs)).outcome s.cursor = _
      rw [Lexeme.number_eq, ← hshape, htext, List.drop_left]
    refine ⟨htext, hlast, ?_, ?_, ?_⟩
    · intro hinvalid
      rw [houtcome, hnumber.ofShape_invalid hc hinvalid]
      rfl
    · intro hvalid hi
      have hletter : last.advance = s.cursor.skip (text.length + 1) := Cursor.skip_skip _ _ 1
      rw [houtcome, hi, hnumber.ofShape_imaginary hc hvalid, hletter]
      rfl
    · intro hvalid hi
      obtain ⟨value, hdenotes, hshown⟩ := hnumber.ofShape_valid hc hvalid hi
      refine ⟨value, fun v => ⟨fun hv => hv.unique hdenotes, fun hv => hv ▸ hdenotes⟩, ?_⟩
      rw [houtcome, hshown]
      rfl
  · have hclass := CharClass.of_eq_digit.mpr hc
    have hnext := next_outcome hf hrest (by simp [hclass])
    rwa [Lexeme.atFront, hclass] at hnext
  · rw [Cursor.number?_head hproper, hrest, Lexeme.handedOut_eq]

/-- A fraction and an exponent together, up to an operator. -/
theorem next_number_fraction_exponent :
    let s := ofString "2.5e3*x"
    s.cursor.rest = '2' :: ".5e3*x".toList ∧ '2'.isDigit = true ∧
      ∃ x : Binary64, x.IsNearest 2500 ∧
        s.next.1 = some (.ok ⟨.float x, .start, ⟨5, 1, 6⟩⟩) := by
  have hrest : (ofString "2.5e3*x").cursor.rest = '2' :: ".5e3*x".toList := rfl
  have hnumber : NumberAt ('2' :: ".5e3*x".toList)
      (.decimal ['2'] (some ['5']) (some ⟨'e', none, ['3']⟩)) "*x".toList :=
    numberAt_iff.mpr ⟨by decide, by decide⟩
  obtain ⟨-, hparts, hnext, -⟩ := next_number _ hrest (by decide)
  obtain ⟨-, -, -, -, hvalue⟩ := hparts _ _ hnumber
  obtain ⟨value, hdenotes, houtcome⟩ := hvalue (by decide) (by decide)
  obtain ⟨x, hx, rfl⟩ := (hdenotes value).mpr rfl
  have hrational : NumberShape.rational ['2'] (some ['5']) (some ⟨'e', none, ['3']⟩) = 2500 := by
    have hparts : Numeral.positional 10 ['2'] = 2 ∧ Numeral.positional 10 ['5'] = 5 ∧
        Exponent.power ⟨'e', none, ['3']⟩ = 3 := ⟨rfl, rfl, rfl⟩
    norm_num [NumberShape.rational, hparts]
  refine ⟨hrest, by decide, x, hrational ▸ hx, (hnext rfl).1.trans ?_⟩
  rw [houtcome]
  rfl

/-- **Strings and runes.** A literal goes from its opening mark to the first mark that closes
it, the first with an even number of backslashes right before it, and its value is that text
on one line, without the blanks at its end, and the mark. Where no mark closes it, the
rest of the text is passed for nothing. The scanner hands this out, and so does the reader that
takes the escapes apart and puts them together again. -/
theorem next_quoted (s : Scanner) {mark : Char} {cs : List Char}
    (hrest : s.cursor.rest = mark :: cs) (hmark : isQuote mark = true) :
    let text := mark :: cs
    let outcome := (Lexeme.quoted mark cs).outcome s.cursor
    (∀ j, IsLeast {j | Quoted.Closes mark text j} j →
      let kept := String.ofList (trimEnd (Quoted.onOneLine (text.take j)) ++ [mark])
      let value := if mark = '\'' then TokenValue.byte kept else TokenValue.string kept
      let last := s.cursor.skip (j + 1)
      outcome = (.ok ⟨value, s.cursor.position, last.position⟩, last) ∧
        last.rest = text.drop (j + 1)) ∧
    ((∀ j, ¬ Quoted.Closes mark text j) →
      let last := s.cursor.skip text.length
      outcome = (.error ⟨.unterminatedLiteral mark, s.cursor.position⟩, last) ∧
        last.rest = []) ∧
    (s.failed = false → s.next.1 = some outcome.1 ∧ s.next.2.cursor = outcome.2) ∧
    (s.cursor.Proper →
      s.cursor.head.quoted? mark = some (outcome.1, outcome.2.head)) := by
  intro text outcome
  refine ⟨fun j hj => ?_, fun hnone => ?_, fun hf => ?_, fun hproper => ?_⟩
  · obtain ⟨n, rfl⟩ := Nat.exists_eq_add_of_le' hj.1.1
    intro kept value last
    have hvalue : Quoted.value mark (cs.take n) = value := rfl
    refine ⟨?_, by rw [Cursor.skip_rest, hrest]⟩
    show (Lexeme.quoted mark cs).outcome s.cursor = _
    rw [Lexeme.quoted, Quoted.bodyLength?_eq_some_iff.mpr hj]
    simp only [Lexeme.outcome, hvalue]
    rfl
  · intro last
    refine ⟨?_, by rw [Cursor.skip_rest, hrest, List.drop_length]⟩
    show (Lexeme.quoted mark cs).outcome s.cursor = _
    rw [Lexeme.quoted, Quoted.bodyLength?_eq_none_iff.mpr hnone]
    rfl
  · have hclass := CharClass.of_eq_quote.mpr hmark
    have hnext := next_outcome hf hrest (by simp [hclass])
    rwa [Lexeme.atFront, hclass] at hnext
  · rw [Cursor.quoted?_head hproper hrest, Lexeme.handedOut_eq]

/-- The second mark is escaped, and the backslash before the third is. -/
theorem next_quoted_behind_escapes :
    let s := ofString "\"a\\\"b\\\\\" c"
    s.cursor.rest = '"' :: "a\\\"b\\\\\" c".toList ∧ isQuote '"' = true ∧
      s.next.1 = some (.ok ⟨.string "\"a\\\"b\\\\\"", .start, ⟨8, 1, 9⟩⟩) := by
  have hrest : (ofString "\"a\\\"b\\\\\" c").cursor.rest = '"' :: "a\\\"b\\\\\" c".toList := rfl
  have hleast : IsLeast {j | Quoted.Closes '"' ('"' :: "a\\\"b\\\\\" c".toList) j} 7 := by
    refine ⟨by decide, fun j hj => Nat.le_of_not_lt fun hlt => ?_⟩
    have hbefore : ∀ i < 7, ¬ Quoted.Closes '"' ('"' :: "a\\\"b\\\\\" c".toList) i := by decide
    exact hbefore j hlt hj
  obtain ⟨hclosed, -, hnext, -⟩ := next_quoted _ hrest (by decide)
  refine ⟨hrest, by decide, (hnext rfl).1.trans (congrArg some ?_)⟩
  rw [(hclosed 7 hleast).1]
  decide

end Scanner

end GoTokens
