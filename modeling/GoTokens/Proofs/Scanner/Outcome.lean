import GoTokens.Proofs.Checked.Lexeme
import GoTokens.Proofs.Lexeme.Meaning
import GoTokens.Proofs.Scanner.Reading

/-!
What is handed out in front of a lexeme. It depends on the text ahead alone, and is the same
whether an item is asked for, a next token, or the reader that checks its conditions
(`handsOut_outcome`). So the meanings of lexemes say what a scanner does (`handsOut_of_means`).
-/

namespace GoTokens

open Text

/-- What reading a lexeme where a cursor stands hands out, and the cursor behind it. -/
def Lexeme.outcome (c : Cursor) : Lexeme → Item × Cursor
  | token value n => (.ok ⟨value, c.position, (c.skip n).position⟩, c.skip n)
  | fault f n => (.error ⟨f, c.position⟩, c.skip n)

theorem Lexeme.handedOut_eq (c : Cursor) (lexeme : Lexeme) :
    lexeme.handedOut c = ((lexeme.outcome c).1, (lexeme.outcome c).2.head) := by
  cases lexeme <;> rfl

theorem Lexeme.isBlank_of_token {c : Char} {cs : List Char} {value : TokenValue} {n : Nat}
    (h : atFront c cs = token value n) : isBlank c = false := by
  by_contra hblank
  rw [Bool.not_eq_false] at hblank
  rw [atFront, CharClass.of_eq_blank.mpr hblank] at h
  cases h

namespace Scanner

/-- A scanner hands out an item, asked in one way or the other, and its cursor is at `last` then;
so does the reader that checks its conditions, where they can be met. -/
structure HandsOut (s : Scanner) (item : Item) (last : Cursor) : Prop where
  next : s.next.1 = some item
  nextToken : s.nextToken = (item.map some, s.next.2)
  cursor : s.next.2.cursor = last
  checked : s.cursor.Proper → ∃ c, s.cursor.current? = some c ∧
    s.cursor.head.lexeme? c = some (item, last.head)

variable {s : Scanner} {c : Char} {cs : List Char}

theorem nextToken_of_next {item : Item} (h : s.next.1 = some item) :
    s.nextToken = (item.map some, s.next.2) := by
  rcases hnext : s.next with ⟨item', s'⟩
  rw [hnext] at h
  obtain rfl : item' = some item := h
  rw [nextToken, hnext]
  cases item <;> rfl

theorem ahead_eq_cursor (hrest : s.cursor.rest = c :: cs) (hc : isBlank c = false) :
    s.ahead = s.cursor := by
  rw [ahead, Cursor.eatWhile_eq_skip, hrest, List.takeWhile_cons_of_neg (by simp [hc])]
  rfl

/-- **In front of a lexeme**, that lexeme is handed out. -/
theorem handsOut_outcome (hf : s.failed = false) (hrest : s.cursor.rest = c :: cs)
    (hc : isBlank c = false) :
    s.HandsOut ((Lexeme.atFront c cs).outcome s.cursor).1
      ((Lexeme.atFront c cs).outcome s.cursor).2 := by
  have hahead := ahead_eq_cursor hrest hc
  have hrest' : s.ahead.rest = c :: cs := hahead ▸ hrest
  have hnext : s.next.1 = some ((Lexeme.atFront c cs).outcome s.cursor).1 ∧
      s.next.2.cursor = ((Lexeme.atFront c cs).outcome s.cursor).2 := by
    cases hlex : Lexeme.atFront c cs with
    | token value n =>
      rw [next_of_token hf hrest' hlex, hahead]
      exact ⟨rfl, rfl⟩
    | fault fault n =>
      rw [next_of_fault hf hrest' hlex, hahead]
      exact ⟨rfl, rfl⟩
  refine ⟨hnext.1, nextToken_of_next hnext.1, hnext.2, fun hproper => ⟨c, ?_, ?_⟩⟩
  · rw [Cursor.current?, hrest, List.head?_cons]
  · rw [Cursor.lexeme?_head hproper hrest, Lexeme.handedOut_eq]

/-- A scanner in front of a lexeme hands out what the lexeme means, and goes behind it. -/
theorem handsOut_of_means {value : TokenValue} {n : Nat} (hf : s.failed = false)
    (hrest : s.cursor.rest = c :: cs) (h : Lexeme.Means c cs value n) :
    s.HandsOut (.ok ⟨value, s.cursor.position, (s.cursor.skip n).position⟩) (s.cursor.skip n) := by
  have hout := handsOut_outcome hf hrest (Lexeme.isBlank_of_token h.atFront)
  rw [h.atFront] at hout
  exact hout

end Scanner

end GoTokens
