import GoTokens.Position
import Mathlib.Data.List.Induction
import Mathlib.Data.List.TakeWhile

/-!
Places counted from a text as a whole. A place is kept up to date one character at a
time; `inText` says what it must be from the characters before it alone, `since` sees it
from a later beginning, and `movedTo` from an earlier one. All agree with moving on:
`start_afterAll`, `afterAll_since`, `start_afterAll_movedTo`.
-/

namespace GoTokens.Position

/-- The characters after the last line end of a text. -/
def lastLine (cs : List Char) : List Char := (cs.reverse.takeWhile (· ≠ '\n')).reverse

/-- The place of an offset in a text: one line for each line end before it, one column for
each character since the last of them, and both begin at one. -/
def inText (chars : List Char) (offset : Nat) : Position :=
  ⟨offset, 1 + (chars.take offset).count '\n', 1 + (lastLine (chars.take offset)).length⟩

/-- A place as it is for a text that begins at `origin`. -/
def since (p origin : Position) : Position :=
  ⟨p.offset - origin.offset, p.line - origin.line + 1,
    if p.line = origin.line then p.column - origin.column + 1 else p.column⟩

/-- A place of a text as it is where the text begins at `origin`. -/
def movedTo (p origin : Position) : Position :=
  ⟨origin.offset + p.offset, origin.line + (p.line - 1),
    if p.line = 1 then origin.column + (p.column - 1) else p.column⟩

theorem afterAll_snoc (p : Position) (cs : List Char) (c : Char) :
    p.afterAll (cs ++ [c]) = (p.afterAll cs).after c := by
  rw [afterAll_append, afterAll_cons, afterAll_nil]

theorem lastLine_snoc (cs : List Char) (c : Char) :
    lastLine (cs ++ [c]) = if c = '\n' then [] else lastLine cs ++ [c] := by
  by_cases hc : c = '\n' <;> simp [lastLine, hc]

theorem lastLine_of_notMem {cs : List Char} (h : '\n' ∉ cs) : lastLine cs = cs := by
  have hall : cs.reverse.takeWhile (· ≠ '\n') = cs.reverse := by
    rw [List.takeWhile_eq_self_iff]
    intro c hc
    have hne : c ≠ '\n' := by rintro rfl; exact h (List.mem_reverse.mp hc)
    simpa using hne
  rw [lastLine, hall, List.reverse_reverse]

/-- Moving over a text adds its length to the offset and its line ends to the line, and
begins the column anew if there is a line end. -/
theorem afterAll_eq (p : Position) (cs : List Char) :
    p.afterAll cs = ⟨p.offset + cs.length, p.line + cs.count '\n',
      if '\n' ∈ cs then 1 + (lastLine cs).length else p.column + cs.length⟩ := by
  induction cs using List.reverseRecOn with
  | nil => rfl
  | append_singleton cs c ih =>
    rw [afterAll_snoc, ih, lastLine_snoc]
    by_cases hc : c = '\n'
    · subst hc
      simp [after, Nat.add_assoc]
    · have hc' : '\n' ≠ c := Ne.symm hc
      by_cases hm : '\n' ∈ cs <;> simp [after, hc, hc', hm, Nat.add_assoc]

/-- From the start, moving over the front of a text leads to its place in the text. -/
theorem start_afterAll (before rest : List Char) :
    start.afterAll before = inText (before ++ rest) before.length := by
  rw [afterAll_eq, inText, List.take_left]
  by_cases hm : '\n' ∈ before
  · simp [start, hm]
  · simp [start, hm, lastLine_of_notMem hm]

theorem start_afterAll_line {cs : List Char} (h : '\n' ∉ cs) :
    start.afterAll cs = ⟨cs.length, 1, cs.length + 1⟩ := by
  rw [afterAll_eq, if_neg h, List.count_eq_zero.mpr h]
  simp [start, Nat.add_comm]

@[simp] theorem start_offset : start.offset = 0 := rfl

theorem start_afterAll_offset (cs : List Char) : (start.afterAll cs).offset = cs.length := by
  simp

/-- The place lies in a text, and is the one that its offset has there. -/
structure IsIn (p : Position) (chars : List Char) : Prop where
  offset_le : p.offset ≤ chars.length
  eq_inText : p = inText chars p.offset

theorem isIn_start_afterAll (before rest : List Char) :
    (start.afterAll before).IsIn (before ++ rest) where
  offset_le := by simp
  eq_inText := by
    rw [start_afterAll_offset]
    exact start_afterAll before rest

theorem lastLine_length_le (cs : List Char) : (lastLine cs).length ≤ cs.length := by
  have hle := (List.takeWhile_prefix (· ≠ '\n') (l := cs.reverse)).length_le
  rw [lastLine, List.length_reverse]
  exact hle.trans_eq List.length_reverse

/-- Lines and columns are at most one more than the characters of the text, so those of a
text of up to `2 ^ 32 - 2` characters have 32 bits. -/
theorem IsIn.bounded {p : Position} {chars : List Char} (h : p.IsIn chars) :
    p.line ≤ chars.length + 1 ∧ p.column ≤ chars.length + 1 := by
  have htake : (chars.take p.offset).length ≤ chars.length := List.length_take_le' _ _
  have hline : (chars.take p.offset).count '\n' ≤ (chars.take p.offset).length :=
    List.count_le_length
  have hcolumn := lastLine_length_le (chars.take p.offset)
  rw [h.eq_inText]
  simp only [inText]
  omega

/-- A place reached from an origin is, as seen from there, reached from the start. -/
theorem afterAll_since (p : Position) (cs : List Char) :
    (p.afterAll cs).since p = start.afterAll cs := by
  rw [afterAll_eq, afterAll_eq]
  by_cases hm : '\n' ∈ cs
  · have hc : 0 < cs.count '\n' := List.count_pos_iff.mpr hm
    simp only [since, start, hm, if_true, Position.mk.injEq]
    refine ⟨by omega, by omega, ?_⟩
    rw [if_neg (by omega)]
  · have hc : cs.count '\n' = 0 := List.count_eq_zero.mpr hm
    simp only [since, start, hm, hc, if_false, Position.mk.injEq]
    exact ⟨by omega, by omega, by simp; omega⟩

/-- A place reached from the start, moved to an origin, is reached from the origin. -/
theorem start_afterAll_movedTo (origin : Position) (cs : List Char) :
    (start.afterAll cs).movedTo origin = origin.afterAll cs := by
  rw [afterAll_eq, afterAll_eq]
  by_cases hm : '\n' ∈ cs
  · have hc : 0 < cs.count '\n' := List.count_pos_iff.mpr hm
    simp only [movedTo, start, hm, if_true, Position.mk.injEq]
    refine ⟨by omega, by omega, ?_⟩
    rw [if_neg (by omega)]
  · have hc : cs.count '\n' = 0 := List.count_eq_zero.mpr hm
    simp only [movedTo, start, hm, hc, if_false, Position.mk.injEq]
    exact ⟨by omega, trivial, by simp⟩

theorem afterAll_afterAll_since (origin : Position) (before cs : List Char) :
    ((origin.afterAll before).afterAll cs).since origin = (start.afterAll before).afterAll cs := by
  rw [← afterAll_append, ← afterAll_append, afterAll_since]

theorem afterAll_take_drop (p : Position) (cs : List Char) (n : Nat) :
    (p.afterAll (cs.take n)).afterAll (cs.drop n) = p.afterAll cs := by
  rw [← afterAll_append, List.take_append_drop]

end GoTokens.Position
