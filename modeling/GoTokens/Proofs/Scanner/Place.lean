import GoTokens.Proofs.Cursor
import GoTokens.Proofs.Scanner.Requests

/-!
Where the cursor of a scanner is. Whatever has been asked for, it stands at an index of the
source (`askAll_standsAt`), and the next lexeme begins with the first character from there on
that is no blank (`ahead_firstFrom`).
-/

namespace GoTokens

open Text

/-- `c` is the first character from the index `k` on that is no blank, and `j` its index. -/
structure FirstFrom (cs : List Char) (k j : Nat) (c : Char) : Prop where
  le : k ≤ j
  char : cs[j]? = some c
  notBlank : isBlank c = false
  blanks : ∀ i d, k ≤ i → i < j → cs[i]? = some d → isBlank d = true

namespace Scanner

variable {s : Scanner} {cs : List Char} {k : Nat}

theorem ahead_standsAt (h : s.cursor.StandsAt cs k) :
    s.ahead.StandsAt cs (k + ((cs.drop k).takeWhile isBlank).length) := by
  have hle := (List.takeWhile_prefix isBlank (l := cs.drop k)).length_le
  rw [List.length_drop] at hle
  have hle' := h.le
  have hskip := h.skip ((cs.drop k).takeWhile isBlank).length
  rwa [Nat.min_eq_left (by omega), ← h.remaining, ← Cursor.eatWhile_eq_skip, h.remaining] at hskip

theorem next_standsAt (h : s.cursor.StandsAt cs k) : ∃ j, s.next.2.cursor.StandsAt cs j := by
  rcases s.next_cases with hf | ⟨hf, hr | ⟨c, rest, hr, ⟨value, n, hl⟩ | ⟨fault, n, hl⟩⟩⟩
  · rw [next_of_failed hf]
    exact ⟨k, h⟩
  · rw [next_of_nil hf hr]
    exact ⟨_, ahead_standsAt h⟩
  · rw [next_of_token hf hr hl]
    exact ⟨_, (ahead_standsAt h).skip n⟩
  · rw [next_of_fault hf hr hl]
    exact ⟨_, (ahead_standsAt h).skip n⟩

theorem askAll_standsAt (h : s.cursor.StandsAt cs k) (requests : List Request) :
    ∃ j, (s.askAll requests).2.cursor.StandsAt cs j := by
  induction requests generalizing s k with
  | nil => exact ⟨k, h⟩
  | cons request requests ih =>
    obtain ⟨j, hj⟩ := next_standsAt h
    rw [askAll_cons]
    exact ih hj

theorem ofString_standsAt (source : String) : (ofString source).cursor.StandsAt source.toList 0 :=
  Cursor.standsAt_atIndex (Nat.zero_le _)

/-- The lexeme ahead begins with the first character that is no blank. -/
theorem ahead_firstFrom {c : Char} {rest : List Char} (h : s.cursor.StandsAt cs k)
    (hr : s.ahead.rest = c :: rest) :
    FirstFrom cs k (k + ((cs.drop k).takeWhile isBlank).length) c := by
  have hdrop : (cs.drop k).dropWhile isBlank = c :: rest := by
    rw [← h.remaining, ← Cursor.eatWhile_rest]
    exact hr
  refine ⟨Nat.le_add_right _ _, ?_, ?_, fun i d hki hij hd => ?_⟩
  · rw [← (ahead_standsAt h).current, Cursor.current?, hr]
    rfl
  · have hhead := List.head_dropWhile_not isBlank (l := cs.drop k) (by rw [hdrop]; simp)
    simpa [hdrop] using hhead
  · have hi : i - k < ((cs.drop k).takeWhile isBlank).length := by omega
    have hget : (cs.drop k)[i - k]? = some d := by
      rw [List.getElem?_drop, Nat.add_sub_cancel' hki, hd]
    rw [← List.takeWhile_append_dropWhile (p := isBlank) (l := cs.drop k),
      List.getElem?_append_left hi] at hget
    exact List.mem_takeWhile_imp (List.mem_of_getElem? hget)

end Scanner

end GoTokens
