import GoTokens.Lexeme
import GoTokens.Proofs.Lexeme.Quoted
import Mathlib.Order.Bounds.Basic

/-!
Where a literal ends, said without escapes: at the first mark behind the opening one with an
even number of backslashes right before it. Reading a literal follows the escapes from its
front instead, and finds the same place (`bodyLength?_eq_some_iff`), or none where there is
none (`bodyLength?_eq_none_iff`).
-/

namespace GoTokens.Quoted

/-- The mark at the index `j` of a text closes the literal at its front: between the opening
mark and this one, the run of backslashes at the end has an even number. -/
def Closes (mark : Char) (text : List Char) (j : Nat) : Prop :=
  1 ≤ j ∧ text[j]? = some mark ∧
    (((text.take j).drop 1).rtakeWhile (· == '\\')).length % 2 = 0

instance (mark : Char) (text : List Char) (j : Nat) : Decidable (Closes mark text j) :=
  inferInstanceAs (Decidable (_ ∧ _ ∧ _))

theorem closes_succ {mark : Char} {cs : List Char} {i : Nat} :
    Closes mark (mark :: cs) (i + 1) ↔
      cs[i]? = some mark ∧ ((cs.take i).rtakeWhile (· == '\\')).length % 2 = 0 := by
  simp [Closes]

theorem closes_of_pending {mark : Char} {body : List Char}
    (h : pending? mark false body = some false) (rest : List Char) :
    Closes mark (mark :: (body ++ mark :: rest)) (body.length + 1) := by
  refine closes_succ.mpr ⟨by simp, ?_⟩
  rw [List.take_left]
  have hodd := mt (pending?_iff_odd h).mpr Bool.false_ne_true
  omega

/-- Nothing closes a literal within a body that goes on to its end. -/
theorem not_closes_within {mark : Char} {escaped : Bool} {body : List Char}
    (h : pending? mark false body = some escaped) (rest : List Char) {i : Nat}
    (hi : i < body.length) : ¬ Closes mark (mark :: (body ++ rest)) (i + 1) := by
  intro hcloses
  obtain ⟨hmark, heven⟩ := closes_succ.mp hcloses
  rw [List.getElem?_append_left hi] at hmark
  rw [List.take_append_of_le_length hi.le] at heven
  have hsplit : body = body.take i ++ mark :: body.drop (i + 1) := by
    obtain ⟨hlt, hget⟩ := List.getElem?_eq_some_iff.mp hmark
    rw [← hget, ← List.drop_eq_getElem_cons hlt, List.take_append_drop]
  rw [hsplit] at h
  obtain ⟨before, hbefore⟩ := pending?_of_append (Option.isSome_of_eq_some h)
  -- Were the mark not escaped, it would have closed the literal.
  cases before with
  | true =>
    have hodd := (pending?_iff_odd hbefore).mp rfl
    omega
  | false =>
    rw [pending?_append, hbefore, Option.bind_some, pending?, if_pos rfl] at h
    cases h

theorem exists_pending {mark : Char} {escaped : Bool} {seen : Nat} {cs : List Char}
    (h : bodyLength? mark escaped seen cs = none) :
    ∃ escaped', pending? mark escaped cs = some escaped' := by
  induction cs generalizing escaped seen with
  | nil => exact ⟨escaped, rfl⟩
  | cons c cs ih =>
    unfold bodyLength? at h
    cases escaped with
    | true =>
      rw [if_pos rfl] at h
      exact ih h
    | false =>
      rw [if_neg Bool.false_ne_true] at h
      split at h
      · cases h
      · rename_i hc
        obtain ⟨escaped', hrest⟩ := ih h
        exact ⟨escaped', by rw [pending?, if_neg hc, hrest]⟩

/-- **The end of a literal.** The body that is read ends before the least index that closes the
literal. -/
theorem isLeast_of_bodyLength? {mark : Char} {cs : List Char} {n : Nat}
    (h : bodyLength? mark false 0 cs = some n) :
    IsLeast {j | Closes mark (mark :: cs) j} (n + 1) := by
  obtain ⟨body, rest, rfl, hn, hpending⟩ := bodyLength?_split h
  rw [Nat.zero_add] at hn
  subst hn
  constructor
  · exact closes_of_pending hpending rest
  · intro j hj
    have hpos : 1 ≤ j := hj.1
    obtain ⟨i, rfl⟩ := Nat.exists_eq_add_of_le' hpos
    by_contra hlt
    exact not_closes_within hpending (mark :: rest) (by omega) hj

theorem bodyLength?_eq_none_iff {mark : Char} {cs : List Char} :
    bodyLength? mark false 0 cs = none ↔ ∀ j, ¬ Closes mark (mark :: cs) j := by
  constructor
  · intro h j hj
    obtain ⟨escaped, hpending⟩ := exists_pending h
    obtain ⟨i, rfl⟩ := Nat.exists_eq_add_of_le' hj.1
    have hi : i < cs.length := (List.getElem?_eq_some_iff.mp (closes_succ.mp hj).1).1
    have hnot := not_closes_within hpending [] hi
    rw [List.append_nil] at hnot
    exact hnot hj
  · intro h
    cases hlength : bodyLength? mark false 0 cs with
    | none => rfl
    | some n => exact absurd (isLeast_of_bodyLength? hlength).1 (h _)

theorem bodyLength?_eq_some_iff {mark : Char} {cs : List Char} {n : Nat} :
    bodyLength? mark false 0 cs = some n ↔
      IsLeast {j | Closes mark (mark :: cs) j} (n + 1) := by
  refine ⟨isLeast_of_bodyLength?, fun h => ?_⟩
  cases hlength : bodyLength? mark false 0 cs with
  | none => exact absurd h.1 (bodyLength?_eq_none_iff.mp hlength _)
  | some m =>
    have hm := (isLeast_of_bodyLength? hlength).unique h
    rw [Nat.succ.inj hm]

end GoTokens.Quoted
