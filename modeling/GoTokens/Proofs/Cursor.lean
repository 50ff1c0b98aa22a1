import GoTokens.Cursor
import GoTokens.Proofs.Place
import Mathlib.Data.List.Forall2

/-!
A reading head as an index into its text. `StandsAt` says what every counter and every
look of a cursor must be, from the text and an index alone; each step keeps that up for the
index it moves to (`StandsAt.step`), and so do any number of steps, with copies of the
cursor put aside and taken up again (`moves_follow_index`).
-/

namespace GoTokens

namespace Cursor

theorem foldl_utf8Size (cs : List Char) (n : Nat) :
    cs.foldl (fun n ch => n + ch.utf8Size) n = n + byteLength cs := by
  induction cs generalizing n with
  | nil => rfl
  | cons c cs ih =>
    have hall : byteLength (c :: cs) = 0 + c.utf8Size + byteLength cs := ih _
    rw [List.foldl_cons, ih, hall]
    omega

@[simp] theorem byteLength_nil : byteLength [] = 0 := rfl

@[simp] theorem byteLength_cons (c : Char) (cs : List Char) :
    byteLength (c :: cs) = c.utf8Size + byteLength cs := by
  rw [byteLength, List.foldl_cons, foldl_utf8Size, Nat.zero_add]

theorem byteLength_append (as bs : List Char) :
    byteLength (as ++ bs) = byteLength as + byteLength bs :=
  List.foldl_append.trans (foldl_utf8Size bs _)

def boundary (cs : List Char) (k : Nat) : Nat := byteLength (cs.take k)

theorem boundary_of_length_le {cs : List Char} {k : Nat} (h : cs.length ≤ k) :
    boundary cs k = byteLength cs := by
  rw [boundary, List.take_of_length_le h]

theorem boundary_append {cs : List Char} {j : Nat} (h : j ≤ cs.length) (more : List Char) :
    boundary (cs ++ more) j = boundary cs j := by
  rw [boundary, List.take_append_of_le_length h, boundary]

theorem boundary_take {cs : List Char} {j k : Nat} (h : j ≤ k) :
    boundary (cs.take k) j = boundary cs j := by
  rw [boundary, List.take_take, Nat.min_eq_left h, boundary]

theorem boundary_le {cs : List Char} {j k : Nat} (h : j ≤ k) : boundary cs j ≤ boundary cs k := by
  have hsplit : cs.take k = (cs.take k).take j ++ (cs.take k).drop j :=
    (List.take_append_drop _ _).symm
  rw [← boundary_take h, boundary, boundary, congrArg byteLength hsplit, byteLength_append]
  exact Nat.le_add_right _ _

theorem boundary_succ {cs : List Char} {k : Nat} (h : k < cs.length) :
    boundary cs (k + 1) = boundary cs k + cs[k].utf8Size := by
  rw [boundary, boundary, ← List.take_append_getElem h, byteLength_append, byteLength_cons,
    byteLength_nil, Nat.add_zero]

theorem boundary_lt {cs : List Char} {j k : Nat} (h : j < k) (hk : k ≤ cs.length) :
    boundary cs j < boundary cs k := by
  have hj : j < cs.length := Nat.lt_of_lt_of_le h hk
  have hpos := cs[j].utf8Size_pos
  have hle : boundary cs (j + 1) ≤ boundary cs k := boundary_le h
  rw [boundary_succ hj] at hle
  omega

theorem boundary_cons (c : Char) (cs : List Char) (k : Nat) :
    boundary (c :: cs) (k + 1) = c.utf8Size + boundary cs k := by
  rw [boundary, List.take_succ_cons, byteLength_cons, boundary]

theorem boundary_le_length (cs : List Char) (k : Nat) : boundary cs k ≤ 4 * cs.length := by
  induction cs generalizing k with
  | nil => simp [boundary]
  | cons c cs ih =>
    cases k with
    | zero => simp [boundary]
    | succ k =>
      have hsize : c.utf8Size ≤ 4 := c.utf8Size_le_four
      have hrest := ih k
      rw [boundary_cons, List.length_cons]
      omega

theorem boundary_snoc (cs : List Char) (c : Char) :
    boundary (cs ++ [c]) (cs ++ [c]).length = boundary cs cs.length + c.utf8Size := by
  rw [boundary_of_length_le (Nat.le_refl _), boundary_of_length_le (Nat.le_refl _),
    byteLength_append, byteLength_cons, byteLength_nil, Nat.add_zero]

/-- Walking back over a text finds the place of a boundary, and what lies behind it. -/
theorem sliceBack?_boundary {cs : List Char} {j : Nat} (h : j ≤ cs.length) (found : List Char) :
    sliceBack? (boundary cs j) cs.reverse (boundary cs cs.length) found =
      some (cs.drop j ++ found) := by
  -- The walk begins at the right end of the text, and so does the induction.
  induction cs using List.reverseRecOn generalizing found with
  | nil => simp [sliceBack?, boundary]
  | append_singleton cs c ih =>
    have hlen : (cs ++ [c]).length = cs.length + 1 := by simp
    rw [List.reverse_append, List.reverse_singleton, List.singleton_append, sliceBack?,
      boundary_snoc]
    rcases Nat.lt_or_ge cs.length j with hj | hj
    · obtain rfl : j = (cs ++ [c]).length := by omega
      rw [if_pos (boundary_snoc cs c).symm, List.drop_length, List.nil_append]
    · have hle : boundary cs j ≤ boundary cs cs.length := boundary_le hj
      have hpos : 0 < c.utf8Size := c.utf8Size_pos
      rw [boundary_append hj, if_neg (by omega), if_neg (by omega), Nat.add_sub_cancel, ih hj,
        List.drop_append_of_le_length hj, List.append_assoc, List.singleton_append]

/-- Only at a boundary is there something to find. -/
theorem boundary_of_sliceBack? {cs : List Char} {start : Nat} {found text : List Char}
    (h : sliceBack? start cs.reverse (boundary cs cs.length) found = some text) :
    ∃ j ≤ cs.length, start = boundary cs j := by
  induction cs using List.reverseRecOn generalizing found with
  | nil =>
    refine ⟨0, Nat.le_refl _, ?_⟩
    simp only [List.reverse_nil, sliceBack?] at h
    split at h
    · rename_i heq
      exact heq.symm
    · cases h
  | append_singleton cs c ih =>
    have hlen : (cs ++ [c]).length = cs.length + 1 := by simp
    rw [List.reverse_append, List.reverse_singleton, List.singleton_append, sliceBack?] at h
    split at h
    · rename_i heq
      exact ⟨_, Nat.le_refl _, heq.symm⟩
    · split at h
      · cases h
      · rw [boundary_snoc, Nat.add_sub_cancel] at h
        obtain ⟨j, hj, rfl⟩ := ih h
        exact ⟨j, by omega, (boundary_append hj [c]).symm⟩

/-! ## The cursor of an index -/

/-- The cursor that stands before the character with an index. -/
def atIndex (cs : List Char) (k : Nat) : Cursor :=
  ⟨(cs.take k).reverse, cs.drop k, boundary cs k, .inText cs k⟩

theorem inText_eq_afterAll {cs : List Char} {k : Nat} (h : k ≤ cs.length) :
    Position.inText cs k = Position.start.afterAll (cs.take k) := by
  have hplace := Position.start_afterAll (cs.take k) (cs.drop k)
  rw [List.take_append_drop, List.length_take, Nat.min_eq_left h] at hplace
  exact hplace.symm

theorem advance_atIndex_of_lt {cs : List Char} {k : Nat} (h : k < cs.length) :
    (atIndex cs k).advance = atIndex cs (k + 1) := by
  have htake : cs.take (k + 1) = cs.take k ++ [cs[k]] := (List.take_append_getElem h).symm
  have hplace : (Position.inText cs k).after cs[k] = .inText cs (k + 1) := by
    rw [inText_eq_afterAll (Nat.le_of_lt h), inText_eq_afterAll h, htake, Position.afterAll_snoc]
  simp only [advance, atIndex, List.drop_eq_getElem_cons h, hplace, ← boundary_succ h]
  rw [htake, List.reverse_append]
  rfl

theorem advance_atIndex {cs : List Char} {k : Nat} (h : k ≤ cs.length) :
    (atIndex cs k).advance = atIndex cs (min (k + 1) cs.length) := by
  rcases Nat.lt_or_eq_of_le h with hlt | rfl
  · rw [advance_atIndex_of_lt hlt, Nat.min_eq_left hlt]
  · rw [Nat.min_eq_right (Nat.le_succ _)]
    simp [advance, atIndex]

theorem skip_atIndex {cs : List Char} {k : Nat} (h : k ≤ cs.length) (n : Nat) :
    (atIndex cs k).skip n = atIndex cs (min (k + n) cs.length) := by
  induction n generalizing k with
  | zero => rw [Nat.add_zero, Nat.min_eq_left h, skip]
  | succ n ih =>
    rw [skip, advance_atIndex h, ih (Nat.min_le_right _ _)]
    congr 1
    omega

/-- A cursor is where the index `k` of a text says, in every count that it keeps and in all
that it can see. -/
structure StandsAt (c : Cursor) (cs : List Char) (k : Nat) : Prop where
  le : k ≤ cs.length
  source : c.source = cs
  offset : c.position.offset = k
  bytes : c.bytes = boundary cs k
  line : c.position.line = 1 + (cs.take k).count '\n'
  column : c.position.column = 1 + (Position.lastLine (cs.take k)).length
  /-- With up to `2 ^ 32 - 2` characters, lines and columns have 32 bits. -/
  bounded : c.position.line ≤ cs.length + 1 ∧ c.position.column ≤ cs.length + 1
  remaining : c.rest = cs.drop k
  current : c.current? = cs[k]?
  peek : ∀ n, c.peek? n = cs[k + n]?
  atEnd : c.atEnd = true ↔ k = cs.length
  sliced : ∀ m, (c.sliceFrom? m).isSome = true ↔ m ≤ c.bytes ∧ ∃ j ≤ k, m = boundary cs j
  slice : ∀ j ≤ k, c.sliceFrom? (boundary cs j) = some ((cs.take k).drop j)

theorem sliceFrom?_atIndex {cs : List Char} {j k : Nat} (hj : j ≤ k) (hk : k ≤ cs.length) :
    (atIndex cs k).sliceFrom? (boundary cs j) = some ((cs.take k).drop j) := by
  have hlen : (cs.take k).length = k := List.length_take_of_le hk
  have hwalk := @sliceBack?_boundary (cs.take k) j (by omega) []
  rw [List.append_nil, hlen, boundary_take hj, boundary_take (Nat.le_refl k)] at hwalk
  exact hwalk

theorem sliceFrom?_atIndex_isSome {cs : List Char} {k m : Nat} (hk : k ≤ cs.length) :
    ((atIndex cs k).sliceFrom? m).isSome = true ↔
      m ≤ boundary cs k ∧ ∃ j ≤ k, m = boundary cs j := by
  have hlen : (cs.take k).length = k := List.length_take_of_le hk
  constructor
  · intro h
    obtain ⟨text, htext⟩ := Option.isSome_iff_exists.mp h
    have hwalk : sliceBack? m (cs.take k).reverse (boundary (cs.take k) (cs.take k).length) [] =
        some text := by
      rw [hlen, boundary_take (Nat.le_refl k)]
      exact htext
    obtain ⟨j, hj, rfl⟩ := boundary_of_sliceBack? hwalk
    rw [hlen] at hj
    rw [boundary_take hj]
    exact ⟨boundary_le hj, j, hj, rfl⟩
  · rintro ⟨-, j, hj, rfl⟩
    rw [sliceFrom?_atIndex hj hk]
    rfl

theorem standsAt_atIndex {cs : List Char} {k : Nat} (h : k ≤ cs.length) :
    (atIndex cs k).StandsAt cs k where
  le := h
  source := by simp [source, atIndex]
  offset := rfl
  bytes := rfl
  line := rfl
  column := rfl
  bounded := (show Position.IsIn (.inText cs k) cs from ⟨h, rfl⟩).bounded
  remaining := rfl
  current := by rw [current?, atIndex, List.head?_drop]
  peek n := by rw [peek?, atIndex, List.getElem?_drop]
  atEnd := by
    rw [Cursor.atEnd, atIndex, List.isEmpty_iff, List.drop_eq_nil_iff]
    omega
  sliced _ := sliceFrom?_atIndex_isSome h
  slice _ hj := sliceFrom?_atIndex hj h

theorem StandsAt.eq_atIndex {c : Cursor} {cs : List Char} {k : Nat} (h : c.StandsAt cs k) :
    c = atIndex cs k := by
  have hpassed : c.passed.reverse = cs.take k := by
    have hsource := h.source
    rw [Cursor.source, h.remaining] at hsource
    exact List.append_cancel_right (hsource.trans (List.take_append_drop k cs).symm)
  have hposition : c.position = .inText cs k := by
    rw [Position.inText, ← h.line, ← h.column, ← h.offset]
  rw [atIndex, ← hpassed, ← h.remaining, ← h.bytes, ← hposition, List.reverse_reverse]

theorem StandsAt.skip {c : Cursor} {cs : List Char} {k : Nat} (h : c.StandsAt cs k) (n : Nat) :
    (c.skip n).StandsAt cs (min (k + n) cs.length) := by
  rw [h.eq_atIndex, skip_atIndex h.le]
  exact standsAt_atIndex (Nat.min_le_right _ _)

/-! ## One step -/

section

variable {σ : Type} (keep : σ → Char → Bool × σ)

/-- The characters at the front of a text that a test with a state accepts, asked about one
after the other. -/
def runLength (s : σ) : List Char → Nat
  | [] => 0
  | ch :: rest => if (keep s ch).1 then runLength (keep s ch).2 rest + 1 else 0

/-- The state of a test after it was asked about each character of a text. -/
def stateAfter (s : σ) (cs : List Char) : σ := cs.foldl (fun s ch => (keep s ch).2) s

/-- The first `n` characters ahead are the longest run that a test accepts, and `last` is its
state after it was asked about those and about the character that ends the run, if one does. -/
structure Eaten (s : σ) (ahead : List Char) (n : Nat) (last : σ) : Prop where
  within : n ≤ ahead.length
  accepted : ∀ i ch, i < n → ahead[i]? = some ch →
    (keep (stateAfter keep s (ahead.take i)) ch).1 = true
  refused : ∀ ch, ahead[n]? = some ch → (keep (stateAfter keep s (ahead.take n)) ch).1 = false
  asked : last = stateAfter keep s (ahead.take (n + 1))

theorem eatThrough_eaten (ahead : List Char) (s : σ) (c : Cursor) :
    Eaten keep s ahead (runLength keep s ahead) (eatThrough keep ahead s c).2 := by
  induction ahead generalizing s c with
  | nil => exact ⟨Nat.le_refl _, by simp, by simp, rfl⟩
  | cons d ahead ih =>
    cases hd : keep s d with
    | mk kept s' =>
      cases kept with
      | false =>
        simp only [runLength, hd, eatThrough, Bool.false_eq_true, if_false]
        refine ⟨Nat.zero_le _, by simp, ?_, ?_⟩
        · intro ch hch
          cases hch
          rw [List.take_zero, stateAfter, List.foldl_nil, hd]
        · simp [stateAfter, hd]
      | true =>
        simp only [runLength, hd, eatThrough, if_true]
        obtain ⟨hwithin, haccepted, hrefused, hasked⟩ := ih s' c.advance
        have hfold (cs : List Char) : stateAfter keep s (d :: cs) = stateAfter keep s' cs := by
          rw [stateAfter, List.foldl_cons, hd, stateAfter]
        refine ⟨Nat.succ_le_succ hwithin, ?_, ?_, ?_⟩
        · intro i ch hi hch
          cases i with
          | zero =>
            cases hch
            rw [List.take_zero, stateAfter, List.foldl_nil, hd]
          | succ i =>
            rw [List.take_succ_cons, hfold]
            exact haccepted i ch (Nat.lt_of_succ_lt_succ hi) hch
        · intro ch hch
          rw [List.take_succ_cons, hfold]
          exact hrefused ch hch
        · rw [List.take_succ_cons, hfold]
          exact hasked

theorem eatThrough_eq_skip (ahead : List Char) (s : σ) (c : Cursor) :
    (eatThrough keep ahead s c).1 = c.skip (runLength keep s ahead) := by
  induction ahead generalizing s c with
  | nil => rfl
  | cons d ahead ih =>
    cases hd : keep s d with
    | mk kept s' =>
      cases kept with
      | false => simp [eatThrough, runLength, hd, skip]
      | true =>
        simp only [eatThrough, runLength, hd, if_true, skip]
        exact ih s' c.advance

end

/-- The ways to move a cursor. -/
inductive Step where
  | advance
  | advanceIf (expected : Char)
  | eatWhile {σ : Type} (keep : σ → Char → Bool × σ) (state : σ)

namespace Step

def onCursor : Step → Cursor → Cursor
  | .advance, c => c.advance
  | .advanceIf expected, c => (c.advanceIf expected).2
  | .eatWhile keep state, c => (c.eatWhileFrom keep state).1

def onIndex (cs : List Char) : Step → Nat → Nat
  | .advance, k => min (k + 1) cs.length
  | .advanceIf expected, k => if cs[k]? = some expected then k + 1 else k
  | .eatWhile keep state, k => k + runLength keep state (cs.drop k)

end Step

theorem advanceIf_atIndex {cs : List Char} {k : Nat} (h : k ≤ cs.length) (expected : Char) :
    (atIndex cs k).advanceIf expected =
      (decide (cs[k]? = some expected),
        atIndex cs (if cs[k]? = some expected then k + 1 else k)) := by
  have hcurrent := (standsAt_atIndex h).current
  rw [advanceIf, hcurrent]
  by_cases hk : cs[k]? = some expected
  · have hlt : k < cs.length := (List.getElem?_eq_some_iff.mp hk).1
    rw [if_pos hk, if_pos hk, decide_eq_true hk, advance_atIndex_of_lt hlt]
  · rw [if_neg hk, if_neg hk, decide_eq_false hk]

theorem add_runLength_le {σ : Type} {cs : List Char} {k : Nat} (h : k ≤ cs.length)
    (keep : σ → Char → Bool × σ) (s : σ) : k + runLength keep s (cs.drop k) ≤ cs.length := by
  have hwithin := (eatThrough_eaten keep (cs.drop k) s (atIndex cs k)).within
  rw [List.length_drop] at hwithin
  omega

theorem eatWhileFrom_atIndex {σ : Type} {cs : List Char} {k : Nat} (h : k ≤ cs.length)
    (keep : σ → Char → Bool × σ) (s : σ) :
    ((atIndex cs k).eatWhileFrom keep s).1 = atIndex cs (k + runLength keep s (cs.drop k)) := by
  have hle := add_runLength_le h keep s
  rw [eatWhileFrom, eatThrough_eq_skip, skip_atIndex h]
  exact congrArg (atIndex cs) (Nat.min_eq_left hle)

theorem Step.onIndex_le {cs : List Char} {k : Nat} (h : k ≤ cs.length) (step : Step) :
    step.onIndex cs k ≤ cs.length := by
  cases step with
  | advance => exact Nat.min_le_right _ _
  | advanceIf expected =>
    simp only [onIndex]
    split
    · rename_i hk
      exact (List.getElem?_eq_some_iff.mp hk).1
    · exact h
  | eatWhile keep state => exact add_runLength_le h keep state

theorem StandsAt.step {c : Cursor} {cs : List Char} {k : Nat} (h : c.StandsAt cs k) (step : Step) :
    (step.onCursor c).StandsAt cs (step.onIndex cs k) := by
  have hmoved : step.onCursor (atIndex cs k) = atIndex cs (step.onIndex cs k) := by
    cases step with
    | advance => exact advance_atIndex h.le
    | advanceIf expected => exact congrArg Prod.snd (advanceIf_atIndex h.le expected)
    | eatWhile keep state => exact eatWhileFrom_atIndex h.le keep state
  rw [h.eq_atIndex, hmoved]
  exact standsAt_atIndex (step.onIndex_le h.le)

/-! ## Steps and copies -/

/-- One thing in use, and copies put aside, the latest first. -/
structure Held (α : Type) where
  inUse : α
  copies : List α

inductive Move where
  | step (step : Step)
  /-- Put a copy aside. -/
  | copy
  /-- Go on from the copy with a number, if there is one. -/
  | takeUp (n : Nat)

/-- Moves made one after the other, given what a step does. -/
def run {α : Type} (go : Step → α → α) : List Move → Held α → Held α
  | [], held => held
  | .step step :: moves, held => run go moves { held with inUse := go step held.inUse }
  | .copy :: moves, held => run go moves { held with copies := held.inUse :: held.copies }
  | .takeUp n :: moves, held =>
    run go moves { held with inUse := held.copies[n]?.getD held.inUse }

structure Held.StandAt (cursors : Held Cursor) (cs : List Char) (indices : Held Nat) : Prop where
  inUse : cursors.inUse.StandsAt cs indices.inUse
  copies : List.Forall₂ (fun c k => c.StandsAt cs k) cursors.copies indices.copies

theorem Held.StandAt.takeUp {cursors : Held Cursor} {cs : List Char} {indices : Held Nat}
    (h : cursors.StandAt cs indices) (n : Nat) :
    (cursors.copies[n]?.getD cursors.inUse).StandsAt cs
      (indices.copies[n]?.getD indices.inUse) := by
  have hlen := h.copies.length_eq
  rcases Nat.lt_or_ge n cursors.copies.length with hn | hn
  · rw [List.getElem?_eq_getElem hn, List.getElem?_eq_getElem (hlen ▸ hn)]
    exact h.copies.get hn (hlen ▸ hn)
  · rw [List.getElem?_eq_none hn, List.getElem?_eq_none (hlen ▸ hn)]
    exact h.inUse

theorem Held.StandAt.run {cursors : Held Cursor} {cs : List Char} {indices : Held Nat}
    (h : cursors.StandAt cs indices) (moves : List Move) :
    (Cursor.run Step.onCursor moves cursors).StandAt cs
      (Cursor.run (Step.onIndex cs) moves indices) := by
  induction moves generalizing cursors indices with
  | nil => exact h
  | cons move moves ih =>
    cases move with
    | step step => exact ih ⟨h.inUse.step step, h.copies⟩
    | copy => exact ih ⟨h.inUse, .cons h.inUse h.copies⟩
    | takeUp n => exact ih ⟨h.takeUp n, h.copies⟩

/-- **A cursor is an index.** Whatever moves are made from the beginning of a text, the cursor
in use stands at the index to which they lead, as do the copies put aside. There, a step leads
to the next index, one that expects a character says whether it was there, and one with a test
goes over the longest run that the test accepts and asks it no more than needed. -/
theorem moves_follow_index (source : String) (moves : List Move) :
    let cs := source.toList
    let cursors := run Step.onCursor moves ⟨ofString source, []⟩
    let indices := run (Step.onIndex cs) moves ⟨0, []⟩
    let c := cursors.inUse
    let k := indices.inUse
    c.StandsAt cs k ∧
    List.Forall₂ (fun copy j => copy.StandsAt cs j) cursors.copies indices.copies ∧
    (∀ step : Step, (step.onCursor c).StandsAt cs (step.onIndex cs k)) ∧
    (∀ expected, (c.advanceIf expected).1 = true ↔ cs[k]? = some expected) ∧
    ∀ (σ : Type) (keep : σ → Char → Bool × σ) (s : σ),
      Eaten keep s (cs.drop k) (runLength keep s (cs.drop k)) (c.eatWhileFrom keep s).2 := by
  intro cs cursors indices c k
  have hstart : (ofString source).StandsAt cs 0 := standsAt_atIndex (Nat.zero_le _)
  have hheld : Held.StandAt ⟨ofString source, []⟩ cs ⟨0, []⟩ := ⟨hstart, .nil⟩
  have hrun : cursors.StandAt cs indices := hheld.run moves
  have hc : c.StandsAt cs k := hrun.inUse
  refine ⟨hc, hrun.copies, fun step => hc.step step, fun expected => ?_, fun σ keep s => ?_⟩
  · rw [hc.eq_atIndex, advanceIf_atIndex hc.le, decide_eq_true_iff]
  · rw [eatWhileFrom, hc.remaining]
    exact eatThrough_eaten keep (cs.drop k) s c

end Cursor

end GoTokens
