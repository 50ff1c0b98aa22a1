import GoTokens.Position

/-!
A reading head over a source text. It holds the text on both of its sides and
counts, as it moves, the characters, lines, columns and UTF-8 bytes behind it.
All movement is `advance`, one character at a time; the rest looks without
moving.
-/

namespace GoTokens

structure Cursor where
  /-- The characters behind the head, the nearest first. -/
  passed : List Char
  /-- The characters ahead. -/
  rest : List Char
  /-- UTF-8 bytes behind the head. -/
  bytes : Nat
  position : Position
deriving DecidableEq, Repr

namespace Cursor

def ofList (source : List Char) : Cursor := ⟨[], source, 0, .start⟩

def ofString (source : String) : Cursor := ofList source.toList

def source (c : Cursor) : List Char := c.passed.reverse ++ c.rest

/-- The character under the head, if the text has not ended. -/
def current? (c : Cursor) : Option Char := c.rest.head?

/-- The character `n` places ahead, the current one for `n = 0`. -/
def peek? (c : Cursor) (n : Nat) : Option Char := c.rest[n]?

def atEnd (c : Cursor) : Bool := c.rest.isEmpty

/-- Move over one character; at the end of the text, stay. -/
def advance (c : Cursor) : Cursor :=
  match c.rest with
  | [] => c
  | ch :: rest => ⟨ch :: c.passed, rest, c.bytes + ch.utf8Size, c.position.after ch⟩

/-- Move over the current character if it is the expected one, and say whether it was. -/
def advanceIf (c : Cursor) (expected : Char) : Bool × Cursor :=
  if c.current? = some expected then (true, c.advance) else (false, c)

def skip (c : Cursor) : Nat → Cursor
  | 0 => c
  | n + 1 => c.advance.skip n

/-- Move over the given characters ahead, as long as a test with a state of its own accepts
them. -/
def eatThrough {σ : Type} (keep : σ → Char → Bool × σ) : List Char → σ → Cursor → Cursor × σ
  | [], s, c => (c, s)
  | ch :: rest, s, c =>
    match keep s ch with
    | (true, s) => eatThrough keep rest s c.advance
    | (false, s) => (c, s)

/-- Move as long as a test with a state of its own accepts the current character.
The state after the last call is returned too. -/
def eatWhileFrom {σ : Type} (keep : σ → Char → Bool × σ) (s : σ) (c : Cursor) : Cursor × σ :=
  eatThrough keep c.rest s c

def eatWhile (keep : Char → Bool) (c : Cursor) : Cursor :=
  (eatWhileFrom (fun (_ : Unit) ch => (keep ch, ())) () c).1

/-- The text from byte `start` to byte `here`, found by walking back over the characters
before `here`; `found` is what has been walked over. -/
def sliceBack? (start : Nat) : List Char → Nat → List Char → Option (List Char)
  | [], here, found => if here = start then some found else none
  | ch :: passed, here, found =>
    if here = start then some found
    else if here < start then none
    else sliceBack? start passed (here - ch.utf8Size) (ch :: found)

/-- The text from a byte index up to the head. There is none if the index lies
past the head or inside a character. -/
def sliceFrom? (c : Cursor) (start : Nat) : Option (List Char) :=
  sliceBack? start c.passed c.bytes []

def byteLength (cs : List Char) : Nat := cs.foldl (fun n ch => n + ch.utf8Size) 0

def sourceBytes (c : Cursor) : Nat := c.bytes + byteLength c.rest

theorem advance_rest (c : Cursor) : c.advance.rest = c.rest.tail := by
  simp only [advance]; split <;> simp_all

@[simp] theorem advance_source (c : Cursor) : c.advance.source = c.source := by
  simp only [advance]; split <;> simp_all [source]

theorem skip_rest (c : Cursor) (n : Nat) : (c.skip n).rest = c.rest.drop n := by
  induction n generalizing c with
  | zero => simp [skip]
  | succ n ih => rw [skip, ih, advance_rest, List.drop_tail]

theorem skip_position (c : Cursor) (n : Nat) :
    (c.skip n).position = c.position.afterAll (c.rest.take n) := by
  induction n generalizing c with
  | zero => simp [skip]
  | succ n ih =>
    rw [skip, ih]
    cases h : c.rest <;> simp [advance, h]

theorem eatWhile_eq_skip (keep : Char → Bool) (c : Cursor) :
    c.eatWhile keep = c.skip (c.rest.takeWhile keep).length := by
  suffices h : ∀ (rest : List Char) (c : Cursor), c.rest = rest →
      (eatThrough (fun (_ : Unit) ch => (keep ch, ())) rest () c).1 =
        c.skip (rest.takeWhile keep).length from h c.rest c rfl
  intro rest
  induction rest with
  | nil => intro c _; rfl
  | cons ch rest ih =>
    intro c h
    cases hk : keep ch
    · simp [eatThrough, hk, skip]
    · simp only [eatThrough, hk, List.takeWhile_cons_of_pos, List.length_cons, skip]
      exact ih c.advance (by rw [advance_rest, h, List.tail_cons])

theorem eatWhile_rest (keep : Char → Bool) (c : Cursor) :
    (c.eatWhile keep).rest = c.rest.dropWhile keep := by
  rw [eatWhile_eq_skip, skip_rest]
  have h := congrArg (List.drop (c.rest.takeWhile keep).length)
    (List.takeWhile_append_dropWhile (p := keep) (l := c.rest)).symm
  rwa [List.drop_left] at h

end Cursor

end GoTokens
