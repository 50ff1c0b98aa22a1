import GoTokens.Proofs.Cursor

/-!
A cursor that knows its text by a byte index alone. What it sees it has to cut out of the
text, which can be done only between characters, and its counts have a fixed number of bits,
so every operation has a condition; where that fails, there is no result. For the cursors of
a text that is not too long all conditions hold, and the operations are those of a cursor
that has the text on both of its sides at hand (`advance?_head`, `sliceFrom?_head`,
`loop?_head`).
-/

namespace GoTokens

/-- The two sides of a byte index of a text, unless it lies past the end or inside a
character. -/
def splitAtByte? : List Char → Nat → Option (List Char × List Char)
  | [], n => if n = 0 then some ([], []) else none
  | c :: cs, n =>
    if n = 0 then some ([], c :: cs)
    else if n < c.utf8Size then none
    else (splitAtByte? cs (n - c.utf8Size)).map fun sides => (c :: sides.1, sides.2)

theorem splitAtByte?_boundary (cs : List Char) (k : Nat) :
    splitAtByte? cs (Cursor.boundary cs k) = some (cs.take k, cs.drop k) := by
  induction cs generalizing k with
  | nil => simp [splitAtByte?, Cursor.boundary]
  | cons c cs ih =>
    cases k with
    | zero => simp [splitAtByte?, Cursor.boundary]
    | succ k =>
      have hpos := c.utf8Size_pos
      rw [splitAtByte?, Cursor.boundary_cons, if_neg (by omega), if_neg (by omega),
        Nat.add_sub_cancel_left, ih]
      rfl

example : splitAtByte? ['a', 'π', 'b'] 2 = none := by decide

theorem splitAtByte?_sides {cs front back : List Char} {n : Nat}
    (h : splitAtByte? cs n = some (front, back)) :
    cs = front ++ back ∧ Cursor.byteLength front = n := by
  induction cs generalizing n front with
  | nil =>
    rw [splitAtByte?] at h
    split at h <;> cases h
    exact ⟨rfl, by simp_all⟩
  | cons c cs ih =>
    rw [splitAtByte?] at h
    split at h
    · cases h
      exact ⟨rfl, by simp_all⟩
    · split at h
      · cases h
      · obtain ⟨⟨front', back'⟩, hsides, heq⟩ := Option.map_eq_some_iff.mp h
        cases heq
        obtain ⟨rfl, hn⟩ := ih hsides
        refine ⟨rfl, ?_⟩
        rw [Cursor.byteLength_cons, hn]
        omega

/-- A count, if it has so many bits. -/
def within? (bits n : Nat) : Option Nat := if n < Nat.pow 2 bits then some n else none

theorem within?_of_lt {bits n : Nat} (h : n < Nat.pow 2 bits) : within? bits n = some n := if_pos h

theorem eq_of_within? {bits n m : Nat} (h : within? bits n = some m) : m = n := by
  rw [within?] at h
  split at h <;> cases h
  rfl

structure Head where
  source : List Char
  /-- The byte index of the head in the text. -/
  bytes : Nat
  position : Position
deriving DecidableEq, Repr

namespace Head

def remaining? (h : Head) : Option (List Char) := (splitAtByte? h.source h.bytes).map (·.2)

def look? (h : Head) : Option (Option Char) := h.remaining?.map (·.head?)

def peek? (h : Head) (n : Nat) : Option (Option Char) := h.remaining?.map (·[n]?)

def sliceFrom? (h : Head) (start : Nat) : Option (List Char) :=
  if start ≤ h.bytes then do
    let (front, _) ← splitAtByte? h.source h.bytes
    let (_, text) ← splitAtByte? front start
    return text
  else none

/-- Move over one character. Byte indices and offsets have 64 bits, lines and columns 32. -/
def advance? (h : Head) : Option Head := do
  match ← h.look? with
  | none => return h
  | some ch =>
    let bytes ← within? 64 (h.bytes + ch.utf8Size)
    let offset ← within? 64 (h.position.offset + 1)
    if ch = '\n' then
      let line ← within? 32 (h.position.line + 1)
      return ⟨h.source, bytes, ⟨offset, line, 1⟩⟩
    else
      let column ← within? 32 (h.position.column + 1)
      return ⟨h.source, bytes, ⟨offset, h.position.line, column⟩⟩

def advanceIf? (h : Head) (expected : Char) : Option (Bool × Head) := do
  if (← h.look?) = some expected then return (true, ← h.advance?) else return (false, h)

def bytesLeft (h : Head) : Nat := Cursor.byteLength h.source - h.bytes

theorem bytes_lt_of_look? {h : Head} {ch : Char} (hlook : h.look? = some (some ch)) :
    h.bytes < Cursor.byteLength h.source := by
  obtain ⟨rest, hrest, hhead⟩ := Option.map_eq_some_iff.mp hlook
  obtain ⟨⟨front, back⟩, hsides, rfl⟩ := Option.map_eq_some_iff.mp hrest
  obtain ⟨hsource, hbytes⟩ := splitAtByte?_sides hsides
  cases back with
  | nil => cases hhead
  | cons d back =>
    have hpos := d.utf8Size_pos
    rw [hsource, Cursor.byteLength_append, hbytes, Cursor.byteLength_cons]
    omega

theorem bytesLeft_advance? {h h' : Head} {ch : Char} (hlook : h.look? = some (some ch))
    (hmove : h.advance? = some h') : h'.bytesLeft < h.bytesLeft := by
  have hlt := bytes_lt_of_look? hlook
  have hpos := ch.utf8Size_pos
  obtain ⟨hsource, hbytes⟩ : h'.source = h.source ∧ h'.bytes = h.bytes + ch.utf8Size := by
    simp only [advance?, hlook, Option.bind_eq_bind, Option.bind_some] at hmove
    obtain ⟨bytes, hb, hmove⟩ := Option.bind_eq_some_iff.mp hmove
    obtain ⟨offset, -, hmove⟩ := Option.bind_eq_some_iff.mp hmove
    split at hmove
    all_goals
      obtain ⟨count, -, hmove⟩ := Option.bind_eq_some_iff.mp hmove
      cases hmove
      exact ⟨rfl, eq_of_within? hb⟩
  rw [bytesLeft, bytesLeft, hsource, hbytes]
  omega

section

variable {σ ρ : Type}

/-- Look at the current character again and again: a round may move over it and go on with
another state, or stop with a result. -/
def loop? (atEnd : σ → ρ) (round : σ → Char → Head → Option (σ ⊕ ρ)) (s : σ) (h : Head) :
    Option (ρ × Head) :=
  match _hlook : h.look? with
  | none => none
  | some none => some (atEnd s, h)
  | some (some ch) =>
    match round s ch h with
    | none => none
    | some (.inr result) => some (result, h)
    | some (.inl s) =>
      match _hmove : h.advance? with
      | none => none
      | some h' => loop? atEnd round s h'
termination_by h.bytesLeft
decreasing_by exact bytesLeft_advance? _hlook _hmove

/-- The result of the same rounds over the characters of a text, and how many of them were
moved over. -/
def through (atEnd : σ → ρ) (round : σ → Char → List Char → σ ⊕ ρ) : σ → List Char → ρ × Nat
  | s, [] => (atEnd s, 0)
  | s, ch :: cs =>
    match round s ch cs with
    | .inr result => (result, 0)
    | .inl s => ((through atEnd round s cs).1, (through atEnd round s cs).2 + 1)

end

def eatWhile? (keep : Char → Option Bool) (h : Head) : Option Head := do
  let round (_ : Unit) (ch : Char) (_ : Head) : Option (Unit ⊕ Unit) := do
    if ← keep ch then return .inl () else return .inr ()
  let (_, h) ← h.loop? id round ()
  return h

end Head

namespace Cursor

/-- What a cursor is without the text on its sides. -/
def head (c : Cursor) : Head := ⟨c.source, c.bytes, c.position⟩

/-- A cursor at an index of a text with few enough characters to be counted. -/
structure Proper (c : Cursor) : Prop where
  stands : ∃ k, c.StandsAt c.source k
  short : c.source.length ≤ Nat.pow 2 32 - 2

variable {c : Cursor}

theorem skip_source (c : Cursor) (n : Nat) : (c.skip n).source = c.source := by
  induction n generalizing c with
  | zero => rfl
  | succ n ih => rw [skip, ih, advance_source]

theorem skip_skip (c : Cursor) (m n : Nat) : (c.skip m).skip n = c.skip (m + n) := by
  induction m generalizing c with
  | zero => rw [skip, Nat.zero_add]
  | succ m ih => rw [skip, ih, Nat.add_right_comm, skip]

/-- Behind a text at the front of what is ahead, the rest of that is ahead. -/
theorem skip_rest_of_split {text rest : List Char} (h : c.rest = text ++ rest) :
    (c.skip text.length).rest = rest := by
  rw [skip_rest, h, List.drop_left]

theorem StandsAt.proper {cs : List Char} {k : Nat} (h : c.StandsAt cs k)
    (hshort : cs.length ≤ Nat.pow 2 32 - 2) : c.Proper := by
  obtain rfl := h.source
  exact ⟨⟨k, h⟩, hshort⟩

theorem Proper.skip (h : c.Proper) (n : Nat) : (c.skip n).Proper := by
  obtain ⟨k, hk⟩ := h.stands
  exact (hk.skip n).proper h.short

theorem Proper.advance (h : c.Proper) : c.advance.Proper := h.skip 1

theorem Proper.counts (h : c.Proper) :
    c.bytes < Nat.pow 2 64 ∧ c.position.offset < Nat.pow 2 64 ∧
      c.position.line < Nat.pow 2 32 ∧ c.position.column < Nat.pow 2 32 := by
  have h32 : Nat.pow 2 32 = 4294967296 := by decide
  have h64 : Nat.pow 2 64 = 18446744073709551616 := by decide
  obtain ⟨k, hk⟩ := h.stands
  have hbytes := boundary_le_length c.source k
  obtain ⟨hline, hcolumn⟩ := hk.bounded
  have hle := hk.le
  have hshort := h.short
  rw [hk.bytes, hk.offset]
  omega

theorem remaining?_head (h : c.Proper) : c.head.remaining? = some c.rest := by
  obtain ⟨k, hk⟩ := h.stands
  rw [Head.remaining?, head, hk.bytes, splitAtByte?_boundary, hk.remaining]
  rfl

theorem look?_head (h : c.Proper) : c.head.look? = some c.current? := by
  rw [Head.look?, remaining?_head h]
  rfl

theorem peek?_head (h : c.Proper) (n : Nat) : c.head.peek? n = some (c.peek? n) := by
  rw [Head.peek?, remaining?_head h]
  rfl

theorem advance?_head (h : c.Proper) : c.head.advance? = some c.advance.head := by
  have hlook := look?_head h
  cases hrest : c.rest with
  | nil =>
    rw [current?, hrest] at hlook
    simp [Head.advance?, hlook, advance, hrest]
  | cons ch rest =>
    rw [current?, hrest] at hlook
    have hsource := advance_source c
    obtain ⟨hbytes, hoffset, hline, hcolumn⟩ := h.advance.counts
    simp only [advance, hrest] at hbytes hoffset hline hcolumn hsource
    simp only [Head.advance?, hlook, List.head?_cons, Option.bind_eq_bind, Option.bind_some]
    simp only [head, advance, hrest, hsource]
    rw [Position.after] at hline hcolumn hoffset ⊢
    rw [within?_of_lt hbytes]
    by_cases hch : ch = '\n'
    · rw [if_pos hch] at hline hcolumn hoffset ⊢
      simp [within?_of_lt hoffset, within?_of_lt hline, hch]
    · rw [if_neg hch] at hline hcolumn hoffset ⊢
      simp [within?_of_lt hoffset, within?_of_lt hcolumn, hch]

theorem advanceIf?_head (h : c.Proper) (expected : Char) :
    c.head.advanceIf? expected =
      some ((c.advanceIf expected).1, (c.advanceIf expected).2.head) := by
  simp only [Head.advanceIf?, look?_head h, advance?_head h, Option.bind_eq_bind, Option.bind_some,
    advanceIf]
  split <;> rfl

theorem sliceFrom?_head (h : c.Proper) (n : Nat) :
    (c.skip n).head.sliceFrom? c.bytes = some (c.rest.take n) := by
  obtain ⟨k, hk⟩ := h.stands
  have hskip := hk.skip n
  have hle : k ≤ min (k + n) c.source.length := by
    have := hk.le
    omega
  have htake : c.source.take (min (k + n) c.source.length) = c.source.take (k + n) :=
    List.take_eq_take_iff.mpr (by omega)
  rw [Head.sliceFrom?, head, skip_source, hskip.bytes, hk.bytes, if_pos (boundary_le hle),
    splitAtByte?_boundary, ← boundary_take hle]
  simp only [Option.bind_eq_bind, Option.bind_some, splitAtByte?_boundary]
  rw [htake, hk.remaining, List.take_drop]
  rfl

theorem bytesLeft_skip (h : c.Proper) (hrest : c.rest ≠ []) {n : Nat} (hn : 0 < n) :
    (c.skip n).head.bytesLeft < c.head.bytesLeft := by
  obtain ⟨k, hk⟩ := h.stands
  have hlt : k < c.source.length := by
    rw [hk.remaining, Ne, List.drop_eq_nil_iff] at hrest
    omega
  have hskip := (hk.skip n).bytes
  have hmore : boundary c.source k < boundary c.source (min (k + n) c.source.length) :=
    boundary_lt (by omega) (Nat.min_le_right _ _)
  have hall : boundary c.source (min (k + n) c.source.length) ≤
      boundary c.source c.source.length := boundary_le (Nat.min_le_right _ _)
  rw [boundary_of_length_le (Nat.le_refl _)] at hall
  simp only [Head.bytesLeft, head, skip_source, hskip, hk.bytes]
  omega

section

variable {σ ρ : Type} (atEnd : σ → ρ) (round : σ → Char → Head → Option (σ ⊕ ρ))
  (round' : σ → Char → List Char → σ ⊕ ρ)

/-- Rounds that all have a result make a loop that has one. -/
theorem loop?_head (h : c.Proper)
    (hround : ∀ (s : σ) (ch : Char) (cs : List Char) (c : Cursor), c.Proper → c.rest = ch :: cs →
      round s ch c.head = some (round' s ch cs)) (s : σ) :
    c.head.loop? atEnd round s = some ((Head.through atEnd round' s c.rest).1,
      (c.skip (Head.through atEnd round' s c.rest).2).head) := by
  generalize hrest : c.rest = rest
  induction rest generalizing c s with
  | nil =>
    have hlook := look?_head h
    rw [current?, hrest] at hlook
    rw [Head.loop?]
    split <;> simp_all [Head.through, skip]
  | cons ch cs ih =>
    have hlook := look?_head h
    rw [current?, hrest, List.head?_cons] at hlook
    have hstep := hround s ch cs c h hrest
    have hmove := advance?_head h
    have hadvance : c.advance.rest = cs := by rw [advance_rest, hrest, List.tail_cons]
    rw [Head.loop?]
    split
    · simp_all
    · simp_all
    · rename_i d hlook'
      obtain rfl : ch = d := by simpa using hlook.symm.trans hlook'
      rw [hstep]
      cases hcase : round' s ch cs with
      | inr result => simp [Head.through, hcase, skip]
      | inl s' =>
        simp only [Head.through, hcase]
        split
        · simp_all
        · rename_i h' hmove'
          obtain rfl : h' = c.advance.head := by simpa using hmove'.symm.trans hmove
          exact ih h.advance s' hadvance

end

theorem eatWhile?_head (h : c.Proper) {keep? : Char → Option Bool} {keep : Char → Bool}
    (hkeep : ∀ ch, keep? ch = some (keep ch)) :
    c.head.eatWhile? keep? = some (c.eatWhile keep).head := by
  let round (_ : Unit) (ch : Char) (_ : List Char) : Unit ⊕ Unit :=
    if keep ch then .inl () else .inr ()
  have hthrough (cs : List Char) :
      (Head.through id round () cs).2 = (cs.takeWhile keep).length := by
    induction cs with
    | nil => rfl
    | cons ch cs ih => by_cases hch : keep ch = true <;> simp [Head.through, round, hch, ih]
  rw [Head.eatWhile?, loop?_head id _ round h, hthrough, eatWhile_eq_skip]
  · rfl
  · intro _ ch cs _ _ _
    rw [hkeep]
    by_cases hch : keep ch = true <;> simp [round, hch]

end Cursor

end GoTokens
