import GoTokens.Proofs.CharClass
import GoTokens.Proofs.Checked.Head
import GoTokens.Proofs.Lexeme.Settled
import GoTokens.Scanner

/-!
Reading a lexeme step by step with a head that checks its conditions. A mark is a byte index
put down before the lexeme; the text is cut out between the mark and the head afterwards, on
the ways that end in a fault as well. Every reader has a result, which is that of the lexeme
at the front of the text ahead (`lexeme?_head`).
-/

namespace GoTokens

open Text

/-- What a lexeme is handed out as where a cursor stands, and the head behind it. -/
def Lexeme.handedOut (c : Cursor) : Lexeme → Item × Head
  | token value n => (.ok ⟨value, c.position, (c.skip n).position⟩, (c.skip n).head)
  | fault f n => (.error ⟨f, c.position⟩, (c.skip n).head)

namespace Head

def word? (h : Head) : Option (Item × Head) := do
  let start := h.position
  let mark := h.bytes
  let h ← h.eatWhile? fun ch => some (isWordPart ch)
  let text ← h.sliceFrom? mark
  return (.ok ⟨.ofWord (String.ofList text), start, h.position⟩, h)

/-- The base that is announced by the next two characters, which are passed then. -/
def radix? (h : Head) : Option (Option Radix × Head) := do
  if (← h.look?) = some '0' then
    match (← h.peek? 1).bind Radix.ofLetter? with
    | some radix =>
      let h ← h.advance?
      let h ← h.advance?
      return (some radix, h)
    | none => return (none, h)
  else return (none, h)

/-- Whether a character is taken as a digit of a base; only hexadecimal digits are asked for
by their base. -/
def takes? : Radix → Char → Option Bool
  | .hexadecimal, ch => Numeral.isDigitOf? 16 ch
  | _, ch => some ch.isDigit

def digits? (h : Head) : Option Head := h.eatWhile? fun ch => some ch.isDigit

def fraction? (h : Head) : Option Head := do
  let (point, h) ← h.advanceIf? '.'
  if point then h.digits? else return h

def sign? (h : Head) : Option Head := do
  let (plus, h) ← h.advanceIf? '+'
  if plus then return h
  else
    let (_, h) ← h.advanceIf? '-'
    return h

def exponent? (h : Head) : Option Head := do
  let (lower, h) ← h.advanceIf? 'e'
  let (mark, h) ← if lower then some (true, h) else h.advanceIf? 'E'
  if mark then
    let h ← h.sign?
    h.digits?
  else return h

/-- What the text of a number stands for. The digits of an announced base begin at byte 2, and
there are bases from 2 to 36. -/
def parse? (radix : Option Radix) (text : List Char) : Option (Option TokenValue) :=
  match radix with
  | some radix => do
    let (_, digits) ← splitAtByte? text 2
    if 2 ≤ radix.base ∧ radix.base ≤ 36 then
      return (Numeral.valueBelow? radix.base NumberShape.intLimit digits).map .int
    else none
  | none => some (NumberShape.decimalAtFront text).value?

/-- Move over a number; the base that it announces is returned too. -/
def shape? (h : Head) : Option (Option Radix × Head) := do
  let (radix, h) ← h.radix?
  match radix with
  | some radix =>
    let h ← h.eatWhile? (takes? radix)
    return (some radix, h)
  | none =>
    let h ← h.digits?
    let h ← h.fraction?
    let h ← h.exponent?
    return (none, h)

def number? (h : Head) : Option (Item × Head) := do
  let start := h.position
  let mark := h.bytes
  let (radix, h) ← h.shape?
  let text ← h.sliceFrom? mark
  match ← parse? radix text with
  | none => return (.error ⟨.malformedNumber (String.ofList text), start⟩, h)
  | some value =>
    let (imaginary, h) ← h.advanceIf? 'i'
    if imaginary then
      let text ← h.sliceFrom? mark
      return (.ok ⟨.imag (String.ofList text), start, h.position⟩, h)
    else return (.ok ⟨value, start, h.position⟩, h)

/-- One character of a literal, with the body so far and whether a backslash came before; the
result is the whole body. -/
def quotedRound (mark : Char) :
    List Char × Bool → Char → (List Char × Bool) ⊕ Option (List Char)
  | (body, true), ch => .inl (body ++ ['\\', ch], false)
  | (body, false), ch =>
    if ch = mark then .inr (some body)
    else if ch = '\\' then .inl (body, true)
    else .inl (body ++ [ch], false)

def quoted? (mark : Char) (h : Head) : Option (Item × Head) := do
  let start := h.position
  let h ← h.advance?
  let (body, h) ← h.loop? (fun _ => none) (fun s ch _ => some (quotedRound mark s ch)) ([], false)
  match body with
  | none => return (.error ⟨.unterminatedLiteral mark, start⟩, h)
  | some body =>
    let h ← h.advance?
    return (.ok ⟨Quoted.value mark body, start, h.position⟩, h)

/-- The comment that two slashes open, from the mark before them. -/
def lineComment? (start : Position) (mark : Nat) (h : Head) : Option (Item × Head) := do
  let h ← h.eatWhile? fun ch => some (ch ≠ '\n')
  let text ← h.sliceFrom? mark
  return (.ok ⟨Comment.lineValue text, start, h.position⟩, h)

/-- Whether a star and a slash are next, for each character of a block comment. -/
def lookForClose (_ : Unit) (ch : Char) (h : Head) : Option (Unit ⊕ Bool) := do
  if ch = '*' ∧ (← h.peek? 1) = some '/' then return .inr true else return .inl ()

/-- The comment whose slash has been passed, from the mark before it. -/
def blockComment? (start : Position) (mark : Nat) (h : Head) : Option (Item × Head) := do
  let (closed, h) ← h.loop? (fun _ => false) lookForClose ()
  if closed then
    let h ← h.advance?
    let h ← h.advance?
    let text ← h.sliceFrom? mark
    return (.ok ⟨Comment.blockValue text, start, h.position⟩, h)
  else return (.error ⟨.unterminatedComment, start⟩, h)

def extend? (punct : Punct) (h : Head) : Option (Punct × Head) :=
  h.loop? id (fun p ch _ => some ((p.extend? ch).elim (.inr p) .inl)) punct

def punct? (start : Position) (first : Char) (h : Head) : Option (Item × Head) :=
  match Punct.ofChar? first with
  | some punct => do
    let (punct, h) ← extend? punct h
    return (.ok ⟨.opSep punct, start, h.position⟩, h)
  | none => some (.error ⟨.unknownCharacter first, start⟩, h)

def operator? (first : Char) (h : Head) : Option (Item × Head) := do
  let start := h.position
  let mark := h.bytes
  let h ← h.advance?
  if first = '/' then
    let (line, h) ← h.advanceIf? '/'
    if line then h.lineComment? start mark
    else if (← h.look?) = some '*' then h.blockComment? start mark
    else h.punct? start first
  else h.punct? start first

def lexeme? (first : Char) (h : Head) : Option (Item × Head) :=
  match CharClass.of first with
  | .wordStart => h.word?
  | .digit => h.number?
  | .quote => h.quoted? first
  | .punctuation => h.operator? first
  | .blank | .other => some (.error ⟨.unknownCharacter first, h.position⟩, h)

end Head

/-! ## Every reader has a result -/

theorem Radix.utf8Size_of_letter {letter : Char} {radix : Radix}
    (h : Radix.ofLetter? letter = some radix) : letter.utf8Size = 1 := by
  unfold Radix.ofLetter? at h
  split at h
  · rename_i hletter
    obtain rfl | rfl := hletter <;> rfl
  · split at h
    · rename_i hletter
      obtain rfl | rfl := hletter <;> rfl
    · split at h
      · rename_i hletter
        obtain rfl | rfl := hletter <;> rfl
      · cases h

/-! ## The rounds of the loops -/

namespace Head

theorem bodyLength?_succ (mark : Char) (cs : List Char) (escaped : Bool) (seen : Nat) :
    Quoted.bodyLength? mark escaped (seen + 1) cs =
      (Quoted.bodyLength? mark escaped seen cs).map (· + 1) := by
  induction cs generalizing escaped seen with
  | nil => rfl
  | cons ch cs ih =>
    simp only [Quoted.bodyLength?]
    split
    · exact ih false (seen + 1)
    · split
      · rfl
      · exact ih _ (seen + 1)

/-- The characters of a body that the rounds over a literal have passed so far. -/
def soFar (s : List Char × Bool) : List Char := s.1 ++ if s.2 then ['\\'] else []

/-- The body of a literal of which a part has been passed, and the characters up to its end. -/
def bodyFrom (mark : Char) (s : List Char × Bool) (cs : List Char) : Option (List Char) × Nat :=
  match Quoted.bodyLength? mark s.2 0 cs with
  | some n => (some (soFar s ++ cs.take n), n)
  | none => (none, cs.length)

/-- The rounds over a literal find the end of its body, and put the body together from its
escapes. -/
theorem through_quoted (mark : Char) (cs : List Char) (s : List Char × Bool) :
    through (fun _ => none) (fun s ch _ => quotedRound mark s ch) s cs = bodyFrom mark s cs := by
  induction cs generalizing s with
  | nil => rfl
  | cons ch cs ih =>
    obtain ⟨body, escaped⟩ := s
    -- A round that goes on has passed one more character.
    have hstep (s' : List Char × Bool) (hround : quotedRound mark (body, escaped) ch = .inl s')
        (hlength : Quoted.bodyLength? mark escaped 0 (ch :: cs) = Quoted.bodyLength? mark s'.2 1 cs)
        (hsoFar : soFar s' = soFar (body, escaped) ++ [ch]) :
        through (fun _ => none) (fun s ch _ => quotedRound mark s ch) (body, escaped) (ch :: cs) =
          bodyFrom mark (body, escaped) (ch :: cs) := by
      rw [bodyFrom, hlength, bodyLength?_succ, through, hround]
      simp only [ih s', bodyFrom, hsoFar]
      cases Quoted.bodyLength? mark s'.2 0 cs <;> simp
    cases escaped with
    | true => exact hstep (body ++ ['\\', ch], false) rfl rfl (by simp [soFar])
    | false =>
      by_cases hmark : ch = mark
      · simp [through, quotedRound, bodyFrom, Quoted.bodyLength?, hmark, soFar]
      · by_cases hslash : ch = '\\'
        · subst hslash
          exact hstep (body, true) (by simp [quotedRound, hmark])
            (by simp [Quoted.bodyLength?, hmark]) (by simp [soFar])
        · exact hstep (body ++ [ch], false) (by simp [quotedRound, hmark, hslash])
            (by simp [Quoted.bodyLength?, hmark, beq_false_of_ne hslash]) (by simp [soFar])

theorem blockLength?_succ (cs : List Char) (seen : Nat) :
    Comment.blockLength? (seen + 1) cs = (Comment.blockLength? seen cs).map (· + 1) := by
  induction cs generalizing seen with
  | nil => rfl
  | cons a cs ih =>
    cases cs with
    | nil => rfl
    | cons b cs =>
      simp only [Comment.blockLength?]
      split
      · rfl
      · exact ih (seen + 1)

/-- One character of a block comment, with those after it. -/
def blockRound (_ : Unit) (ch : Char) (cs : List Char) : Unit ⊕ Bool :=
  if ch = '*' ∧ cs.head? = some '/' then .inr true else .inl ()

/-- The rounds over a block comment find the star and the slash that close it. -/
theorem through_block (cs : List Char) :
    through (fun _ => false) blockRound () cs =
      match Comment.blockLength? 0 cs with
      | some n => (true, n - 2)
      | none => (false, cs.length) := by
  induction cs with
  | nil => rfl
  | cons a cs ih =>
    cases cs with
    | nil => simp [through, blockRound, Comment.blockLength?]
    | cons b cs =>
      by_cases hclose : a = '*' ∧ b = '/'
      · simp [through, blockRound, Comment.blockLength?, hclose]
      · have hround : blockRound () a (b :: cs) = .inl () := by simp [blockRound, hclose]
        rw [Comment.blockLength?, if_neg hclose, blockLength?_succ, through, hround]
        simp only [ih]
        cases hlength : Comment.blockLength? 0 (b :: cs) with
        | none => rfl
        | some n =>
          have hn := Lexeme.blockLength?_pos hlength
          simp only [Option.map_some, Prod.mk.injEq, true_and]
          omega

theorem through_extend (p : Punct) (cs : List Char) :
    let passed := through id (fun p ch _ => (p.extend? ch).elim (.inr p) .inl) p cs
    passed.1 = p.extendThrough cs ∧
      (p.extendThrough cs).spelling.length = p.spelling.length + passed.2 := by
  induction cs generalizing p with
  | nil => exact ⟨rfl, rfl⟩
  | cons ch cs ih =>
    cases hextend : p.extend? ch with
    | none => simp [through, hextend, Punct.extendThrough]
    | some q =>
      obtain ⟨hpunct, hlength⟩ := ih q
      have hspelling := congrArg List.length (Punct.spelling_of_extend? hextend)
      rw [List.length_append, List.length_singleton] at hspelling
      simp only [through, hextend, Option.elim_some, Punct.extendThrough]
      exact ⟨hpunct, by omega⟩

end Head

/-! ## Every condition holds -/

namespace Cursor

variable {c : Cursor}

theorem skip_one_rest {first : Char} {cs : List Char} (hrest : c.rest = first :: cs) :
    (c.skip 1).rest = cs := by
  rw [skip_rest, hrest, List.drop_one, List.tail_cons]

theorem advanceIf?_of_eq (h : c.Proper) {expected : Char} (hcurrent : c.current? = some expected) :
    c.head.advanceIf? expected = some (true, (c.skip 1).head) := by
  rw [advanceIf?_head h, advanceIf, if_pos hcurrent]
  rfl

theorem advanceIf?_of_ne (h : c.Proper) {expected : Char}
    (hcurrent : c.current? ≠ some expected) :
    c.head.advanceIf? expected = some (false, c.head) := by
  rw [advanceIf?_head h, advanceIf, if_neg hcurrent]

theorem advance?_skip (h : c.Proper) (m : Nat) :
    (c.skip m).head.advance? = some (c.skip (m + 1)).head := by
  rw [advance?_head (h.skip m), ← skip_skip]
  rfl

theorem eatWhile?_run (h : c.Proper) {keep? : Char → Option Bool} (keep : Char → Bool)
    (hkeep : ∀ ch, keep? ch = some (keep ch)) :
    c.head.eatWhile? keep? = some (c.skip (c.rest.takeWhile keep).length).head := by
  rw [eatWhile?_head h hkeep, eatWhile_eq_skip]

theorem sliceFrom?_front (h : c.Proper) {text rest : List Char} (hrest : c.rest = text ++ rest) :
    (c.skip text.length).head.sliceFrom? c.head.bytes = some text := by
  have hslice := sliceFrom?_head h text.length
  rwa [hrest, List.take_left] at hslice

theorem word?_head (h : c.Proper) {first : Char} {cs : List Char} (hrest : c.rest = first :: cs)
    (hfirst : isWordStart first = true) :
    c.head.word? = some ((Lexeme.word first cs).handedOut c) := by
  have hrun : c.rest.takeWhile isWordPart = first :: cs.takeWhile isWordPart := by
    rw [hrest, List.takeWhile_cons_of_pos (isWordPart_of_isWordStart hfirst)]
  have hmove := eatWhile?_run h isWordPart fun _ => rfl
  have htext := sliceFrom?_front h
    (List.takeWhile_append_dropWhile (p := isWordPart) (l := c.rest)).symm
  rw [hrun] at hmove htext
  simp only [Head.word?, hmove, Option.bind_eq_bind, Option.bind_some, htext]
  rfl

theorem takes?_eq (radix : Radix) (ch : Char) : Head.takes? radix ch = some (radix.takes ch) := by
  cases radix <;> rfl

theorem digits?_head (h : c.Proper) :
    c.head.digits? = some (c.skip (c.rest.takeWhile Char.isDigit).length).head :=
  eatWhile?_run h Char.isDigit fun _ => rfl

theorem fraction?_head (h : c.Proper) : c.head.fraction? =
    some (c.skip (NumberShape.fractionText (NumberShape.fraction? c.rest)).length).head := by
  by_cases hcurrent : c.current? = some '.'
  · obtain ⟨cs, hrest⟩ := List.head?_eq_some_iff.mp hcurrent
    simp only [Head.fraction?, advanceIf?_of_eq h hcurrent, Option.bind_eq_bind, Option.bind_some,
      if_true, digits?_head (h.skip 1), skip_rest, skip_skip, hrest, NumberShape.fraction?_cons,
      NumberShape.fractionText, List.drop_succ_cons, List.drop_zero, List.length_cons]
    rw [Nat.add_comm]
  · have hnone : NumberShape.fraction? c.rest = none :=
      NumberShape.fraction?_eq_none.mpr fun d hd => by rintro rfl; exact hcurrent hd
    simp only [Head.fraction?, advanceIf?_of_ne h hcurrent, Option.bind_eq_bind, Option.bind_some,
      hnone]
    rfl

theorem sign?_head (h : c.Proper) :
    c.head.sign? = some (c.skip (Exponent.sign? c.rest).toList.length).head := by
  by_cases hplus : c.current? = some '+'
  · obtain ⟨cs, hrest⟩ := List.head?_eq_some_iff.mp hplus
    simp only [Head.sign?, advanceIf?_of_eq h hplus, Option.bind_eq_bind, Option.bind_some, hrest]
    rfl
  · by_cases hminus : c.current? = some '-'
    · obtain ⟨cs, hrest⟩ := List.head?_eq_some_iff.mp hminus
      simp only [Head.sign?, advanceIf?_of_ne h hplus, advanceIf?_of_eq h hminus,
        Option.bind_eq_bind, Option.bind_some, hrest]
      rfl
    · have hnone : Exponent.sign? c.rest = none :=
        Exponent.sign?_eq_none.mpr fun d hd => by
          rintro (rfl | rfl)
          · exact hplus hd
          · exact hminus hd
      simp only [Head.sign?, advanceIf?_of_ne h hplus, advanceIf?_of_ne h hminus,
        Option.bind_eq_bind, Option.bind_some, hnone]
      rfl

theorem exponent?_of_mark (h : c.Proper) {mark : Char} {cs : List Char}
    (hrest : c.rest = mark :: cs) (hmark : mark = 'e' ∨ mark = 'E') :
    (do let h ← (c.skip 1).head.sign?; h.digits?) =
      some (c.skip (Exponent.optionText (Exponent.atFront? c.rest)).length).head := by
  have hcs : (c.skip 1).rest = cs := skip_one_rest hrest
  have hsign := sign?_head (h.skip 1)
  rw [hcs] at hsign
  have hdigits := digits?_head ((h.skip 1).skip (Exponent.sign? cs).toList.length)
  rw [skip_rest, hcs, skip_skip, skip_skip] at hdigits
  simp only [hsign, Option.bind_eq_bind, Option.bind_some, skip_skip, hdigits, hrest]
  rw [Exponent.atFront?_cons, if_pos hmark]
  simp only [Exponent.optionText, Option.map_some, Option.getD_some, Exponent.text, Exponent.tail,
    Lookahead.andThen, List.length_cons, List.length_append]
  congr 3
  omega

theorem exponent?_head (h : c.Proper) : c.head.exponent? =
    some (c.skip (Exponent.optionText (Exponent.atFront? c.rest)).length).head := by
  by_cases hlower : c.current? = some 'e'
  · obtain ⟨cs, hrest⟩ := List.head?_eq_some_iff.mp hlower
    rw [← exponent?_of_mark h hrest (.inl rfl)]
    simp only [Head.exponent?, advanceIf?_of_eq h hlower, Option.bind_eq_bind, Option.bind_some,
      if_true]
  · by_cases hupper : c.current? = some 'E'
    · obtain ⟨cs, hrest⟩ := List.head?_eq_some_iff.mp hupper
      rw [← exponent?_of_mark h hrest (.inr rfl)]
      simp only [Head.exponent?, advanceIf?_of_ne h hlower, advanceIf?_of_eq h hupper,
        Option.bind_eq_bind, Option.bind_some, Bool.false_eq_true, if_false, if_true]
    · have hnone : Exponent.atFront? c.rest = none :=
        Exponent.atFront?_eq_none.mpr fun d hd => by
          rintro (rfl | rfl)
          · exact hlower hd
          · exact hupper hd
      simp only [Head.exponent?, advanceIf?_of_ne h hlower, advanceIf?_of_ne h hupper,
        Option.bind_eq_bind, Option.bind_some, Bool.false_eq_true, if_false, hnone]
      rfl

theorem radix?_head (h : c.Proper) : c.head.radix? =
    match NumberShape.announced? c.rest with
    | some (radix, _) => some (some radix, (c.skip 2).head)
    | none => some (none, c.head) := by
  have hpeek : c.peek? 1 = c.rest.tail.head? := by
    rw [peek?, ← List.head?_drop, List.drop_one]
  simp only [Head.radix?, look?_head h, peek?_head h, Option.bind_eq_bind, Option.bind_some, hpeek,
    current?, advance?_head h, advance?_head h.advance]
  rcases c.rest with _ | ⟨zero, _ | ⟨letter, cs⟩⟩
  · rfl
  · by_cases hzero : zero = '0' <;> simp [NumberShape.announced?, hzero]
  · by_cases hzero : zero = '0'
    · cases hradix : Radix.ofLetter? letter <;>
        simp [NumberShape.announced?, hzero, hradix, skip]
    · simp [NumberShape.announced?, hzero]

theorem shape?_head (h : c.Proper) : c.head.shape? =
    some ((NumberShape.announced? c.rest).map Prod.fst,
      (c.skip (NumberShape.atFront c.rest).text.length).head) := by
  rw [NumberShape.atFront_eq]
  cases hannounced : NumberShape.announced? c.rest with
  | some announced =>
    obtain ⟨radix, letter⟩ := announced
    simp only [Head.shape?, radix?_head h, hannounced, Option.bind_eq_bind, Option.bind_some,
      eatWhile?_run (h.skip 2) radix.takes (takes?_eq radix), skip_rest, skip_skip, Option.map_some,
      NumberShape.text, List.length_cons]
    congr 4
    omega
  | none =>
    have hfraction := fraction?_head (h.skip (c.rest.takeWhile Char.isDigit).length)
    rw [skip_rest, Lookahead.drop_length_takeWhile] at hfraction
    generalize hpoint : NumberShape.fraction? (c.rest.dropWhile Char.isDigit) = fraction
      at hfraction
    have hexponent := exponent?_head ((h.skip (c.rest.takeWhile Char.isDigit).length).skip
      (NumberShape.fractionText fraction).length)
    rw [skip_rest, skip_rest, Lookahead.drop_length_takeWhile, skip_skip, skip_skip,
      Nat.add_assoc] at hexponent
    simp only [Head.shape?, radix?_head h, hannounced, Option.bind_eq_bind, Option.bind_some,
      digits?_head h, hfraction, hexponent, NumberShape.decimalAtFront, hpoint,
      NumberShape.text_decimal, List.length_append, skip_skip]
    rfl

theorem parse?_text (cs : List Char) :
    Head.parse? ((NumberShape.announced? cs).map Prod.fst) (NumberShape.atFront cs).text =
      some (NumberShape.atFront cs).value? := by
  rw [NumberShape.atFront_eq]
  cases hannounced : NumberShape.announced? cs with
  | some announced =>
    obtain ⟨radix, letter⟩ := announced
    obtain ⟨-, -, hletter⟩ := NumberShape.announced?_eq_some hannounced
    -- Both letters of the base have one byte.
    have hbytes : boundary ('0' :: letter :: (cs.drop 2).takeWhile radix.takes) 2 = 2 := by
      have hsize : letter.utf8Size = 1 := Radix.utf8Size_of_letter hletter
      rw [boundary_cons, boundary_cons, hsize]
      rfl
    have hsplit := splitAtByte?_boundary ('0' :: letter :: (cs.drop 2).takeWhile radix.takes) 2
    rw [hbytes] at hsplit
    have hbase : 2 ≤ radix.base ∧ radix.base ≤ 36 := by cases radix <;> decide
    simp only [Head.parse?, Option.map_some, NumberShape.text, hsplit, Option.bind_eq_bind,
      Option.bind_some, if_pos hbase]
    rfl
  | none =>
    -- The text of a decimal is read like the text that it was taken from.
    obtain ⟨rest, hrest, hread⟩ := NumberShape.reads_decimal.settled cs
    have hagain := hread [] fun d hd => by cases hd
    rw [List.append_nil, id] at hagain
    simp only [Head.parse?, Option.map_none, NumberShape.decimalAtFront_eq,
      NumberShape.text_decimal]
    rw [hagain]

theorem number?_head (h : c.Proper) : c.head.number? =
    some ((Lexeme.number c.rest).handedOut c) := by
  obtain ⟨rest, htext⟩ := NumberShape.text_atFront c.rest
  have hslice := sliceFrom?_front h htext
  have hparse := parse?_text c.rest
  have hnumber := Lexeme.number_eq c.rest
  generalize hshape : NumberShape.atFront c.rest = shape at htext hslice hparse hnumber
  have hleft : (c.skip shape.text.length).current? = (c.rest.drop shape.text.length).head? := by
    rw [current?, skip_rest]
  rw [hnumber, Lexeme.ofShape, ← hleft]
  simp only [Head.number?, shape?_head h, hshape, Option.bind_eq_bind, Option.bind_some, hslice,
    hparse]
  cases shape.value? with
  | none => rfl
  | some value =>
    by_cases hletter : (c.skip shape.text.length).current? = some 'i'
    · obtain ⟨more, hmore⟩ := List.head?_eq_some_iff.mp hletter
      have hwhole : c.rest = (shape.text ++ ['i']) ++ more := by
        rw [skip_rest] at hmore
        rw [List.append_assoc, List.singleton_append, ← hmore]
        exact htext.trans (congrArg _ (by rw [htext, List.drop_left]))
      have hslice := sliceFrom?_front h hwhole
      rw [List.length_append, List.length_singleton] at hslice
      simp only [advanceIf?_of_eq (h.skip _) hletter, if_pos hletter, Option.bind_some, if_true,
        skip_skip, hslice]
      rfl
    · simp only [advanceIf?_of_ne (h.skip _) hletter, if_neg hletter, Option.bind_some,
        Bool.false_eq_true, if_false]
      rfl

theorem quoted?_head (h : c.Proper) {mark : Char} {cs : List Char} (hrest : c.rest = mark :: cs) :
    c.head.quoted? mark = some ((Lexeme.quoted mark cs).handedOut c) := by
  have hcs : (c.skip 1).rest = cs := skip_one_rest hrest
  have hloop := loop?_head (fun _ => none) (fun s ch _ => some (Head.quotedRound mark s ch))
    (fun s ch _ => Head.quotedRound mark s ch) (h.skip 1) (fun _ _ _ _ _ _ => rfl) ([], false)
  rw [hcs, Head.through_quoted, Head.bodyFrom] at hloop
  simp only [Head.quoted?, advance?_head h, Option.bind_eq_bind, Option.bind_some, Lexeme.quoted]
  rw [show c.advance = c.skip 1 from rfl]
  cases hlength : Quoted.bodyLength? mark false 0 cs with
  | none =>
    simp only [hlength] at hloop
    simp only [hloop, skip_skip, Option.bind_some, Nat.add_comm 1]
    rfl
  | some n =>
    simp only [hlength] at hloop
    simp only [hloop, skip_skip, Option.bind_some, advance?_skip h]
    rw [show 1 + n + 1 = n + 2 by omega]
    rfl

theorem lineComment?_head (h : c.Proper) {cs : List Char} (hrest : c.rest = '/' :: '/' :: cs) :
    (c.skip 2).head.lineComment? c.position c.head.bytes =
      some ((Lexeme.lineComment c.rest).handedOut c) := by
  have hcs : (c.skip 2).rest = cs := by rw [skip_rest, hrest]; rfl
  have hline : Comment.line c.rest = '/' :: '/' :: cs.takeWhile (· ≠ '\n') := by
    rw [hrest]; rfl
  have hmove := eatWhile?_run (h.skip 2) (· ≠ '\n') fun _ => rfl
  have htext := sliceFrom?_front h
    (List.takeWhile_append_dropWhile (p := (· ≠ '\n')) (l := c.rest)).symm
  change (c.skip (Comment.line c.rest).length).head.sliceFrom? _ = some (Comment.line c.rest)
    at htext
  have hlength : (Comment.line c.rest).length = 2 + (cs.takeWhile (· ≠ '\n')).length := by
    rw [hline, List.length_cons, List.length_cons]
    omega
  rw [hcs, skip_skip] at hmove
  rw [hlength] at htext
  simp only [Head.lineComment?, hmove, Option.bind_eq_bind, Option.bind_some, htext,
    Lexeme.lineComment, Lexeme.handedOut, hlength]
  rfl

theorem blockComment?_head (h : c.Proper) {slash : Char} {cs : List Char}
    (hrest : c.rest = slash :: cs) :
    (c.skip 1).head.blockComment? c.position c.head.bytes =
      some ((Lexeme.blockComment slash cs).handedOut c) := by
  have hcs : (c.skip 1).rest = cs := skip_one_rest hrest
  have hloop := loop?_head (fun _ => false) Head.lookForClose Head.blockRound (h.skip 1)
    (fun _ ch more c' hc' hmore => by
      rw [Head.lookForClose, peek?_head hc', peek?, hmore, Head.blockRound,
        List.head?_eq_getElem?, List.getElem?_cons_succ]
      simp only [Option.bind_eq_bind, Option.bind_some]
      split <;> rfl) ()
  rw [hcs, Head.through_block] at hloop
  rw [Lexeme.blockComment, Head.blockLength?_succ]
  cases hlength : Comment.blockLength? 0 cs with
  | none =>
    simp only [hlength] at hloop
    simp only [Head.blockComment?, hloop, skip_skip, Option.bind_eq_bind, Option.bind_some,
      Nat.add_comm 1]
    rfl
  | some n =>
    have hn := Lexeme.blockLength?_pos hlength
    have hslice := sliceFrom?_head h (n + 1)
    simp only [hlength] at hloop
    simp only [Head.blockComment?, hloop, skip_skip, Option.bind_eq_bind, Option.bind_some,
      advance?_skip h, if_true]
    rw [show 1 + (n - 2) + 1 + 1 = n + 1 by omega, show c.head.bytes = c.bytes from rfl, hslice,
      hrest]
    rfl

theorem punct?_head (h : c.Proper) {first : Char} {cs : List Char} (hrest : c.rest = first :: cs)
    (hline : ¬ (first = '/' ∧ cs.head? = some '/'))
    (hblock : ¬ (first = '/' ∧ cs.head? = some '*')) :
    (c.skip 1).head.punct? c.position first =
      some ((Lexeme.punctuation first cs).handedOut c) := by
  have hcs : (c.skip 1).rest = cs := skip_one_rest hrest
  rw [Lexeme.punctuation, if_neg hline, if_neg hblock, Head.punct?]
  cases hchar : Punct.ofChar? first with
  | none => simp [Punct.atFront?, hchar, Lexeme.handedOut]
  | some p =>
    have hloop := loop?_head id (fun p ch _ => some ((Punct.extend? p ch).elim (.inr p) .inl))
      (fun p ch _ => (p.extend? ch).elim (.inr p) .inl) (h.skip 1) (fun _ _ _ _ _ _ => rfl) p
    obtain ⟨hpunct, hlength⟩ := Head.through_extend p cs
    rw [hcs, hpunct, skip_skip] at hloop
    rw [Punct.spelling_of_ofChar? hchar, List.length_singleton] at hlength
    simp only [Head.extend?, hloop, Option.bind_eq_bind, Option.bind_some, Punct.atFront?, hchar,
      Option.map_some, Lexeme.handedOut, hlength]
    rfl

theorem operator?_head (h : c.Proper) {first : Char} {cs : List Char}
    (hrest : c.rest = first :: cs) :
    c.head.operator? first = some ((Lexeme.punctuation first cs).handedOut c) := by
  have hcs : (c.skip 1).rest = cs := skip_one_rest hrest
  have hcurrent : (c.skip 1).current? = cs.head? := by rw [current?, hcs]
  simp only [Head.operator?, advance?_head h, Option.bind_eq_bind, Option.bind_some]
  rw [show c.advance = c.skip 1 from rfl, show c.head.position = c.position from rfl]
  by_cases hfirst : first = '/'
  · subst hfirst
    rw [if_pos rfl]
    by_cases hline : cs.head? = some '/'
    · obtain ⟨more, hmore⟩ := List.head?_eq_some_iff.mp hline
      rw [advanceIf?_of_eq (h.skip 1) (hcurrent.trans hline), skip_skip]
      simp only [Option.bind_some, if_true]
      rw [lineComment?_head h (hrest.trans (by rw [hmore])), Lexeme.punctuation,
        if_pos ⟨rfl, hline⟩, hrest]
    · rw [advanceIf?_of_ne (h.skip 1) (fun heq => hline (hcurrent.symm.trans heq))]
      simp only [Option.bind_some, Bool.false_eq_true, if_false, look?_head (h.skip 1), hcurrent]
      by_cases hblock : cs.head? = some '*'
      · rw [if_pos hblock, blockComment?_head h hrest, Lexeme.punctuation,
          if_neg (fun hs => hline hs.2), if_pos ⟨rfl, hblock⟩]
      · rw [if_neg hblock]
        exact punct?_head h hrest (fun hs => hline hs.2) (fun hs => hblock hs.2)
  · rw [if_neg hfirst]
    exact punct?_head h hrest (fun hs => hfirst hs.1) (fun hs => hfirst hs.1)

/-- Reading step by step, every condition holds, and the lexeme is the one at the front. -/
theorem lexeme?_head (h : c.Proper) {first : Char} {cs : List Char}
    (hrest : c.rest = first :: cs) :
    c.head.lexeme? first = some ((Lexeme.atFront first cs).handedOut c) := by
  cases hclass : CharClass.of first with
  | wordStart =>
    simp only [Head.lexeme?, Lexeme.atFront, hclass]
    exact word?_head h hrest (CharClass.isWordStart_of_class hclass)
  | digit =>
    simp only [Head.lexeme?, Lexeme.atFront, hclass]
    rw [number?_head h, hrest]
  | quote =>
    simp only [Head.lexeme?, Lexeme.atFront, hclass]
    exact quoted?_head h hrest
  | punctuation =>
    simp only [Head.lexeme?, Lexeme.atFront, hclass]
    exact operator?_head h hrest
  | blank =>
    simp only [Head.lexeme?, Lexeme.atFront, hclass]
    rfl
  | other =>
    simp only [Head.lexeme?, Lexeme.atFront, hclass]
    rfl

end Cursor

end GoTokens
