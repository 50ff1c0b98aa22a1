import GoTokens.CharClass
import GoTokens.Fault
import GoTokens.Lexeme.Comment
import GoTokens.Lexeme.Number

/-!
The lexeme at the front of a text that does not begin with a blank. What it means
and how long it is depend on the text alone and not on where the text stands; a
token has at least one character, so reading lexemes comes to an end.
-/

namespace GoTokens

inductive Lexeme where
  /-- A value, and the characters it is spelled with. -/
  | token (value : TokenValue) (length : Nat)
  /-- A reason why there is none, and the characters looked through. -/
  | fault (fault : Fault) (length : Nat)
deriving DecidableEq, Repr

namespace Lexeme

def word (c : Char) (cs : List Char) : Lexeme :=
  let run := c :: cs.takeWhile isWordPart
  token (.ofWord (String.ofList run)) run.length

/-- A number, together with the letter that makes it imaginary. -/
def number (cs : List Char) : Lexeme :=
  let shape := NumberShape.atFront cs
  let text := shape.text
  match shape.value? with
  | none => fault (.malformedNumber (String.ofList text)) text.length
  | some value =>
    if (cs.drop text.length).head? = some 'i' then
      token (.imag (String.ofList (text ++ ['i']))) (text.length + 1)
    else token value text.length

/-- The literal whose opening mark has been read. -/
def quoted (mark : Char) (cs : List Char) : Lexeme :=
  match Quoted.bodyLength? mark false 0 cs with
  | some n => token (Quoted.value mark (cs.take n)) (n + 2)
  | none => fault (.unterminatedLiteral mark) (cs.length + 1)

def lineComment (cs : List Char) : Lexeme :=
  let text := Comment.line cs
  token (Comment.lineValue text) text.length

/-- The comment whose opening slash has been read. -/
def blockComment (slash : Char) (cs : List Char) : Lexeme :=
  match Comment.blockLength? 1 cs with
  | some n => token (Comment.blockValue ((slash :: cs).take n)) n
  | none => fault .unterminatedComment (cs.length + 1)

/-- An operator or separator, or the comment that a slash opens. The first character has been
passed by the time it proves to begin none. -/
def punctuation (c : Char) (cs : List Char) : Lexeme :=
  if c = '/' ∧ cs.head? = some '/' then lineComment (c :: cs)
  else if c = '/' ∧ cs.head? = some '*' then blockComment c cs
  else
    match Punct.atFront? (c :: cs) with
    | some punct => token (.opSep punct) punct.spelling.length
    | none => fault (.unknownCharacter c) 1

/-- The lexeme that begins with `c`. -/
def atFront (c : Char) (cs : List Char) : Lexeme :=
  match CharClass.of c with
  | .wordStart => word c cs
  | .digit => number (c :: cs)
  | .quote => quoted c cs
  | .punctuation => punctuation c cs
  | .blank | .other => fault (.unknownCharacter c) 0

theorem isDigit_of_class {c : Char} (h : CharClass.of c = .digit) : c.isDigit = true := by
  revert h
  simp only [CharClass.of]
  repeat' split
  all_goals simp_all

theorem blockLength?_pos {seen n : Nat} {cs : List Char}
    (h : Comment.blockLength? seen cs = some n) : seen + 2 ≤ n := by
  induction cs generalizing seen with
  | nil => simp [Comment.blockLength?] at h
  | cons a cs ih =>
    cases cs with
    | nil => simp [Comment.blockLength?] at h
    | cons b cs =>
      simp only [Comment.blockLength?] at h
      split at h
      · simp_all
      · have := ih h
        omega

theorem length_pos {c : Char} {cs : List Char} {value : TokenValue} {n : Nat}
    (h : atFront c cs = token value n) : 0 < n := by
  unfold atFront at h
  split at h
  · cases h; simp
  · rename_i hc
    have hne := @NumberShape.atFront_text_ne_nil _ cs (isDigit_of_class hc)
    have := List.length_pos_iff.2 hne
    simp only [number] at h
    split at h
    · cases h
    · split at h <;> cases h <;> omega
  · simp only [quoted] at h
    split at h <;> cases h
    omega
  · simp only [punctuation] at h
    split at h
    · rename_i hslash
      cases h
      simp [Comment.line, hslash.1]
    · split at h
      · simp only [blockComment] at h
        split at h <;> cases h
        rename_i hn
        have := blockLength?_pos hn
        omega
      · split at h
        · rename_i p hp
          cases h
          cases p <;> simp [Punct.spelling]
        · cases h
  · cases h
  · cases h

end Lexeme

end GoTokens
