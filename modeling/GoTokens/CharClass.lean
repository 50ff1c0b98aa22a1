import GoTokens.Text.Blank

/-!
What a character can begin. The class of the first character after the blanks
decides which kind of lexeme is read; the classes are tried in the order in which
they are listed, so each character has exactly one.
-/

namespace GoTokens

/-- The first character of a word: a letter of any script or an underscore. -/
def isWordStart (c : Char) : Bool := c == '_' || Text.isAlphabetic c

/-- A later character of a word: a letter or digit of any script or an underscore. -/
def isWordPart (c : Char) : Bool := c == '_' || Text.isAlphabetic c || Text.isNumeric c

def isQuote (c : Char) : Bool := c == '"' || c == '`' || c == '\''

/-- The characters that begin operators, separators and comments. -/
def punctuation : List Char := "+-*%=()&|^<>!.:;/\x7b\x7d[]\\,".toList

def isPunctuation (c : Char) : Bool := punctuation.contains c

inductive CharClass where
  | blank
  | wordStart
  | digit
  | quote
  | punctuation
  | other
deriving DecidableEq, Repr

def CharClass.of (c : Char) : CharClass :=
  if Text.isBlank c then .blank
  else if isWordStart c then .wordStart
  else if c.isDigit then .digit
  else if isQuote c then .quote
  else if isPunctuation c then .punctuation
  else .other

theorem CharClass.of_eq_blank {c : Char} : CharClass.of c = .blank ↔ Text.isBlank c = true := by
  simp only [CharClass.of]
  split
  · simp_all
  · simp_all only
    repeat' split
    all_goals simp

theorem isWordStart_of_isBlank {c : Char} (h : Text.isBlank c = true) : isWordStart c = false := by
  have hu : c ≠ '_' := by rintro rfl; revert h; decide
  simp [isWordStart, hu, Text.isAlphabetic_of_isBlank h]

theorem isWordPart_of_isBlank {c : Char} (h : Text.isBlank c = true) : isWordPart c = false := by
  have hu : c ≠ '_' := by rintro rfl; revert h; decide
  simp [isWordPart, hu, Text.isAlphabetic_of_isBlank h, Text.isNumeric_of_isBlank h]

theorem isWordPart_of_isWordStart {c : Char} (h : isWordStart c = true) : isWordPart c = true := by
  simp only [isWordStart, isWordPart, Bool.or_eq_true] at *
  exact .inl h

end GoTokens
