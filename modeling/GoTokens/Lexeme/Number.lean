import GoTokens.Numeral.Digits
import GoTokens.Token

/-!
The lexeme of a number. It is read by its shape alone, as far as the shape goes,
and has a value or not afterwards: `0b12`, `0x` and `1e` are lexemes without a
value. Its shape keeps every character, so the lexeme is the text of the shape.
-/

namespace GoTokens

/-- The bases that a second letter announces. -/
inductive Radix where
  | binary | octal | hexadecimal
deriving DecidableEq, Repr

namespace Radix

def base : Radix → Nat
  | binary => 2
  | octal => 8
  | hexadecimal => 16

def ofLetter? (c : Char) : Option Radix :=
  if c = 'x' ∨ c = 'X' then some hexadecimal
  else if c = 'o' ∨ c = 'O' then some octal
  else if c = 'b' ∨ c = 'B' then some binary
  else none

/-- The characters taken as digits after a letter. Decimal digits too great for the base
belong to the lexeme, which then has no value. -/
def takes : Radix → Char → Bool
  | hexadecimal => Numeral.isDigitOf 16
  | _ => Char.isDigit

end Radix

/-- The power of ten at the end of a decimal. -/
structure Exponent where
  mark : Char
  sign : Option Char
  digits : List Char
deriving DecidableEq, Repr

inductive NumberShape where
  | based (radix : Radix) (letter : Char) (digits : List Char)
  | decimal (whole : List Char) (fraction : Option (List Char)) (exponent : Option Exponent)
deriving DecidableEq, Repr

namespace Exponent

def atFront? : List Char → Option Exponent
  | [] => none
  | mark :: cs =>
    if mark = 'e' ∨ mark = 'E' then
      match cs with
      | [] => some ⟨mark, none, []⟩
      | c :: cs' =>
        if c = '+' ∨ c = '-' then some ⟨mark, some c, cs'.takeWhile Char.isDigit⟩
        else some ⟨mark, none, cs.takeWhile Char.isDigit⟩
    else none

def text (e : Exponent) : List Char := e.mark :: (e.sign.toList ++ e.digits)

def value (e : Exponent) : Int :=
  let n : Int := Numeral.valueOf 10 e.digits
  if e.sign = some '-' then -n else n

end Exponent

namespace NumberShape

/-- The fraction at the front of a text: a point and the digits after it. -/
def fraction? : List Char → Option (List Char)
  | '.' :: cs => some (cs.takeWhile Char.isDigit)
  | _ => none

def fractionText (fraction : Option (List Char)) : List Char :=
  match fraction with
  | some digits => '.' :: digits
  | none => []

def decimalAtFront (cs : List Char) : NumberShape :=
  let whole := cs.takeWhile Char.isDigit
  let cs := cs.dropWhile Char.isDigit
  let fraction := fraction? cs
  let cs := cs.drop (fractionText fraction).length
  decimal whole fraction (Exponent.atFront? cs)

/-- The shape of the number at the front of a text that begins with a digit. -/
def atFront : List Char → NumberShape
  | zero :: letter :: cs =>
    if zero = '0' then
      match Radix.ofLetter? letter with
      | some radix => based radix letter (cs.takeWhile radix.takes)
      | none => decimalAtFront (zero :: letter :: cs)
    else decimalAtFront (zero :: letter :: cs)
  | cs => decimalAtFront cs

def text : NumberShape → List Char
  | based _ letter digits => '0' :: letter :: digits
  | decimal whole fraction exponent =>
    whole ++ fractionText fraction ++ (exponent.map Exponent.text).getD []

def intLimit : Nat := Nat.pow 2 64

/-- The value, if there is one. A number with a fraction or an exponent is a
floating-point number and has a value unless digits are missing from its exponent. -/
def value? : NumberShape → Option TokenValue
  | based radix _ digits => (Numeral.valueBelow? radix.base intLimit digits).map .int
  | decimal whole none none => (Numeral.valueBelow? 10 intLimit whole).map .int
  | decimal whole fraction exponent =>
    if exponent.any (·.digits.isEmpty) then none
    else
      let fraction := fraction.getD []
      let shift := (exponent.map Exponent.value).getD 0
      some (.float (.ofDecimal (Numeral.valueOf 10 (whole ++ fraction)) (shift - fraction.length)))

theorem decimalAtFront_text_ne_nil {c : Char} {cs : List Char} (h : c.isDigit = true) :
    (decimalAtFront (c :: cs)).text ≠ [] := by
  simp [decimalAtFront, text, h]

theorem atFront_text_ne_nil {c : Char} {cs : List Char} (h : c.isDigit = true) :
    (atFront (c :: cs)).text ≠ [] := by
  unfold atFront
  split
  · rename_i heq
    cases heq
    split
    · split
      · simp [text]
      · exact decimalAtFront_text_ne_nil h
    · exact decimalAtFront_text_ne_nil h
  · exact decimalAtFront_text_ne_nil h

end NumberShape

end GoTokens
