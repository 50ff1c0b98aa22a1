import GoTokens.Binary64.Shortest

/-!
Numbers as text. The digits are those of the shortest decimal; a style decides
which way equally near decimals go, for which sizes the digits are written in
place and for which with an exponent, and whether a whole number keeps a point.
-/

namespace GoTokens.Binary64

structure TextStyle where
  tie : Tie
  /-- Powers of ten of the leading digit for which the number is written without an
  exponent. -/
  positional : Int → Bool
  /-- Whether a whole number without an exponent ends in a point and a zero. -/
  pointZero : Bool

/-- Digits in place: the leading digit counts `10 ^ lead`. -/
def positionalText (pointZero : Bool) (digits : List Char) (lead : Int) : List Char :=
  if lead < 0 then
    '0' :: '.' :: (List.replicate (-lead - 1).toNat '0' ++ digits)
  else
    let whole := lead.toNat + 1
    if digits.length ≤ whole then
      digits ++ List.replicate (whole - digits.length) '0' ++ (if pointZero then ['.', '0'] else [])
    else
      digits.take whole ++ '.' :: digits.drop whole

/-- One digit before the point, and the exponent with its sign. -/
def exponentText (digits : List Char) (lead : Int) : List Char :=
  let mantissa :=
    match digits with
    | d :: d' :: ds => d :: '.' :: d' :: ds
    | ds => ds
  mantissa ++ 'e' :: (if lead < 0 then '-' else '+') :: Nat.toDigits 10 lead.natAbs

def finiteText (style : TextStyle) (x : Binary64) : List Char :=
  let sign := if x.isNegative then ['-'] else []
  if x.code = 0 then sign ++ positionalText style.pointZero ['0'] 0
  else
    let d := shortest style.tie x.code
    let digits := Nat.toDigits 10 d.digits
    let lead := d.exponent + digits.length - 1
    sign ++
      if style.positional lead then positionalText style.pointZero digits lead
      else exponentText digits lead

/-- Never an exponent, no point for whole numbers, and a half goes up. -/
def plainStyle : TextStyle := ⟨.up, fun _ => true, false⟩

/-- The plain text of any number. -/
def text (x : Binary64) : String :=
  if x.isNaN then "NaN"
  else if x.isInfinite then if x.isNegative then "-inf" else "inf"
  else String.ofList (finiteText plainStyle x)

end GoTokens.Binary64
