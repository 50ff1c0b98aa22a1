/-!
Digits and positional notation. Letters stand for the digits from ten on, in
either case; only ASCII characters are digits.
-/

namespace GoTokens.Numeral

/-- What a digit stands for, whatever the base. -/
def digitValue? (c : Char) : Option Nat :=
  if '0' ≤ c ∧ c ≤ '9' then some (c.toNat - '0'.toNat)
  else if 'a' ≤ c ∧ c ≤ 'z' then some (c.toNat - 'a'.toNat + 10)
  else if 'A' ≤ c ∧ c ≤ 'Z' then some (c.toNat - 'A'.toNat + 10)
  else none

def isDigitOf (base : Nat) (c : Char) : Bool := (digitValue? c).any (· < base)

/-- The same question for any number as a base: one outside 2 to 36 has no digits to
ask about. -/
def isDigitOf? (base : Nat) (c : Char) : Option Bool :=
  if 2 ≤ base ∧ base ≤ 36 then some (isDigitOf base c) else none

/-- The number that a run of digits denotes, most significant first. -/
def valueOf (base : Nat) (digits : List Char) : Nat :=
  digits.foldl (fun n c => n * base + (digitValue? c).getD 0) 0

/-- The number that a run of digits denotes if there are digits, all of the base, and
the number is below the limit. -/
def valueBelow? (base limit : Nat) (digits : List Char) : Option Nat :=
  if digits.isEmpty || !digits.all (isDigitOf base) then none
  else
    let n := valueOf base digits
    if n < limit then some n else none

end GoTokens.Numeral
