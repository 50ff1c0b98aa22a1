/-!
Binary floating-point numbers of 64 bits, in exact arithmetic. A number is its
bits: a sign, eleven bits of exponent and fifty-two of fraction. A decimal is read
as the nearest of these numbers, of two equally near the one whose last bit is
zero; a decimal too large for all of them is infinity.
-/

namespace GoTokens

structure Binary64 where
  bits : UInt64
deriving DecidableEq, Repr

namespace Binary64

def isNegative (x : Binary64) : Bool := Nat.pow 2 63 ≤ x.bits.toNat

/-- The bits without the sign. Magnitudes are ordered as these codes are. -/
def code (x : Binary64) : Nat := x.bits.toNat % Nat.pow 2 63

/-- The code of infinity; greater codes are no numbers. -/
def infinityCode : Nat := 2047 * Nat.pow 2 52

def isNaN (x : Binary64) : Bool := infinityCode < x.code

def isInfinite (x : Binary64) : Bool := x.code == infinityCode

/-- The positive number of a code. -/
def ofCode (code : Nat) : Binary64 := ⟨UInt64.ofNat code⟩

def negated (x : Binary64) : Binary64 := ⟨x.bits ^^^ UInt64.ofNat (Nat.pow 2 63)⟩

/-- The magnitude of a finite code as `(m, e)`: it is m · 2 ^ (e - 1074). -/
def parts (code : Nat) : Nat × Nat :=
  let unit := Nat.pow 2 52
  if code < unit then (code, 0) else (unit + code % unit, code / unit - 1)

/-- Equality of values: the two zeros are equal, and what is no number equals nothing. -/
def sameValue (x y : Binary64) : Bool :=
  !x.isNaN && !y.isNaN && (x.bits == y.bits || (x.code == 0 && y.code == 0))

/-- The whole number nearest to a quotient, of two equally near the even one. -/
def roundHalfEven (num den : Nat) : Nat :=
  let q := num / den
  let r := num % den
  if 2 * r < den then q else if den < 2 * r then q + 1 else q + q % 2

/-- The exponent of the greatest power of two that is at most a positive quotient. -/
def floorLog2 (num den : Nat) : Int :=
  let k : Int := (num.log2 : Int) - (den.log2 : Int)
  let reached : Bool :=
    if 0 ≤ k then den * Nat.pow 2 k.toNat ≤ num else den ≤ num * Nat.pow 2 (-k).toNat
  if reached then k else k - 1

/-- The code of the number nearest to a quotient. The unit of the last place is two to
the power of `e`, so that the rounded quotient has at most fifty-three bits; adding it
to the exponent field carries into the next exponent where rounding reaches it. -/
def codeOfRatio (num den : Nat) : Nat :=
  if num = 0 then 0
  else
    let e := max (floorLog2 num den - 52) (-1074)
    let m :=
      if 0 ≤ e then roundHalfEven num (den * Nat.pow 2 e.toNat)
      else roundHalfEven (num * Nat.pow 2 (-e).toNat) den
    min ((e + 1074).toNat * Nat.pow 2 52 + m) infinityCode

/-- The number nearest to `m · 10 ^ e`. Where the power alone settles that the decimal is
beyond the greatest number, or below half of the least, it is not computed. -/
def ofDecimal (m : Nat) (e : Int) : Binary64 :=
  ofCode <|
    if m = 0 then 0
    else if 400 < e then infinityCode
    else if e < -((m.log2 : Int) + 400) then 0
    else if 0 ≤ e then codeOfRatio (m * Nat.pow 10 e.toNat) 1
    else codeOfRatio m (Nat.pow 10 (-e).toNat)

end Binary64

end GoTokens
