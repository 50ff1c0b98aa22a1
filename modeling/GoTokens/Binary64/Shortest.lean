import GoTokens.Binary64.Basic

/-!
The shortest decimal that reads back as a given number, and of the shortest ones
the nearest. The decimals that read back form an interval around the number that
ends half way to its neighbours. On the grid of decimals with a given count of
digits, if any point lies in the interval then so does one of the two points next
to the number; grids are tried from one digit up to seventeen, which always
suffice.
-/

namespace GoTokens.Binary64

structure Decimal where
  digits : Nat
  exponent : Int
deriving DecidableEq, Repr

inductive Tie where
  | up
  | even
deriving DecidableEq, Repr

/-- A number with the interval of what reads back as it. The three points are to be
multiplied by `num / den`, a quarter of the last place. -/
structure Neighbourhood where
  low : Nat
  middle : Nat
  high : Nat
  /-- Whether the ends belong to the interval. -/
  closed : Bool
  num : Nat
  den : Nat

/-- The neighbourhood of the number of a finite, positive code. The neighbour below a power
of two is only half as far away as the one above. -/
def neighbourhood (code : Nat) : Neighbourhood :=
  let (m, e) := parts code
  let q : Int := (e : Int) - 1076
  { low := if m = Nat.pow 2 52 ∧ 0 < e then 4 * m - 1 else 4 * m - 2
    middle := 4 * m
    high := 4 * m + 2
    closed := m % 2 == 0
    num := Nat.pow 2 q.toNat
    den := Nat.pow 2 (-q).toNat }

namespace Neighbourhood

/-- How a point of the neighbourhood lies to the decimal `d · 10 ^ k`. -/
def compareAt (a : Neighbourhood) (point d : Nat) (k : Int) : Ordering :=
  compare (point * a.num * Nat.pow 10 (-k).toNat) (d * Nat.pow 10 k.toNat * a.den)

/-- Whether `d · 10 ^ k` reads back as the number. -/
def contains (a : Neighbourhood) (d : Nat) (k : Int) : Bool :=
  match a.compareAt a.low d k, a.compareAt a.high d k with
  | .lt, .gt => true
  | .eq, .gt => a.closed
  | .lt, .eq => a.closed
  | _, _ => false

/-- The power of ten of the number's first decimal digit. -/
def leadingExponent (a : Neighbourhood) : Int :=
  let num := a.middle * a.num
  if a.den ≤ num then ((Nat.toDigits 10 (num / a.den)).length : Int) - 1
  else -((Nat.toDigits 10 ((a.den + num - 1) / num - 1)).length : Int)

/-- The decimal with the given count of digits that reads back, the nearest if both of
the number's neighbours on the grid do. -/
def onGrid? (a : Neighbourhood) (tie : Tie) (count : Nat) : Option Decimal :=
  let k := a.leadingExponent + 1 - count
  let d := a.middle * a.num * Nat.pow 10 (-k).toNat / (Nat.pow 10 k.toNat * a.den)
  match a.contains d k, a.contains (d + 1) k with
  | true, true =>
    match a.compareAt (2 * a.middle) (2 * d + 1) k, tie with
    | .lt, _ => some ⟨d, k⟩
    | .gt, _ => some ⟨d + 1, k⟩
    | .eq, .up => some ⟨d + 1, k⟩
    | .eq, .even => some ⟨d + d % 2, k⟩
  | true, false => some ⟨d, k⟩
  | false, true => some ⟨d + 1, k⟩
  | false, false => none

end Neighbourhood

/-- The shortest decimal of a finite, positive code. Only on the grid of one digit can the
point above the number be a power of ten that is written with one digit fewer. -/
def shortest (tie : Tie) (code : Nat) : Decimal :=
  let a := neighbourhood code
  let found := ((List.range 17).findSome? fun i => a.onGrid? tie (i + 1)).getD ⟨0, 0⟩
  if found.digits = 10 then ⟨1, found.exponent + 1⟩ else found

end GoTokens.Binary64
