/-!
# Binary Floating-Point Numbers

The numbers of the 64-bit binary format as exact values, and the rounding of a decimal to the
nearest of them. Everything is computed with integers.

## Main Definitions

* `Binary64`: a finite number `± mantissa · 2 ^ exponent`, an infinity, or not a number
* `Binary64.ofRatio`: the nearest number to a quotient, ties to the even mantissa
* `Binary64.ofDecimal`: the nearest number to `± digits · 10 ^ exponent`

## Design Notes

A finite number built here is in canonical form: the mantissa has 53 bits unless the exponent
is the least one, `-1074`.
-/

namespace RouteDocs

/-- A number of the 64-bit binary format. -/
inductive Binary64 where
  /-- The number `± mantissa · 2 ^ exponent`; both zeros are present. -/
  | finite (negative : Bool) (mantissa : Nat) (exponent : Int)
  /-- An infinity. -/
  | infinite (negative : Bool)
  /-- The result of an undefined operation. -/
  | nan
  deriving Repr, DecidableEq, Inhabited

namespace Binary64

/-- The least exponent of a finite number. -/
def minExponent : Int := -1074

/-- The greatest exponent of a finite number. -/
def maxExponent : Int := 971

/-- `n / d` rounded to a whole number, a half to the even neighbour. -/
def divNearestEven (n d : Nat) : Nat :=
  let q := n / d
  let r := n % d
  if 2 * r < d then q
  else if d < 2 * r then q + 1
  else if q % 2 == 0 then q else q + 1

/-- The quotient `n / d` scaled by `2 ^ -e`, as numerator and denominator. -/
def scaleBy (n d : Nat) (e : Int) : Nat × Nat :=
  if e < 0 then (n * Nat.pow 2 (-e).toNat, d) else (n, d * Nat.pow 2 e.toNat)

/-- The nearest number to `n / d` with a given sign, where `d` is positive; ties go to the even
mantissa and what lies beyond the greatest number becomes infinite. -/
def ofRatio (negative : Bool) (n d : Nat) : Binary64 :=
  if n == 0 then finite negative 0 minExponent
  else
    let guess : Int := (Nat.log2 n : Int) - Nat.log2 d - 52
    let (gn, gd) := scaleBy n d guess
    let e := max (if gn / gd < Nat.pow 2 52 then guess - 1 else guess) minExponent
    let (sn, sd) := scaleBy n d e
    let m := divNearestEven sn sd
    let (m, e) := if m == Nat.pow 2 53 then (Nat.pow 2 52, e + 1) else (m, e)
    if maxExponent < e then infinite negative else finite negative m e

/-- The number of decimal digits of a natural number, at least one. -/
def decimalLength (n : Nat) : Nat := (Nat.toDigits 10 n).length

/-- The nearest number to `± digits · 10 ^ exponent`. Decimals far outside the range are
settled by their magnitude alone, so that no huge power is computed. -/
def ofDecimal (negative : Bool) (digits : Nat) (exponent : Int) : Binary64 :=
  if digits == 0 then finite negative 0 minExponent
  else
    let magnitude : Int := decimalLength digits + exponent
    if 320 < magnitude then infinite negative
    else if magnitude < -340 then finite negative 0 minExponent
    else if exponent < 0 then ofRatio negative digits (Nat.pow 10 (-exponent).toNat)
    else ofRatio negative (digits * Nat.pow 10 exponent.toNat) 1

/-- The nearest number to an integer. -/
def ofInt (i : Int) : Binary64 :=
  ofRatio (i < 0) i.natAbs 1

/-- The integer that a number equals, if it is whole. -/
def toInt? : Binary64 → Option Int
  | finite negative m e =>
    let signed (n : Nat) : Int := if negative then -(n : Int) else n
    if 0 ≤ e then some (signed (m * Nat.pow 2 e.toNat))
    else if m % Nat.pow 2 (-e).toNat == 0 then some (signed (m / Nat.pow 2 (-e).toNat)) else none
  | _ => none

/-- Whether a number is one of the two zeros. -/
def isZero : Binary64 → Bool
  | finite _ m _ => m == 0
  | _ => false

/-- The number with the opposite sign. -/
def negate : Binary64 → Binary64
  | finite s m e => finite (!s) m e
  | infinite s => infinite (!s)
  | nan => nan

/-- The nearest number to a sum of two finite numbers. -/
def add : Binary64 → Binary64 → Binary64
  | finite s m e, finite t n f =>
    let low := min e f
    let a : Int := (m * Nat.pow 2 (e - low).toNat : Nat)
    let b : Int := (n * Nat.pow 2 (f - low).toNat : Nat)
    let sum := (if s then -a else a) + (if t then -b else b)
    if sum == 0 then finite (s && t) 0 minExponent
    else if low < 0 then ofRatio (sum < 0) sum.natAbs (Nat.pow 2 (-low).toNat)
    else ofRatio (sum < 0) (sum.natAbs * Nat.pow 2 low.toNat) 1
  | infinite s, infinite t => if s == t then infinite s else nan
  | infinite s, finite .. => infinite s
  | finite .., infinite t => infinite t
  | _, _ => nan

/-- The nearest number to a product. -/
def mul : Binary64 → Binary64 → Binary64
  | finite s m e, finite t n f =>
    let exponent := e + f
    if exponent < 0 then ofRatio (s != t) (m * n) (Nat.pow 2 (-exponent).toNat)
    else ofRatio (s != t) (m * n * Nat.pow 2 exponent.toNat) 1
  | infinite s, infinite t => infinite (s != t)
  | infinite s, finite t n _ => if n == 0 then nan else infinite (s != t)
  | finite s m _, infinite t => if m == 0 then nan else infinite (s != t)
  | _, _ => nan

end Binary64

end RouteDocs
