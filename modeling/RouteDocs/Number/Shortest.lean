import RouteDocs.Number.Binary64
import RouteDocs.Text.CodePoint

/-!
# Shortest Decimals

The decimal with the fewest digits that reads back as a given binary number, and its layout as
text.

## Main Definitions

* `Binary64.shortest`: the fewest digits that read back, the nearest ones among those
* `FloatLayout`: where positional notation ends and how exponents are written
* `Binary64.layOut`: the text of a finite number

## Design Notes

A number is read back from every real of an interval around it, to which the ends belong if the
mantissa is even. For one digit, two digits and so on, the two neighbours of the number on the
decimal grid of that many digits are tested; seventeen digits always suffice.
-/

namespace RouteDocs

namespace Binary64

/-- The decimal exponent of a positive quotient: the power of ten of its first digit. -/
def decimalExponent (n d : Nat) : Int :=
  if d ≤ n then (decimalLength (n / d) : Int) - 1
  else
    -- the quotient of the inverted fraction, rounded up, has as many digits as there are places
    let inverse := (d + n - 1) / n
    if inverse == Nat.pow 10 (decimalLength inverse - 1) then 1 - (decimalLength inverse : Int)
    else -(decimalLength inverse : Int)

/-- The interval of reals around `m · 2 ^ e` that round to it, as numerators over a common
denominator: lower end, the number, upper end, denominator. -/
def roundingInterval (m : Nat) (e : Int) : Nat × Nat × Nat × Nat :=
  let below := if m == Nat.pow 2 52 && minExponent < e then 1 else 2
  if 0 ≤ e then
    let unit := Nat.pow 2 e.toNat
    (4 * m * unit - below * unit, 4 * m * unit, 4 * m * unit + 2 * unit, 4)
  else (4 * m - below, 4 * m, 4 * m + 2, 4 * Nat.pow 2 (-e).toNat)

/-- A decimal of a number of digits that rounds to the number of an interval, if there is one:
the nearer neighbour of the number on that grid, the even one of two equally near. -/
def onGrid? (interval : Nat × Nat × Nat × Nat) (closed : Bool) (power : Int) : Option Nat :=
  let (low, value, high, d) := interval
  let up := Nat.pow 10 (-power).toNat
  let down := d * Nat.pow 10 power.toNat
  let floor := value * up / down
  let inside (k : Nat) : Bool :=
    if closed then low * up ≤ k * down && k * down ≤ high * up
    else low * up < k * down && k * down < high * up
  let belowGap := value * up - floor * down
  let aboveGap := (floor + 1) * down - value * up
  match inside floor, inside (floor + 1) with
  | false, false => none
  | true, false => some floor
  | false, true => some (floor + 1)
  | true, true =>
    if belowGap < aboveGap then some floor
    else if aboveGap < belowGap then some (floor + 1)
    else some (if floor % 2 == 0 then floor else floor + 1)

/-- Searches the grids from a number of digits onwards. -/
def shortestFrom (interval : Nat × Nat × Nat × Nat) (closed : Bool) (top : Int) :
    Nat → Nat → Nat × Int
  | 0, digits => ((onGrid? interval closed (top - digits)).getD 0, top - digits)
  | rounds + 1, digits =>
    match onGrid? interval closed (top + 1 - digits) with
    | some k => (k, top + 1 - digits)
    | none => shortestFrom interval closed top rounds (digits + 1)

/-- The digits `k` and the power `p` of the shortest decimal `k · 10 ^ p` that reads back as the
positive number `m · 2 ^ e`. -/
def shortest (m : Nat) (e : Int) : Nat × Int :=
  let interval := roundingInterval m e
  shortestFrom interval (m % 2 == 0) (decimalExponent interval.2.1 interval.2.2.2) 17 1

end Binary64

/-- How finite floating-point numbers are written. -/
structure FloatLayout where
  /-- The least exponent of a first digit that is written positionally. -/
  leastPositional : Int
  /-- The greatest exponent of a first digit that is written positionally. -/
  greatestPositional : Int
  /-- The least number of digits of a written exponent. -/
  exponentDigits : Nat
  /-- Whether a single digit before an exponent is followed by `.0`. -/
  pointBeforeExponent : Bool

/-- The digits of a number without the zeros at its end, and how many of these there were. -/
def withoutTrailingZeros (digits : List Char) : List Char × Nat :=
  let kept := (digits.reverse.dropWhile (· == '0')).reverse
  (kept, digits.length - kept.length)

/-- The text of the positive decimal `k · 10 ^ power`. -/
def FloatLayout.positive (layout : FloatLayout) (k : Nat) (power : Int) : Text :=
  let (digits, zeros) := withoutTrailingZeros (Nat.toDigits 10 k)
  let power := power + zeros
  let top := power + digits.length - 1
  let chars : Text := digits.map CodePoint.ofChar
  let zero : CodePoint := '0'
  if layout.leastPositional ≤ top ∧ top ≤ layout.greatestPositional then
    if 0 ≤ power then chars ++ List.replicate power.toNat zero ++ ".0"
    else if 0 ≤ top then chars.take (top + 1).toNat ++ "." ++ chars.drop (top + 1).toNat
    else "0." ++ List.replicate (-1 - top).toNat zero ++ chars
  else
    let fraction : Text := match chars.drop 1 with
      | [] => if layout.pointBeforeExponent then ".0" else []
      | rest => "." ++ rest
    let exponent := Text.ofNat top.natAbs
    let padding := List.replicate (layout.exponentDigits - exponent.length) zero
    chars.take 1 ++ fraction ++ "e" ++ (if top < 0 then "-" else "+") ++ padding ++ exponent

/-- The text of a number, where infinities and what is not a number have texts of their own. -/
def Binary64.layOut (layout : FloatLayout) (infinity minusInfinity notANumber : Text) :
    Binary64 → Text
  | .finite negative m e =>
    let sign : Text := if negative then "-" else []
    if m == 0 then sign ++ "0.0"
    else
      let (k, power) := shortest m e
      sign ++ layout.positive k power
  | .infinite negative => if negative then minusInfinity else infinity
  | .nan => notANumber

end RouteDocs
