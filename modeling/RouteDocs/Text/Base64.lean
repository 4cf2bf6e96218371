import RouteDocs.Text.CodePoint

/-!
# Base 64

Reads bytes that are written with the letters, digits, `+` and `/`, each of which stands for six
bits.

## Main Definitions

* `Base64.decode?`: the bytes that a text writes

## Design Notes

Other code points are passed over. Four code points write three bytes; after an incomplete group
of two or three the equals signs that fill it must follow, and nothing after them counts.
-/

namespace RouteDocs

namespace Base64

/-- The six bits that a code point stands for. -/
def bits? (c : CodePoint) : Option Nat :=
  let n := c.val
  if 0x41 ≤ n ∧ n ≤ 0x5A then some (n - 0x41)
  else if 0x61 ≤ n ∧ n ≤ 0x7A then some (n - 0x47)
  else if c.isAsciiDigit then some (n + 4)
  else if c == '+' then some 62
  else if c == '/' then some 63
  else none

/-- The bytes of a text that continues a group, of which there are some code points and the bits
they left over; `pads` equals signs come directly before. -/
def decodeFrom (position left pads : Nat) : Text → Option (List UInt8)
  | [] => if position == 0 then some [] else none
  | c :: rest =>
    if c == '=' then
      if 2 ≤ position then
        if 4 ≤ position + pads + 1 then some [] else decodeFrom position left (pads + 1) rest
      else decodeFrom position left pads rest
    else
      match bits? c with
      | none => decodeFrom position left pads rest
      | some n =>
        match position with
        | 0 => decodeFrom 1 n 0 rest
        | 1 => (decodeFrom 2 (n % 16) 0 rest).map ((left * 4 + n / 16).toUInt8 :: ·)
        | 2 => (decodeFrom 3 (n % 4) 0 rest).map ((left * 16 + n / 4).toUInt8 :: ·)
        | _ => (decodeFrom 0 0 0 rest).map ((left * 64 + n).toUInt8 :: ·)

/-- The bytes that a text writes. -/
def decode? (t : Text) : Option (List UInt8) :=
  decodeFrom 0 0 0 t

end Base64

end RouteDocs
