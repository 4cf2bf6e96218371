import RouteDocs.Text.CodePoint

/-!
# UTF-8

Texts as bytes and bytes as texts, with exact reports of what cannot be converted.

## Main Definitions

* `Utf8.encode`: the bytes of a text, or the surrogates that have none
* `Utf8.decode`: the text of bytes, or the first bytes that form no character
* `Utf8.EncodeError`, `Utf8.DecodeError`: the reports
-/

namespace RouteDocs

namespace Utf8

/-- A run of surrogates in a text, which has no bytes. -/
structure EncodeError where
  /-- The first surrogate. -/
  first : CodePoint
  /-- The number of code points before it. -/
  position : Nat
  /-- The number of surrogates in the run. -/
  count : Nat
  deriving Repr, DecidableEq

/-- The wording of a report. -/
def EncodeError.message (e : EncodeError) : Text :=
  if e.count ≤ 1 then
    "'utf-8' codec can't encode character '\\u" ++ Text.ofHex 4 e.first.val ++ "' in position "
      ++ Text.ofNat e.position ++ ": surrogates not allowed"
  else
    "'utf-8' codec can't encode characters in position " ++ Text.ofNat e.position ++ "-"
      ++ Text.ofNat (e.position + e.count - 1) ++ ": surrogates not allowed"

/-- What is wrong with bytes. -/
inductive DecodeError.Reason where
  | invalidStart | invalidContinuation | unexpectedEnd
  deriving Repr, DecidableEq

/-- Bytes that form no character. -/
structure DecodeError where
  /-- The number of bytes before them. -/
  position : Nat
  /-- The first of them. -/
  first : UInt8
  /-- How many there are. -/
  count : Nat
  /-- What is wrong with them. -/
  reason : DecodeError.Reason
  deriving Repr, DecidableEq

/-- The wording of a reason. -/
def DecodeError.Reason.message : DecodeError.Reason → Text
  | .invalidStart => "invalid start byte"
  | .invalidContinuation => "invalid continuation byte"
  | .unexpectedEnd => "unexpected end of data"

/-- The wording of a report. -/
def DecodeError.message (e : DecodeError) : Text :=
  if e.count ≤ 1 then
    "'utf-8' codec can't decode byte 0x" ++ Text.ofHex 2 e.first.toNat ++ " in position "
      ++ Text.ofNat e.position ++ ": " ++ e.reason.message
  else
    "'utf-8' codec can't decode bytes in position " ++ Text.ofNat e.position ++ "-"
      ++ Text.ofNat (e.position + e.count - 1) ++ ": " ++ e.reason.message

/-- The bytes of a code point, which are meaningful unless it is a surrogate. -/
def encodeOne (c : CodePoint) : List UInt8 :=
  let n := c.val
  if n < 0x80 then [n.toUInt8]
  else if n < 0x800 then [(0xC0 + n / 0x40).toUInt8, (0x80 + n % 0x40).toUInt8]
  else if n < 0x10000 then
    [(0xE0 + n / 0x1000).toUInt8, (0x80 + n / 0x40 % 0x40).toUInt8, (0x80 + n % 0x40).toUInt8]
  else
    [(0xF0 + n / 0x40000).toUInt8, (0x80 + n / 0x1000 % 0x40).toUInt8,
      (0x80 + n / 0x40 % 0x40).toUInt8, (0x80 + n % 0x40).toUInt8]

/-- The first run of surrogates of a text that begins at a position. -/
def firstSurrogates (position : Nat) : Text → Option EncodeError
  | [] => none
  | c :: r =>
    if c.isSurrogate then
      some ⟨c, position, 1 + (r.takeWhile CodePoint.isSurrogate).length⟩
    else firstSurrogates (position + 1) r

/-- The bytes of a text. -/
def encode (t : Text) : Except EncodeError (List UInt8) :=
  match firstSurrogates 0 t with
  | some e => .error e
  | none => .ok (t.flatMap encodeOne)

/-- Whether a byte continues a character. -/
def isContinuation (b : UInt8) : Bool := 0x80 ≤ b.toNat && b.toNat ≤ 0xBF

/-- The number of bytes of a character with a first byte, and the range of its second byte. -/
def lead? (b : UInt8) : Option (Nat × Nat × Nat) :=
  let n := b.toNat
  if 0xC2 ≤ n ∧ n ≤ 0xDF then some (2, 0x80, 0xBF)
  else if n == 0xE0 then some (3, 0xA0, 0xBF)
  else if n == 0xED then some (3, 0x80, 0x9F)
  else if 0xE1 ≤ n ∧ n ≤ 0xEF then some (3, 0x80, 0xBF)
  else if n == 0xF0 then some (4, 0x90, 0xBF)
  else if n == 0xF4 then some (4, 0x80, 0x8F)
  else if 0xF1 ≤ n ∧ n ≤ 0xF3 then some (4, 0x80, 0xBF)
  else none

/-- The low six bits of a byte. -/
def low (b : UInt8) : Nat := b.toNat % 0x40

/-- The text of bytes that begin at a position. -/
def decodeFrom (position : Nat) : List UInt8 → Except DecodeError Text
  | [] => .ok []
  | b :: r =>
    if b.toNat < 0x80 then
      (decodeFrom (position + 1) r).map (CodePoint.ofNat b.toNat :: ·)
    else
      let fail (count : Nat) (reason : DecodeError.Reason) : Except DecodeError Text :=
        .error ⟨position, b, count, reason⟩
      match lead? b with
      | none => fail 1 .invalidStart
      | some (size, least, greatest) =>
        match r with
        | [] => fail 1 .unexpectedEnd
        | c :: s =>
          if c.toNat < least || greatest < c.toNat then fail 1 .invalidContinuation
          else if size == 2 then
            (decodeFrom (position + 2) s).map
              (CodePoint.ofNat ((b.toNat - 0xC0) * 0x40 + low c) :: ·)
          else match s with
            | [] => fail 2 .unexpectedEnd
            | d :: u =>
              if !isContinuation d then fail 2 .invalidContinuation
              else if size == 3 then
                (decodeFrom (position + 3) u).map
                  (CodePoint.ofNat ((b.toNat - 0xE0) * 0x1000 + low c * 0x40 + low d) :: ·)
              else match u with
                | [] => fail 3 .unexpectedEnd
                | e :: v =>
                  if !isContinuation e then fail 3 .invalidContinuation
                  else (decodeFrom (position + 4) v).map
                    (CodePoint.ofNat ((b.toNat - 0xF0) * 0x40000 + low c * 0x1000 + low d * 0x40
                      + low e) :: ·)

/-- The text of bytes. -/
def decode (bytes : List UInt8) : Except DecodeError Text :=
  decodeFrom 0 bytes

end Utf8

end RouteDocs
