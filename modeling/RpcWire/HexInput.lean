import RpcWire.Numeral

namespace RpcWire

/-! # Hexadecimal input

Bytes written as hexadecimal digits, with blanks anywhere between them. Blanks
part the text into tokens, and a token may begin with `0x`. Digits pair up
across tokens, so a byte may straddle a blank. -/

namespace HexInput

inductive Problem where
  | badCharacter (byte : UInt8)
  | oddCount
  /-- A pair of digits is read as no number. -/
  | noNumber
deriving DecidableEq

namespace Problem

/-- The text ends at the first zero byte where it is shown, so a bad character
that is itself a zero byte ends it. -/
def text : Problem → Bytes
  | badCharacter byte => (ascii "bad hex character '" ++ [byte] ++ ascii "'").untilZero
  | oddCount => ascii "odd number of hex digits"
  | noNumber => ascii "stoul"

end Problem

/-- The digits, in order. `fresh` tells that a token begins here; only there is a
mark skipped. -/
def digits : (fresh : Bool) → Bytes → Except Problem Bytes
  | _, [] => .ok []
  | true, 0x30 :: 0x78 :: rest => digits false rest
  | true, 0x30 :: 0x58 :: rest => digits false rest
  | _, byte :: rest =>
      if isBlank byte then
        digits true rest
      else if isHexDigit byte then
        (digits false rest).map (byte :: ·)
      else
        .error (.badCharacter byte)

/-- One byte for each two digits, which are read as a number of their own. -/
def pairs : Bytes → Except Problem Bytes
  | high :: low :: rest =>
      match leadingHex? UInt64.size [high, low] with
      | some number => (pairs rest).map (UInt8.ofNat number :: ·)
      | none => .error .noNumber
  | _ => .ok []

/-- A bad character is reported before an odd count. -/
def read (text : Bytes) : Except Problem Bytes := do
  let found ← digits true text
  if found.length % 2 ≠ 0 then .error .oddCount else pairs found

example : read (ascii "0xDE ad\n0x0 1") = .ok [0xde, 0xad, 0x01] := rfl
example : read (ascii "0x0x") = .error (.badCharacter 0x78) := rfl
example : read (ascii "123") = .error .oddCount := rfl

end HexInput

end RpcWire
