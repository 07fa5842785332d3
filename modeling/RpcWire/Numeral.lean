import RpcWire.Bytes

namespace RpcWire

/-! # Numbers in text -/

/-- The decimal digits of a number, without leading zeros. -/
def decimal (number : Nat) : Bytes :=
  (Nat.toDigits 10 number).map fun digit => UInt8.ofNat digit.toNat

example : decimal 0 = ascii "0" := rfl
example : decimal 4096 = ascii "4096" := rfl

/-! ## Reading a machine word

A number is read into a word that takes `size` values. Blanks may come first,
then one sign, then at least one digit, and nothing may follow. A magnitude that
does not fit becomes the greatest word; a minus sign negates modulo `size`, so
that small negative numbers become large ones. -/

inductive Sign where
  | plus
  | minus
deriving DecidableEq

/-- Split off an optional sign; no sign means plus. -/
def Sign.split : Bytes → Sign × Bytes
  | 0x2b :: rest => (.plus, rest)
  | 0x2d :: rest => (.minus, rest)
  | text => (.plus, text)

theorem Sign.split_of_unsigned {text : Bytes} (noPlus : text.head? ≠ some 0x2b)
    (noMinus : text.head? ≠ some 0x2d) : split text = (.plus, text) := by
  unfold split
  split
  · exact absurd rfl noPlus
  · exact absurd rfl noMinus
  · rfl

/-- The blanks and the signs stand in front of the digits. -/
theorem plain_of_le {byte : UInt8} (behind : 0x30 ≤ byte.toNat) :
    isBlank byte = false ∧ byte ≠ 0x2b ∧ byte ≠ 0x2d := by
  refine ⟨?_, ?_, ?_⟩
  · simp only [isBlank, Bool.or_eq_false_iff, Bool.and_eq_false_iff, decide_eq_false_iff_not,
      UInt8.le_iff_toNat_le, ← UInt8.toNat_inj, UInt8.reduceToNat]
    omega
  · rintro rfl
    simp at behind
  · rintro rfl
    simp at behind

def digitsValue (digits : Bytes) : Nat :=
  digits.foldl (fun value digit => 10 * value + (digit.toNat - 0x30)) 0

/-- The word that a sign and a magnitude stand for. -/
def Sign.wrap (size : Nat) (sign : Sign) (magnitude : Nat) : Nat :=
  if size ≤ magnitude then
    size - 1
  else
    match sign with
    | .plus => magnitude
    | .minus => (size - magnitude) % size

def readWord? (size : Nat) (text : Bytes) : Option Nat :=
  let (sign, digits) := Sign.split (text.dropWhile isBlank)
  if !digits.isEmpty && digits.all isDecimalDigit then
    some (sign.wrap size (digitsValue digits))
  else
    none

example : readWord? 256 (ascii " +0042") = some 42 := rfl
example : readWord? 256 (ascii "-1") = some 255 := rfl
example : readWord? 256 (ascii "-999") = some 255 := rfl
example : readWord? 256 (ascii "42 ") = none := rfl
example : readWord? 256 (ascii "- 1") = none := rfl

/-- Read a limit: a 64-bit word whose value is also that of a 32-bit one. -/
def readLimit? (text : Bytes) : Option UInt32 :=
  match readWord? UInt64.size text with
  | some value => if value < UInt32.size then some (UInt32.ofNat value) else none
  | none => none

example : readLimit? (ascii "4294967295") = some 4294967295 := rfl
example : readLimit? (ascii "4294967296") = none := rfl

/-! ## Reading a hexadecimal number

The number in front of a text is read, whatever stands behind it. Blanks and a
sign may come first here too, and then the mark `0x`, which belongs to the number
only where a digit follows. A magnitude that does not fit is no number. -/

def skipMark : Bytes → Bytes
  | 0x30 :: mark :: digit :: rest =>
      if (mark = 0x78 ∨ mark = 0x58) ∧ isHexDigit digit then digit :: rest
      else 0x30 :: mark :: digit :: rest
  | text => text

def hexDigitsValue (digits : Bytes) : Nat :=
  digits.foldl (fun value digit => 16 * value + (hexValue? digit).getD 0) 0

def leadingHex? (size : Nat) (text : Bytes) : Option Nat :=
  let (sign, unsigned) := Sign.split (text.dropWhile isBlank)
  let digits := (skipMark unsigned).takeWhile isHexDigit
  if digits.isEmpty || size ≤ hexDigitsValue digits then none
  else some (sign.wrap size (hexDigitsValue digits))

example : leadingHex? 256 (ascii "0x1Fz") = some 31 := rfl
example : leadingHex? 256 (ascii "0xz") = some 0 := rfl
example : leadingHex? 256 (ascii "-1") = some 255 := rfl
example : leadingHex? 256 (ascii "100") = none := rfl

end RpcWire
