namespace RpcWire

/-! # Byte strings

Everything that travels or is printed is a byte string. Texts are byte strings
too, because a machine name or a path may hold bytes that are no valid
character of any encoding and still has to come out unchanged. -/

abbrev Bytes := List UInt8

/-- The bytes of a fixed text, one per character. The texts of this library are
all within ASCII. -/
def ascii (text : String) : Bytes :=
  text.toList.map fun character => UInt8.ofNat character.toNat

example : ascii "xid" = [0x78, 0x69, 0x64] := rfl

namespace Bytes

def zeros (count : Nat) : Bytes := List.replicate count 0

@[simp] theorem length_zeros (count : Nat) : (zeros count).length = count := by
  simp [zeros]

def firstNonZero : Bytes → Option (Nat × UInt8)
  | [] => none
  | byte :: rest =>
      if byte = 0 then
        (firstNonZero rest).map fun (index, found) => (index + 1, found)
      else
        some (0, byte)

example : firstNonZero [0, 7, 9] = some (1, 7) := rfl

theorem firstNonZero_eq_none_iff (bytes : Bytes) :
    bytes.firstNonZero = none ↔ bytes = zeros bytes.length := by
  induction bytes with
  | nil => simp [firstNonZero, zeros]
  | cons byte rest induction =>
      by_cases zero : byte = 0
      · simp [firstNonZero, zero, induction, zeros, List.replicate_succ]
      · simp [firstNonZero, zero, zeros, List.replicate_succ]

/-- The part in front of the first zero byte: what a reader of zero-terminated
text sees. -/
def untilZero (bytes : Bytes) : Bytes := bytes.takeWhile (· != 0)

example : untilZero [0x61, 0, 0x62] = [0x61] := rfl

end Bytes

/-! ## Padding

Fields on the wire start at multiples of four, so data of any length is
followed by up to three padding bytes. -/

/-- The distance from `length` to the next multiple of four. -/
def padLength (length : Nat) : Nat := (4 - length % 4) % 4

example : [0, 1, 2, 3, 4, 5].map padLength = [0, 3, 2, 1, 0, 3] := rfl

theorem padLength_lt (length : Nat) : padLength length < 4 := by
  unfold padLength; omega

theorem four_dvd_add_padLength (length : Nat) : 4 ∣ length + padLength length := by
  unfold padLength; omega

theorem padLength_of_dvd {length : Nat} (aligned : 4 ∣ length) :
    padLength length = 0 := by
  unfold padLength; omega

/-- What counted data of this length takes on the wire: a length word, the
data and its padding. -/
def countedSize (length : Nat) : Nat := 4 + length + padLength length

example : countedSize 5 = 12 := rfl

/-! ## Character classes and digits -/

/-- Space, tab, line feed, vertical tab, form feed and carriage return. -/
def isBlank (byte : UInt8) : Bool :=
  byte = 0x20 || (0x09 ≤ byte && byte ≤ 0x0d)

def isDecimalDigit (byte : UInt8) : Bool := 0x30 ≤ byte && byte ≤ 0x39

/-- The lower-case digit of a number below sixteen. -/
def hexDigit (value : Nat) : UInt8 :=
  if value < 10 then UInt8.ofNat (0x30 + value) else UInt8.ofNat (0x57 + value)

/-- The value of a hexadecimal digit of either case. -/
def hexValue? (byte : UInt8) : Option Nat :=
  if isDecimalDigit byte then some (byte.toNat - 0x30)
  else if 0x61 ≤ byte && byte ≤ 0x66 then some (byte.toNat - 0x57)
  else if 0x41 ≤ byte && byte ≤ 0x46 then some (byte.toNat - 0x37)
  else none

def isHexDigit (byte : UInt8) : Bool := (hexValue? byte).isSome

namespace Bytes

def hex (bytes : Bytes) : Bytes :=
  bytes.flatMap fun byte => [hexDigit (byte.toNat / 16), hexDigit (byte.toNat % 16)]

example : hex [0x00, 0x9a, 0xff] = ascii "009aff" := rfl

end Bytes

end RpcWire
