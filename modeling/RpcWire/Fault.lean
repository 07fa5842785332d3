import RpcWire.Numeral
import RpcWire.Tag

namespace RpcWire

/-! # Faults

What can go wrong when values are written and read, one constructor per cause.
A fault is reported under the code of its class, with a text and, where the
wire holds an offending number, that number. -/

inductive FaultCode where
  | bufferTooSmall
  | truncated
  | invalidLength
  | invalidDiscriminant
  | invalidAuthStatus
  | invalidRpcVersion
  | invalidAuthData
  | nonZeroPadding
deriving DecidableEq

namespace FaultCode

def name : FaultCode → String
  | bufferTooSmall => "BufferTooSmall"
  | truncated => "Truncated"
  | invalidLength => "InvalidLength"
  | invalidDiscriminant => "InvalidDiscriminant"
  | invalidAuthStatus => "InvalidAuthStatus"
  | invalidRpcVersion => "InvalidRpcVersion"
  | invalidAuthData => "InvalidAuthData"
  | nonZeroPadding => "NonZeroPadding"

instance : Tag FaultCode where
  all := [.bufferTooSmall, .truncated, .invalidLength, .invalidDiscriminant,
    .invalidAuthStatus, .invalidRpcVersion, .invalidAuthData, .nonZeroPadding]
  name := name
  complete code := by cases code <;> simp

end FaultCode

/-! ## Reports

A report carries its code as a bare number, so that a number that names no code
can still be shown. -/

structure Report where
  code : UInt32
  details : Bytes
  value : UInt32
deriving DecidableEq

namespace Report

/-- The code's name and the details. The text is zero-terminated where it is
shown, so it ends at the first zero byte. -/
def text (report : Report) : Bytes :=
  (ascii (Tag.nameOf FaultCode "Unknown" report.code) ++ ascii ": " ++
    report.details).untilZero

example : (Report.mk 5 (ascii "rpcvers 3") 3).text =
    ascii "InvalidRpcVersion: rpcvers 3" := rfl
example : (Report.mk 8 (ascii "later") 0).text = ascii "Unknown: later" := rfl

def hasCode (report : Report) (code : FaultCode) : Bool :=
  report.code == Tag.toWord code

end Report

/-! ## Causes -/

inductive Fault where
  /-- A write needs a region of `needed` bytes in all. -/
  | regionFull (needed capacity : Nat)
  | messageTooLarge (needed capacity : Nat)
  /-- A length or count has no 32-bit word. -/
  | countTooWide (count : Nat)
  | truncated (needed offset remaining : Nat)
  | arrayTooLong (count remaining : Nat)
  | dataTooLong (length : UInt32) (remaining : Nat)
  | dirtyPadding (offset : Nat) (byte : UInt8)
  | notBool (word : UInt32)
  | unknownMessageType (word : UInt32)
  | unknownReplyStatus (word : UInt32)
  | unknownAcceptStatus (word : UInt32)
  | unknownRejectStatus (word : UInt32)
  | unknownAuthStatus (word : UInt32)
  | unknownRpcVersion (word : UInt32)
  | tooManyGids (count : Nat) (limit : UInt32)
  | bodyTooLong (length : Nat) (limit : UInt32)
  /-- The body of a structured credential goes on behind its last field. -/
  | bodyLeftOver (count : Nat)
  /-- A flavor with a form of its own was asked for as a plain one. -/
  | reservedFlavor (flavor : UInt32)
deriving DecidableEq

namespace Fault

/-- The class of a fault. A reserved flavor is a mistake of the caller and no
matter of the wire, so it has none. -/
def code : Fault → Option FaultCode
  | regionFull .. | messageTooLarge .. => some .bufferTooSmall
  | truncated .. => some .truncated
  | countTooWide _ | arrayTooLong .. | dataTooLong .. | tooManyGids .. | bodyTooLong .. =>
      some .invalidLength
  | notBool _ | unknownMessageType _ | unknownReplyStatus _ | unknownAcceptStatus _ |
    unknownRejectStatus _ => some .invalidDiscriminant
  | unknownAuthStatus _ => some .invalidAuthStatus
  | unknownRpcVersion _ => some .invalidRpcVersion
  | bodyLeftOver _ => some .invalidAuthData
  | dirtyPadding .. => some .nonZeroPadding
  | reservedFlavor _ => none

/-- The greatest word not above a number. -/
def clamp (number : Nat) : UInt32 := UInt32.ofNat (min number (UInt32.size - 1))

theorem clamp_toNat (word : UInt32) : clamp word.toNat = word := by
  have small := word.toNat_lt
  have inside : min word.toNat (UInt32.size - 1) = word.toNat := by
    unfold UInt32.size
    omega
  rw [clamp, inside, UInt32.ofNat_toNat]

def value : Fault → UInt32
  | regionFull .. | messageTooLarge .. | countTooWide _ | truncated .. | reservedFlavor _ => 0
  | arrayTooLong count _ => clamp count
  | dataTooLong length _ => length
  | dirtyPadding _ byte => byte.toUInt32
  | notBool word | unknownMessageType word | unknownReplyStatus word |
    unknownAcceptStatus word | unknownRejectStatus word | unknownAuthStatus word |
    unknownRpcVersion word => word
  | tooManyGids count _ => UInt32.ofNat count
  | bodyTooLong length _ => UInt32.ofNat length
  | bodyLeftOver count => UInt32.ofNat count

def details : Fault → Bytes
  | regionFull needed capacity =>
      ascii "need " ++ decimal needed ++ ascii " bytes, capacity is " ++ decimal capacity
  | messageTooLarge needed capacity =>
      ascii "message needs " ++ decimal needed ++ ascii " bytes, capacity is " ++
        decimal capacity
  | countTooWide count =>
      ascii "length " ++ decimal count ++ ascii " does not fit in 32 bits"
  | truncated needed offset remaining =>
      ascii "need " ++ decimal needed ++ ascii " bytes at offset " ++ decimal offset ++
        ascii ", " ++ decimal remaining ++ ascii " remain"
  | arrayTooLong count remaining =>
      ascii "array count " ++ decimal count ++ ascii " exceeds remaining " ++
        decimal remaining ++ ascii " bytes"
  | dataTooLong length remaining =>
      ascii "opaque length " ++ decimal length.toNat ++ ascii " exceeds remaining " ++
        decimal remaining ++ ascii " bytes"
  | dirtyPadding offset _ => ascii "padding byte at offset " ++ decimal offset
  | notBool word => ascii "bool value " ++ decimal word.toNat
  | unknownMessageType word => ascii "msg_type " ++ decimal word.toNat
  | unknownReplyStatus word => ascii "reply_stat " ++ decimal word.toNat
  | unknownAcceptStatus word => ascii "accept_stat " ++ decimal word.toNat
  | unknownRejectStatus word => ascii "reject_stat " ++ decimal word.toNat
  | unknownAuthStatus word => ascii "auth_stat " ++ decimal word.toNat
  | unknownRpcVersion word => ascii "rpcvers " ++ decimal word.toNat
  | tooManyGids count limit =>
      ascii "AUTH_SYS gid count " ++ decimal count ++ ascii " exceeds limit " ++
        decimal limit.toNat
  | bodyTooLong length limit =>
      ascii "auth body length " ++ decimal length ++ ascii " exceeds limit " ++
        decimal limit.toNat
  | bodyLeftOver count => decimal count ++ ascii " trailing bytes in AUTH_SYS body"
  | reservedFlavor flavor =>
      ascii "auth flavor " ++ decimal flavor.toNat ++ ascii " has a dedicated representation"

/-- The full text of a fault: that of its report, or the bare details of a
fault without a class. -/
def text (fault : Fault) : Bytes :=
  match fault.code with
  | some code => (Report.mk (Tag.toWord code) fault.details fault.value).text
  | none => fault.details

example : (regionFull 8 4).text =
    ascii "BufferTooSmall: need 8 bytes, capacity is 4" := rfl
example : (reservedFlavor 1).text =
    ascii "auth flavor 1 has a dedicated representation" := rfl
example : (arrayTooLong 1099511627776 12).value = 4294967295 := rfl

end Fault

/-- The tag of a number; `fault` says what a number without a tag means. -/
def Tag.ofWord [Tag Kind] (fault : UInt32 → Fault) (word : UInt32) : Except Fault Kind :=
  match Tag.ofWord? word with
  | some kind => .ok kind
  | none => .error (fault word)

end RpcWire
