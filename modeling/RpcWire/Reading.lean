import RpcWire.Cursor
import RpcWire.Fault
import RpcWire.Word

namespace RpcWire

/-! # Reading values

A reading runs on a cursor. Whether it yields a value or a fault, it leaves the
cursor where it stopped, and another reading may go on from there. Every
reading makes sure that the bytes are there before it takes them. -/

/-- What a reader refuses beyond what the format itself forbids. A limit of
zero is no limit. -/
structure Policy where
  strictPadding : Bool := false
  maxGids : UInt32 := 0
  maxBody : UInt32 := 0
deriving DecidableEq

/-- Whether a limit is set and a number lies above it. -/
def exceeds (limit : UInt32) (number : Nat) : Bool :=
  limit != 0 && decide (limit.toNat < number)

abbrev Reading := EStateM Fault Cursor

namespace Reading

def ensure (condition : Prop) [Decidable condition] (fault : Fault) : Reading Unit :=
  if condition then pure () else throw fault

def require (count : Nat) : Reading Unit := do
  let cursor ← get
  ensure (count ≤ cursor.remaining) (.truncated count cursor.offset cursor.remaining)

/-- Take the next `count` bytes, of which the caller has made sure. -/
def take (count : Nat) : Reading Bytes :=
  modifyGet fun cursor => (cursor.next count, cursor.advance count)

/-! ## Numbers -/

def word : Reading UInt32 := do
  require 4
  return Word.ofBytes (← take 4)

/-- A double word is there as a whole or not at all. -/
def double : Reading UInt64 := do
  require 8
  let high ← word
  let low ← word
  return Word.double high low

def int : Reading Int32 := return (← word).toInt32

def long : Reading Int64 := return (← double).toInt64

def bool : Reading Bool := do
  let value ← word
  ensure (value.toNat ≤ 1) (.notBool value)
  return value == 1

/-- A tag of a closed set; `fault` says what another number means. -/
def tag (Kind : Type) [Tag Kind] (fault : UInt32 → Fault) : Reading Kind := do
  MonadExcept.ofExcept (Tag.ofWord fault (← word))

/-! ## Byte strings -/

/-- Step over the padding of data of the given length. A strict reader stops in
front of it when it is not all zero. -/
def padding (policy : Policy) (length : Nat) : Reading Unit := do
  let count := padLength length
  require count
  let cursor ← get
  match if policy.strictPadding then (cursor.next count).firstNonZero else none with
  | some (index, byte) => throw (.dirtyPadding (cursor.offset + index) byte)
  | none => set (cursor.advance count)

/-- Data behind its length word. The length has to leave room for the padding. -/
def counted (policy : Policy) : Reading Bytes := do
  let length ← word
  let cursor ← get
  ensure (length.toNat + padLength length.toNat ≤ cursor.remaining)
    (.dataTooLong length cursor.remaining)
  let data ← take length.toNat
  padding policy length.toNat
  return data

def fixed (policy : Policy) (length : Nat) : Reading Bytes := do
  require length
  require (length + padLength length)
  let data ← take length
  padding policy length
  return data

/-- All that is left, whatever its length. -/
def tail : Reading Bytes := do take (← get).remaining

/-! ## Arrays

The number of elements is checked against the bytes that are left before any
element is read: each takes at least `minimum` bytes, and at least one. -/

def checkCount (count minimum : Nat) : Reading Unit := do
  let cursor ← get
  ensure (count ≤ cursor.remaining / max minimum 1) (.arrayTooLong count cursor.remaining)

/-- How far the elements of an array came: those that are complete, the fault
that ended them if one did, and the cursor behind it all. -/
structure Progress (α : Type) where
  items : List α
  fault : Option Fault
  cursor : Cursor

namespace Progress

/-- An array without a fault is its elements; one with a fault is that fault. -/
def result (progress : Progress α) : EStateM.Result Fault Cursor (List α) :=
  match progress.fault with
  | none => .ok progress.items progress.cursor
  | some fault => .error fault progress.cursor

end Progress

/-- Read elements `index`, `index + 1` and so on, `count` of them, until one
fails. -/
def elements (item : Nat → Reading α) : (index count : Nat) → Cursor → Progress α
  | _, 0, cursor => ⟨[], none, cursor⟩
  | index, count + 1, cursor =>
      match (item index).run cursor with
      | .ok value next =>
          let later := elements item (index + 1) count next
          { later with items := value :: later.items }
      | .error fault next => ⟨[], some fault, next⟩

def arrayProgress (minimum : Nat) (item : Nat → Reading α) (cursor : Cursor) :
    Progress α :=
  let counting : Reading Nat := do
    let count ← word
    checkCount count.toNat minimum
    return count.toNat
  match counting.run cursor with
  | .ok count next => elements item 0 count next
  | .error fault next => ⟨[], some fault, next⟩

def fixedArrayProgress (count minimum : Nat) (item : Nat → Reading α) (cursor : Cursor) :
    Progress α :=
  match (checkCount count minimum).run cursor with
  | .ok () next => elements item 0 count next
  | .error fault next => ⟨[], some fault, next⟩

def array (minimum : Nat) (item : Nat → Reading α) : Reading (List α) :=
  fun cursor => (arrayProgress minimum item cursor).result

def fixedArray (count minimum : Nat) (item : Nat → Reading α) : Reading (List α) :=
  fun cursor => (fixedArrayProgress count minimum item cursor).result

def words : Reading Words := do
  let count ← word
  checkCount count.toNat 4
  return .wire (← take (4 * count.toNat))

end Reading

end RpcWire
