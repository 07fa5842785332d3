import RpcWire.Fault
import RpcWire.Region
import RpcWire.Word

namespace RpcWire

/-! # Writing values

A writing runs on a region. A number, byte string or word list first makes sure
that there is room for the whole of it and is then written part by part, so
that one which does not fit leaves the region as it was. A value of several
fields that fails keeps the fields that went before. -/

abbrev Writing := EStateM Fault Region

namespace Writing

/-- Fail unless there is room for so many more bytes. -/
def reserve (count : Nat) : Writing Unit := do
  let region ← get
  if count ≤ region.free.length then
    pure ()
  else
    throw (.regionFull (region.written.length + count) region.capacity)

/-- Write without looking for room. -/
def put (bytes : Bytes) : Writing Unit := modify (·.extend bytes)

/-- Write bytes as they are, all of them or none. -/
def raw (bytes : Bytes) : Writing Unit := do
  reserve bytes.length
  put bytes

def countWord (count : Nat) : Writing UInt32 :=
  if count < UInt32.size then pure (UInt32.ofNat count) else throw (.countTooWide count)

/-! ## Numbers -/

def word (value : UInt32) : Writing Unit := raw (Word.toBytes value)

/-- A double word is two words, the high one first. -/
def double (value : UInt64) : Writing Unit := do
  reserve 8
  word (UInt32.ofNat (value.toNat / UInt32.size))
  word (UInt32.ofNat value.toNat)

def int (value : Int32) : Writing Unit := word value.toUInt32

def long (value : Int64) : Writing Unit := double value.toUInt64

def bool (value : Bool) : Writing Unit := word (if value then 1 else 0)

def tag [Tag Kind] [DecidableEq Kind] (kind : Kind) : Writing Unit := word (Tag.toWord kind)

/-! ## Byte strings -/

/-- Data and zero bytes up to a multiple of four. -/
def fixed (data : Bytes) : Writing Unit := do
  let padding := padLength data.length
  reserve (data.length + padding)
  put data
  put (Bytes.zeros padding)

/-- Data behind its length word. A length without a word is found before the
region is looked at. -/
def counted (data : Bytes) : Writing Unit := do
  let length ← countWord data.length
  reserve (countedSize data.length)
  word length
  fixed data

/-! ## Arrays -/

def words (values : Words) : Writing Unit := do
  let count ← countWord values.count
  reserve (4 + 4 * count.toNat)
  word count
  values.toList.forM word

def fixedArray (item : α → Writing Unit) (items : List α) : Writing Unit :=
  items.forM item

def array (item : α → Writing Unit) (items : List α) : Writing Unit := do
  word (← countWord items.length)
  fixedArray item items

end Writing

end RpcWire
