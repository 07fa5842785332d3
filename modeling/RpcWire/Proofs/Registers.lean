import RpcWire.Proofs.Bounds

namespace RpcWire

/-! # Bounds in registers

Lengths, counts and places are natural numbers in this library. A machine holds
them in registers of 64 bits, where a sum that is too large wraps around to a
small one. Here the readings that compute a bound do so in registers, and over
data that a machine can hold they turn out to do nothing else.

A length and its padding can have a sum that wraps around, and such a length
would look as if it fitted. It is for this reason that a length is judged alone
before it is judged with its padding. -/

namespace Register

def remaining (cursor : Cursor) : UInt64 :=
  UInt64.ofNat cursor.size - UInt64.ofNat cursor.offset

def padLength (length : UInt64) : UInt64 := (4 - length % 4) % 4

example : (0xffffffffffffffff : UInt64) + padLength 0xffffffffffffffff = 0 := by decide

def require (count : UInt64) : Reading Unit := do
  let cursor ← get
  .ensure (count ≤ remaining cursor)
    (.truncated count.toNat cursor.offset (remaining cursor).toNat)

def checkCount (count minimum : UInt64) : Reading Unit := do
  let cursor ← get
  .ensure (count ≤ remaining cursor / max minimum 1)
    (.arrayTooLong count.toNat (remaining cursor).toNat)

/-- The length word is widened first, so that its sum with the padding fits. -/
def counted (policy : Policy) : Reading Bytes := do
  let length ← .word
  let cursor ← get
  .ensure (length.toUInt64 + padLength length.toUInt64 ≤ remaining cursor)
    (.dataTooLong length (remaining cursor).toNat)
  let data ← .take length.toNat
  .padding policy length.toNat
  return data

def fixed (policy : Policy) (length : UInt64) : Reading Bytes := do
  require length
  require (length + padLength length)
  let data ← .take length.toNat
  .padding policy length.toNat
  return data

def words : Reading Words := do
  let count ← .word
  checkCount count.toUInt64 4
  return .wire (← .take (count.toUInt64 * 4).toNat)

variable {α : Type} {cursor : Cursor}

def array (minimum : UInt64) (item : Nat → Reading α) : Reading (List α) := do
  let count ← .word
  checkCount count.toUInt64 minimum
  .sequence item 0 count.toNat

def fixedArray (count minimum : UInt64) (item : Nat → Reading α) : Reading (List α) := do
  checkCount count minimum
  .sequence item 0 count.toNat

/-! ## Numbers in registers -/

theorem toNat_padLength (length : UInt64) :
    (padLength length).toNat = RpcWire.padLength length.toNat := by
  have small : length.toNat % 4 < 4 := Nat.mod_lt _ (by decide)
  simp only [padLength, RpcWire.padLength, UInt64.toNat_mod, UInt64.toNat_sub, UInt64.reduceToNat]
  omega

/-- The data is no longer than a machine can address, with room for the padding. -/
def Holds (cursor : Cursor) : Prop := cursor.Inside ∧ cursor.size < 0x8000000000000000

theorem toNat_remaining (holds : Holds cursor) :
    (remaining cursor).toNat = cursor.remaining := by
  rcases holds with ⟨inside, short⟩
  unfold Cursor.Inside at inside
  have size : (UInt64.ofNat cursor.size).toNat = cursor.size :=
    UInt64.toNat_ofNat_of_lt' (by unfold UInt64.size; omega)
  have offset : (UInt64.ofNat cursor.offset).toNat = cursor.offset :=
    UInt64.toNat_ofNat_of_lt' (by unfold UInt64.size; omega)
  have ordered : UInt64.ofNat cursor.offset ≤ UInt64.ofNat cursor.size := by
    rw [UInt64.le_iff_toNat_le, size, offset]
    exact inside
  rw [remaining, UInt64.toNat_sub_of_le _ _ ordered, size, offset, Cursor.remaining]

theorem remaining_lt (holds : Holds cursor) : cursor.remaining < 0x8000000000000000 :=
  Nat.lt_of_le_of_lt (Nat.sub_le _ _) holds.2

theorem toNat_max_one (minimum : UInt64) : (max minimum 1).toNat = max minimum.toNat 1 := by
  simp only [UInt64.max_def, Nat.max_def, UInt64.le_iff_toNat_le, UInt64.reduceToNat]
  split <;> rfl

/-- A quotient is never too large for a register, so nothing wraps around here
whatever the count and the size of the elements are. -/
theorem le_div_iff (holds : Holds cursor) (count minimum : UInt64) :
    count ≤ remaining cursor / max minimum 1 ↔
      count.toNat ≤ cursor.remaining / max minimum.toNat 1 := by
  rw [UInt64.le_iff_toNat_le, UInt64.toNat_div, toNat_remaining holds, toNat_max_one]

/-- The sum does not wrap around for a length below the half of all registers. -/
theorem toNat_add_padLength {length : UInt64} (short : length.toNat < 0x8000000000000000) :
    (length + padLength length).toNat = length.toNat + RpcWire.padLength length.toNat := by
  have padding := padLength_lt length.toNat
  rw [UInt64.toNat_add, toNat_padLength]
  omega

/-! ## Readings -/

/-- Over data that a machine can hold, the first reading does what the second
does. -/
def Does (inRegisters reading : Reading α) : Prop :=
  ∀ cursor, Holds cursor → inRegisters.run cursor = reading.run cursor

theorem does_checkCount (count minimum : UInt64) :
    Does (checkCount count minimum) (Reading.checkCount count.toNat minimum.toNat) := by
  intro cursor holds
  simp only [checkCount, EStateM.run_bind, EStateM.run_get, Reading.run_ensure,
    Reading.run_checkCount, toNat_remaining holds, le_div_iff holds]

theorem run_require {length : UInt64} (holds : Holds cursor) :
    (require length).run cursor = (Reading.require length.toNat).run cursor := by
  simp only [require, EStateM.run_bind, EStateM.run_get, Reading.run_ensure, Reading.run_require,
    toNat_remaining holds, UInt64.le_iff_toNat_le]

/-- A length that wraps around with its padding does not pass the first of the two
judgements. -/
theorem does_fixed (policy : Policy) (length : UInt64) :
    Does (fixed policy length) (Reading.fixed policy length.toNat) := by
  intro cursor holds
  rw [fixed, Reading.fixed, EStateM.run_bind, EStateM.run_bind, run_require holds,
    Reading.run_require]
  by_cases fits : length.toNat ≤ cursor.remaining
  · have short : length.toNat < 0x8000000000000000 :=
      Nat.lt_of_le_of_lt fits (remaining_lt holds)
    rw [if_pos fits]
    simp only [EStateM.run_bind, run_require holds, toNat_add_padLength short]
  · rw [if_neg fits]

theorem Holds.proceeds {next : Cursor} (holds : Holds cursor) (moved : cursor.Proceeds next) :
    Holds next :=
  ⟨moved.inside, moved.size.symm ▸ holds.2⟩

/-- Behind a word the cursor is still within the same data. -/
theorem does_word_bind {inRegisters reading : UInt32 → Reading α}
    (each : ∀ value, Does (inRegisters value) (reading value)) :
    Does (Reading.word >>= inRegisters) (Reading.word >>= reading) := by
  intro cursor holds
  rw [EStateM.run_bind, EStateM.run_bind, Reading.run_word]
  by_cases enough : 4 ≤ cursor.remaining
  · rw [if_pos enough]
    exact each _ _ (holds.proceeds (Cursor.proceeds_advance holds.1 enough))
  · rw [if_neg enough]

theorem does_counted (policy : Policy) : Does (counted policy) (Reading.counted policy) := by
  apply does_word_bind
  intro length cursor holds
  have widened : length.toUInt64.toNat = length.toNat := UInt32.toNat_toUInt64 length
  have short : length.toUInt64.toNat < 0x8000000000000000 := by
    have word := length.toNat_lt
    omega
  simp only [EStateM.run_bind, EStateM.run_get, Reading.run_ensure, toNat_remaining holds,
    UInt64.le_iff_toNat_le, toNat_add_padLength short, widened]

theorem does_words : Does words Reading.words := by
  apply does_word_bind
  intro count cursor holds
  have four : (count.toUInt64 * 4).toNat = 4 * count.toNat := by
    have word := count.toNat_lt
    simp only [UInt64.toNat_mul, UInt32.toNat_toUInt64, UInt64.reduceToNat]
    omega
  rw [EStateM.run_bind, EStateM.run_bind, does_checkCount _ _ cursor holds,
    UInt32.toNat_toUInt64, four]
  rfl

theorem does_array (minimum : UInt64) (item : Nat → Reading α) :
    Does (array minimum item) (Reading.array minimum.toNat item) := by
  rw [Reading.array_eq]
  apply does_word_bind
  intro count cursor holds
  rw [EStateM.run_bind, EStateM.run_bind, does_checkCount _ _ cursor holds,
    UInt32.toNat_toUInt64]

theorem does_fixedArray (count minimum : UInt64) (item : Nat → Reading α) :
    Does (fixedArray count minimum item)
      (Reading.fixedArray count.toNat minimum.toNat item) := by
  intro cursor holds
  rw [Reading.fixedArray_eq, fixedArray, EStateM.run_bind, EStateM.run_bind,
    does_checkCount _ _ cursor holds]

end Register

end RpcWire
