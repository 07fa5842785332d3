import RpcWire.Bytes

namespace RpcWire

/-! # Cursors

A cursor reads the first `size` bytes of a store. The store may be longer: a
receive buffer keeps its length from one message to the next, and what lies
behind the current message is left over from an earlier one. A cursor does not
guard itself: what it yields and where it moves is up to the reader, who has to
look first at what remains. -/

structure Cursor where
  store : Bytes
  size : Nat
  offset : Nat
  size_le : size ≤ store.length
deriving DecidableEq

namespace Cursor

/-- A cursor at the start of a byte string, which it reads to the end. -/
def ofBytes (bytes : Bytes) : Cursor where
  store := bytes
  size := bytes.length
  offset := 0
  size_le := Nat.le_refl _

def remaining (cursor : Cursor) : Nat := cursor.size - cursor.offset

/-- The next `count` bytes of the store, whatever they belong to. -/
def next (cursor : Cursor) (count : Nat) : Bytes :=
  (cursor.store.drop cursor.offset).take count

def rest (cursor : Cursor) : Bytes := cursor.next cursor.remaining

/-- Move forward by `count` bytes. -/
def advance (cursor : Cursor) (count : Nat) : Cursor :=
  { cursor with offset := cursor.offset + count }

example : ((ofBytes [1, 2, 3]).advance 1).rest = [2, 3] := rfl
example : (Cursor.mk [1, 2, 3] 2 1 (by decide)).rest = [2] := rfl
example : (Cursor.mk [1, 2, 3] 2 1 (by decide)).next 2 = [2, 3] := rfl

/-! ## What is left to read -/

@[simp] theorem rest_ofBytes (bytes : Bytes) : (ofBytes bytes).rest = bytes := by
  simp [rest, next, ofBytes, remaining]

@[simp] theorem length_rest (cursor : Cursor) :
    cursor.rest.length = cursor.remaining := by
  have := cursor.size_le
  simp only [rest, next, remaining, List.length_take, List.length_drop]
  omega

theorem next_eq_take_rest (cursor : Cursor) {count : Nat}
    (inside : count ≤ cursor.remaining) : cursor.next count = cursor.rest.take count := by
  simp only [rest, next, List.take_take, Nat.min_eq_left inside]

@[simp] theorem offset_advance (cursor : Cursor) (count : Nat) :
    (cursor.advance count).offset = cursor.offset + count := rfl

@[simp] theorem size_advance (cursor : Cursor) (count : Nat) :
    (cursor.advance count).size = cursor.size := rfl

@[simp] theorem remaining_advance (cursor : Cursor) (count : Nat) :
    (cursor.advance count).remaining = cursor.remaining - count := by
  simp only [remaining, offset_advance, size_advance]
  omega

@[simp] theorem rest_advance (cursor : Cursor) (count : Nat) :
    (cursor.advance count).rest = cursor.rest.drop count := by
  rw [rest, remaining_advance, next, rest, next, List.drop_take, List.drop_drop]
  rfl

theorem advance_zero (cursor : Cursor) : cursor.advance 0 = cursor := rfl

theorem advance_advance (cursor : Cursor) (first second : Nat) :
    (cursor.advance first).advance second = cursor.advance (first + second) := by
  simp only [advance, Nat.add_assoc]

end Cursor

end RpcWire
