import RpcWire.Bytes

namespace RpcWire

/-! # Regions

A region is a buffer of fixed capacity that is filled from the front. The
buffer is held in two parts: what has been written, and what is free and still
has the bytes it had before. -/

structure Region where
  written : Bytes
  free : Bytes
deriving DecidableEq

namespace Region

/-- A buffer in which nothing has been written. -/
def ofBuffer (buffer : Bytes) : Region := ⟨[], buffer⟩

def capacity (region : Region) : Nat := region.written.length + region.free.length

def buffer (region : Region) : Bytes := region.written ++ region.free

/-- Write over the front of the free part. The bytes have to fit. -/
def extend (region : Region) (bytes : Bytes) : Region :=
  ⟨region.written ++ bytes, region.free.drop bytes.length⟩

example : ((ofBuffer [9, 9, 9]).extend [1]).buffer = [1, 9, 9] := rfl

theorem capacity_extend (region : Region) {bytes : Bytes}
    (fits : bytes.length ≤ region.free.length) :
    (region.extend bytes).capacity = region.capacity := by
  simp only [capacity, extend, List.length_append, List.length_drop]
  omega

theorem extend_extend (region : Region) (first second : Bytes) :
    (region.extend first).extend second = region.extend (first ++ second) := by
  simp [extend, List.append_assoc, List.drop_drop]

end Region

end RpcWire
