import RpcWire.Reading
import RpcWire.Text
import RpcWire.Writing

namespace RpcWire

/-! # Version ranges

A server that does not know a version answers with the lowest and the highest
that it knows. -/

structure VersionRange where
  low : UInt32 := 0
  high : UInt32 := 0
deriving DecidableEq, Inhabited

namespace VersionRange

def write (range : VersionRange) : Writing Unit := do
  .word range.low
  .word range.high

def read : Reading VersionRange := do
  let low ← .word
  let high ← .word
  return { low, high }

def text (range : VersionRange) : Bytes :=
  ascii "\x7b" ++ decimal range.low.toNat ++ ascii ".." ++ decimal range.high.toNat ++
    ascii "\x7d"

example : (VersionRange.mk 1 3).text = ascii "\x7b1..3\x7d" := rfl

end VersionRange

end RpcWire
