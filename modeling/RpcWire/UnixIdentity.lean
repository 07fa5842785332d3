import RpcWire.Reading
import RpcWire.Text
import RpcWire.Writing

namespace RpcWire

/-! # Unix identities

The structured body of a system credential: who the caller is on its own
machine. The machine name is any byte string; nothing is assumed of its
characters. -/

structure UnixIdentity where
  stamp : UInt32 := 0
  machine : Bytes := []
  uid : UInt32 := 0
  gid : UInt32 := 0
  gids : Words := .empty
deriving Inhabited

namespace UnixIdentity

instance : BEq UnixIdentity := ⟨fun left right =>
  left.stamp == right.stamp && left.machine == right.machine &&
    left.uid == right.uid && left.gid == right.gid && left.gids == right.gids⟩

def size (identity : UnixIdentity) : Nat :=
  4 + countedSize identity.machine.length + 4 + 4 + 4 + 4 * identity.gids.count

/-- Every field ends on a word boundary, so the whole needs no padding. -/
theorem four_dvd_size (identity : UnixIdentity) : 4 ∣ identity.size := by
  have := four_dvd_add_padLength identity.machine.length
  unfold size countedSize
  omega

def write (identity : UnixIdentity) : Writing Unit := do
  .word identity.stamp
  .counted identity.machine
  .word identity.uid
  .word identity.gid
  .words identity.gids

/-- The limit on the group list is looked at when the list has been read. -/
def read (policy : Policy) : Reading UnixIdentity := do
  let stamp ← .word
  let machine ← .counted policy
  let uid ← .word
  let gid ← .word
  let gids ← .words
  .ensure (exceeds policy.maxGids gids.count = false)
    (.tooManyGids gids.count policy.maxGids)
  return { stamp, machine, uid, gid, gids }

def text (identity : UnixIdentity) : Bytes :=
  ascii "\x7bstamp=" ++ decimal identity.stamp.toNat ++
    ascii ", machine=\"" ++ identity.machine ++
    ascii "\", uid=" ++ decimal identity.uid.toNat ++
    ascii ", gid=" ++ decimal identity.gid.toNat ++
    ascii ", gids=" ++ identity.gids.text ++ ascii "\x7d"

end UnixIdentity

end RpcWire
