import RpcWire.Proofs.Writes

namespace RpcWire

/-! # Sizes

The size of a value is told by functions that know nothing of how the value is
written. It is all the same just the room that the writing takes. Where there is
less, the writing ends with a beginning of the bytes that it would have written,
wherever in the value the room runs out. -/

namespace Writing

/-- The bytes have this size, and they are written wherever there is room for them.
Elsewhere the region is full, and some of the bytes are missing. -/
def Takes (writing : Writing Unit) (bytes : Bytes) (size : Nat) : Prop :=
  bytes.length = size ∧ ∀ region : Region,
    (size ≤ region.free.length → writing.run region = .ok () (region.extend bytes)) ∧
    (region.free.length < size → ∃ fault part, fault.code = some .bufferTooSmall ∧
      part <+: bytes ∧ part.length < size ∧
      writing.run region = .error fault (region.extend part))

theorem Writes.takes {writing : Writing Unit} {bytes : Bytes} {size : Nat}
    (writes : writing.Writes bytes) (exact : bytes.length = size) :
    writing.Takes bytes size := by
  subst exact
  refine ⟨rfl, fun region => ⟨writes.whole region, ?_⟩⟩
  intro full
  rcases writes.short region full with ⟨needed, part, isPart, fits, run⟩
  have proper : part.length < bytes.length := Nat.lt_of_le_of_lt fits full
  exact ⟨.regionFull needed region.capacity, part, rfl, isPart, proper, run⟩

end Writing

open Writing

/-- Each value that is written field by field takes its size for the bytes of its
layout, whatever the region holds. The body of an identity needs no padding, so its
size is that of padded data of the same length. -/
theorem Writing.values_take_sizes :
    (∀ identity : UnixIdentity, identity.Encodable →
      identity.write.Takes identity.layout.written identity.size) ∧
    (∀ credential : Credential, credential.Encodable →
      credential.write.Takes credential.layout.written credential.size) ∧
    (∀ call : Call, (∀ credential ∈ call.credentials, credential.Encodable) →
      call.write.Takes call.layout.written call.size) ∧
    (∀ outcome : Outcome, outcome.write.Takes outcome.layout.written outcome.size) ∧
    (∀ rejection : Rejection,
      rejection.write.Takes rejection.layout.written rejection.size) ∧
    (∀ reply : Reply, (∀ credential ∈ reply.credentials, credential.Encodable) →
      reply.write.Takes reply.layout.written reply.size) ∧
    (∀ identity : UnixIdentity, 4 ∣ identity.size ∧
      countedSize identity.size = 4 + identity.size) := by
  refine ⟨?_, ?_, ?_, ?_, ?_, ?_, ?_⟩
  · intro identity encodable
    exact (UnixIdentity.writes_write encodable).takes (by simp)
  · intro credential encodable
    exact (Credential.writes_write encodable).takes (by simp)
  · intro call encodable
    exact (Call.writes_write encodable).takes (by simp)
  · intro outcome
    exact outcome.writes_write.takes (by simp)
  · intro rejection
    exact rejection.writes_write.takes (by simp)
  · intro reply encodable
    exact (Reply.writes_write encodable).takes (by simp)
  · intro identity
    have whole := identity.four_dvd_size
    exact ⟨whole, by rw [countedSize, padLength_of_dvd whole, Nat.add_zero]⟩

/-- The credential of an identity with a padded name takes 36 bytes. In a region of
thirty the gid list has no room, and its count is not written either. -/
theorem Writing.values_take_sizes_sample :
    let credential : Credential :=
      .sys { stamp := 1, machine := ascii "ab", uid := 5, gid := 6, gids := .host [20] }
    credential.Encodable ∧ credential.write.Takes credential.layout.written 36 ∧
      credential.layout.written =
        [0, 0, 0, 1, 0, 0, 0, 28, 0, 0, 0, 1, 0, 0, 0, 2, 0x61, 0x62, 0, 0, 0, 0, 0, 5,
          0, 0, 0, 6, 0, 0, 0, 1, 0, 0, 0, 20] ∧
      credential.write.run (.ofBuffer (List.replicate 30 9)) = .error (.regionFull 36 30)
        ⟨[0, 0, 0, 1, 0, 0, 0, 28, 0, 0, 0, 1, 0, 0, 0, 2, 0x61, 0x62, 0, 0, 0, 0, 0, 5,
          0, 0, 0, 6], [9, 9]⟩ := by
  refine ⟨by decide, ?_, rfl, rfl⟩
  exact values_take_sizes.2.1 _ (by decide)

end RpcWire
