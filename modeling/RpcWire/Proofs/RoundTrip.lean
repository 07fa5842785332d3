import RpcWire.Proofs.Accepts.Message
import RpcWire.Proofs.Writes

namespace RpcWire

/-! # Round trips

Reading undoes writing for every message whose lengths have words. Writing
undoes reading for all bytes that are accepted, up to what stands in the
padding. -/

namespace Message

/-! ## Reading what was written -/

/-- A message that was written is found again, whole, by a strict reader and by a
lenient one. Only the length of each body is asked to have a word: a name or a
group list that is too long makes the body around it too long. -/
theorem ofBytes_toBytes_of_encodable {message : Message} (encodable : message.Encodable)
    {policy : Policy} (anyGids : policy.maxGids = 0) (anyBody : policy.maxBody = 0) :
    ∃ bytes found, message.toBytes = .ok bytes ∧ ofBytes policy bytes = .ok found ∧
      (found.message == message) = true ∧ found.consumed = message.size := by
  have fits := fits_written (acceptable_received encodable anyGids anyBody)
  rw [layout_received, size_received] at fits
  exact ⟨_, _, toBytes_eq encodable, ofBytes_eq_ok_iff.mpr fits, received_beq message, rfl⟩

/-- A reply to an identity with a padded name and host words for a group list. -/
def sample : Message where
  xid := 7
  body := .reply (.accepted
    (.sys { stamp := 1, machine := ascii "ab", uid := 5, gid := 6, gids := .host [20] })
    (.success [1, 2, 3]))

theorem ofBytes_toBytes_sample :
    sample.Encodable ∧ ∃ bytes found, sample.toBytes = .ok bytes ∧
      ofBytes { strictPadding := true } bytes = .ok found ∧
      (found.message == sample) = true ∧ found.consumed = sample.size :=
  ⟨by decide, ofBytes_toBytes_of_encodable (by decide) rfl rfl⟩

/-! ## Writing what was read -/

/-- What was read is written in the same number of bytes. They are the bytes that
were read, but for the padding, which is zero, and they are read as the same
message again. -/
theorem toBytes_of_ofBytes {policy : Policy} {bytes : Bytes} {found : Found}
    (accepted : ofBytes policy bytes = .ok found) :
    ∃ written, found.message.toBytes = .ok written ∧
      found.consumed ≤ bytes.length ∧
      written.length = found.message.size ∧ found.message.size = found.consumed ∧
      (∀ position < found.consumed, written[position]? =
        if found.message.IsPadding position then some 0 else bytes[position]?) ∧
      (policy.strictPadding = true → written = bytes.take found.consumed) ∧
      ∃ again, ofBytes policy written = .ok again ∧
        (again.message == found.message) = true ∧ again.consumed = found.consumed := by
  have fits := ofBytes_eq_ok_iff.mp accepted
  refine ⟨_, toBytes_eq fits.encodable, fits.inside, by simp, fits.size_eq, ?_, ?_,
    ⟨_, _⟩, ofBytes_eq_ok_iff.mpr (fits_written fits.acceptable), ?_, fits.size_eq⟩
  · intro position inside
    have place := fits.fills.getElem?_written position
    rwa [List.getElem?_take_of_lt inside] at place
  · intro strict
    exact ((Layout.matches_iff.mp fits.fills).2 strict).symm
  · rw [beq_iff_received]

/-- The bytes of the sample, with other bytes than zero behind the name. -/
def sampleDirty : Bytes :=
  [0, 0, 0, 7, 0, 0, 0, 1, 0, 0, 0, 0,
    0, 0, 0, 1, 0, 0, 0, 28,
    0, 0, 0, 1, 0, 0, 0, 2, 0x61, 0x62, 8, 9, 0, 0, 0, 5, 0, 0, 0, 6, 0, 0, 0, 1, 0, 0, 0, 20,
    0, 0, 0, 0, 1, 2, 3]

theorem toBytes_of_ofBytes_sampleDirty :
    ofBytes {} sampleDirty = .ok { message := sample.received, consumed := 55 } ∧
      ∃ written, sample.received.toBytes = .ok written ∧ written.length = 55 ∧
        written[30]? = some 0 ∧ written[28]? = some 0x61 := by
  have accepted : ofBytes {} sampleDirty =
      .ok { message := sample.received, consumed := 55 } := rfl
  rcases toBytes_of_ofBytes accepted with ⟨written, run, _, length, size, places, _⟩
  refine ⟨accepted, written, run, length.trans size, ?_, ?_⟩
  · rw [places 30 (by decide)]
    decide
  · rw [places 28 (by decide)]
    decide

end Message

end RpcWire
