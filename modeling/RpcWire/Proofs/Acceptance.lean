import RpcWire.Proofs.Grammar
import RpcWire.Proofs.RoundTrip

namespace RpcWire

/-! # Acceptance

A lenient reader without limits accepts what the grammar describes, and nothing
else. -/

namespace Message

/-- A message in front of some bytes. One that runs to the end takes them all. -/
@[mk_iff]
structure Occupies (message : Message) (bytes : Bytes) (consumed : Nat) : Prop where
  inside : consumed ≤ bytes.length
  wire : message.Wire (bytes.take consumed)
  ended : message.tail?.isSome → consumed = bytes.length

/-- Equal messages occupy the same bytes, whichever form their group lists have. -/
theorem occupies_iff_fits {message : Message} {bytes : Bytes} {consumed : Nat} :
    message.Occupies bytes consumed ↔
      Found.Fits {} bytes { message := message.received, consumed } := by
  constructor
  · intro holds
    rcases holds with ⟨inside, wire, ended⟩
    rcases wire_iff.mp wire with ⟨encodable, fills⟩
    refine ⟨inside, acceptable_received encodable rfl rfl, ?_, ?_⟩
    · rwa [layout_received]
    · rwa [tail?_received]
  · intro fits
    have encodable := encodable_received.mp fits.encodable
    have fills := fits.fills
    have ended := fits.ended
    rw [layout_received] at fills
    rw [tail?_received] at ended
    exact ⟨fits.inside, wire_iff.mpr ⟨encodable, fills⟩, ended⟩

theorem found_iff_occupies {message : Message} {bytes : Bytes} {consumed : Nat} :
    (∃ found, ofBytes {} bytes = .ok found ∧ (found.message == message) = true ∧
      found.consumed = consumed) ↔ message.Occupies bytes consumed := by
  rw [occupies_iff_fits]
  constructor
  · intro holds
    rcases holds with ⟨⟨found, consumed⟩, accepted, same, rfl⟩
    have fits := ofBytes_eq_ok_iff.mp accepted
    have received : found = message.received :=
      fits.received.symm.trans (beq_iff_received.mp same)
    exact received ▸ fits
  · intro fits
    exact ⟨_, ofBytes_eq_ok_iff.mpr fits, received_beq message, rfl⟩

/-- The bytes decide what message stands in front of them, and how far it goes. -/
theorem Occupies.unique {first second : Message} {bytes : Bytes}
    {firstConsumed secondConsumed : Nat} (left : first.Occupies bytes firstConsumed)
    (right : second.Occupies bytes secondConsumed) :
    (first == second) = true ∧ firstConsumed = secondConsumed := by
  have leftFound := ofBytes_eq_ok_iff.mpr (occupies_iff_fits.mp left)
  have rightFound := ofBytes_eq_ok_iff.mpr (occupies_iff_fits.mp right)
  rw [leftFound, Except.ok.injEq, Found.mk.injEq] at rightFound
  exact ⟨beq_iff_received.mpr rightFound.1, rightFound.2⟩

/-- Bytes that differ in the padding alone are read alike. -/
theorem ofBytes_of_agree {bytes other : Bytes} {found : Found}
    (accepted : ofBytes {} bytes = .ok found) (sameLength : other.length = bytes.length)
    (agree : ∀ position < found.consumed, ¬ found.message.IsPadding position →
      other[position]? = bytes[position]?) :
    ofBytes {} other = .ok found := by
  have fits := ofBytes_eq_ok_iff.mp accepted
  apply ofBytes_eq_ok_iff.mpr
  refine ⟨sameLength ▸ fits.inside, fits.acceptable, ?_, sameLength ▸ fits.ended⟩
  apply fits.fills.of_agree
  · simp [sameLength]
  · intro position unpadded
    by_cases inside : position < found.consumed
    · rw [List.getElem?_take_of_lt inside, List.getElem?_take_of_lt inside]
      exact agree position inside unpadded
    · have past : found.consumed ≤ position := Nat.le_of_not_lt inside
      rw [List.getElem?_take_eq_none past, List.getElem?_take_eq_none past]

/-- Exactly the messages of the grammar are found, in exactly their bytes. What is
found is the only message that the bytes hold, and the padding has no say in it. -/
theorem ofBytes_accepts_grammar :
    (∀ (bytes : Bytes) (message : Message) (consumed : Nat),
      (∃ found, ofBytes {} bytes = .ok found ∧ (found.message == message) = true ∧
        found.consumed = consumed) ↔
      consumed ≤ bytes.length ∧ message.Wire (bytes.take consumed) ∧
        (message.tail?.isSome → consumed = bytes.length)) ∧
    (∀ (bytes : Bytes) (first second : Message) (firstConsumed secondConsumed : Nat),
      first.Occupies bytes firstConsumed → second.Occupies bytes secondConsumed →
        (first == second) = true ∧ firstConsumed = secondConsumed) ∧
    (∀ (bytes other : Bytes) (found : Found), ofBytes {} bytes = .ok found →
      other.length = bytes.length →
      (∀ position < found.consumed, ¬ found.message.IsPadding position →
        other[position]? = bytes[position]?) →
      ofBytes {} other = .ok found) := by
  refine ⟨?_, fun _ _ _ _ _ => Occupies.unique, fun _ _ _ => ofBytes_of_agree⟩
  intro bytes message consumed
  rw [found_iff_occupies, occupies_iff]

theorem ofBytes_accepts_grammar_sampleDirty :
    sample.Wire (sampleDirty.take 55) ∧
      ofBytes {} (sampleDirty.set 30 0) =
        .ok { message := sample.received, consumed := 55 } := by
  have accepted : ofBytes {} sampleDirty =
      .ok { message := sample.received, consumed := 55 } := rfl
  rcases ofBytes_accepts_grammar with ⟨found, _, unpadded⟩
  constructor
  · exact ((found sampleDirty sample 55).mp ⟨_, accepted, received_beq sample, rfl⟩).2.1
  · exact unpadded sampleDirty _ _ accepted rfl (by decide)

end Message

end RpcWire
