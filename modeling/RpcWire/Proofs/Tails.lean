import RpcWire.Proofs.Appended

namespace RpcWire

/-! # Heads and tails

A message that runs to the end of the bytes has a tail, which is taken as it
stands. What is in front of the tail, the head, decides how the bytes are read:
a part of the head is no message, and behind the whole head any tail will do. -/

/-! ## Another tail

Each value with another tail in the place of its own, if it has one. The layout
of a value is that of the value without its tail, and then the tail. -/

namespace Outcome

def withTail (outcome : Outcome) (tail : Bytes) : Outcome :=
  match outcome with
  | success _ => success tail
  | programUnavailable | programMismatch _ | procedureUnavailable | garbageArguments |
    systemError => outcome

theorem withTail_withTail (outcome : Outcome) (first second : Bytes) :
    (outcome.withTail first).withTail second = outcome.withTail second := by
  cases outcome <;> rfl

theorem tail?_withTail (outcome : Outcome) (tail : Bytes) :
    (outcome.withTail tail).tail? = outcome.tail?.map fun _ => tail := by
  cases outcome <;> rfl

theorem layout_eq_append_tail (outcome : Outcome) :
    outcome.layout = (outcome.withTail []).layout ++ Layout.data (outcome.tail?.getD []) := by
  cases outcome with
  | success results => simp [layout, withTail, kind, armLayout, tail?, Layout.data]
  | _ => exact (List.append_nil _).symm

end Outcome

namespace Reply

def withTail (reply : Reply) (tail : Bytes) : Reply :=
  match reply with
  | accepted verifier outcome => accepted verifier (outcome.withTail tail)
  | denied rejection => denied rejection

theorem withTail_withTail (reply : Reply) (first second : Bytes) :
    (reply.withTail first).withTail second = reply.withTail second := by
  cases reply with
  | accepted verifier outcome =>
      exact congrArg (accepted verifier) (outcome.withTail_withTail first second)
  | denied rejection => rfl

theorem tail?_withTail (reply : Reply) (tail : Bytes) :
    (reply.withTail tail).tail? = reply.tail?.map fun _ => tail := by
  cases reply with
  | accepted verifier outcome => exact outcome.tail?_withTail tail
  | denied rejection => rfl

theorem credentials_withTail (reply : Reply) (tail : Bytes) :
    (reply.withTail tail).credentials = reply.credentials := by
  cases reply <;> rfl

theorem layout_eq_append_tail (reply : Reply) :
    reply.layout = (reply.withTail []).layout ++ Layout.data (reply.tail?.getD []) := by
  cases reply with
  | accepted verifier outcome =>
      have split := outcome.layout_eq_append_tail
      simp only [layout, armLayout, withTail, kind, List.append_assoc, tail?]
      rw [split]
  | denied rejection => exact (List.append_nil _).symm

end Reply

namespace Message

namespace Body

def withTail (body : Body) (tail : Bytes) : Body :=
  match body with
  | call content => call { content with arguments := tail }
  | reply content => reply (content.withTail tail)

theorem withTail_withTail (body : Body) (first second : Bytes) :
    (body.withTail first).withTail second = body.withTail second := by
  cases body with
  | call content => rfl
  | reply content => exact congrArg reply (content.withTail_withTail first second)

theorem tail?_withTail (body : Body) (tail : Bytes) :
    (body.withTail tail).tail? = body.tail?.map fun _ => tail := by
  cases body with
  | call content => rfl
  | reply content => exact content.tail?_withTail tail

theorem credentials_withTail (body : Body) (tail : Bytes) :
    (body.withTail tail).credentials = body.credentials := by
  cases body with
  | call content => rfl
  | reply content => exact content.credentials_withTail tail

theorem kind_withTail (body : Body) (tail : Bytes) : (body.withTail tail).kind = body.kind := by
  cases body <;> rfl

theorem layout_eq_append_tail (body : Body) :
    body.layout = (body.withTail []).layout ++ Layout.data (body.tail?.getD []) := by
  cases body with
  | call content => simp [layout, withTail, Call.layout, tail?, Layout.data]
  | reply content => exact content.layout_eq_append_tail

end Body

/-- The bytes that run to the end of the message, none if it has no such part. -/
def tail (message : Message) : Bytes := message.tail?.getD []

def withTail (message : Message) (tail : Bytes) : Message :=
  { message with body := message.body.withTail tail }

/-- The layout of all that stands in front of the tail. -/
def headLayout (message : Message) : Layout := (message.withTail []).layout

@[simp] theorem credentials_withTail (message : Message) (tail : Bytes) :
    (message.withTail tail).credentials = message.credentials :=
  message.body.credentials_withTail tail

@[simp] theorem tail?_withTail (message : Message) (tail : Bytes) :
    (message.withTail tail).tail? = message.tail?.map fun _ => tail :=
  message.body.tail?_withTail tail

/-- A message that does not run to the end of the bytes stays what it is. -/
theorem withTail_of_closed {message : Message} (closed : message.tail? = none) (tail : Bytes) :
    message.withTail tail = message := by
  rcases message with ⟨xid, body⟩
  cases body with
  | call content => cases closed
  | reply content =>
      cases content with
      | accepted verifier outcome => cases outcome <;> first | rfl | cases closed
      | denied rejection => rfl

@[simp] theorem headLayout_withTail (message : Message) (tail : Bytes) :
    (message.withTail tail).headLayout = message.headLayout := by
  unfold headLayout withTail
  rw [Body.withTail_withTail]

theorem layout_eq_append_tail (message : Message) :
    message.layout = message.headLayout ++ Layout.data message.tail := by
  have split := message.body.layout_eq_append_tail
  simp only [layout, headLayout, withTail, Body.kind_withTail, List.append_assoc]
  rw [split]
  rfl

/-! ## The head decides -/

namespace Found

/-- How many bytes stand in front of the tail. -/
def headSize (found : Found) : Nat := found.consumed - found.message.tail.length

namespace Fits

variable {policy : Policy} {bytes : Bytes} {found : Found}

theorem consumed_eq (fits : found.Fits policy bytes) :
    found.consumed = found.message.headLayout.length + found.message.tail.length := by
  rw [← fits.size_eq, ← length_layout, layout_eq_append_tail, List.length_append,
    Layout.length_data]

theorem headSize_eq (fits : found.Fits policy bytes) :
    found.headSize = found.message.headLayout.length := by
  rw [headSize, fits.consumed_eq, Nat.add_sub_cancel]

theorem headSize_le (fits : found.Fits policy bytes) : found.headSize ≤ bytes.length := by
  have inside := fits.inside
  rw [headSize]
  omega

/-- The head fills its layout from the first byte on. -/
theorem head_fills (fits : found.Fits policy bytes) :
    found.message.headLayout.Matches policy.strictPadding (bytes.take found.headSize) := by
  have fills := fits.fills
  rw [layout_eq_append_tail] at fills
  rcases Layout.matches_append_iff.mp fills with ⟨front, back, split, fillsHead, _⟩
  have front_eq : front = bytes.take found.headSize := by
    have length : front.length = found.headSize := by
      rw [fillsHead.length_eq, fits.headSize_eq]
    have part : front = (bytes.take found.consumed).take found.headSize := by
      rw [split, ← length, List.take_left]
    have before : found.headSize ≤ found.consumed := Nat.sub_le _ _
    rwa [List.take_take, Nat.min_eq_left before] at part
  rwa [front_eq] at fillsHead

end Fits

/-- What is found when the bytes behind the head are replaced. -/
def withTail (found : Found) (other : Bytes) : Found where
  message := found.message.withTail (other.drop found.headSize)
  consumed := if found.message.tail?.isSome then other.length else found.headSize

/-- Behind the same head any bytes are taken as the tail, or left alone where the
message has none. -/
theorem fits_withTail {policy : Policy} {bytes other : Bytes} {found : Found}
    (fits : found.Fits policy bytes)
    (sameHead : other.take found.headSize = bytes.take found.headSize) :
    (found.withTail other).Fits policy other := by
  have inside : found.headSize ≤ other.length := by
    have lengths := congrArg List.length sameHead
    rw [List.length_take, List.length_take, Nat.min_eq_left fits.headSize_le] at lengths
    omega
  have fillsHead := fits.head_fills
  rw [← sameHead] at fillsHead
  have acceptable : ∀ credential ∈ (found.withTail other).message.credentials,
      credential.Acceptable policy := by
    intro credential member
    rw [withTail, credentials_withTail] at member
    exact fits.acceptable credential member
  cases runsOn : found.message.tail? with
  | none =>
      have consumed : (found.withTail other).consumed = found.headSize := by
        simp [withTail, runsOn]
      have tail : (found.withTail other).message.tail = [] := by
        simp [withTail, Message.tail, runsOn]
      refine ⟨consumed ▸ inside, acceptable, ?_, ?_⟩
      · rw [layout_eq_append_tail, tail, consumed, withTail, headLayout_withTail]
        exact (List.append_nil _).symm ▸ fillsHead
      · simp [withTail, runsOn]
  | some tail =>
      have consumed : (found.withTail other).consumed = other.length := by
        simp [withTail, runsOn]
      have tail : (found.withTail other).message.tail = other.drop found.headSize := by
        simp [withTail, Message.tail, runsOn]
      refine ⟨Nat.le_of_eq consumed, acceptable, ?_, fun _ => consumed⟩
      rw [layout_eq_append_tail, tail, consumed, List.take_length, withTail, headLayout_withTail]
      have fills := fillsHead.append (Layout.matches_data (other.drop found.headSize))
      rwa [List.take_append_drop] at fills

end Found

/-- The head of what is found does not depend on the tail. -/
theorem Found.headSize_withTail {policy : Policy} {bytes other : Bytes} {found : Found}
    (fits : found.Fits policy bytes)
    (sameHead : other.take found.headSize = bytes.take found.headSize) :
    (found.withTail other).headSize = found.headSize := by
  rw [(fits_withTail fits sameHead).headSize_eq, fits.headSize_eq, withTail, headLayout_withTail]

/-- No part of a head is taken for a message, or for anything that could not
become one. -/
theorem lacksBytes_of_take {policy : Policy} {bytes : Bytes} {found : Found}
    (accepted : ofBytes policy bytes = .ok found) {cut : Nat} (short : cut < found.headSize) :
    ∃ fault, ofBytes policy (bytes.take cut) = .error fault ∧ fault.LacksBytes := by
  cases result : ofBytes policy (bytes.take cut) with
  | error fault =>
      refine ⟨fault, rfl, ?_⟩
      have later := ofBytes_append_of_error result (bytes.drop cut)
      rw [List.take_append_drop, accepted] at later
      rcases later with lacks | failed
      · exact lacks
      · cases failed
  | ok early =>
      exfalso
      -- The head of what was found early would be the head of the whole.
      have fits := ofBytes_eq_ok_iff.mp result
      have insideCut := fits.headSize_le
      rw [List.length_take] at insideCut
      have sameHead : bytes.take early.headSize = (bytes.take cut).take early.headSize := by
        rw [List.take_take, Nat.min_eq_left (by omega)]
      have whole := ofBytes_eq_ok_iff.mpr (Found.fits_withTail fits sameHead)
      rw [accepted] at whole
      have sameSize := Found.headSize_withTail fits sameHead
      rw [← Except.ok.inj whole] at sameSize
      omega

/-- The head of a message alone decides how the bytes are read. Where the bytes
end inside the head, they are too few. Where they go on behind it, the message
is the same but for its tail, which is all that follows, whatever it is. -/
theorem ofBytes_head_decides {policy : Policy} {bytes : Bytes} {found : Found}
    (accepted : ofBytes policy bytes = .ok found) :
    found.headSize + found.message.tail.length = found.consumed ∧
    (∀ cut < found.headSize, ∃ fault, ofBytes policy (bytes.take cut) = .error fault ∧
      (fault.code = some .truncated ∨ fault.code = some .invalidLength)) ∧
    (∀ other, other.take found.headSize = bytes.take found.headSize →
      (found.message.tail?.isSome → ofBytes policy other = .ok {
        message := found.message.withTail (other.drop found.headSize)
        consumed := other.length }) ∧
      (found.message.tail? = none → ofBytes policy other = .ok {
        message := found.message
        consumed := found.headSize })) := by
  have fits := ofBytes_eq_ok_iff.mp accepted
  refine ⟨?_, ?_, ?_⟩
  · rw [fits.headSize_eq, fits.consumed_eq]
  · intro cut short
    rcases lacksBytes_of_take accepted short with ⟨fault, failed, lacks⟩
    exact ⟨fault, failed, lacks.code⟩
  · intro other sameHead
    have again := ofBytes_eq_ok_iff.mpr (Found.fits_withTail fits sameHead)
    unfold Found.withTail at again
    constructor
    · intro runsOn
      rwa [if_pos runsOn] at again
    · intro closed
      rwa [withTail_of_closed closed, closed, if_neg (by decide)] at again

/-- The sample without the last byte of its group list, and with another tail. -/
theorem ofBytes_head_decides_sampleDirty :
    ofBytes {} sampleDirty = .ok { message := sample.received, consumed := 55 } ∧
      (∃ fault, ofBytes {} (sampleDirty.take 47) = .error fault ∧
        (fault.code = some .truncated ∨ fault.code = some .invalidLength)) ∧
      ofBytes {} (sampleDirty.take 52 ++ [9]) =
        .ok { message := sample.received.withTail [9], consumed := 53 } := by
  have accepted : ofBytes {} sampleDirty =
      .ok { message := sample.received, consumed := 55 } := rfl
  rcases ofBytes_head_decides accepted with ⟨_, shorter, behind⟩
  exact ⟨accepted, shorter 47 (by decide),
    (behind (sampleDirty.take 52 ++ [9]) rfl).1 rfl⟩

end Message

end RpcWire
