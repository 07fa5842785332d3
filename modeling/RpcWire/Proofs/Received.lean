import RpcWire.Proofs.Layout.Message

namespace RpcWire

/-! # Received values

A reader hands out group lists as the bytes it met, a caller may hold them as
host words. Each value has one form in which a reader hands it out, and two
values are equal when they have that form in common. -/

namespace Words

theorem spelled_flatMap_toBytes (list : List UInt32) :
    spelled (list.flatMap Word.toBytes) = list := by
  induction list with
  | nil => rfl
  | cons word rest induction =>
      change Word.ofBytes (Word.toBytes word) :: spelled (rest.flatMap Word.toBytes) = _
      rw [Word.ofBytes_toBytes, induction]

theorem flatMap_toBytes_spelled {bytes : Bytes} (whole : 4 ∣ bytes.length) :
    (spelled bytes).flatMap Word.toBytes = bytes := by
  fun_induction spelled bytes with
  | case1 a b c d rest induction =>
      have four : [a, b, c, d].length = 4 := rfl
      have restWhole : 4 ∣ rest.length := by
        simp only [List.length_cons] at whole
        omega
      rw [List.flatMap_cons, Word.toBytes_ofBytes four, induction restWhole]
      rfl
  | case2 bytes short =>
      rcases bytes with _ | ⟨a, _ | ⟨b, _ | ⟨c, _ | ⟨d, rest⟩⟩⟩⟩
      · rfl
      · simp at whole
      · simp at whole
      · simp at whole
      · exact (short a b c d rest rfl).elim

def received (words : Words) : Words := wire words.toBytes

@[simp] theorem toList_received (words : Words) : words.received.toList = words.toList :=
  spelled_flatMap_toBytes words.toList

@[simp] theorem toBytes_received (words : Words) : words.received.toBytes = words.toBytes := by
  rw [toBytes, toList_received, toBytes]

@[simp] theorem count_received (words : Words) : words.received.count = words.count := by
  rw [count, toList_received, count]

theorem toBytes_wire {bytes : Bytes} (whole : 4 ∣ bytes.length) :
    (wire bytes).toBytes = bytes :=
  flatMap_toBytes_spelled whole

theorem count_wire (bytes : Bytes) : (wire bytes).count = bytes.length / 4 :=
  length_spelled bytes

theorem received_wire {bytes : Bytes} (whole : 4 ∣ bytes.length) :
    (wire bytes).received = wire bytes :=
  congrArg wire (toBytes_wire whole)

theorem beq_iff_received {left right : Words} :
    (left == right) = true ↔ left.received = right.received := by
  rw [beq_iff]
  constructor
  · intro equal
    rw [received, toBytes, equal, received, toBytes]
  · intro equal
    rw [← toList_received left, equal, toList_received]

end Words

namespace UnixIdentity

def received (identity : UnixIdentity) : UnixIdentity :=
  { identity with gids := identity.gids.received }

@[simp] theorem layout_received (identity : UnixIdentity) :
    identity.received.layout = identity.layout := by
  simp [layout, received, Layout.words]

@[simp] theorem size_received (identity : UnixIdentity) :
    identity.received.size = identity.size := by
  simp [size, received]

theorem beq_iff_received {left right : UnixIdentity} :
    (left == right) = true ↔ left.received = right.received := by
  cases left
  cases right
  change (_ && _ && _ && _ && _) = true ↔ _
  simp only [Bool.and_eq_true, beq_iff_eq, Words.beq_iff_received, received,
    UnixIdentity.mk.injEq, and_assoc]

end UnixIdentity

namespace Credential

def received : Credential → Credential
  | sys identity => sys identity.received
  | none body => none body
  | short body => short body
  | other flavor body plain => other flavor body plain

@[simp] theorem bodySize_received (credential : Credential) :
    credential.received.bodySize = credential.bodySize := by
  cases credential <;> simp [received, bodySize, body]

@[simp] theorem layout_received (credential : Credential) :
    credential.received.layout = credential.layout := by
  rw [layout, bodySize_received]
  cases credential <;> simp [received, layout, bodyLayout, flavor]

@[simp] theorem received_received (credential : Credential) :
    credential.received.received = credential.received := by
  cases credential with
  | sys identity =>
      change sys { identity with gids := identity.gids.received.received } = _
      rw [Words.received, Words.toBytes_received]
      rfl
  | none body => rfl
  | short body => rfl
  | other flavor body plain => rfl

theorem beq_iff_received {left right : Credential} :
    (left == right) = true ↔ left.received = right.received := by
  cases left <;> cases right
  case none.none left right =>
      change (left == right) = true ↔ _
      simp [received]
  case sys.sys left right =>
      rw [received, received, sys.injEq]
      exact UnixIdentity.beq_iff_received
  case short.short left right =>
      change (left == right) = true ↔ _
      simp [received]
  case other.other leftFlavor left leftPlain rightFlavor right rightPlain =>
      change (leftFlavor == rightFlavor && left == right) = true ↔ _
      simp [received]
  all_goals exact iff_of_false Bool.false_ne_true (by rintro ⟨⟩)

end Credential

/-! ## Messages -/

namespace Call

def received (call : Call) : Call :=
  { call with credential := call.credential.received, verifier := call.verifier.received }

@[simp] theorem layout_received (call : Call) : call.received.layout = call.layout := by
  simp [layout, received]

theorem beq_iff_received {left right : Call} :
    (left == right) = true ↔ left.received = right.received := by
  cases left
  cases right
  change (_ && _ && _ && _ && _ && _) = true ↔ _
  simp only [Bool.and_eq_true, beq_iff_eq, Credential.beq_iff_received, received,
    Call.mk.injEq, and_assoc]

end Call

namespace Reply

def received : Reply → Reply
  | accepted verifier outcome => accepted verifier.received outcome
  | denied rejection => denied rejection

@[simp] theorem layout_received (reply : Reply) : reply.received.layout = reply.layout := by
  cases reply with
  | accepted verifier outcome =>
      simp only [received, layout, armLayout, Credential.layout_received]
      rfl
  | denied rejection => rfl

theorem beq_iff_received {left right : Reply} :
    (left == right) = true ↔ left.received = right.received := by
  cases left <;> cases right
  case accepted.accepted leftVerifier leftOutcome rightVerifier rightOutcome =>
      change (leftVerifier == rightVerifier && leftOutcome == rightOutcome) = true ↔ _
      simp [received, Credential.beq_iff_received]
  case denied.denied left right =>
      change (left == right) = true ↔ _
      simp [received]
  all_goals exact iff_of_false Bool.false_ne_true (by rintro ⟨⟩)

end Reply

namespace Message

def Body.received : Body → Body
  | call content => call content.received
  | reply content => reply content.received

theorem Body.beq_iff_received {left right : Body} :
    (left == right) = true ↔ left.received = right.received := by
  cases left <;> cases right
  case call.call left right =>
      rw [received, received, call.injEq]
      exact Call.beq_iff_received
  case reply.reply left right =>
      rw [received, received, reply.injEq]
      exact Reply.beq_iff_received
  all_goals exact iff_of_false Bool.false_ne_true (by rintro ⟨⟩)

/-- The form in which a reader hands out a message. -/
def received (message : Message) : Message :=
  { message with body := message.body.received }

@[simp] theorem layout_received (message : Message) :
    message.received.layout = message.layout := by
  rcases message with ⟨xid, body⟩
  cases body with
  | call content =>
      simp only [received, Body.received, layout, Body.layout, Call.layout_received]
      rfl
  | reply content =>
      simp only [received, Body.received, layout, Body.layout, Reply.layout_received]
      rfl

@[simp] theorem size_received (message : Message) :
    message.received.size = message.size := by
  rw [← length_layout, layout_received, length_layout]

@[simp] theorem tail?_received (message : Message) :
    message.received.tail? = message.tail? := by
  rcases message with ⟨xid, body⟩
  cases body with
  | call content => rfl
  | reply content => cases content <;> rfl

theorem credentials_received (message : Message) :
    message.received.credentials = message.credentials.map Credential.received := by
  rcases message with ⟨xid, body⟩
  cases body with
  | call content => rfl
  | reply content => cases content <;> rfl

theorem encodable_received {message : Message} :
    message.received.Encodable ↔ message.Encodable := by
  simp [Encodable, credentials_received, Credential.Encodable]

theorem beq_iff_received {left right : Message} :
    (left == right) = true ↔ left.received = right.received := by
  cases left
  cases right
  change (_ && _) = true ↔ _
  simp only [Bool.and_eq_true, beq_iff_eq, Body.beq_iff_received, received,
    Message.mk.injEq]

/-- A message is as received when each of its credentials is. -/
theorem received_eq_iff {message : Message} :
    message.received = message ↔
      ∀ credential ∈ message.credentials, credential.received = credential := by
  rcases message with ⟨xid, body⟩
  cases body with
  | call content =>
      cases content
      simp [received, Body.received, Call.received, credentials, Body.credentials,
        Call.credentials]
  | reply content =>
      cases content <;>
        simp [received, Body.received, Reply.received, credentials, Body.credentials,
          Reply.credentials]

@[simp] theorem received_received (message : Message) :
    message.received.received = message.received := by
  rw [received_eq_iff, credentials_received]
  intro credential member
  rcases List.mem_map.mp member with ⟨original, _, rfl⟩
  exact original.received_received

theorem received_beq (message : Message) : (message.received == message) = true :=
  beq_iff_received.mpr message.received_received

end Message

end RpcWire
