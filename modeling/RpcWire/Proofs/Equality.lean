import RpcWire.Proofs.RoundTrip

namespace RpcWire

/-! # Equality and the wire

Equality of messages is told field by field, and a group list counts for the
words it says. That this is just equality of the written bytes takes both
directions: no field is forgotten, and none runs into the next. -/

/-! ## Forms of group lists -/

/-- The same credential, with its group list in this form or another. -/
inductive Credential.Respelled : Credential → Credential → Prop
  | same (credential : Credential) : Respelled credential credential
  | gids (identity : UnixIdentity) {gids : Words} (alike : gids.toList = identity.gids.toList) :
      Respelled (sys identity) (sys { identity with gids })

/-- The same message, with each of its group lists in any form. -/
inductive Message.Respelled : Message → Message → Prop
  | call (xid : UInt32) (content : Call) {credential verifier : Credential}
      (asks : content.credential.Respelled credential)
      (verifies : content.verifier.Respelled verifier) :
      Respelled { xid, body := .call content }
        { xid, body := .call { content with credential, verifier } }
  | accepted (xid : UInt32) (outcome : Outcome) {first second : Credential}
      (verifies : first.Respelled second) :
      Respelled { xid, body := .reply (.accepted first outcome) }
        { xid, body := .reply (.accepted second outcome) }
  | denied (xid : UInt32) (rejection : Rejection) :
      Respelled { xid, body := .reply (.denied rejection) }
        { xid, body := .reply (.denied rejection) }

theorem Credential.Respelled.received_eq {first second : Credential}
    (respelled : first.Respelled second) : first.received = second.received := by
  cases respelled with
  | same => rfl
  | gids identity alike =>
      simp only [received, UnixIdentity.received, Words.received, Words.toBytes, alike]

theorem Message.Respelled.received_eq {first second : Message}
    (respelled : first.Respelled second) : first.received = second.received := by
  cases respelled with
  | call xid content asks verifies =>
      simp only [received, Body.received, Call.received, asks.received_eq, verifies.received_eq]
  | accepted xid outcome verifies =>
      simp only [received, Body.received, Reply.received, verifies.received_eq]
  | denied xid rejection => rfl

/-! ## Kinds of credentials -/

inductive Credential.Kind where
  | none
  | sys
  | short
  | other
deriving DecidableEq

namespace Credential

def kind : Credential → Kind
  | none _ => .none
  | sys _ => .sys
  | short _ => .short
  | other .. => .other

theorem kind_received (credential : Credential) : credential.received.kind = credential.kind := by
  cases credential <;> rfl

end Credential

/-! ## Messages -/

namespace Message

theorem equivalence_beq : Equivalence fun left right : Message => (left == right) = true := by
  constructor
  case refl =>
    intro message
    exact beq_iff_received.mpr rfl
  case symm =>
    intro left right equal
    exact beq_iff_received.mpr (beq_iff_received.mp equal).symm
  case trans =>
    intro first second third equal later
    exact beq_iff_received.mpr ((beq_iff_received.mp equal).trans (beq_iff_received.mp later))

theorem Respelled.beq {first second : Message} (respelled : first.Respelled second) :
    (first == second) = true :=
  beq_iff_received.mpr respelled.received_eq

theorem beq_congr {first second left right : Message} (front : first.Respelled left)
    (back : second.Respelled right) : (first == second) = (left == right) := by
  rw [Bool.eq_iff_iff, beq_iff_received, beq_iff_received, front.received_eq, back.received_eq]

theorem ofBytes_written {message : Message} (encodable : message.Encodable) :
    ofBytes {} message.layout.written =
      .ok { message := message.received, consumed := message.size } := by
  have acceptable : ∀ credential ∈ message.received.credentials, credential.Acceptable {} :=
    acceptable_received encodable rfl rfl
  have fits := fits_written acceptable
  rw [layout_received, size_received] at fits
  exact ofBytes_eq_ok_iff.mpr fits

/-- Equal messages have one layout, and from one layout one message is read. -/
theorem beq_iff_written_eq {left right : Message} (leftEncodable : left.Encodable)
    (rightEncodable : right.Encodable) :
    (left == right) = true ↔ left.layout.written = right.layout.written := by
  rw [beq_iff_received]
  constructor
  · intro equal
    rw [← layout_received, equal, layout_received]
  · intro equal
    have leftFound := ofBytes_written leftEncodable
    have rightFound := ofBytes_written rightEncodable
    rw [equal, rightFound, Except.ok.injEq, Found.mk.injEq] at leftFound
    exact leftFound.1.symm

theorem map_credentials_of_beq {α : Type} {of : Credential → α}
    (received : ∀ credential, of credential.received = of credential) {left right : Message}
    (equal : (left == right) = true) :
    left.credentials.map of = right.credentials.map of := by
  have forget (message : Message) :
      message.received.credentials.map of = message.credentials.map of := by
    rw [credentials_received, List.map_map]
    exact List.map_congr_left fun credential _ => received credential
  rw [← forget, beq_iff_received.mp equal, forget]

/-- Two messages that can be written are equal just when they are written in the
same bytes. So equality is an equivalence that does not see in which form a
group list is kept, and no two kinds of credentials are written alike. -/
theorem beq_iff_toBytes_eq :
    (∀ left right : Message, left.Encodable → right.Encodable →
      ∃ leftBytes rightBytes, left.toBytes = .ok leftBytes ∧ right.toBytes = .ok rightBytes ∧
        ((left == right) = true ↔ leftBytes = rightBytes) ∧
        (leftBytes = rightBytes →
          left.credentials.map Credential.kind = right.credentials.map Credential.kind)) ∧
    (Equivalence fun left right : Message => (left == right) = true) ∧
    ∀ first second left right : Message, first.Respelled left → second.Respelled right →
      (first == left) = true ∧ (first == second) = (left == right) := by
  refine ⟨?_, equivalence_beq, ?_⟩
  · intro left right leftEncodable rightEncodable
    have same := beq_iff_written_eq leftEncodable rightEncodable
    refine ⟨_, _, toBytes_eq leftEncodable, toBytes_eq rightEncodable, same, ?_⟩
    intro equal
    exact map_credentials_of_beq Credential.kind_received (same.mpr equal)
  · exact fun first second left right front back => ⟨front.beq, beq_congr front back⟩

/-- A reply like the sample, under a flavor that has no form of its own. -/
def sampleOpaque : Message where
  xid := 7
  body := .reply (.accepted (.other 3 [0, 0, 0, 1] (by decide)) (.success [1, 2, 3]))

theorem beq_iff_toBytes_eq_sample :
    (sample.Encodable ∧ sample.received.Encodable ∧ sampleOpaque.Encodable) ∧
      sample.toBytes = sample.received.toBytes ∧ sample.toBytes ≠ sampleOpaque.toBytes ∧
      (sample == sampleOpaque) = (sample.received == sampleOpaque) := by
  have encodable : sample.Encodable := by decide
  have encodableReceived : sample.received.Encodable := by decide
  have encodableOpaque : sampleOpaque.Encodable := by decide
  have respelled : sample.Respelled sample.received := .accepted 7 _ (.gids _ rfl)
  have respelledOpaque : sampleOpaque.Respelled sampleOpaque := .accepted 7 _ (.same _)
  rcases beq_iff_toBytes_eq with ⟨bytes, _, forms⟩
  refine ⟨⟨encodable, encodableReceived, encodableOpaque⟩, ?_, ?_, ?_⟩
  · rcases bytes _ _ encodable encodableReceived with ⟨left, right, ran, ranReceived, same, _⟩
    rw [ran, ranReceived, same.mp (forms _ _ _ _ respelled respelledOpaque).1]
  · rcases bytes _ _ encodable encodableOpaque with ⟨left, right, ran, ranOpaque, _, kinds⟩
    rw [ran, ranOpaque]
    intro equal
    exact absurd (kinds (Except.ok.inj equal)) (by decide)
  · exact (forms _ _ _ _ respelled respelledOpaque).2

end Message

end RpcWire
