import RpcWire.Proofs.Layout.Message

namespace RpcWire

/-! # The grammar of messages

Which bytes are a value on the wire, production by production. Flavors and arms
stand here under their numbers, and nothing is computed from a value but the
length of its data. Padding may be any bytes. -/

/-- Counted data: a length word, the data and bytes up to a multiple of four. -/
inductive Counted : Bytes → Bytes → Prop
  | intro {data : Bytes} (length : UInt32) (pad : Bytes)
      (spelled : length.toNat = data.length) (aligned : pad.length = padLength data.length) :
      Counted data (Word.toBytes length ++ data ++ pad)

inductive UnixIdentity.Wire : UnixIdentity → Bytes → Prop
  | intro {identity : UnixIdentity} {machine : Bytes} (count : UInt32)
      (name : Counted identity.machine machine)
      (spelled : count.toNat = identity.gids.count) :
      Wire identity (Word.toBytes identity.stamp ++ machine ++ Word.toBytes identity.uid ++
        Word.toBytes identity.gid ++ Word.toBytes count ++ identity.gids.toBytes)

/-- The body of a system credential is one identity from its first byte to its
last. -/
inductive Credential.Wire : Credential → Bytes → Prop
  | none {body field : Bytes} (counted : Counted body field) :
      Wire (.none body) (Word.toBytes 0 ++ field)
  | sys {identity : UnixIdentity} {body field : Bytes} (structured : identity.Wire body)
      (counted : Counted body field) :
      Wire (.sys identity) (Word.toBytes 1 ++ field)
  | short {body field : Bytes} (counted : Counted body field) :
      Wire (.short body) (Word.toBytes 2 ++ field)
  | other {flavor : UInt32} {body field : Bytes} {plain : 2 < flavor}
      (counted : Counted body field) :
      Wire (.other flavor body plain) (Word.toBytes flavor ++ field)

inductive Call.Wire : Call → Bytes → Prop
  | intro {call : Call} {credential verifier : Bytes} (asks : call.credential.Wire credential)
      (verifies : call.verifier.Wire verifier) :
      Wire call (Word.toBytes 2 ++ Word.toBytes call.program ++ Word.toBytes call.version ++
        Word.toBytes call.procedure ++ credential ++ verifier ++ call.arguments)

inductive VersionRange.Wire : VersionRange → Bytes → Prop
  | intro (low high : UInt32) : Wire ⟨low, high⟩ (Word.toBytes low ++ Word.toBytes high)

inductive Outcome.Wire : Outcome → Bytes → Prop
  | success (results : Bytes) : Wire (.success results) (Word.toBytes 0 ++ results)
  | programUnavailable : Wire .programUnavailable (Word.toBytes 1)
  | programMismatch {versions : VersionRange} {range : Bytes} (supported : versions.Wire range) :
      Wire (.programMismatch versions) (Word.toBytes 2 ++ range)
  | procedureUnavailable : Wire .procedureUnavailable (Word.toBytes 3)
  | garbageArguments : Wire .garbageArguments (Word.toBytes 4)
  | systemError : Wire .systemError (Word.toBytes 5)

inductive Rejection.Wire : Rejection → Bytes → Prop
  | rpcMismatch {versions : VersionRange} {range : Bytes} (supported : versions.Wire range) :
      Wire (.rpcMismatch versions) (Word.toBytes 0 ++ range)
  | authError (status : AuthStatus) :
      Wire (.authError status) (Word.toBytes 1 ++ Word.toBytes (Tag.toWord status))

inductive Reply.Wire : Reply → Bytes → Prop
  | accepted {verifier : Credential} {outcome : Outcome} {verifierBytes outcomeBytes : Bytes}
      (verifies : verifier.Wire verifierBytes) (ends : outcome.Wire outcomeBytes) :
      Wire (.accepted verifier outcome) (Word.toBytes 0 ++ verifierBytes ++ outcomeBytes)
  | denied {rejection : Rejection} {bytes : Bytes} (wire : rejection.Wire bytes) :
      Wire (.denied rejection) (Word.toBytes 1 ++ bytes)

inductive Message.Wire : Message → Bytes → Prop
  | call {xid : UInt32} {content : Call} {bytes : Bytes} (wire : content.Wire bytes) :
      Wire { xid, body := .call content } (Word.toBytes xid ++ Word.toBytes 0 ++ bytes)
  | reply {xid : UInt32} {content : Reply} {bytes : Bytes} (wire : content.Wire bytes) :
      Wire { xid, body := .reply content } (Word.toBytes xid ++ Word.toBytes 1 ++ bytes)

/-! ## The grammar and the layout

A value stands in the bytes that fill its layout, provided that its lengths
have words. -/

theorem counted_iff {data bytes : Bytes} :
    Counted data bytes ↔
      data.length < UInt32.size ∧ (Layout.counted data).Matches false bytes := by
  simp only [Layout.counted, List.append_assoc]
  constructor
  · intro holds
    rcases holds with ⟨length, pad, spelled, aligned⟩
    have word : UInt32.ofNat data.length = length := by rw [← spelled, UInt32.ofNat_toNat]
    have fillsPad : (Layout.padding data.length).Matches false pad :=
      Layout.matches_padding_iff.mpr ⟨aligned, fun strict => absurd strict Bool.false_ne_true⟩
    refine ⟨spelled ▸ length.toNat_lt, ?_⟩
    rw [word, List.append_assoc]
    exact (Layout.matches_word _).append <| (Layout.matches_data _).append fillsPad
  · intro holds
    rcases holds with ⟨short, fills⟩
    rcases Layout.matches_word_append_iff.mp fills with ⟨_, rfl, fillsRest⟩
    rcases Layout.matches_append_iff.mp fillsRest with ⟨_, pad, rfl, fillsData, fillsPad⟩
    rcases Layout.matches_data_iff.mp fillsData with rfl
    rw [← List.append_assoc]
    exact .intro _ pad (UInt32.toNat_ofNat_of_lt' short) (Layout.matches_padding_iff.mp fillsPad).1

theorem UnixIdentity.wire_iff {identity : UnixIdentity} {bytes : Bytes} :
    identity.Wire bytes ↔ identity.Encodable ∧ identity.layout.Matches false bytes := by
  simp only [layout, Layout.words]
  constructor
  · intro holds
    rcases holds with ⟨count, name, spelled⟩
    rcases counted_iff.mp name with ⟨short, fillsName⟩
    have word : UInt32.ofNat identity.gids.count = count := by
      rw [← spelled, UInt32.ofNat_toNat]
    refine ⟨⟨short, spelled ▸ count.toNat_lt⟩, ?_⟩
    simp only [List.append_assoc, word]
    exact (Layout.matches_word _).append <| fillsName.append <|
      (Layout.matches_word _).append <| (Layout.matches_word _).append <|
      (Layout.matches_word _).append (Layout.matches_data _)
  · intro holds
    rcases holds with ⟨⟨short, few⟩, fills⟩
    simp only [Layout.matches_append_iff, Layout.matches_word_iff,
      Layout.matches_data_iff] at fills
    rcases fills with ⟨_, _, rfl, rfl, machine, _, rfl, fillsName, _, _, rfl, rfl, _, _, rfl,
      rfl, _, _, rfl, rfl, rfl⟩
    simp only [← List.append_assoc]
    exact .intro _ (counted_iff.mpr ⟨short, fillsName⟩) (UInt32.toNat_ofNat_of_lt' few)

theorem Credential.wire_iff {credential : Credential} {bytes : Bytes} :
    credential.Wire bytes ↔
      credential.Encodable ∧ credential.layout.Matches false bytes := by
  rw [matches_layout_iff]
  constructor
  · intro wire
    rcases wire with ⟨counted⟩ | ⟨structured, counted⟩ | ⟨counted⟩ | ⟨counted⟩
    all_goals
      rcases counted_iff.mp counted with ⟨short, fillsBody⟩
      refine ⟨_, _, _, rfl, Layout.matches_word _, short, ?_, fillsBody⟩
    · exact Layout.matches_data _
    · exact (UnixIdentity.wire_iff.mp structured).2
    · exact Layout.matches_data _
    · exact Layout.matches_data _
  · intro holds
    rcases holds with ⟨front, body, back, rfl, fillsFlavor, short, fills, fillsBody⟩
    rcases Layout.matches_word_iff.mp fillsFlavor with rfl
    have counted := counted_iff.mpr ⟨short, fillsBody⟩
    cases credential with
    | none content =>
        rcases Layout.matches_data_iff.mp fills with rfl
        exact .none counted
    | sys identity =>
        have size : identity.size < UInt32.size := by
          rw [← identity.length_layout]
          exact fills.length_eq ▸ short
        exact .sys (UnixIdentity.wire_iff.mpr
          ⟨UnixIdentity.encodable_of_size_lt size, fills⟩) counted
    | short content =>
        rcases Layout.matches_data_iff.mp fills with rfl
        exact .short counted
    | other flavor content plain =>
        rcases Layout.matches_data_iff.mp fills with rfl
        exact .other counted

theorem Call.wire_iff {call : Call} {bytes : Bytes} :
    call.Wire bytes ↔ (∀ credential ∈ call.credentials, credential.Encodable) ∧
      call.layout.Matches false bytes := by
  simp only [layout, credentials, List.forall_mem_cons, List.not_mem_nil, false_implies,
    implies_true, and_true]
  constructor
  · intro holds
    rcases holds with ⟨asks, verifies⟩
    rcases Credential.wire_iff.mp asks with ⟨encodable, fillsCredential⟩
    rcases Credential.wire_iff.mp verifies with ⟨encodableVerifier, fillsVerifier⟩
    refine ⟨⟨encodable, encodableVerifier⟩, ?_⟩
    simp only [List.append_assoc]
    exact (Layout.matches_word _).append <| (Layout.matches_word _).append <|
      (Layout.matches_word _).append <| (Layout.matches_word _).append <|
      fillsCredential.append <| fillsVerifier.append (Layout.matches_data _)
  · intro holds
    rcases holds with ⟨⟨encodable, encodableVerifier⟩, fills⟩
    simp only [Layout.matches_append_iff, Layout.matches_word_iff,
      Layout.matches_data_iff] at fills
    rcases fills with ⟨_, _, rfl, rfl, _, _, rfl, rfl, _, _, rfl, rfl, _, _, rfl, rfl,
      credential, _, rfl, fillsCredential, verifier, _, rfl, fillsVerifier, rfl⟩
    simp only [← List.append_assoc]
    exact .intro (Credential.wire_iff.mpr ⟨encodable, fillsCredential⟩)
      (Credential.wire_iff.mpr ⟨encodableVerifier, fillsVerifier⟩)

theorem VersionRange.wire_iff {range : VersionRange} {bytes : Bytes} :
    range.Wire bytes ↔ range.layout.Matches false bytes := by
  constructor
  · intro holds
    rcases holds with ⟨low, high⟩
    exact (Layout.matches_word _).append (Layout.matches_word _)
  · intro fills
    rcases Layout.matches_word_append_iff.mp fills with ⟨_, rfl, fillsHigh⟩
    rcases Layout.matches_word_iff.mp fillsHigh with rfl
    exact .intro range.low range.high

theorem Outcome.wire_iff {outcome : Outcome} {bytes : Bytes} :
    outcome.Wire bytes ↔ outcome.layout.Matches false bytes := by
  constructor
  · intro wire
    rcases wire with ⟨results⟩ | _ | ⟨supported⟩ | _ | _ | _
    · exact (Layout.matches_word _).append (Layout.matches_data _)
    · exact Layout.matches_word _
    · exact (Layout.matches_word _).append (VersionRange.wire_iff.mp supported)
    · exact Layout.matches_word _
    · exact Layout.matches_word _
    · exact Layout.matches_word _
  · intro fills
    rcases Layout.matches_word_append_iff.mp fills with ⟨back, rfl, fillsArm⟩
    have empty (nothing : outcome.armLayout = []) : back = [] := by
      rw [nothing] at fillsArm
      exact List.length_eq_zero_iff.mp fillsArm.length_eq
    cases outcome with
    | success results =>
        rcases Layout.matches_data_iff.mp fillsArm with rfl
        exact .success back
    | programMismatch versions => exact .programMismatch (VersionRange.wire_iff.mpr fillsArm)
    | programUnavailable => rw [empty rfl]; exact .programUnavailable
    | procedureUnavailable => rw [empty rfl]; exact .procedureUnavailable
    | garbageArguments => rw [empty rfl]; exact .garbageArguments
    | systemError => rw [empty rfl]; exact .systemError

theorem Rejection.wire_iff {rejection : Rejection} {bytes : Bytes} :
    rejection.Wire bytes ↔ rejection.layout.Matches false bytes := by
  constructor
  · intro wire
    rcases wire with ⟨supported⟩ | ⟨status⟩
    · exact (Layout.matches_word _).append (VersionRange.wire_iff.mp supported)
    · exact (Layout.matches_word _).append (Layout.matches_word _)
  · intro fills
    rcases Layout.matches_word_append_iff.mp fills with ⟨back, rfl, fillsArm⟩
    cases rejection with
    | rpcMismatch versions => exact .rpcMismatch (VersionRange.wire_iff.mpr fillsArm)
    | authError status =>
        rcases Layout.matches_word_iff.mp fillsArm with rfl
        exact .authError status

theorem Reply.wire_iff {reply : Reply} {bytes : Bytes} :
    reply.Wire bytes ↔ (∀ credential ∈ reply.credentials, credential.Encodable) ∧
      reply.layout.Matches false bytes := by
  constructor
  · intro wire
    rcases wire with ⟨verifies, ends⟩ | ⟨wire⟩
    · rcases Credential.wire_iff.mp verifies with ⟨encodable, fillsVerifier⟩
      refine ⟨by simpa [credentials] using encodable, ?_⟩
      rw [List.append_assoc]
      exact (Layout.matches_word _).append (fillsVerifier.append (Outcome.wire_iff.mp ends))
    · refine ⟨fun _ member => absurd member List.not_mem_nil, ?_⟩
      exact (Layout.matches_word _).append (Rejection.wire_iff.mp wire)
  · intro holds
    rcases holds with ⟨encodable, fills⟩
    rcases Layout.matches_word_append_iff.mp fills with ⟨back, rfl, fillsArm⟩
    cases reply with
    | accepted verifier outcome =>
        rcases Layout.matches_append_iff.mp fillsArm with ⟨_, _, rfl, fillsVerifier, fillsOutcome⟩
        rw [← List.append_assoc]
        exact .accepted
          (Credential.wire_iff.mpr ⟨encodable _ (List.mem_singleton_self _), fillsVerifier⟩)
          (Outcome.wire_iff.mpr fillsOutcome)
    | denied rejection => exact .denied (Rejection.wire_iff.mpr fillsArm)

theorem Message.wire_iff {message : Message} {bytes : Bytes} :
    message.Wire bytes ↔ message.Encodable ∧ message.layout.Matches false bytes := by
  constructor
  · intro wire
    rcases wire with ⟨wire⟩ | ⟨wire⟩
    · rcases Call.wire_iff.mp wire with ⟨encodable, fills⟩
      refine ⟨encodable, ?_⟩
      rw [List.append_assoc]
      exact (Layout.matches_word _).append ((Layout.matches_word _).append fills)
    · rcases Reply.wire_iff.mp wire with ⟨encodable, fills⟩
      refine ⟨encodable, ?_⟩
      rw [List.append_assoc]
      exact (Layout.matches_word _).append ((Layout.matches_word _).append fills)
  · intro holds
    rcases holds with ⟨encodable, fills⟩
    rcases message with ⟨xid, body⟩
    rcases Layout.matches_word_append_iff.mp fills with ⟨_, rfl, fillsRest⟩
    rcases Layout.matches_word_append_iff.mp fillsRest with ⟨_, rfl, fillsBody⟩
    rw [← List.append_assoc]
    cases body with
    | call content => exact .call (Call.wire_iff.mpr ⟨encodable, fillsBody⟩)
    | reply content => exact .reply (Reply.wire_iff.mpr ⟨encodable, fillsBody⟩)

end RpcWire
