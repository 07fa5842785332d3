import RpcWire.Proofs.Accepts

namespace RpcWire

open Reading

/-! # What the readings of a message accept

Each value is accepted from the bytes that fill its layout. Its credentials
have to be within the limits, and what runs to the end of the message has
nothing behind it. -/

theorem exceeds_eq_false_iff {limit : UInt32} {number : Nat} :
    exceeds limit number = false ↔ (limit ≠ 0 → number ≤ limit.toNat) := by
  simp [exceeds]

theorem exceeds_no_limit (number : Nat) : exceeds 0 number = false :=
  exceeds_eq_false_iff.mpr fun limited => absurd rfl limited

/-! ## Credentials -/

namespace UnixIdentity

/-- What a reader may hand out as an identity. -/
structure Acceptable (policy : Policy) (identity : UnixIdentity) : Prop where
  received : identity.received = identity
  encodable : identity.Encodable
  permitted : exceeds policy.maxGids identity.gids.count = false

theorem accepts_read (policy : Policy) :
    (read policy).Accepts fun identity taken _ => identity.Acceptable policy ∧
      identity.layout.Matches policy.strictPadding taken := by
  have accepts :=
    (accepts_word policy.strictPadding).bind fun stamp =>
    (accepts_counted policy).bind fun machine =>
    (accepts_word policy.strictPadding).bind fun uid =>
    (accepts_word policy.strictPadding).bind fun gid =>
    (accepts_words policy.strictPadding).bind fun gids =>
    (accepts_ensure (exceeds policy.maxGids gids.count = false)
      (.tooManyGids gids.count policy.maxGids)).bind fun _ =>
    accepts_pure ({ stamp, machine, uid, gid, gids } : UnixIdentity)
  refine accepts.congr fun identity taken left => ?_
  constructor
  · intro form
    rcases form with ⟨stamp, stampBytes, _, rfl, fillsStamp, machine, machineBytes, _, rfl, ⟨short,
      fillsMachine⟩, uid, uidBytes, _, rfl, fillsUid, gid, gidBytes, _, rfl, fillsGid, gids,
      gidsBytes, _, rfl, ⟨received, few, fillsGids⟩, _, _, _, rfl, ⟨permitted, rfl⟩, rfl, rfl⟩
    refine ⟨⟨?_, ⟨short, few⟩, permitted⟩, ?_⟩
    · rw [UnixIdentity.received, received]
    · rw [List.append_nil, List.append_nil]
      exact fillsStamp.append <| fillsMachine.append <| fillsUid.append <|
        fillsGid.append fillsGids
  · intro form
    rcases form with ⟨⟨received, ⟨short, few⟩, permitted⟩, fills⟩
    simp only [layout, Layout.matches_append_iff] at fills
    rcases fills with ⟨stampBytes, _, rfl, fillsStamp, machineBytes, _, rfl, fillsMachine,
      uidBytes, _, rfl, fillsUid, gidBytes, gidsBytes, rfl, fillsGid, fillsGids⟩
    have gidsReceived : identity.gids.received = identity.gids :=
      congrArg UnixIdentity.gids received
    exact ⟨_, _, _, rfl, fillsStamp, _, _, _, rfl, ⟨short, fillsMachine⟩, _, _, _, rfl, fillsUid,
      _, _, _, rfl, fillsGid, _, _, _, (List.append_nil _).symm, ⟨gidsReceived, few, fillsGids⟩,
      (), [], [], rfl, ⟨permitted, rfl⟩, rfl, rfl⟩

end UnixIdentity

namespace Credential

/-- What a reader may hand out as a credential. -/
structure Acceptable (policy : Policy) (credential : Credential) : Prop where
  received : credential.received = credential
  encodable : credential.Encodable
  permittedBody : exceeds policy.maxBody credential.bodySize = false
  permittedGids : ∀ identity, credential = sys identity →
    exceeds policy.maxGids identity.gids.count = false

theorem identityOfBody_eq_ok_iff {policy : Policy} {body : Bytes} {identity : UnixIdentity} :
    identityOfBody policy body = .ok identity ↔
      identity.Acceptable policy ∧ identity.layout.Matches policy.strictPadding body := by
  have accepts := UnixIdentity.accepts_read policy (.ofBytes body)
  rw [Cursor.rest_ofBytes] at accepts
  constructor
  · intro found
    rw [identityOfBody] at found
    cases run : (UnixIdentity.read policy).run (.ofBytes body) with
    | error fault stopped =>
        rw [run] at found
        cases found
    | ok value next =>
        rw [run] at found
        rcases (accepts value next).mp run with ⟨taken, left, split, form, rfl⟩
        by_cases used : ((Cursor.ofBytes body).advance taken.length).remaining = 0
        · simp only [if_pos used] at found
          cases found
          rw [← Cursor.length_rest, Cursor.rest_advance, Cursor.rest_ofBytes, split,
            List.drop_left, List.length_eq_zero_iff] at used
          rw [used, List.append_nil] at split
          exact split ▸ form
        · simp only [if_neg used] at found
          cases found
  · intro form
    have run := (accepts identity _).mpr ⟨body, [], (List.append_nil body).symm, form, rfl⟩
    have used : ((Cursor.ofBytes body).advance body.length).remaining = 0 := by
      rw [← Cursor.length_rest, Cursor.rest_advance, Cursor.rest_ofBytes, List.drop_length]
      rfl
    rw [identityOfBody, run]
    simp only [if_pos used]

theorem ofBody_one (policy : Policy) (body : Bytes) :
    ofBody policy 1 body = (identityOfBody policy body).map sys := rfl

/-- Only a structured body is looked into. -/
theorem exists_ofBody_of_ne (policy : Policy) {flavor : UInt32} (raw : flavor ≠ 1)
    (body : Bytes) :
    ∃ credential : Credential, ofBody policy flavor body = .ok credential ∧
      credential.body = body := by
  by_cases isNone : flavor = 0
  · exact ⟨none body, by rw [ofBody, if_pos isNone], rfl⟩
  by_cases isShort : flavor = 2
  · exact ⟨short body, by rw [ofBody, if_neg isNone, if_neg raw, if_pos isShort], rfl⟩
  · have plain : 2 < flavor := plain_iff.mpr ⟨isNone, raw, isShort⟩
    refine ⟨other flavor body plain, ?_, rfl⟩
    rw [ofBody, if_neg isNone, if_neg raw, if_neg isShort, other?, dif_pos plain]

/-- What a body means, given its flavor. -/
theorem ofBody_eq_ok_iff {policy : Policy} {flavor : UInt32} {body : Bytes}
    {credential : Credential} (short : body.length < UInt32.size) :
    ofBody policy flavor body = .ok credential ↔
      credential.flavor = flavor ∧ credential.received = credential ∧
        (∀ identity, credential = sys identity →
          exceeds policy.maxGids identity.gids.count = false) ∧
        credential.bodyLayout.Matches policy.strictPadding body := by
  constructor
  · intro found
    unfold ofBody at found
    split at found
    · next isNone =>
        cases found
        exact ⟨isNone.symm, rfl, by rintro _ ⟨⟩, Layout.matches_data _⟩
    · split at found
      · next isSys =>
          cases parsed : identityOfBody policy body with
          | error fault =>
              rw [parsed] at found
              cases found
          | ok identity =>
              rw [parsed] at found
              cases found
              rcases identityOfBody_eq_ok_iff.mp parsed with ⟨acceptable, fills⟩
              refine ⟨isSys.symm, congrArg sys acceptable.received, ?_, fills⟩
              rintro _ ⟨⟩
              exact acceptable.permitted
      · split at found
        · next isShort =>
            cases found
            exact ⟨isShort.symm, rfl, by rintro _ ⟨⟩, Layout.matches_data _⟩
        · unfold other? at found
          split at found
          · cases found
            exact ⟨rfl, rfl, by rintro _ ⟨⟩, Layout.matches_data _⟩
          · cases found
  · intro form
    rcases form with ⟨rfl, received, permitted, fills⟩
    cases credential with
    | none content =>
        rcases Layout.matches_data_iff.mp fills with rfl
        rfl
    | sys identity =>
        -- The identity fills a body that is short, so its parts are short as well.
        have size : identity.size < UInt32.size := by
          rw [← identity.length_layout]
          exact fills.length_eq ▸ short
        have parsed := identityOfBody_eq_ok_iff.mpr
          ⟨⟨sys.inj received, UnixIdentity.encodable_of_size_lt size, permitted identity rfl⟩,
            fills⟩
        change (identityOfBody policy body).map sys = .ok (sys identity)
        rw [parsed]
        rfl
    | short content =>
        rcases Layout.matches_data_iff.mp fills with rfl
        rfl
    | other flavor content plain =>
        rcases Layout.matches_data_iff.mp fills with rfl
        change ofBody policy flavor _ = _
        simp only [ofBody, plain_iff.mp plain, if_false, other?, dif_pos plain]

theorem accepts_read (policy : Policy) :
    (read policy).Accepts fun credential taken _ => credential.Acceptable policy ∧
      credential.layout.Matches policy.strictPadding taken := by
  have accepts :=
    (accepts_word policy.strictPadding).bind fun flavor =>
    (accepts_counted policy).bind fun body =>
    (accepts_ensure (exceeds policy.maxBody body.length = false)
      (.bodyTooLong body.length policy.maxBody)).bind fun _ =>
    accepts_ofExcept (ofBody policy flavor body)
  refine accepts.congr fun credential taken left => ?_
  constructor
  · intro form
    rcases form with ⟨flavor, front, _, rfl, fillsFlavor, body, back, _, rfl, ⟨short, fillsBody⟩, _,
      _, _, rfl, ⟨permittedBody, rfl⟩, found, rfl⟩
    rcases (ofBody_eq_ok_iff short).mp found with ⟨rfl, received, permittedGids, fills⟩
    rw [List.append_nil, List.append_nil]
    obtain ⟨encodable, fillsLayout⟩ :=
      matches_layout_iff.mpr ⟨front, body, back, rfl, fillsFlavor, short, fills, fillsBody⟩
    exact ⟨⟨received, encodable, bodySize_eq fills ▸ permittedBody, permittedGids⟩, fillsLayout⟩
  · intro form
    rcases form with ⟨⟨received, encodable, permittedBody, permittedGids⟩, fillsLayout⟩
    rcases matches_layout_iff.mp ⟨encodable, fillsLayout⟩ with
      ⟨front, body, back, rfl, fillsFlavor, short, fills, fillsBody⟩
    rw [bodySize_eq fills] at permittedBody
    have found := (ofBody_eq_ok_iff short).mpr ⟨rfl, received, permittedGids, fills⟩
    exact ⟨credential.flavor, front, _, rfl, fillsFlavor, body, back, [],
      (List.append_nil _).symm, ⟨short, fillsBody⟩, (), [], [], rfl, ⟨permittedBody, rfl⟩, found,
      rfl⟩

/-- Without limits, the received form of an encodable credential is acceptable. -/
theorem acceptable_received {credential : Credential} (encodable : credential.Encodable)
    {policy : Policy} (anyGids : policy.maxGids = 0) (anyBody : policy.maxBody = 0) :
    credential.received.Acceptable policy where
  received := credential.received_received
  encodable := by rwa [Encodable, bodySize_received]
  permittedBody := by rw [anyBody, exceeds_no_limit]
  permittedGids identity _ := by rw [anyGids, exceeds_no_limit]

end Credential

/-! ## Outcomes and rejections -/

theorem VersionRange.accepts_read (strict : Bool) :
    read.Accepts fun range taken _ => range.layout.Matches strict taken := by
  have accepts :=
    (accepts_word strict).bind fun low =>
    (accepts_word strict).bind fun high =>
    accepts_pure ({ low, high } : VersionRange)
  refine accepts.congr fun range taken left => ?_
  constructor
  · intro form
    rcases form with ⟨low, lowBytes, _, rfl, fillsLow, high, highBytes, _, rfl, fillsHigh, rfl, rfl⟩
    rw [List.append_nil]
    exact fillsLow.append fillsHigh
  · intro fills
    rcases Layout.matches_append_iff.mp fills with
      ⟨lowBytes, highBytes, rfl, fillsLow, fillsHigh⟩
    exact ⟨_, _, _, rfl, fillsLow, _, _, _, (List.append_nil _).symm, fillsHigh, rfl, rfl⟩

/-- What is read behind the tag of an outcome. -/
def Outcome.readArm : Kind → Reading Outcome
  | .success => return success (← .tail)
  | .programUnavailable => return programUnavailable
  | .programMismatch => return programMismatch (← VersionRange.read)
  | .procedureUnavailable => return procedureUnavailable
  | .garbageArguments => return garbageArguments
  | .systemError => return systemError

theorem Outcome.read_eq : read = .tag Kind .unknownAcceptStatus >>= readArm := rfl

/-- An arm without content of its own takes nothing. -/
theorem Outcome.accepts_constant (strict : Bool) (only : Outcome) (empty : only.armLayout = [])
    (closed : only.tail? = none)
    (unique : ∀ outcome : Outcome, outcome.kind = only.kind → outcome = only) :
    Accepts (pure only) fun outcome taken left => outcome.kind = only.kind ∧
      outcome.armLayout.Matches strict taken ∧ (outcome.tail?.isSome → left = []) := by
  refine (accepts_pure only).congr fun outcome taken left => ?_
  constructor
  · intro form
    rcases form with ⟨rfl, rfl⟩
    exact ⟨rfl, empty ▸ .nil, by simp [closed]⟩
  · intro form
    rcases form with ⟨isOnly, fills, _⟩
    rcases unique outcome isOnly with rfl
    rw [empty] at fills
    exact ⟨rfl, List.length_eq_zero_iff.mp fills.length_eq⟩

theorem Outcome.accepts_readArm (strict : Bool) (kind : Kind) :
    (readArm kind).Accepts fun outcome taken left => outcome.kind = kind ∧
      outcome.armLayout.Matches strict taken ∧ (outcome.tail?.isSome → left = []) := by
  cases kind with
  | success =>
      refine (accepts_tail.map success).congr fun outcome taken left => ?_
      constructor
      · intro form
        rcases form with ⟨results, rfl, rfl, rfl⟩
        exact ⟨rfl, Layout.matches_data _, fun _ => rfl⟩
      · intro form
        rcases form with ⟨isSuccess, fills, ended⟩
        cases outcome <;> cases isSuccess
        exact ⟨_, rfl, (Layout.matches_data_iff.mp fills).symm, ended rfl⟩
  | programMismatch =>
      refine ((VersionRange.accepts_read strict).map programMismatch).congr
        fun outcome taken left => ?_
      constructor
      · intro form
        rcases form with ⟨versions, rfl, fills⟩
        exact ⟨rfl, fills, by rintro ⟨⟩⟩
      · intro form
        rcases form with ⟨isMismatch, fills, _⟩
        cases outcome <;> cases isMismatch
        exact ⟨_, rfl, fills⟩
  | programUnavailable =>
      exact accepts_constant strict programUnavailable rfl rfl (by rintro ⟨⟩ <;> simp [kind])
  | procedureUnavailable =>
      exact accepts_constant strict procedureUnavailable rfl rfl (by rintro ⟨⟩ <;> simp [kind])
  | garbageArguments =>
      exact accepts_constant strict garbageArguments rfl rfl (by rintro ⟨⟩ <;> simp [kind])
  | systemError =>
      exact accepts_constant strict systemError rfl rfl (by rintro ⟨⟩ <;> simp [kind])

theorem Outcome.accepts_read (strict : Bool) :
    read.Accepts fun outcome taken left => outcome.layout.Matches strict taken ∧
      (outcome.tail?.isSome → left = []) := by
  rw [read_eq]
  exact accepts_tagged .unknownAcceptStatus (accepts_readArm strict)

/-- What is read behind the tag of a rejection. -/
def Rejection.readArm : Kind → Reading Rejection
  | .rpcMismatch => return rpcMismatch (← VersionRange.read)
  | .authError => return authError (← .tag AuthStatus .unknownAuthStatus)

theorem Rejection.read_eq : read = .tag Kind .unknownRejectStatus >>= readArm := rfl

theorem Rejection.accepts_readArm (strict : Bool) (kind : Kind) :
    (readArm kind).Accepts fun rejection taken _ => rejection.kind = kind ∧
      rejection.armLayout.Matches strict taken := by
  cases kind with
  | rpcMismatch =>
      refine ((VersionRange.accepts_read strict).map rpcMismatch).congr
        fun rejection taken left => ?_
      constructor
      · intro form
        rcases form with ⟨versions, rfl, fills⟩
        exact ⟨rfl, fills⟩
      · intro form
        rcases form with ⟨isMismatch, fills⟩
        cases rejection <;> cases isMismatch
        exact ⟨_, rfl, fills⟩
  | authError =>
      refine ((accepts_tag strict AuthStatus .unknownAuthStatus).map authError).congr
        fun rejection taken left => ?_
      constructor
      · intro form
        rcases form with ⟨status, rfl, fills⟩
        exact ⟨rfl, fills⟩
      · intro form
        rcases form with ⟨isError, fills⟩
        cases rejection <;> cases isError
        exact ⟨_, rfl, fills⟩

theorem Rejection.accepts_read (strict : Bool) :
    read.Accepts fun rejection taken _ => rejection.layout.Matches strict taken := by
  rw [read_eq]
  have accepts : Accepts (.tag Kind .unknownRejectStatus >>= readArm)
      fun rejection taken _ => rejection.layout.Matches strict taken ∧ True :=
    accepts_tagged .unknownRejectStatus fun kind =>
      (accepts_readArm strict kind).congr fun _ _ _ => by rw [and_true]
  exact accepts.congr fun _ _ _ => by rw [and_true]

/-! ## Calls and replies -/

theorem Call.accepts_read (policy : Policy) :
    (read policy).Accepts fun call taken left =>
      call.layout.Matches policy.strictPadding taken ∧
        (∀ credential ∈ call.credentials, credential.Acceptable policy) ∧ left = [] := by
  have accepts :=
    (accepts_word policy.strictPadding).bind fun spoken =>
    (accepts_ensure (spoken = protocolVersion) (.unknownRpcVersion spoken)).bind fun _ =>
    (accepts_word policy.strictPadding).bind fun program =>
    (accepts_word policy.strictPadding).bind fun version =>
    (accepts_word policy.strictPadding).bind fun procedure =>
    (Credential.accepts_read policy).bind fun credential =>
    (Credential.accepts_read policy).bind fun verifier =>
    accepts_tail.bind fun arguments =>
    accepts_pure ({ program, version, procedure, credential, verifier, arguments } : Call)
  refine accepts.congr fun call taken left => ?_
  simp only [credentials, List.forall_mem_cons, List.not_mem_nil, false_implies, implies_true,
    and_true]
  constructor
  · intro form
    rcases form with ⟨spoken, _, _, rfl, fillsVersion, _, _, _, rfl, ⟨rfl, rfl⟩, program, _, _, rfl,
      fillsProgram, version, _, _, rfl, fillsNumber, procedure, _, _, rfl, fillsProcedure,
      credential, _, _, rfl, ⟨acceptable, fillsCredential⟩, verifier, _, _, rfl,
      ⟨acceptableVerifier, fillsVerifier⟩, arguments, _, _, rfl, ⟨rfl, ended⟩, rfl, rfl⟩
    rw [List.append_nil, List.nil_append]
    refine ⟨?_, ⟨acceptable, acceptableVerifier⟩, ended⟩
    exact fillsVersion.append <| fillsProgram.append <| fillsNumber.append <|
      fillsProcedure.append <| fillsCredential.append <| fillsVerifier.append <|
      Layout.matches_data _
  · intro form
    rcases form with ⟨fills, ⟨acceptable, acceptableVerifier⟩, rfl⟩
    simp only [layout, Layout.matches_append_iff] at fills
    rcases fills with ⟨_, _, rfl, fillsVersion, _, _, rfl, fillsProgram, _, _, rfl, fillsNumber,
      _, _, rfl, fillsProcedure, _, _, rfl, fillsCredential, _, _, rfl, fillsVerifier,
      fillsArguments⟩
    exact ⟨_, _, _, rfl, fillsVersion, (), [], _, rfl, ⟨rfl, rfl⟩, _, _, _, rfl, fillsProgram,
      _, _, _, rfl, fillsNumber, _, _, _, rfl, fillsProcedure, _, _, _, rfl,
      ⟨acceptable, fillsCredential⟩, _, _, _, rfl, ⟨acceptableVerifier, fillsVerifier⟩, _, _, [],
      (List.append_nil _).symm, ⟨(Layout.matches_data_iff.mp fillsArguments).symm, rfl⟩, rfl, rfl⟩

/-- What is read behind the tag of a reply. -/
def Reply.readArm (policy : Policy) : Kind → Reading Reply
  | .accepted => do
      let verifier ← Credential.read policy
      return accepted verifier (← Outcome.read)
  | .denied => return denied (← Rejection.read)

theorem Reply.read_eq (policy : Policy) :
    read policy = .tag Kind .unknownReplyStatus >>= readArm policy := rfl

theorem Reply.accepts_readArm (policy : Policy) (kind : Kind) :
    (readArm policy kind).Accepts fun reply taken left => reply.kind = kind ∧
      reply.armLayout.Matches policy.strictPadding taken ∧
        (∀ credential ∈ reply.credentials, credential.Acceptable policy) ∧
          (reply.tail?.isSome → left = []) := by
  cases kind with
  | accepted =>
      have accepts := (Credential.accepts_read policy).bind fun verifier =>
        (Outcome.accepts_read policy.strictPadding).map (accepted verifier)
      refine accepts.congr fun reply taken left => ?_
      constructor
      · intro form
        rcases form with ⟨verifier, front, back, rfl, ⟨acceptable, fillsVerifier⟩, outcome, rfl,
          fillsOutcome, ended⟩
        refine ⟨rfl, fillsVerifier.append fillsOutcome, ?_, ended⟩
        simpa [credentials] using acceptable
      · intro form
        rcases form with ⟨isAccepted, fills, acceptable, ended⟩
        cases reply <;> cases isAccepted
        rcases Layout.matches_append_iff.mp fills with
          ⟨front, back, rfl, fillsVerifier, fillsOutcome⟩
        exact ⟨_, front, back, rfl, ⟨acceptable _ (List.mem_singleton_self _), fillsVerifier⟩, _,
          rfl, fillsOutcome, ended⟩
  | denied =>
      refine ((Rejection.accepts_read policy.strictPadding).map denied).congr
        fun reply taken left => ?_
      constructor
      · intro form
        rcases form with ⟨rejection, rfl, fills⟩
        exact ⟨rfl, fills, by rintro _ ⟨⟩, by rintro ⟨⟩⟩
      · intro form
        rcases form with ⟨isDenied, fills, _, _⟩
        cases reply <;> cases isDenied
        exact ⟨_, rfl, fills⟩

theorem Reply.accepts_read (policy : Policy) :
    (read policy).Accepts fun reply taken left =>
      reply.layout.Matches policy.strictPadding taken ∧
        (∀ credential ∈ reply.credentials, credential.Acceptable policy) ∧
          (reply.tail?.isSome → left = []) := by
  rw [read_eq]
  exact accepts_tagged .unknownReplyStatus (accepts_readArm policy)

/-! ## Messages -/

namespace Message

/-- What is read behind the tag of a message. -/
def readBody (policy : Policy) : Body.Kind → Reading Body
  | .call => return .call (← Call.read policy)
  | .reply => return .reply (← Reply.read policy)

theorem accepts_readBody (policy : Policy) (kind : Body.Kind) :
    (readBody policy kind).Accepts fun body taken left => body.kind = kind ∧
      body.layout.Matches policy.strictPadding taken ∧
        (∀ credential ∈ body.credentials, credential.Acceptable policy) ∧
          (body.tail?.isSome → left = []) := by
  cases kind with
  | call =>
      refine ((Call.accepts_read policy).map Body.call).congr fun body taken left => ?_
      constructor
      · intro form
        rcases form with ⟨content, rfl, fills, acceptable, ended⟩
        exact ⟨rfl, fills, acceptable, fun _ => ended⟩
      · intro form
        rcases form with ⟨isCall, fills, acceptable, ended⟩
        cases body <;> cases isCall
        exact ⟨_, rfl, fills, acceptable, ended rfl⟩
  | reply =>
      refine ((Reply.accepts_read policy).map Body.reply).congr fun body taken left => ?_
      constructor
      · intro form
        rcases form with ⟨content, rfl, holds⟩
        exact ⟨rfl, holds⟩
      · intro form
        rcases form with ⟨isReply, holds⟩
        cases body <;> cases isReply
        exact ⟨_, rfl, holds⟩

theorem read_eq (policy : Policy) :
    read policy = do
      let xid ← .word
      return { xid, body := ← .tag Body.Kind .unknownMessageType >>= readBody policy } := by
  unfold read
  congr
  funext xid
  rw [bind_assoc]
  congr
  funext kind
  cases kind with
  | call => simp [readBody]
  | reply => simp [readBody]

theorem accepts_read (policy : Policy) :
    (read policy).Accepts fun message taken left =>
      message.layout.Matches policy.strictPadding taken ∧
        (∀ credential ∈ message.credentials, credential.Acceptable policy) ∧
          (message.tail?.isSome → left = []) := by
  rw [read_eq]
  have accepts :=
    (accepts_word policy.strictPadding).bind fun xid =>
    (accepts_tagged .unknownMessageType (accepts_readBody policy)).map fun body =>
    ({ xid, body } : Message)
  refine accepts.congr fun message taken left => ?_
  constructor
  · intro form
    rcases form with ⟨xid, front, back, rfl, fillsXid, body, rfl, fillsBody, others⟩
    exact ⟨fillsXid.append fillsBody, others⟩
  · intro form
    rcases form with ⟨fills, others⟩
    rcases Layout.matches_append_iff.mp fills with ⟨front, back, rfl, fillsXid, fillsBody⟩
    exact ⟨message.xid, front, back, rfl, fillsXid, message.body, rfl, fillsBody, others⟩

/-- What was found in some bytes, as a reader may report it: an acceptable
message that fills the front of the bytes, and all of them if it runs to their
end. -/
structure Found.Fits (policy : Policy) (bytes : Bytes) (found : Found) : Prop where
  inside : found.consumed ≤ bytes.length
  acceptable : ∀ credential ∈ found.message.credentials, credential.Acceptable policy
  fills : found.message.layout.Matches policy.strictPadding (bytes.take found.consumed)
  ended : found.message.tail?.isSome → found.consumed = bytes.length

theorem ofBytes_eq_ok_iff {policy : Policy} {bytes : Bytes} {found : Found} :
    ofBytes policy bytes = .ok found ↔ found.Fits policy bytes := by
  have accepts := accepts_read policy (.ofBytes bytes)
  rw [Cursor.rest_ofBytes] at accepts
  have reached (count : Nat) : ((Cursor.ofBytes bytes).advance count).offset = count :=
    Nat.zero_add count
  constructor
  · intro result
    rw [ofBytes] at result
    cases run : (read policy).run (.ofBytes bytes) with
    | error fault stopped =>
        rw [run] at result
        cases result
    | ok message next =>
        rw [run] at result
        cases result
        rcases (accepts _ _).mp run with ⟨taken, left, rfl, ⟨fills, acceptable, ended⟩, rfl⟩
        have inside : taken.length ≤ (taken ++ left).length := by simp
        refine ⟨?_, acceptable, ?_, ?_⟩
        · exact (reached _).symm ▸ inside
        · simp only [reached, List.take_left]
          exact fills
        · intro runsOn
          refine (reached _).trans ?_
          rw [ended runsOn, List.append_nil]
  · intro form
    rcases form with ⟨inside, acceptable, fills, ended⟩
    rcases found with ⟨message, consumed⟩
    have size : (bytes.take consumed).length = consumed := List.length_take_of_le inside
    have run := (accepts message _).mpr ⟨bytes.take consumed, bytes.drop consumed,
      (List.take_append_drop _ _).symm, ⟨fills, acceptable, fun runsOn =>
        List.drop_of_length_le (Nat.le_of_eq (ended runsOn).symm)⟩, rfl⟩
    rw [ofBytes, run]
    simp only [size, reached]

/-! ## Acceptable messages -/

theorem acceptable_received {message : Message} (encodable : message.Encodable)
    {policy : Policy} (anyGids : policy.maxGids = 0) (anyBody : policy.maxBody = 0) :
    ∀ credential ∈ message.received.credentials, credential.Acceptable policy := by
  intro credential member
  rw [credentials_received] at member
  rcases List.mem_map.mp member with ⟨original, originalMember, rfl⟩
  exact Credential.acceptable_received (encodable original originalMember) anyGids anyBody

/-- An acceptable message is found in what its layout has written. -/
theorem fits_written {policy : Policy} {message : Message}
    (acceptable : ∀ credential ∈ message.credentials, credential.Acceptable policy) :
    Found.Fits policy message.layout.written { message, consumed := message.size } where
  inside := by simp
  acceptable := acceptable
  fills := by
    rw [List.take_of_length_le (by simp)]
    exact Layout.matches_written _ _
  ended _ := by simp

namespace Found.Fits

variable {policy : Policy} {bytes : Bytes} {found : Found}

theorem size_eq (fits : found.Fits policy bytes) : found.message.size = found.consumed := by
  rw [← length_layout, ← fits.fills.length_eq, List.length_take_of_le fits.inside]

theorem encodable (fits : found.Fits policy bytes) : found.message.Encodable :=
  fun credential member => (fits.acceptable credential member).encodable

theorem received (fits : found.Fits policy bytes) : found.message.received = found.message :=
  received_eq_iff.mpr fun credential member => (fits.acceptable credential member).received

end Found.Fits

end Message

end RpcWire
