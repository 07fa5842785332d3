import RpcWire.Proofs.Faults

namespace RpcWire

/-! # Verdicts on messages

Some words of a message are numbers of a kind or a version, and only some numbers
are known there. A message is refused for an unknown number just when it stands at
such a place and all in front of it could be read. Every other fault is one that
data can be the cause of. -/

/-- The word at these four bytes. -/
def Bytes.wordAt (bytes : Bytes) (position : Nat) : UInt32 :=
  Word.ofBytes ((bytes.drop position).take 4)

example : Bytes.wordAt [9, 0, 0, 1, 2] 1 = 258 := rfl

/-- A cursor that has come so far. -/
def Cursor.place (bytes : Bytes) (position : Nat) : Cursor := (ofBytes bytes).advance position

theorem Cursor.advance_place (bytes : Bytes) (position count : Nat) :
    (place bytes position).advance count = place bytes (position + count) :=
  advance_advance _ _ _

theorem Cursor.remaining_place (bytes : Bytes) (position : Nat) :
    (place bytes position).remaining = bytes.length - position :=
  remaining_advance _ _

theorem Cursor.offset_place (bytes : Bytes) (position : Nat) :
    (place bytes position).offset = position :=
  Nat.zero_add position

theorem Cursor.rest_place (bytes : Bytes) (position : Nat) :
    (place bytes position).rest = bytes.drop position := by
  rw [place, rest_advance, rest_ofBytes]

theorem Fault.OfData.code_mem {policy : Policy} {fault : Fault} (data : fault.OfData policy) :
    fault.code ∈ [some .truncated, some .invalidLength, some .invalidAuthData,
      some .nonZeroPadding] := by
  cases fault with
  | truncated _ _ _ => simp [code]
  | arrayTooLong _ _ => simp [code]
  | dataTooLong _ _ => simp [code]
  | dirtyPadding _ _ => simp [code]
  | tooManyGids _ _ => simp [code]
  | bodyTooLong _ _ => simp [code]
  | bodyLeftOver _ => simp [code]
  | _ => exact data.elim

theorem Fault.not_lacksBytes {policy : Policy} {fault : Fault} (apart : ¬ fault.OfData policy) :
    ¬ fault.LacksBytes :=
  fun lacks => apart (lacks.ofData policy)

namespace Reading

variable {α β : Type} {kind : Fault → Prop} {fault : Fault} {cursor : Cursor} {bytes : Bytes}
  {position : Nat}

theorem Raises.verdict_ne {reading : Reading α} (raises : reading.Raises kind)
    (apart : ¬ kind fault) : reading.verdict cursor ≠ .error fault := by
  intro failed
  rcases verdict_eq_error_iff.mp failed with ⟨stopped, ran⟩
  exact apart (raises cursor fault stopped ran)

/-- A fault that the first reading does not raise is raised behind it. -/
theorem Raises.verdict_bind_iff {first : Reading α} (raises : first.Raises kind)
    (apart : ¬ kind fault) (second : α → Reading β) :
    (first >>= second).verdict cursor = .error fault ↔
      ∃ value next, first.run cursor = .ok value next ∧
        (second value).verdict next = .error fault := by
  rw [verdict_bind]
  cases ran : first.run cursor with
  | ok value next => simp
  | error raised stopped =>
      have other : raised ≠ fault := fun same => apart (same ▸ raises cursor raised stopped ran)
      simp [other]

theorem verdict_map_iff {reading : Reading α} (wrap : α → β) :
    verdict (do return wrap (← reading)) cursor = .error fault ↔
      reading.verdict cursor = .error fault := by
  rw [verdict_bind, verdict]
  cases reading.run cursor <;> simp [verdict]

theorem verdict_ensure_bind_iff {condition : Prop} [Decidable condition] {raised : Fault}
    (second : Unit → Reading β) :
    (ensure condition raised >>= second).verdict cursor = .error fault ↔
      (¬ condition ∧ raised = fault) ∨
        (condition ∧ (second ()).verdict cursor = .error fault) := by
  rw [verdict_bind, run_ensure]
  by_cases holds : condition <;> simp [holds]

/-! ## Words and tags -/

variable (apart : ¬ fault.LacksBytes)
include apart

theorem verdict_word_bind_iff (second : UInt32 → Reading β) :
    (word >>= second).verdict (.place bytes position) = .error fault ↔
      position + 4 ≤ bytes.length ∧
        (second (bytes.wordAt position)).verdict (.place bytes (position + 4)) =
          .error fault := by
  rw [raises_word.verdict_bind_iff apart, run_word, Cursor.remaining_place, Cursor.rest_place,
    Cursor.advance_place]
  by_cases enough : position + 4 ≤ bytes.length
  · have there : 4 ≤ bytes.length - position := by omega
    simp [enough, there, Bytes.wordAt]
  · have missing : ¬ 4 ≤ bytes.length - position := by omega
    simp [enough, missing]

/-- The word is no tag, or it is that of an arm with the fault. -/
theorem verdict_tag_bind_iff {Kind : Type} [Tag Kind] [DecidableEq Kind]
    (unknown : UInt32 → Fault) (arm : Kind → Reading β) :
    (tag Kind unknown >>= arm).verdict (.place bytes position) = .error fault ↔
      position + 4 ≤ bytes.length ∧
        (((Tag.all : List Kind).length ≤ (bytes.wordAt position).toNat ∧
            unknown (bytes.wordAt position) = fault) ∨
          ∃ kind, bytes.wordAt position = Tag.toWord kind ∧
            (arm kind).verdict (.place bytes (position + 4)) = .error fault) := by
  rw [tag, bind_assoc, verdict_word_bind_iff apart]
  apply and_congr_right
  intro _
  rw [verdict_bind, run_ofExcept, Tag.ofWord]
  cases known : (Tag.ofWord? (bytes.wordAt position) : Option Kind) with
  | some found =>
      have spelled := Tag.ofWord?_eq_some_iff.mp known
      constructor
      · intro failed
        exact .inr ⟨found, spelled, failed⟩
      · intro holds
        rcases holds with ⟨outside, _⟩ | ⟨kind, other, failed⟩
        · rw [Tag.ofWord?_eq_none_iff.mpr outside] at known
          cases known
        · rcases Tag.toWord_injective (spelled.symm.trans other) with rfl
          exact failed
  | none =>
      have outside := Tag.ofWord?_eq_none_iff.mp known
      constructor
      · intro failed
        exact .inl ⟨outside, Except.error.inj failed⟩
      · intro holds
        rcases holds with ⟨_, rfl⟩ | ⟨kind, spelled, _⟩
        · rfl
        · rw [spelled, Tag.ofWord?_toWord] at known
          cases known

theorem verdict_tag_bind_iff_of_raises {Kind : Type} [Tag Kind] [DecidableEq Kind]
    (unknown : UInt32 → Fault) {arm : Kind → Reading β}
    (arms : ∀ kind, (arm kind).Raises Fault.LacksBytes) :
    (tag Kind unknown >>= arm).verdict (.place bytes position) = .error fault ↔
      position + 4 ≤ bytes.length ∧
        (Tag.all : List Kind).length ≤ (bytes.wordAt position).toNat ∧
          unknown (bytes.wordAt position) = fault := by
  have never (kind : Kind) (cursor : Cursor) : (arm kind).verdict cursor ≠ .error fault :=
    (arms kind).verdict_ne apart
  rw [verdict_tag_bind_iff apart]
  simp only [never, and_false, exists_false, or_false]

end Reading

open Reading

/-! ## The parts of a message -/

variable {policy : Policy} {fault : Fault} {bytes : Bytes} {position : Nat}

theorem Outcome.verdict_read_iff (apart : ¬ fault.LacksBytes) :
    read.verdict (.place bytes position) = .error fault ↔
      position + 4 ≤ bytes.length ∧ 5 < bytes.wordAt position ∧
        .unknownAcceptStatus (bytes.wordAt position) = fault := by
  rw [read_eq]
  exact verdict_tag_bind_iff_of_raises apart .unknownAcceptStatus raises_readArm

theorem Rejection.verdict_read_iff (apart : ¬ fault.LacksBytes) :
    read.verdict (.place bytes position) = .error fault ↔
      position + 4 ≤ bytes.length ∧
        ((1 < bytes.wordAt position ∧ .unknownRejectStatus (bytes.wordAt position) = fault) ∨
          (bytes.wordAt position = 1 ∧ position + 8 ≤ bytes.length ∧
            7 < bytes.wordAt (position + 4) ∧
            .unknownAuthStatus (bytes.wordAt (position + 4)) = fault)) := by
  have mismatch (cursor : Cursor) : (readArm .rpcMismatch).verdict cursor ≠ .error fault :=
    (VersionRange.raises_read.map rpcMismatch).verdict_ne apart
  have error : (readArm .authError).verdict (.place bytes (position + 4)) = .error fault ↔
      position + 8 ≤ bytes.length ∧ 7 < bytes.wordAt (position + 4) ∧
        .unknownAuthStatus (bytes.wordAt (position + 4)) = fault :=
    verdict_tag_bind_iff_of_raises apart .unknownAuthStatus fun status =>
      raises_pure (authError status)
  rw [read_eq, verdict_tag_bind_iff apart]
  apply and_congr_right
  intro _
  apply or_congr_right
  constructor
  · intro holds
    rcases holds with ⟨kind, spelled, failed⟩
    cases kind with
    | rpcMismatch => exact absurd failed (mismatch _)
    | authError => exact ⟨spelled, error.mp failed⟩
  · intro holds
    rcases holds with ⟨spelled, failed⟩
    exact ⟨.authError, spelled, error.mpr failed⟩

theorem Call.verdict_read_iff (apart : ¬ fault.OfData policy) :
    (read policy).verdict (.place bytes position) = .error fault ↔
      position + 4 ≤ bytes.length ∧ bytes.wordAt position ≠ 2 ∧
        .unknownRpcVersion (bytes.wordAt position) = fault := by
  have number : word.Raises (Fault.OfData policy) :=
    raises_word.mono (Fault.LacksBytes.ofData policy)
  have credential := Credential.raises_read policy
  rw [read, verdict_word_bind_iff (Fault.not_lacksBytes apart)]
  apply and_congr_right
  intro _
  rw [verdict_ensure_bind_iff]
  constructor
  · intro holds
    rcases holds with unknown | ⟨_, failed⟩
    · exact unknown
    · refine absurd failed (Raises.verdict_ne ?_ apart)
      -- Behind the version there are only words, credentials and the tail.
      exact number.bind fun _ => number.bind fun _ => number.bind fun _ =>
        credential.bind fun _ => credential.bind fun _ => raises_tail.bind fun _ =>
        raises_pure _
  · exact .inl

/-- Where the reading stops in the bytes that it was placed in. -/
theorem Credential.place_of_run {credential : Credential} {next : Cursor}
    (ran : (read policy).run (.place bytes position) = .ok credential next) :
    position ≤ next.offset ∧ next = .place bytes next.offset := by
  rcases (accepts_read policy _ _ _).mp ran with ⟨taken, left, _, _, rfl⟩
  rw [Cursor.advance_place, Cursor.offset_place]
  exact ⟨Nat.le_add_right _ _, rfl⟩

theorem Reply.verdict_read_iff (apart : ¬ fault.OfData policy) :
    (read policy).verdict (.place bytes position) = .error fault ↔
      position + 4 ≤ bytes.length ∧
        ((1 < bytes.wordAt position ∧ .unknownReplyStatus (bytes.wordAt position) = fault) ∨
          (bytes.wordAt position = 0 ∧ ∃ verifier next,
            (Credential.read policy).run (.place bytes (position + 4)) = .ok verifier next ∧
            Outcome.read.verdict next = .error fault) ∨
          (bytes.wordAt position = 1 ∧
            Rejection.read.verdict (.place bytes (position + 4)) = .error fault)) := by
  have accept : (readArm policy .accepted).verdict (.place bytes (position + 4)) = .error fault ↔
      ∃ verifier next,
        (Credential.read policy).run (.place bytes (position + 4)) = .ok verifier next ∧
        Outcome.read.verdict next = .error fault := by
    rw [readArm, (Credential.raises_read policy).verdict_bind_iff apart]
    simp only [verdict_map_iff]
  rw [read_eq, verdict_tag_bind_iff (Fault.not_lacksBytes apart)]
  apply and_congr_right
  intro _
  apply or_congr_right
  constructor
  · intro holds
    rcases holds with ⟨kind, spelled, failed⟩
    cases kind with
    | accepted => exact .inl ⟨spelled, accept.mp failed⟩
    | denied => exact .inr ⟨spelled, (verdict_map_iff denied).mp failed⟩
  · intro holds
    rcases holds with ⟨spelled, failed⟩ | ⟨spelled, failed⟩
    · exact ⟨.accepted, spelled, accept.mpr failed⟩
    · exact ⟨.denied, spelled, (verdict_map_iff denied).mpr failed⟩

/-! ## Messages -/

namespace Message

theorem verdict_read_iff (apart : ¬ fault.OfData policy) :
    (read policy).verdict (.ofBytes bytes) = .error fault ↔
      8 ≤ bytes.length ∧
        ((1 < bytes.wordAt 4 ∧ .unknownMessageType (bytes.wordAt 4) = fault) ∨
          (bytes.wordAt 4 = 0 ∧ (Call.read policy).verdict (.place bytes 8) = .error fault) ∨
          (bytes.wordAt 4 = 1 ∧ (Reply.read policy).verdict (.place bytes 8) = .error fault)) := by
  have lacks := Fault.not_lacksBytes apart
  change (read policy).verdict (.place bytes 0) = .error fault ↔ _
  rw [read_eq, verdict_word_bind_iff lacks, verdict_map_iff, verdict_tag_bind_iff lacks]
  constructor
  · intro holds
    rcases holds with ⟨_, room, unknown | ⟨kind, spelled, failed⟩⟩
    · exact ⟨room, .inl unknown⟩
    cases kind with
    | call => exact ⟨room, .inr (.inl ⟨spelled, (verdict_map_iff Body.call).mp failed⟩)⟩
    | reply => exact ⟨room, .inr (.inr ⟨spelled, (verdict_map_iff Body.reply).mp failed⟩)⟩
  · intro holds
    rcases holds with ⟨room, unknown | ⟨spelled, failed⟩ | ⟨spelled, failed⟩⟩
    · exact ⟨by omega, room, .inl unknown⟩
    · exact ⟨by omega, room, .inr ⟨.call, spelled, (verdict_map_iff Body.call).mpr failed⟩⟩
    · exact ⟨by omega, room, .inr ⟨.reply, spelled, (verdict_map_iff Body.reply).mpr failed⟩⟩

/-- A number that is not known stands at its place in the message, and this is the
fault that says so. -/
inductive Misspells (policy : Policy) (bytes : Bytes) : Fault → Prop
  | messageType (room : 8 ≤ bytes.length) (unknown : 1 < bytes.wordAt 4) :
      Misspells policy bytes (.unknownMessageType (bytes.wordAt 4))
  | rpcVersion (room : 12 ≤ bytes.length) (isCall : bytes.wordAt 4 = 0)
      (unknown : bytes.wordAt 8 ≠ 2) :
      Misspells policy bytes (.unknownRpcVersion (bytes.wordAt 8))
  | replyStatus (room : 12 ≤ bytes.length) (isReply : bytes.wordAt 4 = 1)
      (unknown : 1 < bytes.wordAt 8) :
      Misspells policy bytes (.unknownReplyStatus (bytes.wordAt 8))
  | acceptStatus {verifier : Credential} {next : Cursor} (isReply : bytes.wordAt 4 = 1)
      (accepted : bytes.wordAt 8 = 0)
      (verifies : (Credential.read policy).run (.place bytes 12) = .ok verifier next)
      (room : next.offset + 4 ≤ bytes.length) (unknown : 5 < bytes.wordAt next.offset) :
      Misspells policy bytes (.unknownAcceptStatus (bytes.wordAt next.offset))
  | rejectStatus (room : 16 ≤ bytes.length) (isReply : bytes.wordAt 4 = 1)
      (denied : bytes.wordAt 8 = 1) (unknown : 1 < bytes.wordAt 12) :
      Misspells policy bytes (.unknownRejectStatus (bytes.wordAt 12))
  | authStatus (room : 20 ≤ bytes.length) (isReply : bytes.wordAt 4 = 1)
      (denied : bytes.wordAt 8 = 1) (isError : bytes.wordAt 12 = 1)
      (unknown : 7 < bytes.wordAt 16) :
      Misspells policy bytes (.unknownAuthStatus (bytes.wordAt 16))

theorem misspells_of_verdict (apart : ¬ fault.OfData policy)
    (failed : (read policy).verdict (.ofBytes bytes) = .error fault) :
    Misspells policy bytes fault := by
  have lacks := Fault.not_lacksBytes apart
  rcases (verdict_read_iff apart).mp failed with
    ⟨room, ⟨unknown, rfl⟩ | ⟨isCall, failed⟩ | ⟨isReply, failed⟩⟩
  · exact .messageType room unknown
  · rcases (Call.verdict_read_iff apart).mp failed with ⟨room, unknown, rfl⟩
    exact .rpcVersion room isCall unknown
  rcases (Reply.verdict_read_iff apart).mp failed with
    ⟨room, ⟨unknown, rfl⟩ | ⟨accepted, verifier, next, verifies, failed⟩ | ⟨denied, failed⟩⟩
  · exact .replyStatus room isReply unknown
  · rw [(Credential.place_of_run verifies).2, Outcome.verdict_read_iff lacks] at failed
    rcases failed with ⟨room, unknown, rfl⟩
    exact .acceptStatus isReply accepted verifies room unknown
  · rcases (Rejection.verdict_read_iff lacks).mp failed with
      ⟨room, ⟨unknown, rfl⟩ | ⟨isError, room, unknown, rfl⟩⟩
    · exact .rejectStatus room isReply denied unknown
    · exact .authStatus room isReply denied isError unknown

theorem Misspells.not_ofData (misspells : Misspells policy bytes fault) :
    ¬ fault.OfData policy := by
  intro data
  cases misspells <;> exact data

theorem Misspells.verdict_eq (misspells : Misspells policy bytes fault) :
    (read policy).verdict (.ofBytes bytes) = .error fault := by
  have apart := misspells.not_ofData
  have lacks := Fault.not_lacksBytes apart
  have reply (isReply : bytes.wordAt 4 = 1) (room : 12 ≤ bytes.length)
      (failed : (Reply.read policy).verdict (.place bytes 8) = .error fault) :
      (read policy).verdict (.ofBytes bytes) = .error fault :=
    (verdict_read_iff apart).mpr ⟨by omega, .inr (.inr ⟨isReply, failed⟩)⟩
  cases misspells with
  | messageType room unknown => exact (verdict_read_iff apart).mpr ⟨room, .inl ⟨unknown, rfl⟩⟩
  | rpcVersion room isCall unknown =>
      have failed := (Call.verdict_read_iff apart).mpr ⟨room, unknown, rfl⟩
      exact (verdict_read_iff apart).mpr ⟨by omega, .inr (.inl ⟨isCall, failed⟩)⟩
  | replyStatus room isReply unknown =>
      exact reply isReply room ((Reply.verdict_read_iff apart).mpr ⟨room, .inl ⟨unknown, rfl⟩⟩)
  | acceptStatus isReply accepted verifies room unknown =>
      rcases Credential.place_of_run verifies with ⟨behind, placed⟩
      have failed := (Outcome.verdict_read_iff lacks).mpr ⟨room, unknown, rfl⟩
      rw [← placed] at failed
      exact reply isReply (by omega) ((Reply.verdict_read_iff apart).mpr
        ⟨by omega, .inr (.inl ⟨accepted, _, _, verifies, failed⟩)⟩)
  | rejectStatus room isReply denied unknown =>
      have failed := (Rejection.verdict_read_iff lacks).mpr ⟨room, .inl ⟨unknown, rfl⟩⟩
      exact reply isReply (by omega) ((Reply.verdict_read_iff apart).mpr
        ⟨by omega, .inr (.inr ⟨denied, failed⟩)⟩)
  | authStatus room isReply denied isError unknown =>
      have failed := (Rejection.verdict_read_iff lacks).mpr
        ⟨by omega, .inr ⟨isError, room, unknown, rfl⟩⟩
      exact reply isReply (by omega) ((Reply.verdict_read_iff apart).mpr
        ⟨by omega, .inr (.inr ⟨denied, failed⟩)⟩)

/-- Every fault of a message comes from its data or from a number at a known place. -/
theorem ofData_or_misspells (failed : ofBytes policy bytes = .error fault) :
    fault.OfData policy ∨ Misspells policy bytes fault := by
  by_cases data : fault.OfData policy
  · exact .inl data
  · have verdict := verdict_eq_error_iff.mpr (ofBytes_eq_error_iff.mp failed)
    exact .inr (misspells_of_verdict data verdict)

theorem Misspells.ofBytes_eq (misspells : Misspells policy bytes fault) :
    ofBytes policy bytes = .error fault :=
  ofBytes_eq_error_iff.mpr (verdict_eq_error_iff.mp misspells.verdict_eq)

/-- The message is refused, and this is what the report says. -/
def Refuses (policy : Policy) (bytes : Bytes) (code : FaultCode) (value : UInt32) : Prop :=
  ∃ fault, ofBytes policy bytes = .error fault ∧ fault.Tells code value

/-- No data is reported under such a code, so a number has to be the cause. -/
theorem refuses_iff_misspells {code : FaultCode} (numbers : code ∈ [.invalidDiscriminant,
      .invalidAuthStatus, .invalidRpcVersion]) {value : UInt32} :
    Refuses policy bytes code value ↔
      ∃ fault, Misspells policy bytes fault ∧ fault.Tells code value := by
  constructor
  · intro holds
    rcases holds with ⟨fault, failed, tells⟩
    rcases ofData_or_misspells failed with data | misspells
    · have known := data.code_mem
      rw [tells.1] at known
      revert numbers known
      cases code <;> simp
    · exact ⟨fault, misspells, tells⟩
  · intro holds
    rcases holds with ⟨fault, misspells, tells⟩
    exact ⟨fault, misspells.ofBytes_eq, tells⟩

theorem refuses_invalidRpcVersion_iff {value : UInt32} :
    Refuses policy bytes .invalidRpcVersion value ↔
      12 ≤ bytes.length ∧ bytes.wordAt 4 = 0 ∧ bytes.wordAt 8 = value ∧ value ≠ 2 := by
  rw [refuses_iff_misspells (by simp)]
  constructor
  · intro holds
    rcases holds with ⟨fault, misspells, code, rfl⟩
    cases misspells with
    | rpcVersion room isCall unknown => exact ⟨room, isCall, rfl, unknown⟩
    | _ => cases code
  · intro holds
    rcases holds with ⟨room, isCall, rfl, unknown⟩
    exact ⟨_, .rpcVersion room isCall unknown, rfl, rfl⟩

theorem refuses_invalidAuthStatus_iff {value : UInt32} :
    Refuses policy bytes .invalidAuthStatus value ↔
      20 ≤ bytes.length ∧ bytes.wordAt 4 = 1 ∧ bytes.wordAt 8 = 1 ∧ bytes.wordAt 12 = 1 ∧
        bytes.wordAt 16 = value ∧ 7 < value := by
  rw [refuses_iff_misspells (by simp)]
  constructor
  · intro holds
    rcases holds with ⟨fault, misspells, code, rfl⟩
    cases misspells with
    | authStatus room isReply denied isError unknown =>
        exact ⟨room, isReply, denied, isError, rfl, unknown⟩
    | _ => cases code
  · intro holds
    rcases holds with ⟨room, isReply, denied, isError, rfl, unknown⟩
    exact ⟨_, .authStatus room isReply denied isError unknown, rfl, rfl⟩

theorem refuses_invalidDiscriminant_iff {value : UInt32} :
    Refuses policy bytes .invalidDiscriminant value ↔
      (8 ≤ bytes.length ∧ bytes.wordAt 4 = value ∧ 1 < value) ∨
      (12 ≤ bytes.length ∧ bytes.wordAt 4 = 1 ∧ bytes.wordAt 8 = value ∧ 1 < value) ∨
      (16 ≤ bytes.length ∧ bytes.wordAt 4 = 1 ∧ bytes.wordAt 8 = 1 ∧
        bytes.wordAt 12 = value ∧ 1 < value) ∨
      (bytes.wordAt 4 = 1 ∧ bytes.wordAt 8 = 0 ∧ ∃ verifier next,
        (Credential.read policy).run (.place bytes 12) = .ok verifier next ∧
        next.offset + 4 ≤ bytes.length ∧ bytes.wordAt next.offset = value ∧ 5 < value) := by
  rw [refuses_iff_misspells (by simp)]
  constructor
  · intro holds
    rcases holds with ⟨fault, misspells, code, rfl⟩
    cases misspells with
    | messageType room unknown => exact .inl ⟨room, rfl, unknown⟩
    | replyStatus room isReply unknown => exact .inr (.inl ⟨room, isReply, rfl, unknown⟩)
    | rejectStatus room isReply denied unknown =>
        exact .inr (.inr (.inl ⟨room, isReply, denied, rfl, unknown⟩))
    | acceptStatus isReply accepted verifies room unknown =>
        exact .inr (.inr (.inr ⟨isReply, accepted, _, _, verifies, room, rfl, unknown⟩))
    | rpcVersion => cases code
    | authStatus => cases code
  · intro holds
    rcases holds with ⟨room, rfl, unknown⟩ | ⟨room, isReply, rfl, unknown⟩ |
      ⟨room, isReply, denied, rfl, unknown⟩ |
      ⟨isReply, accepted, verifier, next, verifies, room, rfl, unknown⟩
    · exact ⟨_, .messageType room unknown, rfl, rfl⟩
    · exact ⟨_, .replyStatus room isReply unknown, rfl, rfl⟩
    · exact ⟨_, .rejectStatus room isReply denied unknown, rfl, rfl⟩
    · exact ⟨_, .acceptStatus isReply accepted verifies room unknown, rfl, rfl⟩

theorem not_refuses_bufferTooSmall {value : UInt32} :
    ¬ Refuses policy bytes .bufferTooSmall value := by
  intro holds
  rcases holds with ⟨fault, failed, code, _⟩
  rcases (ofReader_of_ofBytes failed).exists_code with ⟨found, isFound, other⟩
  rw [code] at isFound
  cases isFound
  exact other rfl

theorem strict_of_refuses_nonZeroPadding {value : UInt32}
    (refuses : Refuses policy bytes .nonZeroPadding value) : policy.strictPadding = true := by
  rcases refuses with ⟨fault, failed, code, _⟩
  rcases ofData_or_misspells failed with data | misspells
  · cases fault <;> cases code
    exact data
  · cases misspells <;> cases code

/-- When a message is refused for a number, and under which code: just when the
number stands at its place, behind numbers that lead there. No message is too large
to be read, and only a strict reader minds the padding. -/
theorem refuses_exactly (policy : Policy) (bytes : Bytes) :
    (∀ value, Refuses policy bytes .invalidRpcVersion value ↔
      12 ≤ bytes.length ∧ bytes.wordAt 4 = 0 ∧ bytes.wordAt 8 = value ∧ value ≠ 2) ∧
    (∀ value, Refuses policy bytes .invalidAuthStatus value ↔
      20 ≤ bytes.length ∧ bytes.wordAt 4 = 1 ∧ bytes.wordAt 8 = 1 ∧ bytes.wordAt 12 = 1 ∧
        bytes.wordAt 16 = value ∧ 7 < value) ∧
    (∀ value, Refuses policy bytes .invalidDiscriminant value ↔
      (8 ≤ bytes.length ∧ bytes.wordAt 4 = value ∧ 1 < value) ∨
      (12 ≤ bytes.length ∧ bytes.wordAt 4 = 1 ∧ bytes.wordAt 8 = value ∧ 1 < value) ∨
      (16 ≤ bytes.length ∧ bytes.wordAt 4 = 1 ∧ bytes.wordAt 8 = 1 ∧
        bytes.wordAt 12 = value ∧ 1 < value) ∨
      (bytes.wordAt 4 = 1 ∧ bytes.wordAt 8 = 0 ∧ ∃ verifier next,
        (Credential.read policy).run (.place bytes 12) = .ok verifier next ∧
        next.offset + 4 ≤ bytes.length ∧ bytes.wordAt next.offset = value ∧ 5 < value)) ∧
    (∀ value, ¬ Refuses policy bytes .bufferTooSmall value) ∧
    (∀ value, Refuses policy bytes .nonZeroPadding value → policy.strictPadding = true) := by
  refine ⟨?_, ?_, ?_, ?_, ?_⟩
  · exact fun value => refuses_invalidRpcVersion_iff
  · exact fun value => refuses_invalidAuthStatus_iff
  · exact fun value => refuses_invalidDiscriminant_iff
  · exact fun value => not_refuses_bufferTooSmall
  · exact fun value => strict_of_refuses_nonZeroPadding

/-- An accepted reply whose verifier has a byte of one in its padding, and whose
outcome is of no kind. Only a lenient reader gets there. -/
theorem refuses_exactly_sample :
    let bytes := Word.toBytes 7 ++ Word.toBytes 1 ++ Word.toBytes 0 ++
      [0, 0, 0, 0, 0, 0, 0, 1, 9, 0, 0, 1] ++ Word.toBytes 6
    Refuses {} bytes .invalidDiscriminant 6 ∧
      Refuses { strictPadding := true } bytes .nonZeroPadding 1 ∧
      ({ strictPadding := true } : Policy).strictPadding = true := by
  intro bytes
  have verifies : (Credential.read {}).run (.place bytes 12) =
      .ok (.none [9]) (.place bytes 24) := rfl
  have strict : Refuses { strictPadding := true } bytes .nonZeroPadding 1 :=
    ⟨.dirtyPadding 23 1, rfl, rfl, rfl⟩
  refine ⟨?_, strict, (refuses_exactly _ bytes).2.2.2.2 1 strict⟩
  apply ((refuses_exactly {} bytes).2.2.1 6).mpr
  exact .inr (.inr (.inr ⟨rfl, rfl, _, _, verifies, by decide, rfl, by decide⟩))

end Message

end RpcWire
